import A2ARegistry.Orchestration.Store.Db

namespace A2ARegistry.Orchestration
open Base

/-- One row of the join of `task_links` with the parent tasks. -/
structure ParentRow where
  status : TaskStatus
  result : Option String
  linkCondition : Option String
deriving DecidableEq, Repr

/-- The parents of a task, as `_resolve_dependencies` selects them. -/
def parentRows (db : Db) (taskId : String) : List ParentRow :=
  (db.links.select (fun l => l.childId == taskId)).filterMap
    (fun l => (db.task? l.parentId).map (fun p => ⟨p.status, p.result, l.condition⟩))

/-- The test `_resolve_dependencies` makes on one parent row. -/
def ParentRow.satisfied (row : ParentRow) : Bool :=
  (row.status == .completed || row.status == .archived) &&
    (!truthy row.linkCondition || (truthy row.result && row.result == row.linkCondition))

/-- The `UPDATE` of `_resolve_dependencies` and the event that records it. -/
def moveByDependencies (db : Db) (clock : Clock) (taskId : String) (status : TaskStatus)
    (payload : List (String × Json)) : Db :=
  emitEvent (db.setTask taskId (fun t => { t with status := status })) clock taskId
    TaskEventKind.dependencyPromoted.value none payload

/-- `TaskStore._resolve_dependencies`: promote a `todo` task whose parents are all
satisfied, demote a `ready` task with an unsatisfied one. -/
def resolveDependencies (db : Db) (clock : Clock) (taskId : String) : Db :=
  let parents := parentRows db taskId
  match db.task? taskId with
  | none => db
  | some t =>
    if parents.isEmpty then
      if t.status = .todo then
        moveByDependencies db clock taskId .ready
          [("from", .str "todo"), ("to", .str "ready"), ("reason", .str "no_parents")]
      else db
    else if parents.all ParentRow.satisfied then
      if t.status = .todo then
        moveByDependencies db clock taskId .ready
          [("from", .str "todo"), ("to", .str "ready"),
            ("reason", .str (if parents.any (fun r => truthy r.linkCondition)
              then "conditions_satisfied" else "all_parents_done"))]
      else db
    else if t.status = .ready then
      moveByDependencies db clock taskId .todo [("from", .str "ready"), ("to", .str "todo")]
    else db

def linkExists (db : Db) (parentId childId : String) : Bool :=
  (db.links.find? (parentId, childId)).isSome

/-- `SELECT child_id FROM task_links WHERE parent_id = ?`. -/
def childIds (db : Db) (parentId : String) : List String :=
  (db.links.select (fun l => l.parentId == parentId)).map TaskLink.childId

/-- The `while stack` loop of `_detect_cycle`. The first argument counts the
iterations left; the head of `stack` is its top. -/
def detectCycleLoop (db : Db) (proposedParentId : String) : Nat → List String → List String → Bool
  | 0, _, _ => false
  | _ + 1, _, [] => false
  | n + 1, visited, node :: stack =>
    if node = proposedParentId then true
    else if node ∈ visited then detectCycleLoop db proposedParentId n visited stack
    else detectCycleLoop db proposedParentId n (node :: visited) ((childIds db node).reverse ++ stack)

/-- `TaskStore._detect_cycle`. A link is pushed at most once, when its parent is
first visited, so one iteration per link and one for the start empty the stack. -/
def detectCycle (db : Db) (childId proposedParentId : String) : Bool :=
  if childId = proposedParentId then true
  else detectCycleLoop db proposedParentId (db.links.rows.length + 1) [] [childId]

/-- `TaskStore.add_dependency`. -/
def addDependency (db : Db) (clock : Clock) (taskId parentId : String) (condition : Option String) :
    Except StoreError (Unit × Db) := do
  if (db.task? taskId).isNone then
    throw (.valueError s!"Task '{taskId}' not found")
  if (db.task? parentId).isNone then
    throw (.valueError s!"Parent task '{parentId}' not found")
  if taskId = parentId then
    throw (.valueError "Self-links are not allowed")
  if detectCycle db taskId parentId then
    throw (.valueError "Would create a cycle")
  if linkExists db parentId taskId then
    let links := db.links.modify (fun l => l.parentId == parentId && l.childId == taskId)
      (fun l => { l with condition := condition })
    return ((), resolveDependencies { db with links := links } clock taskId)
  match db.links.insert? ⟨parentId, taskId, condition⟩ with
  | none => throw (.integrityError "task_links")
  | some links => return ((), resolveDependencies { db with links := links } clock taskId)

/-- `TaskStore.remove_dependency`. -/
def removeDependency (db : Db) (clock : Clock) (taskId parentId : String) : Bool × Db :=
  let hit := fun l : TaskLink => l.parentId == parentId && l.childId == taskId
  if (db.links.select hit).isEmpty then (false, db)
  else (true, resolveDependencies { db with links := db.links.delete hit } clock taskId)

end A2ARegistry.Orchestration
