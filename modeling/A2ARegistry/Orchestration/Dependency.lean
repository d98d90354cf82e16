import A2ARegistry.Orchestration.Store.Status

namespace A2ARegistry.Orchestration
open Base

/-- The `while stack` loop of `_detect_cycle`, where it is not known to end: `none` when the iterations do not
end it. -/
def detectCycleLoopWithin (db : Db) (proposedParentId : String) :
    Nat → List String → List String → Option Bool
  | 0, _, _ => none
  | _ + 1, _, [] => some false
  | n + 1, visited, node :: stack =>
    if node = proposedParentId then some true
    else if node ∈ visited then detectCycleLoopWithin db proposedParentId n visited stack
    else detectCycleLoopWithin db proposedParentId n (node :: visited) ((childIds db node).reverse ++ stack)

/-- `TaskStore._detect_cycle`, up to a number of iterations of its loop. -/
def detectCycleWithin (db : Db) (iterations : Nat) (childId proposedParentId : String) : Option Bool :=
  if childId = proposedParentId then some true
  else detectCycleLoopWithin db proposedParentId iterations [] [childId]

namespace Dependency

section Cycles

/-- `SELECT parent_id FROM task_links WHERE child_id=?`. -/
def parentIds (db : Db) (childId : String) : List String :=
  (db.links.select (fun l => l.childId == childId)).map TaskLink.parentId

/-- The `while stack` loop of `detect_cycle`, up to a number of iterations: `none` when they do not end it.
The head of `stack` is its top. -/
def detectCycleLoop (db : Db) (childId : String) : Nat → List String → List String → Option Bool
  | 0, _, _ => none
  | _ + 1, _, [] => some false
  | n + 1, visited, node :: stack =>
    if node = childId then some true
    else if node ∈ visited then detectCycleLoop db childId n visited stack
    else detectCycleLoop db childId n (node :: visited) ((parentIds db node).reverse ++ stack)

/-- `detect_cycle`, up to a number of iterations of its loop. -/
def detectCycle (db : Db) (iterations : Nat) (childId proposedParentId : String) : Option Bool :=
  if childId = proposedParentId then some true
  else detectCycleLoop db childId iterations [] [proposedParentId]

/-- The loop of `validate_dag_integrity`, and the text of what it raises; `none` where a cycle check does not end. -/
def validateParents (db : Db) (iterations : Nat) (taskId : String) : List String → Option (Except String Unit)
  | [] => some (.ok ())
  | pid :: pids =>
    if (db.task? pid).isNone then some (.error s!"Parent task '{pid}' not found")
    else if pid = taskId then some (.error "Self-links are not allowed")
    else match detectCycle db iterations taskId pid with
      | none => none
      | some true => some (.error s!"Cannot add parent '{pid}' — would create a cycle")
      | some false => validateParents db iterations taskId pids

/-- `validate_dag_integrity`. -/
def validateDagIntegrity (db : Db) (iterations : Nat) (parentIds : List String) (taskId : String) :
    Option (Except String (List String)) :=
  (validateParents db iterations taskId parentIds).map (fun verdict => verdict.map (fun _ => parentIds))

end Cycles

section Resolution

/-- A row of the join as the cursor returns it: status, result and condition. -/
abbrev ParentTuple := TaskStatus × Option String × Option String

def parentTuples (db : Db) (taskId : String) : List ParentTuple :=
  (db.links.select (fun l => l.childId == taskId)).filterMap
    (fun l => (db.task? l.parentId).map (fun p => (p.status, p.result, l.condition)))

/-- The loop over the parents: it breaks at the first that is not satisfied. -/
def allSatisfied : List ParentTuple → Bool
  | [] => true
  | (status, result, condition) :: rows =>
    if status ≠ .completed ∧ status ≠ .archived then false
    else if truthy condition then
      if !truthy result || result != condition then false else allSatisfied rows
    else allSatisfied rows

/-- An `_emit_event_func`: it writes events, and no task or link. -/
structure EventFunc where
  emit : Db → String → String → List (String × Json) → Db
  tasks : ∀ db taskId kind payload, (emit db taskId kind payload).tasks = db.tasks
  links : ∀ db taskId kind payload, (emit db taskId kind payload).links = db.links

/-- `_emit_event` of the store as one. -/
def storeEvents (clock : Clock) : EventFunc where
  emit db taskId kind payload := emitEvent db clock taskId kind none payload
  tasks _ _ _ _ := rfl
  links _ _ _ _ := rfl

/-- `UPDATE tasks SET status=?`, on one row. -/
def withStatus (status : TaskStatus) (t : Task) : Task := { t with status := status }

/-- The update of a task's status and the event, where a function for it is given. -/
def move (emit : Option EventFunc) (db : Db) (taskId : String) (status : TaskStatus)
    (payload : List (String × Json)) : Db :=
  let moved := db.setTask taskId (withStatus status)
  match emit with
  | none => moved
  | some func => func.emit moved taskId TaskEventKind.dependencyPromoted.value payload

/-- `resolve_dependencies`. -/
def resolveDependencies (emit : Option EventFunc) (db : Db) (taskId : String) : Db :=
  let parentRows := parentTuples db taskId
  match db.task? taskId with
  | none => db
  | some row =>
    if parentRows.isEmpty then
      if row.status = .todo then
        move emit db taskId .ready [("from", .str "todo"), ("to", .str "ready"), ("reason", .str "no_parents")]
      else db
    else if allSatisfied parentRows ∧ row.status = .todo then
      move emit db taskId .ready [("from", .str "todo"), ("to", .str "ready")]
    else if ¬ allSatisfied parentRows ∧ row.status = .ready then
      move emit db taskId .todo [("from", .str "ready"), ("to", .str "todo")]
    else db

/-- `promote_children`: the number of children, and the database. -/
def promoteChildren (emit : Option EventFunc) (db : Db) (taskId : String) : Nat × Db :=
  let children := childIds db taskId
  (children.length, children.foldl (resolveDependencies emit) db)

end Resolution

end Dependency

end A2ARegistry.Orchestration
