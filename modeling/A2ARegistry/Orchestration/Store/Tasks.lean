import A2ARegistry.Base.Text
import A2ARegistry.Orchestration.Store.Dependencies

namespace A2ARegistry.Orchestration
open Base

/-- An element of the `parents` argument: a plain id, or an object with
`parent_id` and `condition`. -/
inductive ParentItem
  | plain (parentId : String)
  | conditional (parentId : Option String) (condition : Option String)
deriving DecidableEq, Repr

/-- A normalised element of `parents`. -/
structure ParentSpec where
  parentId : String
  condition : Option String
deriving DecidableEq, Repr

def ParentItem.spec : ParentItem → ParentSpec
  | plain parentId => ⟨parentId, none⟩
  | conditional parentId condition => ⟨parentId.getD "", condition⟩

/-- The arguments of `create_task`. -/
structure CreateArgs where
  title : String
  body : Option String := none
  assignee : Option String := none
  priority : Int := 0
  parents : List ParentItem := []
  workspaceKind : Option String := none
  workspacePath : Option String := none
  maxRuntimeSeconds : Option Int := none
  maxRetries : Option Int := none
  tenant : Option String := none
  createdBy : Option String := none
  parallelGroup : Option String := none

def CreateArgs.parentSpecs (args : CreateArgs) : List ParentSpec := args.parents.map ParentItem.spec

/-- `Task.ensure_id`: the prefix and eight hexadecimal digits of a fresh UUID. -/
def freshId (hex : String) : String := "t_" ++ hex

/-- The row `create_task` inserts; columns it does not name take their defaults. -/
def CreateArgs.row (args : CreateArgs) (now : Int) (hex : String) : Task where
  id := freshId hex
  title := args.title
  body := args.body
  assignee := args.assignee
  status := if args.parents.isEmpty then .ready else .todo
  priority := args.priority
  createdBy := args.createdBy
  createdAt := now
  startedAt := none
  completedAt := none
  workspaceKind := args.workspaceKind
  workspacePath := args.workspacePath
  claimLock := none
  claimExpires := none
  tenant := args.tenant
  result := none
  consecutiveFailures := 0
  workerPid := none
  lastFailureError := none
  maxRuntimeSeconds := args.maxRuntimeSeconds
  lastHeartbeatAt := none
  currentRunId := none
  maxRetries := args.maxRetries
  parallelGroup := args.parallelGroup
  nextRetryAt := none

def ParentSpec.toJson (spec : ParentSpec) : Json :=
  .obj [("parent_id", .str spec.parentId), ("condition", .ofText spec.condition)]

/-- One `INSERT INTO task_links` for each parent, in order. -/
def insertLinks (childId : String) : List ParentSpec → Table TaskLink → Except StoreError (Table TaskLink)
  | [], links => .ok links
  | spec :: specs, links =>
    match links.insert? ⟨spec.parentId, childId, spec.condition⟩ with
    | none => .error (.integrityError "task_links")
    | some links => insertLinks childId specs links

/-- `TaskStore.create_task`; `hex` is what `uuid4` yields. -/
def createTask (db : Db) (clock : Clock) (hex : String) (args : CreateArgs) :
    Except StoreError (Task × Db) := do
  let task := args.row clock.now hex
  let specs := args.parentSpecs
  if specs.any (fun spec => spec.parentId == "") then
    throw (.valueError "Each parent must have a non-empty 'parent_id'")
  match specs.find? (fun spec => (db.task? spec.parentId).isNone) with
  | some spec => throw (.valueError s!"Parent task '{spec.parentId}' not found")
  | none =>
  match specs.find? (fun spec => detectCycle db task.id spec.parentId) with
  | some spec => throw (.valueError s!"Cannot add parent '{spec.parentId}' — would create a cycle")
  | none =>
  match db.tasks.insert? task with
  | none => throw (.integrityError "tasks")
  | some tasks =>
    let links ← insertLinks task.id specs db.links
    return (task, emitEvent { db with tasks := tasks, links := links } clock task.id
      TaskEventKind.created.value none
      [("assignee", .ofText args.assignee), ("parents", .arr (specs.map ParentSpec.toJson)),
        ("status", .str task.status.value)])

/-- The arguments of `update_task`. -/
structure EditArgs where
  title : Option String := none
  body : Option String := none
  assignee : Option String := none
  priority : Option Int := none

/-- An edited optional text field: stripped, and NULL when nothing is left. -/
def editText (old : Option String) : Option String → Option String
  | none => old
  | some s => if strip s = "" then none else some (strip s)

/-- `task` with the editable fields `update_task` writes. -/
def EditArgs.edit (args : EditArgs) (t : Task) : Task :=
  { t with
    title := match args.title with | none => t.title | some s => strip s
    body := editText t.body args.body
    assignee := editText t.assignee args.assignee
    priority := args.priority.getD t.priority }

@[simp] theorem EditArgs.edit_id (args : EditArgs) (t : Task) : (args.edit t).id = t.id := rfl

/-- The `changed` flag of `update_task`. -/
def EditArgs.changed (args : EditArgs) (t : Task) : Bool :=
  (match args.title with | none => false | some s => strip s != t.title) ||
    args.body.isSome || args.assignee.isSome || args.priority.isSome

/-- `TaskStore.update_task`. -/
def updateTask (db : Db) (clock : Clock) (taskId : String) (args : EditArgs) :
    Except StoreError (Task × Db) := do
  match db.task? taskId with
  | none => throw (.valueError s!"Task '{taskId}' not found")
  | some t =>
    if args.changed t then
      let task := args.edit t
      let edited := db.setTask taskId args.edit args.edit_id
      return (task, emitEvent edited clock taskId TaskEventKind.updated.value none
        [("title", .str task.title), ("body", .ofText task.body), ("assignee", .ofText task.assignee),
          ("priority", .int task.priority)])
    else return (t, db)

/-- `TaskStore.add_comment`. -/
def addComment (db : Db) (clock : Clock) (taskId author body : String) :
    Except StoreError (TaskComment × Db) :=
  match db.task? taskId with
  | none => .error (.valueError s!"Task '{taskId}' not found")
  | some _ =>
    let comment := fun id => ({ id, taskId, author, body, createdAt := clock.now } : TaskComment)
    .ok (comment db.comments.next, emitEvent { db with comments := db.comments.insert comment } clock
      taskId TaskEventKind.commented.value none [("author", .str author)])

/-- `TaskStore._update_workspace_path`. -/
def updateWorkspacePath (db : Db) (taskId workspacePath : String) : Db :=
  db.setTask taskId (fun t => { t with workspacePath := some workspacePath })

/-- `TaskStore._set_worker_pid`. -/
def setWorkerPid (db : Db) (taskId : String) (pid : Int) : Db :=
  db.setTask taskId (fun t => { t with workerPid := some pid })

end A2ARegistry.Orchestration
