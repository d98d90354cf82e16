import A2ARegistry.Base.Run
import A2ARegistry.Base.TopologicalSort
import A2ARegistry.Orchestration.Store.Ops

namespace A2ARegistry.Orchestration.Workflow
open Base

/-- An edge of a workflow, by the id of the parent within it. -/
structure WorkflowDependency where
  task : String
  condition : Option String := none
deriving DecidableEq, Repr

structure WorkflowTaskSpec where
  id : String
  title : String
  body : Option String := none
  assignee : Option String := none
  priority : Int := 0
  maxRuntimeSeconds : Option Int := none
  maxRetries : Option Int := none
  workspaceKind : Option String := none
  workspacePath : Option String := none
  dependsOn : List WorkflowDependency := []
deriving DecidableEq, Repr

structure WorkflowSpec where
  name : String
  description : Option String := none
  tenant : Option String := none
  createdBy : String := "workflow-engine"
  tasks : List WorkflowTaskSpec
deriving DecidableEq, Repr

def WorkflowTaskSpec.parentIds (t : WorkflowTaskSpec) : List String := t.dependsOn.map WorkflowDependency.task

/-- The tasks as nodes that depend on others. -/
def declared (tasks : List WorkflowTaskSpec) : Topology.Declared String := tasks.map (fun t => (t.id, t.parentIds))

/-- The dict of the tasks by their ids. -/
def idMap (tasks : List WorkflowTaskSpec) (id : String) : Option WorkflowTaskSpec :=
  tasks.reverse.find? (fun t => t.id == id)

section Validation

/-- `_detect_workflow_cycles`. -/
def detectWorkflowCycles (tasks : List WorkflowTaskSpec) : List String :=
  (Topology.cycles (declared tasks)).map (fun path => "Circular dependency detected: " ++ " → ".intercalate path)

def duplicateIds : List String → List WorkflowTaskSpec → List String
  | _, [] => []
  | seen, t :: tasks =>
    (if t.id ∈ seen then [s!"Duplicate task id '{t.id}'"] else []) ++ duplicateIds (t.id :: seen) tasks

def danglingRefs (tasks : List WorkflowTaskSpec) : List String :=
  tasks.flatMap (fun t => (t.dependsOn.filter (fun dep => (idMap tasks dep.task).isNone)).map
    (fun dep => s!"Task '{t.id}' depends on '{dep.task}' which does not exist in the workflow"))

/-- `validate_workflow`. -/
def validateWorkflow (spec : WorkflowSpec) : List String :=
  let errors := if spec.name = "" then ["Workflow name is required"] else []
  if spec.tasks = [] then errors ++ ["Workflow must contain at least one task"]
  else
    let errors := errors ++ duplicateIds [] spec.tasks ++ danglingRefs spec.tasks
    if errors = [] then detectWorkflowCycles spec.tasks else errors

end Validation

/-- `_topological_sort`. -/
def topologicalSort (tasks : List WorkflowTaskSpec) : List WorkflowTaskSpec :=
  (Topology.sort (declared tasks)).filterMap (idMap tasks)

section Application

/-- What the calls of `create_task` meet, by the logical id of their task: the clock, what `uuid4` yields, and what the
call raises of its own, whatever it is asked. `describe` is `str(e)`. -/
structure Calls where
  clock : String → Clock
  hex : String → String
  outage : String → Option StoreError
  describe : StoreError → String

/-- The loop of `apply_workflow` under way. The pairs are the dict from logical to persistent ids. -/
structure Progress where
  db : Db
  created : List (String × String)
  errors : List String

/-- `created.get(id)`. -/
def Progress.idOf (p : Progress) (id : String) : Option String :=
  (p.created.find? (fun c => c.1 == id)).map Prod.snd

/-- The condition of a link; an empty one counts as none. -/
def WorkflowDependency.link (dep : WorkflowDependency) : Option String :=
  if truthy dep.condition then dep.condition else none

/-- The `parents` of the call: a parent that was not created is passed over. -/
def Progress.parents (p : Progress) (t : WorkflowTaskSpec) : List ParentItem :=
  t.dependsOn.filterMap (fun dep => (p.idOf dep.task).map (fun parentId => .conditional (some parentId) dep.link))

def Progress.notCreated (p : Progress) (t : WorkflowTaskSpec) : List String :=
  (t.dependsOn.filter (fun dep => (p.idOf dep.task).isNone)).map
    (fun dep => s!"Task '{t.id}': parent '{dep.task}' not yet created (topological ordering issue)")

def WorkflowSpec.taskBody (spec : WorkflowSpec) (t : WorkflowTaskSpec) : Option String :=
  let body := t.body.getD ""
  let body := match spec.description with
    | none | some "" => body
    | some description => s!"# {spec.name}\n\n{description}\n\n---\n\n" ++ body
  if body = "" then none else some body

def WorkflowSpec.args (spec : WorkflowSpec) (p : Progress) (t : WorkflowTaskSpec) : CreateArgs where
  title := t.title
  body := spec.taskBody t
  assignee := t.assignee
  priority := t.priority
  parents := p.parents t
  workspaceKind := t.workspaceKind
  workspacePath := t.workspacePath
  maxRuntimeSeconds := t.maxRuntimeSeconds
  maxRetries := t.maxRetries
  tenant := spec.tenant
  createdBy := some spec.createdBy

/-- The call of `create_task` for a task. -/
def createCall (calls : Calls) (spec : WorkflowSpec) (p : Progress) (t : WorkflowTaskSpec) :
    Except StoreError (Task × Db) :=
  match calls.outage t.id with
  | some e => .error e
  | none => createTask p.db (calls.clock t.id) (calls.hex t.id) (spec.args p t)

/-- What the handlers make of an exception: `InvalidTransitionError` is a `ValueError`. -/
def Calls.failure (calls : Calls) (id : String) : StoreError → String
  | .valueError message => s!"Task '{id}': {message}"
  | .invalidTransition old new => s!"Task '{id}': {calls.describe (.invalidTransition old new)}"
  | e => s!"Task '{id}': unexpected error: {calls.describe e}"

/-- The body of the loop of `apply_workflow`. -/
def materialise (calls : Calls) (spec : WorkflowSpec) (p : Progress) (t : WorkflowTaskSpec) : Progress :=
  match createCall calls spec p t with
  | .ok (task, db) => ⟨db, p.created ++ [(t.id, task.id)], p.errors ++ p.notCreated t⟩
  | .error e => { p with errors := p.errors ++ p.notCreated t ++ [calls.failure t.id e] }

structure WorkflowResult where
  name : String
  taskIds : List (String × String)
  createdCount : Nat
  errors : List String
deriving DecidableEq, Repr

/-- `apply_workflow`. -/
def applyWorkflow (calls : Calls) (dryRun : Bool) (spec : WorkflowSpec) (db : Db) : WorkflowResult × Db :=
  let validationErrors := validateWorkflow spec
  if validationErrors = [] then
    let sortedTasks := topologicalSort spec.tasks
    if dryRun then
      (⟨spec.name, sortedTasks.map (fun t => (t.id, s!"(would create: {t.id})")), sortedTasks.length, []⟩, db)
    else
      let p := exec (materialise calls spec) ⟨db, [], []⟩ sortedTasks
      (⟨spec.name, p.created, p.created.length, p.errors⟩, p.db)
  else (⟨spec.name, [], 0, validationErrors⟩, db)

end Application

section Routes

/-- What `_make_wf_meta` builds, under the id of the workflow. -/
structure WorkflowMeta where
  workflowId : String
  name : String
  description : Option String
  tenant : Option String
  createdBy : String
  taskIds : List (String × String)
  createdCount : Nat
  createdAt : Rat
  isPartial : Bool
deriving DecidableEq

instance : Keyed String WorkflowMeta := ⟨WorkflowMeta.workflowId⟩

/-- `WorkflowHandler`. -/
structure WorkflowHandler where
  store : Db
  workflows : Table WorkflowMeta

/-- A specification as the parser made it, and what its submission draws. -/
structure Submission where
  spec : WorkflowSpec
  calls : Calls
  hex : String
  now : Rat

/-- `_generate_workflow_id`. -/
def generateWorkflowId (hex : String) : String := "wf_" ++ hex

def Submission.workflowId (s : Submission) : String := generateWorkflowId s.hex

/-- `_make_wf_meta`. -/
def Submission.makeMeta (s : Submission) (result : WorkflowResult) (isPartial : Bool) : WorkflowMeta :=
  ⟨s.workflowId, s.spec.name, s.spec.description, s.spec.tenant, s.spec.createdBy, result.taskIds, result.createdCount,
    s.now, isPartial⟩

/-- The answer to a submission. -/
inductive Submitted
  | refused (message : String)
  | created (workflowId : String) (result : WorkflowResult)
deriving DecidableEq

/-- A task of a workflow in the answer about it. -/
inductive TaskEntry
  | found (logicalId taskId title status : String) (assignee : Option String)
  | deleted (logicalId taskId : String)
deriving DecidableEq, Repr

def TaskEntry.taskId : TaskEntry → String
  | .found _ taskId _ _ _ | .deleted _ taskId => taskId

def TaskEntry.status : TaskEntry → String
  | .found _ _ _ status _ => status
  | .deleted _ _ => "deleted"

/-- What `handle_get_workflow` answers about a workflow it has. -/
structure WorkflowReport where
  workflowId : String
  name : String
  description : Option String
  createdAt : Rat
  status : String
  taskCount : Nat
  tasks : List TaskEntry
deriving DecidableEq

/-- `_derive_workflow_status`; the list stands for the set of its items. -/
def deriveWorkflowStatus (statuses : List String) : String :=
  let terminal := ["completed", "failed", "cancelled", "archived"]
  let running := ["running", "dangling", "blocked"]
  let waiting := ["todo", "ready"]
  if statuses.any running.contains then "running"
  else if statuses.contains "failed" then "failed"
  else if statuses.all terminal.contains then
    -- The set is that of "completed", or nothing is left of it without that.
    if statuses.filter (fun s => s != "completed") = [] then "completed" else "partially_completed"
  else if statuses.all (waiting ++ terminal).contains then
    if statuses.any waiting.contains then "pending" else "unknown"
  else "unknown"

namespace WorkflowHandler

variable (h : WorkflowHandler)

/-- `handle_create_workflow`, from the validation on. -/
def handleCreateWorkflow (s : Submission) : Submitted × WorkflowHandler :=
  let validationErrors := validateWorkflow s.spec
  if validationErrors = [] then
    let (result, store) := applyWorkflow s.calls false s.spec h.store
    (.created s.workflowId result, ⟨store, h.workflows.put (s.makeMeta result !result.errors.isEmpty)⟩)
  else (.refused ("; ".intercalate validationErrors), h)

def taskEntry (logicalId persistentId : String) : TaskEntry :=
  match h.store.task? persistentId with
  | some task => .found logicalId persistentId task.title task.status.value task.assignee
  | none => .deleted logicalId persistentId

/-- `handle_get_workflow`; `none` is its 404. -/
def handleGetWorkflow (wfId : String) : Option WorkflowReport :=
  (h.workflows.find? wfId).map (fun wf =>
    let tasks := wf.taskIds.map (fun ids => h.taskEntry ids.1 ids.2)
    ⟨wfId, wf.name, wf.description, wf.createdAt, deriveWorkflowStatus (tasks.map TaskEntry.status),
      wf.taskIds.length, tasks⟩)

end WorkflowHandler

/-- A workflow is submitted, or a call of the store is made. -/
inductive WorkflowEvent
  | submit (s : Submission)
  | call (op : Op)

def WorkflowHandler.step (h : WorkflowHandler) : WorkflowEvent → WorkflowHandler
  | .submit s => (h.handleCreateWorkflow s).2
  | .call op => { h with store := Orchestration.step h.store op }

/-- The handler as it is made, over a new database. -/
def WorkflowHandler.start : WorkflowHandler := ⟨Db.empty, Table.empty⟩

end Routes

end A2ARegistry.Orchestration.Workflow
