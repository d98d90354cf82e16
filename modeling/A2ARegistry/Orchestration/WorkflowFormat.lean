import A2ARegistry.Base.Yaml
import A2ARegistry.Orchestration.Workflow

namespace A2ARegistry.Orchestration.Workflow
open Base

/-- What `strip()` yields, of a text or of bytes. -/
inductive Stripped
  | text (s : String)
  | bytes (b : List UInt8)
deriving DecidableEq, Repr

namespace Stripped

def value : Stripped → Yaml
  | .text s => .str s
  | .bytes b => .bytes b

/-- `not value`. -/
def isEmpty : Stripped → Bool
  | .text s => s == ""
  | .bytes b => b.isEmpty

/-- `str(value)`. -/
def shown : Stripped → String
  | .text s => s
  | .bytes b => bytesRepr b

end Stripped

/-- An edge of a workflow as it was read; no condition is null. The fields of what is read are whatever was there. -/
structure ReadDependency where
  task : Stripped
  condition : Yaml := .null

structure ReadTask where
  id : Stripped
  title : Stripped
  body : Yaml := .null
  assignee : Yaml := .null
  priority : Yaml := .int 0
  maxRuntimeSeconds : Yaml := .null
  maxRetries : Yaml := .null
  workspaceKind : Yaml := .null
  workspacePath : Yaml := .null
  dependsOn : List ReadDependency := []

structure ReadSpec where
  name : Stripped
  description : Yaml := .null
  tenant : Yaml := .null
  createdBy : Yaml := .str "workflow-engine"
  tasks : List ReadTask

/-- What `_from_dict` raises. -/
inductive ReadError
  | valueError (message : String)
  | attributeError
deriving DecidableEq, Repr

section Parsing

/-- `(value or "").strip()`. -/
def stripped (value : Yaml) : Except ReadError Stripped :=
  if value.truthy then
    match value with
    | .str s => .ok (.text (strip s))
    | .bytes b => .ok (.bytes (stripBytes b))
    | _ => .error .attributeError
  else .ok (.text "")

/-- A loop over a list, with the index of each item. -/
def readEach {α : Type} (read : Nat → Yaml → Except ReadError α) : Nat → List Yaml → Except ReadError (List α)
  | _, [] => .ok []
  | i, item :: items => do
    let first ← read i item
    let rest ← readEach read (i + 1) items
    return first :: rest

/-- An item of `depends_on`. -/
def readDependency (taskId : Stripped) (j : Nat) : Yaml → Except ReadError ReadDependency
  | .str dep => .ok { task := .text dep }
  | .map dep => do
    let depTask ← stripped (Yaml.get dep "task" .null)
    if depTask.isEmpty then
      .error (.valueError s!"Task '{taskId.shown}' depends_on[{j}] missing required 'task' field")
    else .ok { task := depTask, condition := Yaml.get dep "condition" .null }
  | dep => .error (.valueError s!"Task '{taskId.shown}' depends_on[{j}] must be a string or mapping, got {dep.typeName}")

def readDependsOn (taskId : Stripped) (dependsOnRaw : Yaml) : Except ReadError (List ReadDependency) :=
  if dependsOnRaw.truthy then
    match dependsOnRaw with
    | .seq items => readEach (readDependency taskId) 0 items
    | _ => .error (.valueError s!"Task '{taskId.shown}' 'depends_on' must be a list")
  else .ok []

/-- An item of `tasks`. -/
def readTask (i : Nat) : Yaml → Except ReadError ReadTask
  | .map raw => do
    let taskId ← stripped (Yaml.get raw "id" .null)
    if taskId.isEmpty then .error (.valueError s!"Task at index {i} is missing required 'id' field")
    else
      let title ← stripped (Yaml.get raw "title" .null)
      if title.isEmpty then .error (.valueError s!"Task '{taskId.shown}' is missing required 'title' field")
      else
        let dependsOn ← readDependsOn taskId (Yaml.get raw "depends_on" (.seq []))
        return {
          id := taskId
          title := title
          body := Yaml.get raw "body" .null
          assignee := Yaml.get raw "assignee" .null
          priority := Yaml.get raw "priority" (.int 0)
          maxRuntimeSeconds := Yaml.get raw "max_runtime_seconds" .null
          maxRetries := Yaml.get raw "max_retries" .null
          workspaceKind := Yaml.get raw "workspace_kind" .null
          workspacePath := Yaml.get raw "workspace_path" .null
          dependsOn := dependsOn }
  | raw => .error (.valueError s!"Task at index {i} must be a mapping, got {raw.typeName}")

/-- The items of `tasks`. -/
def readTasks : Yaml → Except ReadError (List ReadTask)
  | .seq (item :: items) => readEach readTask 0 (item :: items)
  | _ => .error (.valueError "Workflow must contain at least one task in 'tasks' list")

/-- The fields of a definition that is a mapping. -/
def readFields (data : List (Yaml × Yaml)) : Except ReadError ReadSpec := do
  let name ← stripped (Yaml.get data "name" .null)
  if name.isEmpty then .error (.valueError "Workflow 'name' is required")
  else
    let tasks ← readTasks (Yaml.get data "tasks" (.seq []))
    return {
      name := name
      description := Yaml.get data "description" .null
      tenant := Yaml.get data "tenant" .null
      createdBy := Yaml.get data "created_by" (.str "workflow-engine")
      tasks := tasks }

/-- `WorkflowSpec._from_dict`. -/
def fromDict : Yaml → Except ReadError ReadSpec
  | .map (item :: items) => readFields (item :: items)
  | _ => .error (.valueError "Workflow definition must be a non-empty YAML mapping")

end Parsing

section Export

/-- A dependency without a condition is written as its task alone. -/
def ReadDependency.toYaml (d : ReadDependency) : Yaml :=
  if d.condition.truthy then .map (Yaml.record [("task", d.task.value), ("condition", d.condition)]) else d.task.value

def ReadTask.toYaml (t : ReadTask) : Yaml :=
  .map (Yaml.record [("id", t.id.value), ("title", t.title.value), ("body", t.body), ("assignee", t.assignee),
    ("priority", t.priority), ("max_runtime_seconds", t.maxRuntimeSeconds), ("max_retries", t.maxRetries),
    ("workspace_kind", t.workspaceKind), ("workspace_path", t.workspacePath),
    ("depends_on", .seq (t.dependsOn.map ReadDependency.toYaml))])

/-- What `to_dict` writes. -/
def ReadSpec.fields (spec : ReadSpec) : List (String × Yaml) :=
  [("name", spec.name.value), ("description", spec.description), ("tenant", spec.tenant),
    ("created_by", spec.createdBy), ("tasks", .seq (spec.tasks.map ReadTask.toYaml))]

/-- `to_dict`. -/
def ReadSpec.toDict (spec : ReadSpec) : Yaml := .map (Yaml.record spec.fields)

end Export

end A2ARegistry.Orchestration.Workflow
