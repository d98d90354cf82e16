import A2ARegistry.Base.Json
import A2ARegistry.Base.Table

namespace A2ARegistry.Orchestration
open Base

/-- Lifecycle of a kanban task. -/
inductive TaskStatus
  | todo | ready | running | dangling | blocked | completed | failed | cancelled | archived
deriving DecidableEq, Repr

namespace TaskStatus

def value : TaskStatus → String
  | todo => "todo"
  | ready => "ready"
  | running => "running"
  | dangling => "dangling"
  | blocked => "blocked"
  | completed => "completed"
  | failed => "failed"
  | cancelled => "cancelled"
  | archived => "archived"

def all : List TaskStatus :=
  [todo, ready, running, dangling, blocked, completed, failed, cancelled, archived]

/-- `TaskStatus(value)`. -/
def ofValue? (s : String) : Option TaskStatus := all.find? (fun st => st.value == s)

theorem mem_all (st : TaskStatus) : st ∈ all := by cases st <;> decide

@[simp] theorem ofValue_value (st : TaskStatus) : ofValue? st.value = some st := by
  cases st <;> decide

theorem value_injective {a b : TaskStatus} (h : a.value = b.value) : a = b := by
  have := congrArg ofValue? h
  simpa using this

end TaskStatus

/-- Inner lifecycle of one run attempt. -/
inductive TaskRunStatus
  | running | done | blocked | crashed | timedOut | failed | released
deriving DecidableEq, Repr

def TaskRunStatus.value : TaskRunStatus → String
  | running => "running"
  | done => "done"
  | blocked => "blocked"
  | crashed => "crashed"
  | timedOut => "timed_out"
  | failed => "failed"
  | released => "released"

/-- Kinds of audit events. There is no member for a retry. -/
inductive TaskEventKind
  | created | claimed | started | heartbeat | completed | failed | blocked | unblocked
  | commented | updated | archived | dependencyPromoted | cancelled
deriving DecidableEq, Repr

def TaskEventKind.value : TaskEventKind → String
  | created => "created"
  | claimed => "claimed"
  | started => "started"
  | heartbeat => "heartbeat"
  | completed => "completed"
  | failed => "failed"
  | blocked => "blocked"
  | unblocked => "unblocked"
  | commented => "commented"
  | updated => "updated"
  | archived => "archived"
  | dependencyPromoted => "dependency_promoted"
  | cancelled => "cancelled"

/-- A row of `tasks`. -/
structure Task where
  id : String
  title : String
  body : Option String
  assignee : Option String
  status : TaskStatus
  priority : Int
  createdBy : Option String
  createdAt : Int
  startedAt : Option Int
  completedAt : Option Int
  workspaceKind : Option String
  workspacePath : Option String
  claimLock : Option String
  claimExpires : Option Int
  tenant : Option String
  result : Option String
  consecutiveFailures : Nat
  workerPid : Option Int
  lastFailureError : Option String
  maxRuntimeSeconds : Option Int
  lastHeartbeatAt : Option Int
  currentRunId : Option Nat
  maxRetries : Option Int
  parallelGroup : Option String
  nextRetryAt : Option Int
deriving DecidableEq, Repr

/-- A row of `task_links`; a `condition` makes the link conditional. -/
structure TaskLink where
  parentId : String
  childId : String
  condition : Option String
deriving DecidableEq, Repr

/-- A row of `task_runs`: one execution attempt. `metadata` is the value dumped
into the column. -/
structure TaskRun where
  id : Nat
  taskId : String
  profile : Option String
  status : TaskRunStatus
  claimLock : Option String
  claimExpires : Option Int
  workerPid : Option Int
  maxRuntimeSeconds : Option Int
  lastHeartbeatAt : Option Int
  startedAt : Int
  endedAt : Option Int
  outcome : Option String
  summary : Option String
  metadata : Option Json
  error : Option String

/-- A row of `task_comments`. -/
structure TaskComment where
  id : Nat
  taskId : String
  author : String
  body : String
  createdAt : Int
deriving DecidableEq, Repr

/-- A row of `task_events`. `payload` is the object dumped into the column. -/
structure TaskEvent where
  id : Nat
  taskId : String
  runId : Option Nat
  kind : String
  payload : Option (List (String × Json))
  createdAt : Int

instance : Keyed String Task := ⟨Task.id⟩
instance : Keyed (String × String) TaskLink := ⟨fun l => (l.parentId, l.childId)⟩
instance : Keyed Nat TaskRun := ⟨TaskRun.id⟩
instance : Keyed Nat TaskComment := ⟨TaskComment.id⟩
instance : Keyed Nat TaskEvent := ⟨TaskEvent.id⟩

@[simp] theorem key_task (t : Task) : key t = t.id := rfl
@[simp] theorem key_link (l : TaskLink) : key l = (l.parentId, l.childId) := rfl
@[simp] theorem key_run (r : TaskRun) : key r = r.id := rfl

/-- What a store operation can raise. -/
inductive StoreError
  | valueError (message : String)
  | invalidTransition (fromStatus toStatus : String)
  | permissionError (expected : Option String) (got : Json)
  | integrityError (table : String)
  | attributeError (owner name : String)
  | overflowError

/-- `_TRANSITIONS`. `dangling` has no entry in the table and is no target. -/
def transitions : TaskStatus → List TaskStatus
  | .todo => [.ready, .cancelled]
  | .ready => [.running, .todo, .blocked, .cancelled]
  | .running => [.completed, .failed, .blocked, .cancelled]
  | .dangling => []
  | .blocked => [.running, .ready, .failed, .cancelled]
  | .completed => [.archived]
  | .failed => [.ready, .archived, .cancelled]
  | .cancelled => [.archived]
  | .archived => []

/-- `VALID_TRANSITIONS`: the pairs of status strings. -/
def validTransitions : List (String × String) :=
  TaskStatus.all.flatMap (fun f => (transitions f).map (fun t => (f.value, t.value)))

def validateTransition (fromStatus toStatus : String) : Except StoreError Unit :=
  if (fromStatus, toStatus) ∈ validTransitions then .ok ()
  else .error (.invalidTransition fromStatus toStatus)

/-- The validator admits a pair of strings exactly when it spells an edge of the table. -/
theorem validate_ok_iff {old : TaskStatus} {s : String} :
    validateTransition old.value s = .ok () ↔ ∃ new ∈ transitions old, new.value = s := by
  have hm : (old.value, s) ∈ validTransitions ↔ ∃ new ∈ transitions old, new.value = s := by
    simp only [validTransitions, List.mem_flatMap, List.mem_map, Prod.mk.injEq]
    constructor
    · rintro ⟨f, _, t, ht, hf, hs⟩
      exact ⟨t, TaskStatus.value_injective hf ▸ ht, hs⟩
    · rintro ⟨t, ht, hs⟩
      exact ⟨old, TaskStatus.mem_all old, t, ht, rfl, hs⟩
  rw [← hm, validateTransition]
  split <;> simp_all

/-- The expected shape of an output. The field is kept as the request gave it. -/
structure OutputContract where
  requiredFields : Json := .arr []

/-- `OutputContract.from_dict`: other keys are dropped. -/
def OutputContract.fromDict (data : List (String × Json)) : OutputContract :=
  match data.find? (fun f => f.1 == "required_fields") with
  | none => {}
  | some f => { requiredFields := f.2 }

/-- `validate_output` on an object: the error message, if there is one. `none` outside is
the `TypeError` of a contract that is not iterable or whose items are not texts. -/
def validateOutput (output : List (String × Json)) (contract : OutputContract) :
    Option (Option String) :=
  if !contract.requiredFields.truthy then some none
  else
    (contract.requiredFields.iterate.bind Json.texts).map (fun required =>
      let missing := required.filter (fun f => !output.any (fun field => field.1 == f))
      if missing.isEmpty then none
      else some ("missing fields: " ++ String.intercalate ", " missing))

end A2ARegistry.Orchestration
