import Mathlib.Algebra.Ring.Int.Defs
import A2ARegistry.Orchestration.Store.Dependencies

namespace A2ARegistry.Orchestration
open Base

/-- The optional arguments of `update_task_status`. The lock is compared as the
request presented it, so it may be any JSON value. -/
structure StatusArgs where
  claimLock : Json := .null
  result : Option String := none
  summary : Option String := none
  metadata : Json := .null

/-- The delay added to `now` for the n-th consecutive failure. Converting
`2 ** (n - 1)` to a float overflows from `2 ** 1024` on. -/
def backoffDelay (n : Nat) : Except StoreError Int :=
  if 1024 ≤ n - 1 then .error .overflowError else .ok (min (30 * 2 ^ (n - 1)) 3600)

/-- The value `next_retry_at` is set to, if it is set. -/
def nextRetry (now : Int) (t : Task) (new : TaskStatus) : Except StoreError (Option Int) :=
  match new, t.maxRetries with
  | .failed, some limit =>
    if ((t.consecutiveFailures + 1 : Nat) : Int) ≤ limit then
      (backoffDelay (t.consecutiveFailures + 1)).map (fun delay => some (now + delay))
    else .ok none
  | _, _ => .ok none

/-- `UPDATE task_runs` on a completed or failed attempt. -/
def TaskRun.finish (run : TaskRun) (now : Int) (new : TaskStatus) (args : StatusArgs) : TaskRun :=
  { run with
    status := if new = .completed then .done else .failed
    endedAt := some now
    outcome := some new.value
    summary := args.summary
    metadata := if args.metadata.truthy then some args.metadata else none
    error := args.result }

@[simp] theorem TaskRun.finish_id (run : TaskRun) (now : Int) (new : TaskStatus) (args : StatusArgs) :
    (run.finish now new args).id = run.id := rfl

/-- The `UPDATE tasks` of `update_task_status`. -/
def Task.move (t : Task) (now : Int) (new : TaskStatus) (result : Option String)
    (retryAt : Option Int) : Task :=
  { t with
    status := new
    completedAt := if new = .completed ∨ new = .failed then some now else t.completedAt
    consecutiveFailures :=
      if new = .failed then t.consecutiveFailures + 1
      else if new = .completed then 0 else t.consecutiveFailures
    lastFailureError := if new = .failed then result else t.lastFailureError
    nextRetryAt := if retryAt.isSome then retryAt else t.nextRetryAt
    result := if new = .completed ∧ truthy result then result else t.result }

@[simp] theorem Task.move_id (t : Task) (now : Int) (new : TaskStatus) (result : Option String)
    (retryAt : Option Int) : (t.move now new result retryAt).id = t.id := rfl

/-- The kind of event a transition emits. `TaskEventKind` has no `RETRIED`, so the
branch that reads it raises. -/
def eventKind (old new : TaskStatus) : Except StoreError String :=
  if old = .blocked ∧ new = .running then .ok TaskEventKind.unblocked.value
  else if old = .failed ∧ new = .ready then .error (.attributeError "TaskEventKind" "RETRIED")
  else match new with
    | .completed => .ok TaskEventKind.completed.value
    | .failed => .ok TaskEventKind.failed.value
    | .blocked => .ok TaskEventKind.blocked.value
    | .running => .ok TaskEventKind.started.value
    | .archived => .ok TaskEventKind.archived.value
    | _ => .ok "status_changed"

/-- The ownership test: a lock that is presented while the task runs must be the
stored one. -/
def lockRefused (t : Task) (claimLock : Json) : Bool :=
  t.status == .running && claimLock.truthy && !claimLock.eqText t.claimLock

/-- The current run is closed when the task completes or fails. -/
def finishRun (db : Db) (now : Int) (t : Task) (new : TaskStatus) (args : StatusArgs) : Db :=
  if new = .completed ∨ new = .failed then
    db.setRun t.currentRunId (fun r => r.finish now new args) (fun r => r.finish_id now new args)
  else db

/-- Dependency resolution on the children of a completed task. -/
def resolveChildren (db : Db) (clock : Clock) (taskId : String) : Db :=
  (childIds db taskId).foldl (fun db child => resolveDependencies db clock child) db

/-- The writes of `update_task_status` up to its event. -/
def moveStatus (db : Db) (clock : Clock) (task : Task) (new : TaskStatus) (args : StatusArgs)
    (retryAt : Option Int) (kind : String) : Db :=
  let moved := (finishRun db clock.now task new args).setTask task.id
    (fun t => t.move clock.now new args.result retryAt)
    (fun t => t.move_id clock.now new args.result retryAt)
  emitEvent moved clock task.id kind task.currentRunId
    [("from", .str task.status.value), ("to", .str new.value), ("result", .ofText args.result)]

/-- The statements `update_task_status` executes once nothing can raise any more. -/
def writeStatus (db : Db) (clock : Clock) (task : Task) (new : TaskStatus) (args : StatusArgs)
    (retryAt : Option Int) (kind : String) : Db :=
  let moved := moveStatus db clock task new args retryAt kind
  if new = .completed then resolveChildren moved clock task.id else moved

/-- `TaskStore.update_task_status`. -/
def updateTaskStatus (db : Db) (clock : Clock) (taskId newStatus : String) (args : StatusArgs) :
    Except StoreError (Option TaskView × Db) := do
  match db.task? taskId with
  | none => throw (.valueError s!"Task '{taskId}' not found")
  | some task =>
    validateTransition task.status.value newStatus
    match TaskStatus.ofValue? newStatus with
    | none => throw (.invalidTransition task.status.value newStatus)
    | some new =>
      if lockRefused task args.claimLock then
        throw (.permissionError task.claimLock args.claimLock)
      let retryAt ← nextRetry clock.now task new
      let kind ← eventKind task.status new
      let db' := writeStatus db clock task new args retryAt kind
      return (getTask db' taskId, db')

end A2ARegistry.Orchestration
