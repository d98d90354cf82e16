import Mathlib.Data.Rat.Floor
import A2ARegistry.Orchestration.Store.Listing
import A2ARegistry.Orchestration.Store.Ops

namespace A2ARegistry.Orchestration
open Base

/-- A task that a detector has found, with the reason it is failed for. -/
structure Anomaly where
  taskId : String
  assignee : String
  reason : String
deriving DecidableEq, Repr

/-- A time column where it is true: zero is taken for NULL. -/
def nonzero (time : Option Int) : Option Int := time.filter (fun n => n != 0)

/-- A number rounded as `:.0f` rounds it. -/
def roundHalfEven (r : Rat) : Int :=
  let whole := ⌊r⌋
  let rest := r - whole
  if rest < 1 / 2 ∨ rest = 1 / 2 ∧ whole % 2 = 0 then whole else whole + 1

/-- How the detectors ask `list_tasks` for the running tasks. -/
def runningArgs : ListArgs where
  status := some TaskStatus.running.value
  limit := 500

section
variable (connected : String → Bool) (now : Rat)

/-- Why a running task is an orphan, if `_detect_orphans` takes it for one. -/
def orphanReason (task : Task) : Option String :=
  match given task.assignee with
  | none => none
  | some assignee =>
    if connected assignee then none
    else if (nonzero task.lastHeartbeatAt).any (fun heartbeat => now - heartbeat < 120) then none
    else some s!"Agent '{assignee}' disconnected; task auto-failed as orphan"

/-- Why a running task has timed out, if `_detect_timeouts` takes it for one that has. -/
def timeoutReason (task : Task) : Option String :=
  match task.maxRuntimeSeconds with
  | none => none
  | some maxRuntime =>
    if maxRuntime ≤ 0 then none
    else
      let refTs := ((nonzero task.lastHeartbeatAt).or (nonzero task.startedAt)).getD task.createdAt
      let elapsed := now - refTs
      if elapsed < maxRuntime then none
      else some (s!"Task exceeded max_runtime ({maxRuntime}s, " ++
        s!"elapsed={roundHalfEven elapsed}s, last_ref={refTs})")

/-- The running tasks a detector has a reason to fail. -/
def detect (reason : Task → Option String) (db : Db) : List Anomaly :=
  (listTasks db runningArgs).1.filterMap (fun task =>
    (reason task).map (fun why => ⟨task.id, (given task.assignee).getD "?", why⟩))

/-- `_detect_orphans`. -/
def detectOrphans (db : Db) : List Anomaly := detect (orphanReason connected now) db

/-- `_detect_timeouts`. -/
def detectTimeouts (db : Db) : List Anomaly := detect (timeoutReason now) db

/-- `_fail_kanban_task`: an update that raises is only logged. -/
def failKanbanTask (clocks : String → Clock) (db : Db) (anomaly : Anomaly) : Db :=
  step db (.updateTaskStatus (clocks anomaly.taskId) anomaly.taskId TaskStatus.failed.value
    { result := some anomaly.reason })

/-- What `_scan_cycle` returns. -/
structure ScanStats where
  orphansFailed : Nat
  timeoutsFailed : Nat
deriving DecidableEq, Repr

/-- The clocks of the updates of the two steps. -/
structure ScanClocks where
  orphans : String → Clock
  timeouts : String → Clock

/-- `_scan_cycle`: the database after it, and its counts. No step of it waits. -/
def scanCycle (clocks : ScanClocks) (db : Db) : Db × ScanStats :=
  let orphans := detectOrphans connected now db
  let orphaned := orphans.foldl (failKanbanTask clocks.orphans) db
  let timeouts := detectTimeouts now orphaned
  (timeouts.foldl (failKanbanTask clocks.timeouts) orphaned, ⟨orphans.length, timeouts.length⟩)

end

end A2ARegistry.Orchestration
