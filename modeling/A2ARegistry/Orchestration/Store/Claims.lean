import A2ARegistry.Orchestration.Store.Dependencies

namespace A2ARegistry.Orchestration
open Base

/-- The lock string of a claim. -/
def lockOf (workerId : String) (pid : Int) : String := s!"{workerId}:{pid}"

/-- What a successful `claim_task` returns. -/
structure ClaimResult where
  taskId : String
  claimLock : String
  claimExpires : Int
  workspacePath : Option String
deriving DecidableEq, Repr

/-- The `WHERE` clause of `claim_task`, the id apart. -/
def Task.claimable (t : Task) (now : Int) : Bool :=
  t.status == .ready &&
    (t.claimLock.isNone || (match t.claimExpires with | none => false | some e => e < now))

/-- The first `UPDATE tasks` of `claim_task`. -/
def Task.claim (t : Task) (now expires : Int) (lock : String) (pid : Int) : Task :=
  { t with
    status := .running
    claimLock := some lock
    claimExpires := some expires
    startedAt := if t.startedAt.isSome then t.startedAt else some now
    workerPid := some pid
    lastHeartbeatAt := some now }

@[simp] theorem Task.claim_id (t : Task) (now expires : Int) (lock : String) (pid : Int) :
    (t.claim now expires lock pid).id = t.id := rfl

/-- The run record of a claim. -/
def claimRun (taskId workerId : String) (pid now expires : Int) (id : Nat) : TaskRun where
  id := id
  taskId := taskId
  profile := some workerId
  status := .running
  claimLock := some (lockOf workerId pid)
  claimExpires := some expires
  workerPid := some pid
  maxRuntimeSeconds := none
  lastHeartbeatAt := some now
  startedAt := now
  endedAt := none
  outcome := none
  summary := none
  metadata := none
  error := none

@[simp] theorem claimRun_id (taskId workerId : String) (pid now expires : Int) (id : Nat) :
    (claimRun taskId workerId pid now expires id).id = id := rfl

/-- The `WHERE` clause of the `UPDATE` of `claim_task`. -/
def claimHits (clock : Clock) (taskId : String) (t : Task) : Bool :=
  t.id == taskId && t.claimable clock.now

/-- The statements of `claim_task`: claim the row, insert its run, point the row at it. -/
def writeClaim (db : Db) (clock : Clock) (taskId workerId : String) (pid ttl : Int) : Db :=
  let expires := clock.now + ttl
  let lock := lockOf workerId pid
  let claimed := { db with
    tasks := db.tasks.modify (claimHits clock taskId) (fun t => t.claim clock.now expires lock pid)
      (fun t => t.claim_id clock.now expires lock pid) }
  let runId := claimed.runs.next
  let running := { claimed with
    runs := claimed.runs.insert (claimRun taskId workerId pid clock.now expires)
      (claimRun_id taskId workerId pid clock.now expires) }
  let current := running.setTask taskId (fun t => { t with currentRunId := some runId })
  emitEvent current clock taskId TaskEventKind.claimed.value (some runId)
    [("worker_id", .str workerId), ("pid", .int pid), ("lock", .str lock)]

/-- `TaskStore.claim_task`: nothing is written when the `UPDATE` hits no row. -/
def claimTask (db : Db) (clock : Clock) (taskId workerId : String) (pid ttl : Int) :
    Option ClaimResult × Db :=
  if (db.tasks.select (claimHits clock taskId)).isEmpty then (none, db)
  else
    let db' := writeClaim db clock taskId workerId pid ttl
    (some ⟨taskId, lockOf workerId pid, clock.now + ttl,
      (db'.task? taskId).bind Task.workspacePath⟩, db')

/-- The `UPDATE tasks` of `heartbeat`. -/
def Task.beat (t : Task) (now : Int) : Task :=
  { t with lastHeartbeatAt := some now, claimExpires := some (now + defaultClaimTtl) }

@[simp] theorem Task.beat_id (t : Task) (now : Int) : (t.beat now).id = t.id := rfl

def TaskRun.beat (run : TaskRun) (now : Int) : TaskRun :=
  { run with lastHeartbeatAt := some now, claimExpires := some (now + defaultClaimTtl) }

@[simp] theorem TaskRun.beat_id (run : TaskRun) (now : Int) : (run.beat now).id = run.id := rfl

/-- `TaskStore.heartbeat`. -/
def heartbeat (db : Db) (clock : Clock) (taskId : String) (claimLock : Json) : Bool × Db :=
  match db.task? taskId with
  | none => (false, db)
  | some row =>
    if !claimLock.eqText row.claimLock then (false, db)
    else
      let beaten := db.setTask taskId (fun t => t.beat clock.now) (fun t => t.beat_id clock.now)
      let ran := beaten.setRun row.currentRunId (fun r => r.beat clock.now)
        (fun r => r.beat_id clock.now)
      (true, emitEvent ran clock taskId TaskEventKind.heartbeat.value row.currentRunId [])

/-- The optional `AND tenant = ?` of a query. -/
def Task.inTenant (t : Task) : Option String → Bool
  | none => true
  | some tenant => t.tenant == some tenant

/-- The `WHERE` clause of `release_expired_claims`. -/
def Task.expired (t : Task) (now : Int) (tenant : Option String) : Bool :=
  (t.status == .running || t.status == .blocked) && t.status != .dangling &&
    (match t.claimExpires with | none => false | some e => e ≤ now) && t.inTenant tenant

/-- The `UPDATE tasks` of `release_expired_claims`. -/
def Task.release (t : Task) (now : Int) (failures : Nat) : Task :=
  { t with
    status := .failed
    completedAt := some now
    consecutiveFailures := failures
    lastFailureError := some "Claim TTL expired"
    claimLock := none
    claimExpires := none
    workerPid := none
    currentRunId := none }

@[simp] theorem Task.release_id (t : Task) (now : Int) (failures : Nat) :
    (t.release now failures).id = t.id := rfl

def TaskRun.timeOut (run : TaskRun) (now : Int) : TaskRun :=
  { run with status := .timedOut, endedAt := some now, outcome := some "timed_out" }

@[simp] theorem TaskRun.timeOut_id (run : TaskRun) (now : Int) : (run.timeOut now).id = run.id := rfl

/-- The body of the loop of `release_expired_claims`, on one selected row. -/
def releaseOne (clock : Clock) (db : Db) (row : Task) : Db :=
  let failures := row.consecutiveFailures + 1
  let timed := db.setRun row.currentRunId (fun r => r.timeOut clock.now)
    (fun r => r.timeOut_id clock.now)
  let payload := [("reason", Json.str "claim_ttl_expired"), ("failures", Json.int failures)]
  let failed := timed.setTask row.id (fun t => t.release clock.now failures)
    (fun t => t.release_id clock.now failures)
  let logged := emitEvent failed clock row.id "released" row.currentRunId payload
  emitEvent logged clock row.id TaskEventKind.failed.value row.currentRunId payload

/-- `TaskStore.release_expired_claims`. -/
def releaseExpiredClaims (db : Db) (clock : Clock) (tenant : Option String) : Nat × Db :=
  let expired := db.tasks.select (fun t => t.expired clock.now tenant)
  (expired.length, expired.foldl (releaseOne clock) db)

/-- `COALESCE(max_retries, DEFAULT_MAX_RETRIES)`. -/
def Task.retryLimit (t : Task) : Int := t.maxRetries.getD defaultMaxRetries

/-- The `WHERE` clause of `promote_retryable_tasks`. -/
def Task.retryable (t : Task) (tenant : Option String) : Bool :=
  t.status == .failed && (t.consecutiveFailures : Int) ≤ t.retryLimit &&
    0 < t.consecutiveFailures && t.inTenant tenant

/-- The `UPDATE tasks` of `promote_retryable_tasks`. -/
def Task.promote (t : Task) (runId : Nat) : Task :=
  { t with
    status := .ready
    claimLock := none
    claimExpires := none
    currentRunId := some runId
    workerPid := none }

@[simp] theorem Task.promote_id (t : Task) (runId : Nat) : (t.promote runId).id = t.id := rfl

/-- The run record a promotion inserts. -/
def retryRun (taskId : String) (now : Int) (id : Nat) : TaskRun where
  id := id
  taskId := taskId
  profile := none
  status := .running
  claimLock := none
  claimExpires := none
  workerPid := none
  maxRuntimeSeconds := none
  lastHeartbeatAt := none
  startedAt := now
  endedAt := none
  outcome := none
  summary := none
  metadata := none
  error := none

@[simp] theorem retryRun_id (taskId : String) (now : Int) (id : Nat) :
    (retryRun taskId now id).id = id := rfl

/-- The body of the loop of `promote_retryable_tasks`, on one selected row. -/
def promoteOne (clock : Clock) (db : Db) (row : Task) : Db :=
  let runId := db.runs.next
  let opened := { db with
    runs := db.runs.insert (retryRun row.id clock.now) (retryRun_id row.id clock.now) }
  emitEvent (opened.setTask row.id (fun t => t.promote runId) (fun t => t.promote_id runId)) clock row.id
    TaskEventKind.dependencyPromoted.value none
    [("from", .str "failed"), ("to", .str "ready"), ("reason", .str "retry")]

/-- `TaskStore.promote_retryable_tasks`. -/
def promoteRetryableTasks (db : Db) (clock : Clock) (tenant : Option String) : Nat × Db :=
  let failed := db.tasks.select (fun t => t.retryable tenant)
  (failed.length, failed.foldl (promoteOne clock) db)

end A2ARegistry.Orchestration
