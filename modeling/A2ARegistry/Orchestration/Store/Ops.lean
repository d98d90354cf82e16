import A2ARegistry.Base.Run
import A2ARegistry.Orchestration.Store.Claims
import A2ARegistry.Orchestration.Store.Status
import A2ARegistry.Orchestration.Store.Tasks

namespace A2ARegistry.Orchestration
open Base

/-- A call of one of the writing methods of `TaskStore`. Each is one transaction. -/
inductive Op
  | createTask (clock : Clock) (hex : String) (args : CreateArgs)
  | updateTask (clock : Clock) (taskId : String) (args : EditArgs)
  | updateTaskStatus (clock : Clock) (taskId newStatus : String) (args : StatusArgs)
  | claimTask (clock : Clock) (taskId workerId : String) (pid ttl : Int)
  | heartbeat (clock : Clock) (taskId : String) (claimLock : Json)
  | releaseExpiredClaims (clock : Clock) (tenant : Option String)
  | promoteRetryableTasks (clock : Clock) (tenant : Option String)
  | addDependency (clock : Clock) (taskId parentId : String) (condition : Option String)
  | removeDependency (clock : Clock) (taskId parentId : String)
  | addComment (clock : Clock) (taskId author body : String)
  | updateWorkspacePath (taskId workspacePath : String)
  | setWorkerPid (taskId : String) (pid : Int)

/-- The database after a call, whether it returns or raises. -/
def step (db : Db) : Op → Db
  | .createTask clock hex args => (db.tx (createTask db clock hex args)).2
  | .updateTask clock taskId args => (db.tx (updateTask db clock taskId args)).2
  | .updateTaskStatus clock taskId newStatus args =>
    (db.tx (updateTaskStatus db clock taskId newStatus args)).2
  | .claimTask clock taskId workerId pid ttl => (claimTask db clock taskId workerId pid ttl).2
  | .heartbeat clock taskId claimLock => (heartbeat db clock taskId claimLock).2
  | .releaseExpiredClaims clock tenant => (releaseExpiredClaims db clock tenant).2
  | .promoteRetryableTasks clock tenant => (promoteRetryableTasks db clock tenant).2
  | .addDependency clock taskId parentId condition =>
    (db.tx (addDependency db clock taskId parentId condition)).2
  | .removeDependency clock taskId parentId => (removeDependency db clock taskId parentId).2
  | .addComment clock taskId author body => (db.tx (addComment db clock taskId author body)).2
  | .updateWorkspacePath taskId workspacePath => updateWorkspacePath db taskId workspacePath
  | .setWorkerPid taskId pid => setWorkerPid db taskId pid

def errorOf {α : Type} : Except StoreError α → Option StoreError
  | .ok _ => none
  | .error e => some e

/-- What a call raises, if it raises. -/
def raised (db : Db) : Op → Option StoreError
  | .createTask clock hex args => errorOf (db.tx (createTask db clock hex args)).1
  | .updateTask clock taskId args => errorOf (db.tx (updateTask db clock taskId args)).1
  | .updateTaskStatus clock taskId newStatus args =>
    errorOf (db.tx (updateTaskStatus db clock taskId newStatus args)).1
  | .addDependency clock taskId parentId condition =>
    errorOf (db.tx (addDependency db clock taskId parentId condition)).1
  | .addComment clock taskId author body => errorOf (db.tx (addComment db clock taskId author body)).1
  | _ => none

/-- What a committed body leaves behind; a raising one leaves the database as it was. -/
theorem tx_cases {α : Type} (db : Db) (body : Except StoreError (α × Db)) :
    (∃ a db', body = .ok (a, db') ∧ (db.tx body).2 = db') ∨
      (∃ e, body = .error e ∧ (db.tx body).2 = db) := by
  cases body with
  | ok r => exact Or.inl ⟨r.1, r.2, rfl, rfl⟩
  | error e => exact Or.inr ⟨e, rfl, rfl⟩

theorem step_createTask {db db' : Db} {clock : Clock} {hex : String} {args : CreateArgs} {t : Task}
    (ok : createTask db clock hex args = .ok (t, db')) : step db (.createTask clock hex args) = db' := by
  simp only [step, ok]
  rfl

theorem step_updateTaskStatus {db db' : Db} {clock : Clock} {taskId newStatus : String} {args : StatusArgs}
    {view : Option TaskView} (ok : updateTaskStatus db clock taskId newStatus args = .ok (view, db')) :
    step db (.updateTaskStatus clock taskId newStatus args) = db' := by
  simp only [step, ok]
  rfl

theorem tx_raised {α : Type} {db : Db} {body : Except StoreError (α × Db)} {e : StoreError}
    (h : errorOf (db.tx body).1 = some e) : (db.tx body).2 = db := by
  cases body with
  | ok r => cases h
  | error _ => rfl

/-- A call that raises is rolled back. -/
theorem step_raised {db : Db} {op : Op} {e : StoreError} (h : raised db op = some e) :
    step db op = db := by
  cases op with
  | createTask | updateTask | updateTaskStatus | addDependency | addComment => exact tx_raised h
  | _ => cases h

/-- What `batch_update_status` returns. -/
structure BatchResult where
  updated : Nat := 0
  failed : List (String × StoreError) := []

/-- The loop of `batch_update_status`. An `InvalidTransitionError` is a `ValueError`;
what is neither that nor a `PermissionError` leaves the loop, after the updates made so far. -/
def batchLoop (newStatus : String) : List (Clock × String) → BatchResult → Db →
    Except StoreError BatchResult × Db
  | [], acc, db => (.ok acc, db)
  | (clock, taskId) :: rest, acc, db =>
    match db.tx (updateTaskStatus db clock taskId newStatus {}) with
    | (.ok _, db') => batchLoop newStatus rest { acc with updated := acc.updated + 1 } db'
    | (.error e, db') => match e with
      | .valueError _ | .invalidTransition .. => batchLoop newStatus rest acc db'
      | .permissionError .. =>
        batchLoop newStatus rest { acc with failed := acc.failed ++ [(taskId, e)] } db'
      | _ => (.error e, db')

/-- `TaskStore.batch_update_status`; each id comes with the clock its update reads. -/
def batchUpdateStatus (db : Db) (taskIds : List (Clock × String)) (newStatus : String) :
    Except StoreError BatchResult × Db :=
  batchLoop newStatus taskIds {} db

/-- The errors that leave the loop. -/
def StoreError.uncaught : StoreError → Bool
  | .valueError _ | .invalidTransition .. | .permissionError .. => false
  | _ => true

/-- The transactions of a batch that starts in this state. -/
def batchOps (newStatus : String) : Db → List (Clock × String) → List Op
  | _, [] => []
  | db, (clock, taskId) :: rest =>
    let op := Op.updateTaskStatus clock taskId newStatus {}
    op :: if ((raised db op).map StoreError.uncaught).getD false then []
      else batchOps newStatus (step db op) rest

/-- A batch comes down to single updates, each a transaction of its own. -/
theorem batchLoop_exec (newStatus : String) (taskIds : List (Clock × String)) (acc : BatchResult)
    (db : Db) : (batchLoop newStatus taskIds acc db).2 = exec step db (batchOps newStatus db taskIds) := by
  induction taskIds generalizing acc db with
  | nil => rfl
  | cons item rest ih =>
    obtain ⟨clock, taskId⟩ := item
    cases h : updateTaskStatus db clock taskId newStatus {} with
    | ok r =>
      have hstep : step db (.updateTaskStatus clock taskId newStatus {}) = r.2 := by
        simp [step, Db.tx, h]
      have hraised : raised db (.updateTaskStatus clock taskId newStatus {}) = none := by
        simp [raised, Db.tx, errorOf, h]
      simp only [batchLoop, batchOps, Db.tx, h, hraised, hstep, exec_cons]
      exact ih _ _
    | error e =>
      have hstep : step db (.updateTaskStatus clock taskId newStatus {}) = db := by
        simp [step, Db.tx, h]
      have hraised : raised db (.updateTaskStatus clock taskId newStatus {}) = some e := by
        simp [raised, Db.tx, errorOf, h]
      simp only [batchLoop, batchOps, Db.tx, h, hraised, hstep, exec_cons]
      cases e with
      | valueError | invalidTransition | permissionError => exact ih _ _
      | integrityError | attributeError | overflowError => rfl

/-- A call of a writing method, batches included. -/
inductive Call
  | single (op : Op)
  | batch (taskIds : List (Clock × String)) (newStatus : String)

/-- The database after a call. -/
def Call.run (db : Db) : Call → Db
  | .single op => step db op
  | .batch taskIds newStatus => (batchUpdateStatus db taskIds newStatus).2

def Call.ops (db : Db) : Call → List Op
  | .single op => [op]
  | .batch taskIds newStatus => batchOps newStatus db taskIds

/-- The transactions of a run of calls, in order. -/
def transactions : Db → List Call → List Op
  | _, [] => []
  | db, call :: calls => call.ops db ++ transactions (call.run db) calls

theorem Call.run_exec (db : Db) (call : Call) : call.run db = exec step db (call.ops db) := by
  cases call with
  | single op => rfl
  | batch taskIds newStatus => exact batchLoop_exec newStatus taskIds {} db

theorem exec_transactions (db : Db) (calls : List Call) :
    exec Call.run db calls = exec step db (transactions db calls) := by
  induction calls generalizing db with
  | nil => rfl
  | cons call calls ih => rw [exec_cons, ih, transactions, exec_append, ← Call.run_exec]

end A2ARegistry.Orchestration
