import A2ARegistry.Base.Transactions
import A2ARegistry.Orchestration.Blackboard
import A2ARegistry.Orchestration.Store.Ops

namespace A2ARegistry.Orchestration.Shared
open Base

/-- A row of `blackboard_entries`. -/
structure BlackboardRow where
  swarmRootId : String
  key : String
  entry : Blackboard.Entry
deriving DecidableEq, Repr

/-- A row of the memory table. The times are what `time.time()` read. -/
structure MemoryRecord where
  id : Nat
  agentId : String
  key : String
  value : String
  nameSpace : String
  ttl : Int
  expiresAt : Option Rat
  createdAt : Rat
  updatedAt : Rat
deriving DecidableEq, Repr

/-- `WHERE agent_id=? AND key=? AND namespace=?`. -/
def MemoryRecord.isFor (agentId key nameSpace : String) (r : MemoryRecord) : Bool :=
  r.agentId == agentId && r.key == key && r.nameSpace == nameSpace

/-- A row of `cron_tasks`. -/
structure CronTask where
  id : String := ""
  name : String := ""
  assignee : String := ""
  cronExpression : String := ""
  taskTemplate : String := ""
  enabled : Bool := true
  lastRun : Option Int := none
  nextRun : Option Int := none
  createdBy : String := ""
  createdAt : Int := 0
  tenant : Option String := none
deriving DecidableEq, Repr

/-- `ensure_id`. -/
def CronTask.ensureId (cron : CronTask) (hex : String) : String := if cron.id = "" then "cron_" ++ hex else cron.id

/-- A row of `cron_executions`. -/
structure CronExecution where
  id : Nat := 0
  cronTaskId : String := ""
  taskId : String := ""
  scheduledAt : Int := 0
  startedAt : Option Int := none
  completedAt : Option Int := none
  status : String := "running"
deriving DecidableEq, Repr

instance : Keyed (String × String) BlackboardRow := ⟨fun r => (r.swarmRootId, r.key)⟩
instance : Keyed Nat MemoryRecord := ⟨MemoryRecord.id⟩
instance : Keyed String CronTask := ⟨CronTask.id⟩
instance : Keyed Nat CronExecution := ⟨CronExecution.id⟩

/-- The tables of the four stores. -/
structure Content where
  tasks : Db
  blackboard : Table BlackboardRow
  memory : AutoTable MemoryRecord
  cronTasks : Table CronTask
  cronExecutions : AutoTable CronExecution

def Content.empty : Content := ⟨.empty, .empty, .empty, .empty, .empty⟩

/-- What a call of a store can raise, besides the refusal of a `BEGIN`. -/
inductive EngineError
  | database (message : String)
  | integrity (table : String)
  | store (error : StoreError)
  | blackboard (error : Blackboard.BlackboardError)

/-- A call on the shared connection. What it returns is left out, but for what its caller goes on by. -/
abbrev Call (α : Type) : Type := Session Content EngineError α

/-- The errors of the driver that have nothing to do with the tables: at which statement of a call, and with what
message. -/
abbrev Faults := Nat → Option String

def Faults.raises (faults : Faults) (n : Nat) : Option EngineError := (faults n).map .database

/-- Statements that read, one after the other: a method that only reads. -/
def selects : List (Option String) → Call Unit
  | [] => pure ()
  | fault :: faults => do
    Session.query (fault.map EngineError.database) (fun _ => ())
    selects faults

namespace TaskStore

/-- What goes wrong in one transaction: at its start, in its body with the tables it had come to, at its end. -/
structure TxFaults where
  start : Option String := none
  interrupted : Option (String × Db) := none
  finish : Option String := none

/-- `_tx`. -/
def tx {α : Type} (faults : TxFaults) (body : Db → Except StoreError (α × Db)) : Call α :=
  Session.transaction (faults.start.map .database) (faults.finish.map .database) (fun content =>
    match faults.interrupted with
    | some (message, tasks) => (.error (.database message), { content with tasks := tasks })
    | none => match body content.tasks with
      | .ok (a, tasks) => (.ok a, { content with tasks := tasks })
      | .error e => (.error (.store e), content))

/-- A method that only reads: one transaction. -/
def read (faults : TxFaults) : Call Unit := tx faults (fun db => .ok ((), db))

/-- What `create_task` raises before its transaction. -/
def refusal : Op → Option StoreError
  | .createTask _ _ args =>
    if args.parentSpecs.any (fun spec => spec.parentId == "") then
      some (.valueError "Each parent must have a non-empty 'parent_id'")
    else none
  | _ => none

/-- `update_task_status` returns with `get_task`, and so does a claim that is granted. -/
def reloads (db : Db) : Op → Bool
  | .updateTaskStatus .. => true
  | .claimTask clock taskId workerId pid ttl => (claimTask db clock taskId workerId pid ttl).1.isSome
  | _ => false

def body (op : Op) (db : Db) : Except StoreError (Bool × Db) :=
  match raised db op with
  | some e => .error e
  | none => .ok (reloads db op, step db op)

/-- A method that writes. -/
def write (faults reload : TxFaults) (op : Op) : Call Unit :=
  match refusal op with
  | some e => Session.raise (.store e)
  | none => do
    let again ← tx faults (body op)
    if again then read reload

/-- The errors that the loops of `batch_update_status` and `batch_delete` catch. -/
def caught : EngineError → Bool
  | .store e => !e.uncaught
  | _ => false

/-- `batch_update_status`, and `batch_delete`, which archives. Each id comes with the clock of its update, and with
what goes wrong in its two transactions. -/
def batch (newStatus : String) : List (Clock × String × TxFaults × TxFaults) → Call Unit
  | [] => pure ()
  | (clock, taskId, faults, reload) :: rest => do
    Session.catching caught (write faults reload (.updateTaskStatus clock taskId newStatus {}))
    batch newStatus rest

end TaskStore

namespace BlackboardStore

def entryOf (content : Content) (swarmRootId key : String) : Option Blackboard.Entry :=
  (content.blackboard.find? (swarmRootId, key)).map BlackboardRow.entry

def setEntry (content : Content) (swarmRootId key : String) : Option Blackboard.Entry → Content
  | some entry => { content with blackboard := content.blackboard.put ⟨swarmRootId, key, entry⟩ }
  | none => { content with
      blackboard := content.blackboard.delete (fun r => r.swarmRootId == swarmRootId && r.key == key) }

/-- The statement with which `write` ends. A new row needs the task its swarm is named after. -/
def writeRow (swarmRootId key : String) (args : Blackboard.WriteArgs) (statement : Blackboard.Statement)
    (content : Content) : Except EngineError (Unit × Content) :=
  if statement = .insert ∧ content.tasks.task? swarmRootId = none then .error (.integrity "blackboard_entries")
  else match statement.execute args (entryOf content swarmRootId key) with
    | .error e => .error (.blackboard e)
    | .ok (entry, _) => .ok ((), setEntry content swarmRootId key entry)

/-- `write`. -/
def write (faults : Faults) (swarmRootId key : String) (args : Blackboard.WriteArgs) : Call Unit := do
  let existing ← Session.query (faults.raises 0)
    (fun content => Blackboard.getVersion (entryOf content swarmRootId key))
  match args.plan key existing with
  | .error e => Session.raise (.blackboard e)
  | .ok statement => Session.execute (faults.raises 1) (writeRow swarmRootId key args statement)

/-- `delete`. -/
def delete (faults : Faults) (swarmRootId key : String) : Call Bool :=
  Session.execute (faults.raises 0) (fun content =>
    .ok ((entryOf content swarmRootId key).isSome, setEntry content swarmRootId key none))

end BlackboardStore

namespace AgentMemoryStore

/-- `get`. -/
def get (fault : Option String) (now : Rat) (key agentId nameSpace : String) : Call (Option MemoryRecord) :=
  Session.query (fault.map .database) (fun content =>
    (content.memory.select (fun r => MemoryRecord.isFor agentId key nameSpace r &&
      r.expiresAt.all (fun expires => now < expires))).head?)

/-- The arguments of `set`, with the dumped value and the reading of the clock. -/
structure SetArgs where
  key : String
  value : String
  agentId : String
  ttl : Int := 0
  nameSpace : String := "personal"
  now : Rat

def SetArgs.expiresAt (args : SetArgs) : Option Rat := if 0 < args.ttl then some (args.now + args.ttl) else none

def updateRow (args : SetArgs) (content : Content) : Except EngineError (Unit × Content) :=
  .ok ((), { content with
    memory := content.memory.modify (MemoryRecord.isFor args.agentId args.key args.nameSpace) (fun r =>
      { r with value := args.value, ttl := args.ttl, expiresAt := args.expiresAt, updatedAt := args.now }) })

/-- The index on agent, key and namespace refuses a second row. -/
def insertRow (args : SetArgs) (content : Content) : Except EngineError (Unit × Content) :=
  if (content.memory.select (MemoryRecord.isFor args.agentId args.key args.nameSpace)).isEmpty then
    .ok ((), { content with
      memory := content.memory.insert (fun id => {
        id := id
        agentId := args.agentId
        key := args.key
        value := args.value
        nameSpace := args.nameSpace
        ttl := args.ttl
        expiresAt := args.expiresAt
        createdAt := args.now
        updatedAt := args.now }) })
  else .error (.integrity "agent_memory")

/-- `set`; `now` is the clock of the `get` it returns with. -/
def set (faults : Faults) (args : SetArgs) (now : Rat) : Call (Option MemoryRecord) := do
  let isNew ← Session.query (faults.raises 0)
    (fun content => (content.memory.select (MemoryRecord.isFor args.agentId args.key args.nameSpace)).isEmpty)
  Session.committing (Session.execute (faults.raises 1) (if isNew then insertRow args else updateRow args))
    (faults.raises 2)
  get (faults 3) now args.key args.agentId args.nameSpace

/-- The `DELETE` of `delete` and of `purge_expired`, and how many rows go. -/
def deleteRows (p : MemoryRecord → Bool) (content : Content) : Except EngineError (Nat × Content) :=
  .ok ((content.memory.select p).length, { content with memory := content.memory.keep (fun r => !p r) })

/-- `delete`. -/
def delete (faults : Faults) (key agentId nameSpace : String) : Call Nat :=
  Session.committing (Session.execute (faults.raises 0) (deleteRows (MemoryRecord.isFor agentId key nameSpace)))
    (faults.raises 1)

/-- `purge_expired`. -/
def purgeExpired (faults : Faults) (now : Rat) : Call Nat :=
  Session.committing
    (Session.execute (faults.raises 0) (deleteRows (fun r => r.expiresAt.any (fun expires => expires ≤ now))))
    (faults.raises 1)

end AgentMemoryStore

namespace CronTaskStore

def insertTask (cron : CronTask) (content : Content) : Except EngineError (Unit × Content) :=
  match content.cronTasks.insert? cron with
  | none => .error (.integrity "cron_tasks")
  | some cronTasks => .ok ((), { content with cronTasks := cronTasks })

/-- The row that `create_cron_task` inserts. `next` is the first time `croniter` yields, if it accepts the
expression. -/
def created (now : Int) (hex : String) (next : Option Int) (cron : CronTask) : CronTask :=
  { cron with id := cron.ensureId hex, createdAt := now, nextRun := some (next.getD (now + 3600)) }

/-- `create_cron_task`. -/
def createCronTask (faults : Faults) (now : Int) (hex : String) (next : Option Int) (cron : CronTask) : Call Unit :=
  Session.committing (Session.execute (faults.raises 0) (insertTask (created now hex next cron))) (faults.raises 1)

/-- `delete_cron_task`. -/
def deleteCronTask (faults : Faults) (cronId : String) : Call Nat :=
  Session.committing (do
    Session.execute (faults.raises 0) (fun content =>
      .ok ((), { content with cronExecutions := content.cronExecutions.keep (fun r => r.cronTaskId != cronId) }))
    Session.execute (faults.raises 1) (fun content =>
      .ok ((content.cronTasks.select (fun r => r.id == cronId)).length,
        { content with cronTasks := content.cronTasks.delete (fun r => r.id == cronId) }))) (faults.raises 2)

/-- An `UPDATE` of one row of `cron_tasks`. -/
def updateRow (cronId : String) (f : CronTask → CronTask) (hf : ∀ r, (f r).id = r.id) (content : Content) :
    Except EngineError (Nat × Content) :=
  .ok ((content.cronTasks.select (fun r => r.id == cronId)).length,
    { content with cronTasks := content.cronTasks.modify (fun r => r.id == cronId) f hf })

/-- `update_next_run`. -/
def updateNextRun (faults : Faults) (cronId : String) (lastRun nextRun : Int) : Call Nat :=
  Session.committing
    (Session.execute (faults.raises 0)
      (updateRow cronId (fun r => { r with lastRun := some lastRun, nextRun := some nextRun }) (fun _ => rfl)))
    (faults.raises 1)

/-- `set_enabled`. -/
def setEnabled (faults : Faults) (cronId : String) (enabled : Bool) : Call Nat :=
  Session.committing
    (Session.execute (faults.raises 0) (updateRow cronId (fun r => { r with enabled := enabled }) (fun _ => rfl)))
    (faults.raises 1)

/-- An execution is of a cron task that is there. -/
def insertExecution (execution : CronExecution) (content : Content) : Except EngineError (Unit × Content) :=
  if (content.cronTasks.find? execution.cronTaskId).isNone then .error (.integrity "cron_executions")
  else .ok ((), { content with
    cronExecutions := content.cronExecutions.insert (fun id => { execution with id := id }) })

/-- `create_execution`. -/
def createExecution (faults : Faults) (execution : CronExecution) : Call Unit := do
  Session.committing (Session.execute (faults.raises 0) (insertExecution execution)) (faults.raises 1)
  Session.query (faults.raises 2) (fun _ => ())

/-- `update_execution_status`. -/
def updateExecutionStatus (faults : Faults) (execId : Nat) (status : String) (completedAt : Option Int) : Call Unit :=
  Session.committing
    (Session.execute (faults.raises 0) (fun content => .ok ((), { content with
      cronExecutions := content.cronExecutions.modify (fun r => r.id == execId) (fun r =>
        { r with status := status, completedAt := if completedAt.isSome then completedAt else r.completedAt }) })))
    (faults.raises 1)

end CronTaskStore

/-- A call of a public method of one of the stores. The methods that only read are taken together, store by store:
for the task store they run in a transaction, for the others they are one or more `SELECT`s. -/
inductive Operation
  | taskRead (faults : TaskStore.TxFaults)
  | taskWrite (faults reload : TaskStore.TxFaults) (op : Op)
  | taskBatch (newStatus : String) (items : List (Clock × String × TaskStore.TxFaults × TaskStore.TxFaults))
  | reads (faults : List (Option String))
  | blackboardWrite (faults : Faults) (swarmRootId key : String) (args : Blackboard.WriteArgs)
  | blackboardDelete (faults : Faults) (swarmRootId key : String)
  | memorySet (faults : Faults) (args : AgentMemoryStore.SetArgs) (now : Rat)
  | memoryDelete (faults : Faults) (key agentId nameSpace : String)
  | memoryPurge (faults : Faults) (now : Rat)
  | cronCreate (faults : Faults) (now : Int) (hex : String) (next : Option Int) (cron : CronTask)
  | cronDelete (faults : Faults) (cronId : String)
  | cronUpdateNextRun (faults : Faults) (cronId : String) (lastRun nextRun : Int)
  | cronSetEnabled (faults : Faults) (cronId : String) (enabled : Bool)
  | cronCreateExecution (faults : Faults) (execution : CronExecution)
  | cronUpdateExecutionStatus (faults : Faults) (execId : Nat) (status : String) (completedAt : Option Int)

def ignore {α : Type} (x : Call α) : Call Unit := do
  let _ ← x
  return ()

def Operation.call : Operation → Call Unit
  | .taskRead faults => TaskStore.read faults
  | .taskWrite faults reload op => TaskStore.write faults reload op
  | .taskBatch newStatus items => TaskStore.batch newStatus items
  | .reads faults => selects faults
  | .blackboardWrite faults swarmRootId key args => BlackboardStore.write faults swarmRootId key args
  | .blackboardDelete faults swarmRootId key => ignore (BlackboardStore.delete faults swarmRootId key)
  | .memorySet faults args now => ignore (AgentMemoryStore.set faults args now)
  | .memoryDelete faults key agentId nameSpace => ignore (AgentMemoryStore.delete faults key agentId nameSpace)
  | .memoryPurge faults now => ignore (AgentMemoryStore.purgeExpired faults now)
  | .cronCreate faults now hex next cron => CronTaskStore.createCronTask faults now hex next cron
  | .cronDelete faults cronId => ignore (CronTaskStore.deleteCronTask faults cronId)
  | .cronUpdateNextRun faults cronId lastRun nextRun => ignore (CronTaskStore.updateNextRun faults cronId lastRun nextRun)
  | .cronSetEnabled faults cronId enabled => ignore (CronTaskStore.setEnabled faults cronId enabled)
  | .cronCreateExecution faults execution => CronTaskStore.createExecution faults execution
  | .cronUpdateExecutionStatus faults execId status completedAt =>
    CronTaskStore.updateExecutionStatus faults execId status completedAt

/-- The shared connection, with counts of the calls a `BEGIN` was refused to, of the calls that have returned since
the open transaction began, and of such calls whose transaction was rolled back by another call. -/
structure SharedEngine where
  conn : Connection Content
  refused : Nat
  unsaved : Nat
  undone : Nat

namespace SharedEngine

def start (content : Content) : SharedEngine := ⟨.start content, 0, 0, 0⟩

def step (s : SharedEngine) (op : Operation) : SharedEngine :=
  let (result, conn) := op.call s.conn
  let refused := match result with
    | .error .nested => 1
    | _ => 0
  let returned := match result with
    | .ok _ => 1
    | .error _ => 0
  let kept := if conn.rollbacks = s.conn.rollbacks then s.unsaved else 0
  { conn := conn
    refused := s.refused + refused
    unsaved := if conn.working.isNone then 0 else kept + returned
    undone := s.undone + (s.unsaved - kept) }

/-- No transaction is open, none of the calls was refused its `BEGIN`, and no rollback took back what a call before
it had written. -/
structure Hygienic (s : SharedEngine) : Prop where
  closed : s.conn.Closed
  admitted : s.refused = 0
  kept : s.undone = 0

end SharedEngine

end A2ARegistry.Orchestration.Shared
