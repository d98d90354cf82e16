import A2ARegistry.Base.Text
import A2ARegistry.Server.State

namespace A2ARegistry.Server
open Base Orchestration

/-- The `result` argument of a completion: only an object is dumped. -/
def completionValue (e : Engine) : Json → Json
  | .obj fields => .str (e.dumps (.obj fields))
  | result => result

/-- `error or str(result) if result else "Agent reported failure"`: the conditional binds
weaker than `or`, so without a result the error is not looked at. -/
def failureValue (e : Engine) (result error : Json) : Json :=
  if result.truthy then (if error.truthy then error else .str (e.str result))
  else .str "Agent reported failure"

/-- `_reconcile_task_store`. -/
def reconcileTaskStore (e : Engine) (s : RegistryHandler) (clock : Clock) (taskId : String)
    (status result error : Json) : RegistryHandler :=
  if status.isWord ["running"] then s.updateDispatched e clock taskId .running .null
  else if status.isWord ["completed", "success"] then
    s.updateDispatched e clock taskId .completed (completionValue e result)
  else if status.isWord ["failed", "error"] then
    s.updateDispatched e clock taskId .failed (failureValue e result error)
  else s

/-- `_maybe_update_kanban`. -/
def maybeUpdateKanban (e : Engine) (s : RegistryHandler) (clock : Clock) (taskId : String)
    (status result error : Json) : RegistryHandler :=
  if status.isWord ["completed", "success"] then
    s.updateDispatched e clock taskId .completed (completionValue e result)
  else if status.isWord ["failed", "error"] then
    s.updateDispatched e clock taskId .failed (failureValue e result error)
  else s

/-- The task id of a message; `none` when it is falsy, and when it is no text. -/
def messageId (data : List (String × Json)) : Option String :=
  match Json.get data "id" (.str "") with
  | .str id => if id = "" then none else some id
  | _ => none

/-- The status, result and error a handler passes to `_reconcile_task_store`. -/
structure Outcome where
  status : Json
  result : Json := .null
  error : Json := .null

/-- The body of the task message handlers: the entry is updated or created, the kanban task is
reconciled, and the timer of the task is reset or cancelled. -/
def reportTask (e : Engine) (s : RegistryHandler) (agentId : String) (clock : Clock) (taskId : String)
    (change : Change) (outcome : Option Outcome) (resets : Bool) : RegistryHandler :=
  let written := s.writeRecord agentId taskId change
  let reconciled := match outcome with
    | none => written
    | some o => reconcileTaskStore e written clock taskId o.status o.result o.error
  if resets then reconciled.scheduleTaskTimeout taskId else reconciled.cancelTaskTimeout taskId

section
variable (data : List (String × Json))

def ackChange : Change := { state := Json.get data "status" (.str "accepted") }

def progressChange : Change := { state := Json.get data "status" (.str "working") }

def completeChange : Change where
  state := .str "completed"
  result := some (Json.get data "result" (.obj []))
  error := some .null

def failChange : Change where
  state := .str "failed"
  error := some (Json.get data "error" (.str "Unknown error"))

def resultChange : Change where
  state := Json.get data "status" (.str "completed")
  result := some (Json.get data "result" (.obj []))
  error := some (Json.get data "error" .null)

variable (e : Engine) (s : RegistryHandler) (agentId : String) (clocks : String → Clock)

def handleTaskAck : RegistryHandler :=
  match messageId data with
  | none => s
  | some id => reportTask e s agentId (clocks id) id (ackChange data)
      (some { status := .str TaskStatus.running.value }) true

def handleTaskProgress : RegistryHandler :=
  match messageId data with
  | none => s
  | some id => reportTask e s agentId (clocks id) id (progressChange data) none true

def handleTaskComplete : RegistryHandler :=
  match messageId data with
  | none => s
  | some id => reportTask e s agentId (clocks id) id (completeChange data)
      (some { status := .str TaskStatus.completed.value, result := Json.get data "result" .null }) false

def handleTaskFail : RegistryHandler :=
  match messageId data with
  | none => s
  | some id => reportTask e s agentId (clocks id) id (failChange data)
      (some { status := .str TaskStatus.failed.value,
              error := Json.get data "error" (.str "Unknown error") }) false

def handleTaskResult : RegistryHandler :=
  match messageId data with
  | none => s
  | some id => reportTask e s agentId (clocks id) id (resultChange data)
      (some { status := Json.get data "status" (.str "completed"),
              result := Json.get data "result" .null
              error := Json.get data "error" .null }) false

end

/-- `_STATE_SYNC_COOLDOWN`, in microseconds. -/
def stateSyncCooldown : Int := 30000000

/-- `_check_state_sync_rate_limit`: whether a request at this time passes. -/
def stateSyncAllowed (s : RegistryHandler) (agentId : String) (now : Int) : Bool :=
  !(now - s.stateSyncLast agentId < stateSyncCooldown && 0 < s.stateSyncLast agentId)

/-- `"id" in t` and `t["id"]` raise on no part of the item, and the id can be hashed. -/
def idReadable : Json → Bool
  | .obj fields => match Json.get fields "id" .null with
    | .arr _ | .obj _ => false
    | _ => true
  | .str s => !contains s "id"
  | .arr items => !items.any (fun i => i.isWord ["id"])
  | _ => false

/-- A restored entry: a task of the agent that was dispatched and that `_tasks` lost. -/
def restoreTask (agentId : String) (s : RegistryHandler) (d : Dispatched) : RegistryHandler :=
  if d.assignee != agentId || (s.record? d.taskId).isSome then s
  else match s.taskStore.task? d.taskId with
    | none => s
    | some row =>
      if row.status = .completed ∨ row.status = .failed then s
      else s.writeRecord agentId d.taskId { state := .str row.status.value }

def restoreTasks (s : RegistryHandler) (agentId : String) : RegistryHandler :=
  match s.dispatchedWsTasks with
  | none => s
  | some tasks => tasks.rows.foldl (restoreTask agentId) s

/-- The healing of a kanban task that is dangling; `none` when nothing is healed. -/
def healTask (e : Engine) (s : RegistryHandler) (clock : Clock) (taskId : String) (status : Json) :
    Option RegistryHandler :=
  if status.isWord ["working", "running", "accepted"] && s.isDispatched taskId then
    match s.taskStore.task? taskId with
    | none => none
    | some row =>
      if row.status = .dangling then
        (reportStatus e s.taskStore clock taskId .running .null).map
          (fun db => { s with taskStore := db })
      else none
  else none

/-- The id and status of an item, if the merge looks at it. -/
def mergedItem (fields : List (String × Json)) : Option (String × Json) :=
  match Json.get fields "id" .null with
  | .str id =>
    let status := Json.get fields "status" .null
    if id = "" || !status.truthy then none else some (id, status)
  | _ => none

/-- The entry a reported task gets; a task reported as finished is not created. -/
def mergeRecord (s : RegistryHandler) (agentId taskId : String) (status : Json) : RegistryHandler :=
  if (s.record? taskId).isSome || !status.isWord ["completed", "failed", "success", "done"] then
    s.writeRecord agentId taskId { state := status }
  else s

/-- The merge of `active_tasks`, with the number of healed tasks so far; `.get` raises on an
item that is no object. -/
def mergeTasks (e : Engine) (agentId : String) (clocks : String → Clock) :
    List Json → RegistryHandler → Nat → RegistryHandler
  | [], s, healed => if healed = 0 then s else s.cancelDanglingTimer agentId
  | .obj fields :: items, s, healed =>
    match mergedItem fields with
    | none => mergeTasks e agentId clocks items s healed
    | some (id, status) =>
      let merged := mergeRecord s agentId id status
      match healTask e merged (clocks id) id status with
      | none => mergeTasks e agentId clocks items merged healed
      | some s' => mergeTasks e agentId clocks items s' (healed + 1)
  | _ :: _, s, _ => s

/-- The items of a `state_sync` that passes every check: the agent is the owner of the
connection, not rate limited, registered and not disabled, and its list can be read. `card` is
the `disabled` flag of the agent's card. -/
def syncedItems (s : RegistryHandler) (agentId : String) (data : List (String × Json)) (now : Int)
    (card : Option Bool) : Option (List Json) :=
  let claimed := Json.get data "agent_id" (.str "")
  if claimed.truthy && !claimed.isWord [agentId] then none
  else if !stateSyncAllowed s agentId now then none
  else if card != some false then none
  else (Json.get data "active_tasks" (.arr [])).iterate.filter (fun items => items.all idReadable)

/-- The state `_check_state_sync_rate_limit` leaves, if the request gets that far. -/
def recordSync (s : RegistryHandler) (agentId : String) (data : List (String × Json)) (now : Int) :
    RegistryHandler :=
  let claimed := Json.get data "agent_id" (.str "")
  if (claimed.truthy && !claimed.isWord [agentId]) || !stateSyncAllowed s agentId now then s
  else { s with stateSyncLast := Function.update s.stateSyncLast agentId now }

def handleStateSync (e : Engine) (s : RegistryHandler) (agentId : String) (data : List (String × Json))
    (clocks : String → Clock) (now : Int) (card : Option Bool) : RegistryHandler :=
  let recorded := recordSync s agentId data now
  match syncedItems s agentId data now card with
  | none => recorded
  | some items => mergeTasks e agentId clocks items (restoreTasks recorded agentId) 0

end A2ARegistry.Server
