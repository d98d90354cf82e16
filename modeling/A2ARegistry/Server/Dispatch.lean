import A2ARegistry.Base.Run
import A2ARegistry.Orchestration.Store.Ops
import A2ARegistry.Server.Messages

namespace A2ARegistry.Server
open Base Orchestration

/-- `_task_timeout`, in seconds. -/
def taskTimeout : Int := 300

/-- The words `_dangle_agent_tasks` passes over. -/
def settledWords : List String := ["completed", "failed", "cancelled", "dangling"]

/-- The words the timeout worker and the callback endpoint take for final. -/
def finalizedWords : List String := ["completed", "failed", "cancelled"]

/-- The entries a disconnect of the agent marks. -/
def Record.active (t : Record) (agentId : String) : Bool :=
  t.agentId == agentId && !t.state.isWord settledWords

/-- The entries a dangling timeout of the agent fails. -/
def Record.dangles (t : Record) (agentId : String) : Bool :=
  t.agentId == agentId && t.state.isWord ["dangling"]

def dangleChange : Change where
  state := .str "dangling"
  error := some (.str "agent_disconnected_grace")

def graceExpiredChange : Change where
  state := .str "failed"
  error := some (.str "agent_disconnected_timeout")

def timeoutChange : Change where
  state := .str "failed"
  error := some (.str "timeout")

section
variable (e : Engine) (s : RegistryHandler)

/-- The same assignments to every entry that `p` selects. -/
def RegistryHandler.setRecords (p : Record → Bool) (c : Change) : RegistryHandler :=
  { s with tasks := s.tasks.modify p c.apply c.apply_id }

/-- The same update of every kanban task among these that was dispatched. -/
def RegistryHandler.updateAll (clocks : String → Clock) (new : TaskStatus) (value : Json)
    (records : List Record) : RegistryHandler :=
  records.foldl (fun s t => s.updateDispatched e (clocks t.id) t.id new value) s

/-- `_dangle_agent_tasks`. -/
def dangleAgentTasks (agentId : String) (clocks : String → Clock) : RegistryHandler :=
  let dangled := s.tasks.select (fun t => t.active agentId)
  if dangled.isEmpty then s
  else
    let marked := s.setRecords (fun t => t.active agentId) dangleChange
    let cancelled := { marked with
      taskTimers := fun k => if dangled.any (fun t => t.id == k) then none else marked.taskTimers k }
    let synced := cancelled.updateAll e clocks .dangling (.str "Agent disconnected — grace period") dangled
    { synced with danglingTimers := Function.update synced.danglingTimers agentId true }

/-- `_dangle_timeout`, after its sleep. -/
def dangleTimeout (agentId : String) (clocks : String → Clock) : RegistryHandler :=
  let failed := s.tasks.select (fun t => t.dangles agentId)
  let marked := s.setRecords (fun t => t.dangles agentId) graceExpiredChange
  let synced := marked.updateAll e clocks .failed (.str "Dangling grace period expired") failed
  synced.cancelDanglingTimer agentId

/-- The end of `_timeout_worker`, once `task_cancel` is sent. -/
def finishTimeout (taskId : String) (clock : Clock) : RegistryHandler :=
  (s.updateDispatched e clock taskId .failed
    (.str s!"Task timed out after {taskTimeout}s")).cancelTaskTimeout taskId

/-- `_timeout_worker` from its sleep on to the `await` of the `task_cancel` message, which an
agent that is not connected is not sent. -/
def timeoutWorker (taskId : String) (clock : Clock) (connected : Bool) : RegistryHandler :=
  match s.record? taskId with
  | none => s.cancelTaskTimeout taskId
  | some t =>
    if t.state.isWord finalizedWords then s.cancelTaskTimeout taskId
    else
      let failed := s.setRecord taskId timeoutChange
      if connected then
        { failed with taskTimers := Function.update failed.taskTimers taskId (some .cancelling) }
      else finishTimeout e failed taskId clock

end

/-- What keeps a task from being delivered. -/
inductive DispatchError
  | httpStatus (status : Nat)
  | timedOut
  | callback (error : String)
  | fence
  | ws (error : String)
deriving DecidableEq, Repr

/-- The error `handle_dispatch` leaves in the entry of the task. -/
def DispatchError.text : DispatchError → String
  | httpStatus status => s!"Callback returned HTTP {status}"
  | timedOut => "Callback timed out after 30s"
  | callback error => s!"Callback dispatch failed: {error}"
  | fence => "Ingress security fence rejected dispatch"
  | ws error => s!"Dispatch failed: {error}"

/-- The result the dispatcher fails the kanban task with. -/
def DispatchError.kanbanText : DispatchError → String
  | fence => "Security fence rejected dispatch"
  | ws error => error
  | error => error.text

/-- How a V1 dispatch ends. The timeout of the request middleware cancels the handler, which
no `except` clause of its own sees. -/
inductive DispatchEnd
  | delivered
  | failed (error : DispatchError)
  | cancelled
deriving DecidableEq, Repr

section
variable (e : Engine) (s : RegistryHandler)

/-- `handle_dispatch` up to the `await` of its channel; a `uuid4` is no id in use. -/
def beginDispatch (agentId taskId : String) (now : Int) : RegistryHandler :=
  if (s.record? taskId).isSome then s
  else { s with
    tasks := s.tasks.put ⟨taskId, agentId, .str "dispatched", .null, .null, some now⟩
    dispatching := Function.update s.dispatching taskId true }

/-- `handle_dispatch` after the `await`. -/
def endDispatch (taskId : String) (how : DispatchEnd) : RegistryHandler :=
  let ended := { s with dispatching := Function.update s.dispatching taskId false }
  match how with
  | .delivered => (ended.setRecord taskId { state := .str "forwarded" }).scheduleTaskTimeout taskId
  | .failed error =>
    ended.setRecord taskId { state := .str "failed", error := some (.str error.text) }
  | .cancelled => ended

/-- The agent's card, as the callback endpoint reads it: its token, if it has one. -/
structure CallbackCard where
  token : String := ""

/-- The token check of `handle_callback_result`. -/
def callbackAuthorized (card : CallbackCard) (authHeader : String) : Bool :=
  card.token == "" ||
    ("Bearer ".isPrefixOf authHeader &&
      strip (String.ofList (authHeader.toList.drop "Bearer ".length)) == card.token)

/-- `handle_callback_result` up to the `await` of its body; `card` is `none` when the agent of
the task is not registered. -/
def beginCallback (taskId : String) (card : Option CallbackCard) (authHeader : String) :
    RegistryHandler :=
  match s.record? taskId, card with
  | some t, some card =>
    if t.state.isWord finalizedWords || !callbackAuthorized card authHeader then s
    else { s with callbacks := taskId :: s.callbacks }
  | _, _ => s

/-- The error of a callback result. -/
def callbackError (body : List (String × Json)) : Json :=
  let error := Json.get body "error" .null
  if error.truthy then error else .str "Callback reported failure"

/-- A callback result is a failure if it says so or has an error. -/
def callbackFailed (body : List (String × Json)) : Bool :=
  (Json.get body "state" (.str "completed")).isWord ["failed"] || (Json.get body "error" .null).truthy

def callbackChange (body : List (String × Json)) : Change :=
  if callbackFailed body then { state := .str "failed", error := some (callbackError body) }
  else { state := .str "completed", result := some (Json.get body "result" .null) }

/-- `handle_callback_result` after the `await`. -/
def finishCallback (clock : Clock) (taskId : String) (body : List (String × Json)) : RegistryHandler :=
  let written := (s.setRecord taskId (callbackChange body)).cancelTaskTimeout taskId
  if callbackFailed body then
    maybeUpdateKanban e written clock taskId (.str "failed") .null (callbackError body)
  else
    maybeUpdateKanban e written clock taskId (.str "completed") (Json.get body "result" .null) .null

/-- A request whose body is no JSON object, or that is cancelled, ends without a write. -/
def endCallback (clock : Clock) (taskId : String) (body : Option (List (String × Json))) :
    RegistryHandler :=
  if taskId ∈ s.callbacks then
    let ended := { s with callbacks := s.callbacks.erase taskId }
    match body with
    | none => ended
    | some body => finishCallback e ended clock taskId body
  else s

/-- `claim_task` for a dispatch, and the workspace of the task: its path or an error. The
assignee is the one the task had when it was listed. -/
def beginSend (clock : Clock) (taskId assignee : String) (channel : Channel) (pid ttl : Int)
    (workspace : Except String String) : RegistryHandler :=
  let prefixWord := match channel with
    | .callback => "callback"
    | _ => "ws"
  match claimTask s.taskStore clock taskId s!"{prefixWord}-{assignee}" pid ttl with
  | (none, _) => s
  | (some _, db) =>
    let claimed := { s with taskStore := db }
    match workspace with
    | .ok path => { claimed with
        taskStore := updateWorkspacePath db taskId path
        sending := ⟨taskId, assignee, channel⟩ :: s.sending }
    | .error error => claimed.updateStore e clock taskId .failed (.str error)

/-- The end of a send: the task is tracked, or its claim is released as a failure. Nobody
fails a task that could not be re-dispatched. -/
def endSend (clock : Clock) (sent : Sending) (error : Option DispatchError) : RegistryHandler :=
  if sent ∈ s.sending then
    let ended := { s with sending := s.sending.erase sent }
    match error, sent.channel with
    | none, _ => ended.track sent.taskId sent.assignee
    | some _, .reconnect => ended
    | some error, _ => ended.updateStore e clock sent.taskId .failed (.str error.kanbanText)
  else s

/-- The query of `_maybe_dispatch_pending`, up to its order and its limit of 50 rows. -/
def blockedFor (db : Db) (agentId : String) : List String :=
  (db.tasks.select (fun t => t.status == .blocked && t.assignee == some agentId)).map Task.id

/-- The listing of `_maybe_dispatch_pending`, of which `listed` is what the limit lets through. -/
def listPending (agentId : String) (listed : List String) : RegistryHandler :=
  let blocked := listed.filter (fun id => id ∈ blockedFor s.taskStore agentId)
  { s with pending := blocked.map (fun id => (agentId, id)) ++ s.pending }

/-- One task of the loop of `_maybe_dispatch_pending`, up to the `await` of its message. -/
def redispatch (clock : Clock) (agentId taskId : String) : RegistryHandler :=
  if s.pending.contains (agentId, taskId) then
    let taken := { s with pending := s.pending.erase (agentId, taskId) }
    match reportStatus e s.taskStore clock taskId .running .null with
    | none => taken
    | some db => { taken with
        taskStore := db
        sending := ⟨taskId, agentId, .reconnect⟩ :: s.sending }
  else s

end

/-- The message types that reach the tasks. -/
inductive MessageType
  | taskAck | taskProgress | taskComplete | taskFail | taskResult | stateSync
deriving DecidableEq, Repr

/-- The handler map of `create_default_router`, as far as it reaches the tasks. -/
def MessageType.ofText? : String → Option MessageType
  | "task_ack" => some taskAck
  | "task_progress" => some taskProgress
  | "task_complete" => some taskComplete
  | "task_fail" => some taskFail
  | "task_result" => some taskResult
  | "state_sync" => some stateSync
  | _ => none

/-- What a handler reads of its surroundings: the clock of the store call it makes for a task,
the time, and the `disabled` flag of the agent's card. -/
structure Surroundings where
  clocks : String → Clock
  now : Int
  card : Option Bool

/-- The step of the server between two `await`s. -/
inductive Event
  | storeCall (op : Op)
  | message (agentId : String) (data : List (String × Json)) (around : Surroundings)
  | disconnect (agentId : String) (clocks : String → Clock)
  | danglingExpires (agentId : String) (clocks : String → Clock)
  | timeoutExpires (taskId : String) (clock : Clock) (connected : Bool)
  | timeoutSent (taskId : String) (clock : Clock)
  | dispatchBegins (agentId taskId : String) (now : Int)
  | dispatchEnds (taskId : String) (how : DispatchEnd)
  | callbackBegins (taskId : String) (card : Option CallbackCard) (authHeader : String)
  | callbackEnds (taskId : String) (clock : Clock) (body : Option (List (String × Json)))
  | sendBegins (clock : Clock) (taskId assignee : String) (channel : Channel) (pid ttl : Int)
      (workspace : Except String String)
  | sendEnds (clock : Clock) (sent : Sending) (error : Option DispatchError)
  | reconnect (agentId : String) (listed : List String)
  | redispatches (clock : Clock) (agentId taskId : String)

/-- A message by its type. -/
def handleMessage (e : Engine) (s : RegistryHandler) (agentId : String) (data : List (String × Json))
    (around : Surroundings) : MessageType → RegistryHandler
  | .taskAck => handleTaskAck data e s agentId around.clocks
  | .taskProgress => handleTaskProgress data e s agentId around.clocks
  | .taskComplete => handleTaskComplete data e s agentId around.clocks
  | .taskFail => handleTaskFail data e s agentId around.clocks
  | .taskResult => handleTaskResult data e s agentId around.clocks
  | .stateSync => handleStateSync e s agentId data around.clocks around.now around.card

/-- The type of a message, if it has a handler. -/
def messageType (data : List (String × Json)) : Option MessageType :=
  match Json.get data "type" (.str "") with
  | .str word => MessageType.ofText? word
  | _ => none

/-- The server after an event. What is not under way cannot end, and a timer that is not
live cannot expire. -/
def Event.step (e : Engine) (s : RegistryHandler) : Event → RegistryHandler
  | .storeCall op => { s with taskStore := Orchestration.step s.taskStore op }
  | .message agentId data around =>
    match messageType data with
    | none => s
    | some type => handleMessage e s agentId data around type
  | .disconnect agentId clocks => dangleAgentTasks e s agentId clocks
  | .danglingExpires agentId clocks =>
    if s.danglingTimers agentId then dangleTimeout e s agentId clocks else s
  | .timeoutExpires taskId clock connected =>
    if s.taskTimers taskId = some .sleeping then timeoutWorker e s taskId clock connected else s
  | .timeoutSent taskId clock =>
    if s.taskTimers taskId = some .cancelling then finishTimeout e s taskId clock else s
  | .dispatchBegins agentId taskId now => beginDispatch s agentId taskId now
  | .dispatchEnds taskId how => if s.dispatching taskId then endDispatch s taskId how else s
  | .callbackBegins taskId card authHeader => beginCallback s taskId card authHeader
  | .callbackEnds taskId clock body => endCallback e s clock taskId body
  | .sendBegins clock taskId assignee channel pid ttl workspace =>
    if s.dispatchedWsTasks.isSome then
      beginSend e s clock taskId assignee channel pid ttl workspace
    else s
  | .sendEnds clock sent error => endSend e s clock sent error
  | .reconnect agentId listed => listPending s agentId listed
  | .redispatches clock agentId taskId => redispatch e s clock agentId taskId

end A2ARegistry.Server
