import A2ARegistry.Server.Dispatch
import A2ARegistry.Server.StateSync

namespace A2ARegistry.Server
open Base Orchestration

/-- The fields of an entry of `_tasks` that only the handlers of messages assign, and its times.
A key that is not there is `none`. -/
structure Details where
  createdAt : Option Json := none
  startedAt : Option Json := none
  updatedAt : Option Json := none
  progress : Option Json := none
  message : Option Json := none
  metrics : Option Json := none
  errorCode : Option Json := none

/-- The assignment of fields; what is `none` is left alone. -/
def Details.assign (d assigned : Details) : Details where
  createdAt := assigned.createdAt.or d.createdAt
  startedAt := assigned.startedAt.or d.startedAt
  updatedAt := assigned.updatedAt.or d.updatedAt
  progress := assigned.progress.or d.progress
  message := assigned.message.or d.message
  metrics := assigned.metrics.or d.metrics
  errorCode := assigned.errorCode.or d.errorCode

/-- What `time.time()` returns to a handler that writes an entry: as the default of `started_at`,
for a new entry, and for `updated_at`. -/
structure Stamp where
  started : Json
  created : Json
  updated : Json

/-- A request of `_pending_requests`, with the agent it was sent to. Its future is done when the
wait for it has timed out. -/
structure PendingCall where
  agentId : String
  done : Bool
deriving DecidableEq, Repr

/-- What the future of a call is set to. -/
structure Answer where
  status : Json
  result : Json
  error : Json

/-- The server as the messages of the agents find it. -/
structure Inbox extends RegistryHandler where
  details : String → Details
  pendingRequests : String → Option PendingCall
  answers : String → Option Answer

section
variable (data : List (String × Json)) (stamp : Stamp)

/-- What a message assigns to an entry that is there, beside the fields of `Change`. -/
def messageDetails : MessageType → Details
  | .taskAck => {
      startedAt := some (Json.get data "started_at" stamp.started)
      updatedAt := some stamp.updated }
  | .taskProgress => {
      updatedAt := some stamp.updated
      progress := match Json.get data "progress" .null with
        | .null => none
        | progress => some progress
      message := let message := Json.get data "message" .null
        if message.truthy then some message else none }
  | .taskComplete => {
      metrics := some (Json.get data "metrics" .null)
      updatedAt := some stamp.updated }
  | .taskFail => {
      errorCode := some (Json.get data "code" (.str ""))
      updatedAt := some stamp.updated }
  | .taskResult | .stateSync => { updatedAt := some stamp.updated }

/-- What it writes into an entry that it creates. -/
def createdDetails (type : MessageType) : Details :=
  let created : Details := { createdAt := some stamp.created, updatedAt := some stamp.created }
  match type with
  | .taskAck => { created with startedAt := some (Json.get data "started_at" stamp.created) }
  | .taskProgress => { created with
      progress := some (Json.get data "progress" .null)
      message := some (Json.get data "message" .null) }
  | .taskComplete => { created with metrics := some (Json.get data "metrics" .null) }
  | .taskFail => { created with errorCode := some (Json.get data "code" (.str "")) }
  | .taskResult | .stateSync => created

end

namespace Inbox

variable (e : Engine) (s : Inbox) (agentId : String) (data : List (String × Json)) (around : Surroundings)
  (stamps : String → Stamp)

/-- The server after a write of the entry of a task, with the details that go with it: those that are
assigned to the entry that is there, or those of the entry that is created. -/
def write (written : RegistryHandler) (taskId : String) (found created : Details) : Inbox :=
  let details :=
    if (s.record? taskId).isSome then (s.details taskId).assign found
    else if (written.record? taskId).isSome then created
    else s.details taskId
  { s with toRegistryHandler := written, details := Function.update s.details taskId details }

/-- A task of the agent that `_tasks` lost. -/
def restoreTask (s : Inbox) (d : Dispatched) : Inbox :=
  let created := (stamps d.taskId).created
  s.write (Server.restoreTask agentId s.toRegistryHandler d) d.taskId {}
    { createdAt := some created, updatedAt := some created }

def restoreTasks : Inbox :=
  match s.dispatchedWsTasks with
  | none => s
  | some tasks => tasks.rows.foldl (restoreTask agentId stamps) s

/-- The merge of `active_tasks`. -/
def mergeTasks : List Json → Inbox → Nat → Inbox
  | [], s, healed =>
    if healed = 0 then s else { s with toRegistryHandler := s.toRegistryHandler.cancelDanglingTimer agentId }
  | .obj fields :: items, s, healed =>
    match mergedItem fields with
    | none => mergeTasks items s healed
    | some (id, status) =>
      let stamp := stamps id
      let merged := s.write (mergeRecord s.toRegistryHandler agentId id status) id
        { updatedAt := some stamp.updated }
        { startedAt := some (Json.get fields "started_at" stamp.started)
          createdAt := some stamp.created
          updatedAt := some stamp.updated }
      match healTask e merged.toRegistryHandler (around.clocks id) id status with
      | none => mergeTasks items merged healed
      | some healedStore => mergeTasks items { merged with toRegistryHandler := healedStore } (healed + 1)
  | _ :: _, s, _ => s

def handleStateSync : Inbox :=
  let recorded := { s with toRegistryHandler := recordSync s.toRegistryHandler agentId data around.now }
  match syncedItems s.toRegistryHandler agentId data around.now around.card with
  | none => recorded
  | some items => mergeTasks e agentId around stamps items (recorded.restoreTasks agentId stamps) 0

/-- A message about tasks by its type. -/
def handleTaskMessage (type : MessageType) : Inbox :=
  match type with
  | .stateSync => s.handleStateSync e agentId data around stamps
  | type =>
    match messageId data with
    | none => s
    | some id => s.write (Server.handleMessage e s.toRegistryHandler agentId data around type) id
        (messageDetails data (stamps id) type) (createdDetails data (stamps id) type)

/-- The request id of a `sync_call_response`, when it is a text that can be a key. -/
def requestId : Option String :=
  match Json.get data "request_id" (.str "") with
  | .str id => if id = "" then none else some id
  | _ => none

/-- `_resolve_pending`. -/
def resolvePending (requestId : String) (answer : Answer) : Inbox :=
  match s.pendingRequests requestId with
  | none => s
  | some call => { s with
      pendingRequests := Function.update s.pendingRequests requestId none
      answers := if call.done then s.answers else Function.update s.answers requestId (some answer) }

/-- `handle_ws_sync_response`. -/
def handleSyncResponse : Inbox :=
  match requestId data with
  | none => s
  | some id => s.resolvePending id
      { status := Json.get data "status" (.str "error")
        result := Json.get data "result" .null
        error := Json.get data "error" .null }

/-- What the handler of a message does, if it has one. -/
def handle : Inbox :=
  if (Json.get data "type" (.str "")).isWord ["sync_call_response"] then s.handleSyncResponse data
  else match messageType data with
    | none => s
    | some type => s.handleTaskMessage e agentId data around stamps type

/-- A `state_sync` that passes its checks raises on a list that cannot be read, or not to the end. -/
def syncRaises : Bool :=
  if (syncRefusal s.toRegistryHandler agentId data around.now around.card).isSome then false
  else match syncedItems s.toRegistryHandler agentId data around.now around.card with
    | none => true
    | some items => !items.all loggable

/-- A key of a message that a dictionary is asked for and that is a list or an object; an empty one is not
looked up. -/
def unhashable (key : String) : Bool :=
  match Json.get data key (.str "") with
  | .arr items => !items.isEmpty
  | .obj fields => !fields.isEmpty
  | _ => false

/-- The loop of `handle_ws` is left: the agent says so, the type of the message cannot be looked up, or its handler
raises. -/
def endsConnection : Bool :=
  match Json.get data "type" (.str "") with
  | .arr _ | .obj _ => true
  | type =>
    if type.isWord ["close"] then true
    else if type.isWord ["sync_call_response"] then unhashable data "request_id"
    else match messageType data with
      | none => false
      | some .stateSync => s.syncRaises agentId data around
      | some _ => unhashable data "id"

/-- The `finally` of `handle_ws`, as far as it reaches the tasks. -/
def closeConnection (clocks : String → Clock) : Inbox :=
  { s with
    toRegistryHandler := dangleAgentTasks e s.toRegistryHandler agentId clocks
    details := fun k =>
      if (s.record? k).any (fun t => t.active agentId) then
        (s.details k).assign { updatedAt := some (stamps k).updated }
      else s.details k }

/-- A message on the connection of an agent. -/
def receive : Inbox :=
  let handled := s.handle e agentId data around stamps
  if s.endsConnection agentId data around then handled.closeConnection e agentId stamps around.clocks else handled

/-- A call is registered, before it is sent to its agent. -/
def call (requestId agentId : String) : Inbox :=
  { s with
    pendingRequests := Function.update s.pendingRequests requestId (some ⟨agentId, false⟩)
    answers := Function.update s.answers requestId none }

/-- The server before any message. -/
def start (handler : RegistryHandler) : Inbox where
  toRegistryHandler := handler
  details := fun _ => {}
  pendingRequests := fun _ => none
  answers := fun _ => none

@[simp] theorem write_handler (written : RegistryHandler) (taskId : String) (found created : Details) :
    (s.write written taskId found created).toRegistryHandler = written := rfl

theorem restoreTasks_handler : (s.restoreTasks agentId stamps).toRegistryHandler =
    Server.restoreTasks s.toRegistryHandler agentId := by
  unfold restoreTasks Server.restoreTasks
  cases s.dispatchedWsTasks with
  | none => rfl
  | some tasks =>
    dsimp only
    generalize tasks.rows = rows
    induction rows generalizing s with
    | nil => rfl
    | cons d rows ih => exact ih (restoreTask agentId stamps s d)

theorem mergeTasks_handler (items : List Json) (healed : Nat) :
    (mergeTasks e agentId around stamps items s healed).toRegistryHandler =
      Server.mergeTasks e agentId around.clocks items s.toRegistryHandler healed := by
  induction items generalizing s healed with
  | nil =>
    simp only [mergeTasks, Server.mergeTasks]
    split <;> rfl
  | cons item items ih =>
    cases item with
    | obj fields =>
      simp only [mergeTasks, Server.mergeTasks]
      cases mergedItem fields with
      | none => exact ih s healed
      | some listed =>
        dsimp only [write_handler]
        cases healTask e (mergeRecord s.toRegistryHandler agentId listed.1 listed.2)
            (around.clocks listed.1) listed.1 listed.2 with
        | none => exact ih _ healed
        | some healedStore => exact ih _ (healed + 1)
    | _ => rfl

theorem handleStateSync_handler : (s.handleStateSync e agentId data around stamps).toRegistryHandler =
    Server.handleStateSync e s.toRegistryHandler agentId data around.clocks around.now around.card := by
  unfold handleStateSync Server.handleStateSync
  dsimp only
  cases syncedItems s.toRegistryHandler agentId data around.now around.card with
  | none => rfl
  | some items =>
    dsimp only
    rw [mergeTasks_handler, restoreTasks_handler]

theorem handleTaskMessage_handler (type : MessageType) :
    (s.handleTaskMessage e agentId data around stamps type).toRegistryHandler =
      Server.handleMessage e s.toRegistryHandler agentId data around type := by
  cases type with
  | stateSync => exact s.handleStateSync_handler e agentId data around stamps
  | taskAck | taskProgress | taskComplete | taskFail | taskResult =>
    simp only [handleTaskMessage]
    cases hid : messageId data with
    | none =>
      simp [Server.handleMessage, handleTaskAck, handleTaskProgress, handleTaskComplete, handleTaskFail,
        handleTaskResult, hid]
    | some id => rfl

theorem handleSyncResponse_handler : (s.handleSyncResponse data).toRegistryHandler = s.toRegistryHandler := by
  unfold handleSyncResponse resolvePending
  cases requestId data with
  | none => rfl
  | some id =>
    dsimp only
    cases s.pendingRequests id <;> rfl

theorem messageType_sync (h : (Json.get data "type" (.str "")).isWord ["sync_call_response"] = true) :
    messageType data = none := by
  unfold messageType
  cases hword : Json.get data "type" (.str "") with
  | str word =>
    rw [hword] at h
    have hw : word = "sync_call_response" := by simpa [Json.isWord] using h
    subst hw
    rfl
  | _ => rfl

/-- To the tasks and the kanban board a message is what it is without the details. -/
theorem handle_handler : (s.handle e agentId data around stamps).toRegistryHandler =
    (Event.message agentId data around).step e s.toRegistryHandler := by
  simp only [handle, Event.step]
  split
  · rename_i h
    rw [messageType_sync data h]
    exact s.handleSyncResponse_handler data
  · cases messageType data with
    | none => rfl
    | some type => exact s.handleTaskMessage_handler e agentId data around stamps type

/-- Where it ends the connection, the disconnect comes behind it. -/
theorem receive_handler : (s.receive e agentId data around stamps).toRegistryHandler =
    if s.endsConnection agentId data around then
      exec (Event.step e) s.toRegistryHandler [.message agentId data around, .disconnect agentId around.clocks]
    else (Event.message agentId data around).step e s.toRegistryHandler := by
  unfold receive
  dsimp only
  split
  · rw [exec_cons, ← s.handle_handler e agentId data around stamps]
    rfl
  · exact s.handle_handler e agentId data around stamps

end Inbox

end A2ARegistry.Server
