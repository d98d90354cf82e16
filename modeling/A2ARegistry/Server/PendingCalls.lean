import A2ARegistry.Server.SyncCall

namespace A2ARegistry.Server
open Base Orchestration Security

/-- The future of a call. -/
inductive CallFuture
  | unset
  | result (answer : Answer)
  | cancelled

/-- Where `handle_sync_call` stands once it has registered its request: in `send_json`, in `wait_for`, or at its
end, with what came of the call; a handler that is cancelled answers nothing. -/
inductive CallPhase
  | sending (timeout : Json)
  | waiting (timeout : Json)
  | ended (delivery : Option Delivery)

/-- A running `handle_sync_call`, from where it has drawn the id of its request. -/
structure CallHandler where
  requestId : String
  phase : CallPhase

/-- The handlers, each with its future, and the table of requests, which names the handler whose future it holds. -/
structure SyncCalls where
  handlers : Nat → Option CallHandler
  futures : Nat → CallFuture
  pendingRequests : String → Option Nat

/-- What a handler is given. -/
structure SyncRequest where
  db : Db
  draw : SyncDraw
  caller : CallerIdentity
  body : List (String × Json)

namespace SyncRequest

variable (h : SyncCallHandler) (r : SyncRequest)

def requestId : String := "sync_" ++ r.draw.requestHex

/-- `timeout_seconds`. -/
def timeout : Json := Json.get r.body "timeout_seconds" (.float "3.0")

/-- The envelope of a call that passes the checks of its body and the entry barriers. -/
def envelope? : Option TaskEnvelope :=
  match strippedField r.body "agent_id", strippedField r.body "skill" with
  | some agentId, some skill =>
    if agentId = "" || skill = "" then none
    else
      let envelope := envelopeOf r.draw r.caller r.body skill
      if (runEntryBarriers h r.db r.draw r.caller envelope).isSome then none else some envelope
  | _, _ => none

end SyncRequest

/-- `wait_for` compares the value with zero and adds it to the time of the loop: that takes a number that fits a
float, and `None` is no timeout. -/
def timeoutAccepted : Json → Bool
  | .null | .bool _ | .float _ => true
  | .int n => n < 2 ^ 1024 - 2 ^ 970
  | .str _ | .arr _ | .obj _ => false

/-- What happens to the handlers: a request comes in, a message is sent or cannot be sent, an agent answers, a
wait runs out, a handler goes on with a future that is done, or a handler is cancelled. -/
inductive SyncEvent
  | request (n : Nat) (request : SyncRequest) (connected : Bool)
  | sent (n : Nat)
  | sendFailed (n : Nat) (error : String)
  | response (data : List (String × Json))
  | expired (n : Nat)
  | resumed (n : Nat)
  | cancelled (n : Nat)

namespace SyncCalls

variable (h : SyncCallHandler) (s : SyncCalls)

def start : SyncCalls := ⟨fun _ => none, fun _ => .unset, fun _ => none⟩

def setHandler (n : Nat) (handler : CallHandler) : SyncCalls :=
  { s with handlers := Function.update s.handlers n (some handler) }

def setFuture (n : Nat) (future : CallFuture) : SyncCalls :=
  { s with futures := Function.update s.futures n future }

/-- `_pending_requests[request_id] = fut`. -/
def register (requestId : String) (n : Nat) : SyncCalls :=
  { s with pendingRequests := Function.update s.pendingRequests requestId (some n) }

/-- `_pending_requests.pop(request_id, None)`. -/
def unregister (requestId : String) : SyncCalls :=
  { s with pendingRequests := Function.update s.pendingRequests requestId none }

/-- `_resolve_pending`. -/
def resolvePending (requestId : String) (answer : Answer) : SyncCalls :=
  match s.pendingRequests requestId with
  | none => s
  | some n =>
    match s.futures n with
    | .unset => (s.unregister requestId).setFuture n (.result answer)
    | _ => s.unregister requestId

/-- The answer in a `sync_call_response`. -/
def answerOf (data : List (String × Json)) : Answer where
  status := Json.get data "status" (.str "error")
  result := Json.get data "result" .null
  error := Json.get data "error" .null

/-- A request that is refused, or whose agent is not connected, draws no id. -/
def begin (n : Nat) (r : SyncRequest) (connected : Bool) : SyncCalls :=
  if (r.envelope? h).isSome && connected && (s.handlers n).isNone then
    ((s.register r.requestId n).setFuture n .unset).setHandler n ⟨r.requestId, .sending r.timeout⟩
  else s

/-- The handler after `send_json`. A value that `wait_for` does not take is not caught. -/
def afterSend (n : Nat) : SyncCalls :=
  match s.handlers n with
  | none => s
  | some handler =>
    match handler.phase with
    | .sending timeout =>
      let phase := if timeoutAccepted timeout then .waiting timeout else .ended (some .raised)
      s.setHandler n { handler with phase := phase }
    | _ => s

def afterSendFailed (n : Nat) (error : String) : SyncCalls :=
  match s.handlers n with
  | none => s
  | some handler =>
    match handler.phase with
    | .sending _ =>
      (s.unregister handler.requestId).setHandler n { handler with phase := .ended (some (.sendFailed error)) }
    | _ => s

/-- The timer of `wait_for` cancels the future; `None` sets no timer. -/
def expire (n : Nat) : SyncCalls :=
  match s.handlers n, s.futures n with
  | some ⟨_, .waiting .null⟩, _ => s
  | some ⟨_, .waiting _⟩, .unset => s.setFuture n .cancelled
  | _, _ => s

/-- The handler behind `wait_for`. -/
def resume (n : Nat) : SyncCalls :=
  match s.handlers n with
  | none => s
  | some handler =>
    match handler.phase, s.futures n with
    | .waiting _, .result answer => s.setHandler n { handler with phase := .ended (some (.answered answer)) }
    | .waiting _, .cancelled =>
      (s.unregister handler.requestId).setHandler n { handler with phase := .ended (some .timedOut) }
    | _, _ => s

/-- `CancelledError` is no `Exception` and no `TimeoutError`: no clause of the function catches it. `wait_for`
cancels the future on its way out. -/
def cancel (n : Nat) : SyncCalls :=
  match s.handlers n with
  | none => s
  | some handler =>
    match handler.phase, s.futures n with
    | .ended _, _ => s
    | .waiting _, .unset => (s.setFuture n .cancelled).setHandler n { handler with phase := .ended none }
    | _, _ => s.setHandler n { handler with phase := .ended none }

def step : SyncEvent → SyncCalls
  | .request n r connected => s.begin h n r connected
  | .sent n => s.afterSend n
  | .sendFailed n error => s.afterSendFailed n error
  | .response data =>
    match Inbox.requestId data with
    | none => s
    | some id => s.resolvePending id (answerOf data)
  | .expired n => s.expire n
  | .resumed n => s.resume n
  | .cancelled n => s.cancel n

section
variable (n : Nat) (handler : CallHandler) (future : CallFuture) (id : String) (m : Nat) (k : String)

@[simp] theorem handlers_setHandler :
    (s.setHandler n handler).handlers m = if m = n then some handler else s.handlers m := by
  simp [setHandler, Function.update_apply]

@[simp] theorem futures_setHandler : (s.setHandler n handler).futures = s.futures := rfl

@[simp] theorem pending_setHandler : (s.setHandler n handler).pendingRequests = s.pendingRequests := rfl

@[simp] theorem handlers_setFuture : (s.setFuture n future).handlers = s.handlers := rfl

@[simp] theorem futures_setFuture : (s.setFuture n future).futures m = if m = n then future else s.futures m := by
  simp [setFuture, Function.update_apply]

@[simp] theorem pending_setFuture : (s.setFuture n future).pendingRequests = s.pendingRequests := rfl

@[simp] theorem handlers_register : (s.register id n).handlers = s.handlers := rfl

@[simp] theorem futures_register : (s.register id n).futures = s.futures := rfl

@[simp] theorem pending_register : (s.register id n).pendingRequests k =
    if k = id then some n else s.pendingRequests k := by
  simp [register, Function.update_apply]

@[simp] theorem handlers_unregister : (s.unregister id).handlers = s.handlers := rfl

@[simp] theorem futures_unregister : (s.unregister id).futures = s.futures := rfl

@[simp] theorem pending_unregister :
    (s.unregister id).pendingRequests k = if k = id then none else s.pendingRequests k := by
  simp [unregister, Function.update_apply]

end

end SyncCalls

end A2ARegistry.Server
