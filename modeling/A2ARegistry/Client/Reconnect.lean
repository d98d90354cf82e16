import A2ARegistry.Base.Run

namespace A2ARegistry.Client

/-- `WS_RECONNECT_BASE`, in seconds. -/
def wsReconnectBase : Nat := 1

/-- `WS_RECONNECT_MAX`. -/
def wsReconnectMax : Nat := 60

/-- `WS_RECONNECT_FACTOR`. -/
def wsReconnectFactor : Nat := 2

/-- What the loop awaits: the handshake of a connection, with the session and the token before it, its first heartbeat,
a message or the handler of one, the close of a connection that is left open, a new registration, or the end of a
sleep. It is over when it has returned or has raised the `CancelledError`. -/
inductive Phase
  | created
  | connecting
  | greeting
  | listening
  | closing
  | registering
  | sleeping
  | returned
  | raised
deriving DecidableEq, Repr

def Phase.over : Phase → Bool
  | .returned | .raised => true
  | _ => false

/-- How `_ws_connect_single` ends: it returns, or raises a `CancelledError`, a `NotFoundError` or another exception. -/
inductive Ending
  | returned
  | cancelledError
  | notFoundError
  | exception
deriving DecidableEq, Repr

/-- What became of an attempt: it failed, its connection was dropped, or the agent was registered anew after it. -/
inductive Attempt
  | failed
  | dropped
  | registered
deriving DecidableEq, Repr

/-- `_ws_reconnect_loop` at an await. The last three fields are kept beside it: what became of its attempts, the latest
first, the rounds it has begun, each with what had become of the attempts by then and the seconds slept before it, and
how many it had begun when it was cancelled first. -/
structure ReconnectLoop where
  agentId : String
  delay : Nat
  phase : Phase
  attempts : List Attempt
  rounds : List (List Attempt × Nat)
  cancelledAt : Option Nat
deriving DecidableEq, Repr

/-- What an await yields. A connection is left `closed` or open when no more is read from it, and a cancellation is one
of the task, which reaches the loop at its await. -/
inductive LoopEvent
  | begins
  | connectFails (notFound : Bool)
  | connects
  | greeted
  | message
  | listenEnds (closed : Bool)
  | closes
  | registers (newId : String)
  | registerFails
  | wakes
  | cancel (closed : Bool)
deriving DecidableEq, Repr

namespace ReconnectLoop

/-- The loop before its first step. -/
def start (agentId : String) : ReconnectLoop := ⟨agentId, wsReconnectBase, .created, [], [], none⟩

variable (s : ReconnectLoop)

/-- The next round of the loop, after a sleep of so many seconds: `_ws_connect_single` is called. -/
def connect (slept : Nat) : ReconnectLoop :=
  { s with phase := .connecting, rounds := s.rounds ++ [(s.attempts, slept)] }

/-- `await asyncio.sleep(delay)`. -/
def sleep (attempt : Attempt) : ReconnectLoop := { s with phase := .sleeping, attempts := attempt :: s.attempts }

/-- The `except` clauses of the loop, for an attempt that ends. -/
def afterConnect (attempt : Attempt) : Ending → ReconnectLoop
  | .returned => { s with delay := wsReconnectBase, attempts := attempt :: s.attempts }.connect 0
  | .cancelledError => { s with phase := .returned }
  | .notFoundError => { s with phase := .registering }
  | .exception => s.sleep attempt

/-- The `finally` clause around the listening: whatever it ends with, a `ConnectionError` is raised once the connection
is closed. -/
def finallyRaises (_ : Ending) : Ending := .exception

/-- The listening ends. -/
def leave (closed : Bool) (ending : Ending) : ReconnectLoop :=
  if closed then s.afterConnect .dropped (finallyRaises ending) else { s with phase := .closing }

/-- The task is cancelled: the exception is raised at the await. One in the listening is raised again there and comes to
the `finally` clause, one in the `close` within it leaves that clause at once, and those outside
`_ws_connect_single` are caught by none of the loop. -/
def cancelAt (closed : Bool) : ReconnectLoop :=
  let s :=
    { s with
      cancelledAt := if s.phase.over then s.cancelledAt else s.cancelledAt.orElse fun _ => some s.rounds.length }
  match s.phase with
  | .created | .registering | .sleeping => { s with phase := .raised }
  | .connecting | .greeting | .closing => s.afterConnect .failed .cancelledError
  | .listening => s.leave closed .cancelledError
  | .returned | .raised => s

/-- The loop from one await to the next. An event that the await does not yield changes nothing. -/
def step (s : ReconnectLoop) (event : LoopEvent) : ReconnectLoop :=
  match s.phase, event with
  | .created, .begins => s.connect 0
  | .connecting, .connectFails notFound => s.afterConnect .failed (if notFound then .notFoundError else .exception)
  | .connecting, .connects => { s with phase := .greeting }
  | .greeting, .greeted => { s with phase := .listening }
  | .listening, .message => s
  | .listening, .listenEnds closed => s.leave closed .returned
  | .closing, .closes => s.afterConnect .dropped (finallyRaises .returned)
  | .registering, .registers newId =>
    { s with agentId := newId, delay := wsReconnectBase, attempts := .registered :: s.attempts }.connect 0
  | .registering, .registerFails => s.sleep .failed
  | .sleeping, .wakes => { s.connect s.delay with delay := min (s.delay * wsReconnectFactor) wsReconnectMax }
  | _, .cancel closed => s.cancelAt closed
  | _, _ => s

end ReconnectLoop

end A2ARegistry.Client
