import Mathlib.Logic.Function.Basic
import A2ARegistry.Base.Json
import A2ARegistry.Base.Run
import A2ARegistry.Base.Table

namespace A2ARegistry.Admin
open Base

/-- `_make_session_id`: from the request id, if there is one, or else from the clock, in milliseconds. -/
def makeSessionId (requestId : String) (now : Rat) : String :=
  if requestId ≠ "" then "admin-ws-" ++ String.ofList (requestId.toList.take 16)
  else "admin-ws-" ++ toString (now * 1000).floor

/-- An entry of `_connections`; sockets are numbered. -/
structure Entry where
  sessionId : String
  socket : Nat
deriving DecidableEq, Repr

instance : Keyed String Entry := ⟨Entry.sessionId⟩

/-- A socket that was accepted, with the id its handler has computed. The handler is in its listen loop, and
the heartbeat task has been started and neither ended nor been cancelled. -/
structure Socket where
  sessionId : String
  closed : Bool := false
  serving : Bool := true
  beating : Bool := true

inductive Kind
  | update | progress

/-- A broadcast under way: the entries it has still to go through, and the ids of those it found stale. -/
structure Broadcast where
  kind : Kind
  taskId : String
  remaining : List Entry
  stale : List String := []

structure AdminWSHub where
  connections : Table Entry
  subscriptions : String → Option (List Json)
  progressSubs : String → Option (List Json)
  heartbeatTasks : String → Option Nat
  sockets : Nat → Option Socket
  broadcasts : Nat → Option Broadcast

/-- What comes of sending a message: a reset or aborted connection, or another error. -/
inductive Sent
  | ok | reset | failed
deriving DecidableEq

/-- How a heartbeat task goes wrong: no pong in time, a reset connection, or another error. -/
inductive Beat
  | timeout | reset | failed
deriving DecidableEq

/-- `set(task_ids)`, of a value that can be iterated and whose items have a hash. -/
def setOf (taskIds : Json) : Option (List Json) :=
  taskIds.iterate.bind (fun items => if items.all Json.isLeaf then some items else none)

namespace AdminWSHub

def initial : AdminWSHub where
  connections := Table.empty
  subscriptions := fun _ => none
  progressSubs := fun _ => none
  heartbeatTasks := fun _ => none
  sockets := fun _ => none
  broadcasts := fun _ => none

variable (hub : AdminWSHub)

/-- `disconnect`. The heartbeat task that is found under the id is cancelled; the close of the socket is left
to the event loop. -/
def disconnect (sessionId : String) : AdminWSHub :=
  match hub.connections.find? sessionId with
  | none => hub
  | some _ => { hub with
      connections := hub.connections.delete (fun entry => entry.sessionId == sessionId)
      subscriptions := Function.update hub.subscriptions sessionId none
      progressSubs := Function.update hub.progressSubs sessionId none
      heartbeatTasks := Function.update hub.heartbeatTasks sessionId none
      sockets := fun c => (hub.sockets c).map (fun socket =>
        if hub.heartbeatTasks sessionId = some c then { socket with beating := false } else socket) }

def setSocket (c : Nat) (socket : Socket) : AdminWSHub :=
  { hub with sockets := Function.update hub.sockets c (some socket) }

def setBroadcast (b : Nat) (bc : Option Broadcast) : AdminWSHub :=
  { hub with broadcasts := Function.update hub.broadcasts b bc }

theorem setSocket_sockets (c d : Nat) (socket : Socket) :
    (hub.setSocket c socket).sockets d = if d = c then some socket else hub.sockets d :=
  Function.update_apply ..

theorem setBroadcast_broadcasts (b b' : Nat) (bc : Option Broadcast) :
    (hub.setBroadcast b bc).broadcasts b' = if b' = b then bc else hub.broadcasts b' :=
  Function.update_apply ..

section Sessions

/-- `register`, up to its listen loop. A number that is taken is not given to another socket. -/
def register (c : Nat) (requestId : String) (now : Rat) : AdminWSHub :=
  match hub.sockets c with
  | some _ => hub
  | none =>
    let sessionId := makeSessionId requestId now
    { hub with
      connections := hub.connections.put ⟨sessionId, c⟩
      subscriptions := Function.update hub.subscriptions sessionId (some [])
      progressSubs := Function.update hub.progressSubs sessionId (some [])
      heartbeatTasks := Function.update hub.heartbeatTasks sessionId (some c)
      sockets := Function.update hub.sockets c (some { sessionId := sessionId }) }

def setSubscription (sessionId : String) (taskIds : List Json) : AdminWSHub :=
  { hub with subscriptions := Function.update hub.subscriptions sessionId (some taskIds) }

def setProgress (sessionId : String) (taskIds : List Json) : AdminWSHub :=
  { hub with progressSubs := Function.update hub.progressSubs sessionId (some taskIds) }

/-- `subscribe`; `none` when it raises. The empty set stands for all tasks. -/
def subscribe (sessionId : String) (taskIds : Json) : Option AdminWSHub :=
  match hub.connections.find? sessionId with
  | none => some hub
  | some _ =>
    match taskIds with
    | .null => some (hub.setSubscription sessionId [])
    | taskIds => (setOf taskIds).map (hub.setSubscription sessionId)

/-- A message of a session, in its listen loop; `none` when it raises. -/
def onMessage (sessionId : String) : Json → Option AdminWSHub
  | .obj data =>
    match Json.get data "type" (.str "") with
    | .str "subscribe" => hub.subscribe sessionId (Json.field data "task_ids")
    | .str "subscribe_all" => some (hub.setSubscription sessionId [])
    | .str "subscribe_progress" =>
      match Json.field data "task_ids" with
      | .arr taskIds => (setOf (.arr taskIds)).map (hub.setProgress sessionId)
      | _ => some hub
    | _ => some hub
  | _ => none

/-- The end of a handler: its `finally`. -/
def leave (c : Nat) (socket : Socket) : AdminWSHub :=
  (hub.setSocket c { socket with serving := false }).disconnect socket.sessionId

/-- A text message on a socket, `none` when it is not JSON. -/
def receive (c : Nat) (data : Option Json) : AdminWSHub :=
  match hub.sockets c, data with
  | some socket, some data =>
    if socket.serving then (hub.onMessage socket.sessionId data).getD (hub.leave c socket) else hub
  | _, _ => hub

/-- The listen loop is over: the client has closed, an error has come, or the handler is cancelled. -/
def finish (c : Nat) : AdminWSHub :=
  match hub.sockets c with
  | none => hub
  | some socket => if socket.serving then hub.leave c socket else hub

/-- A socket is closed, by its peer or by the event loop. -/
def close (c : Nat) : AdminWSHub :=
  match hub.sockets c with
  | none => hub
  | some socket => hub.setSocket c { socket with closed := true }

/-- The end of a heartbeat task. -/
def beat (c : Nat) (outcome : Beat) : AdminWSHub :=
  match hub.sockets c with
  | none => hub
  | some socket =>
    if socket.beating then
      let ended := hub.setSocket c { socket with beating := false }
      if outcome = .failed then ended else ended.disconnect socket.sessionId
    else hub

end Sessions

section Broadcasts

/-- `task_id in subs`. -/
def covers (subs : List Json) (taskId : String) : Bool := subs.any (Json.isWord [taskId])

/-- `not ws.closed`. -/
def isOpen (c : Nat) : Bool := (hub.sockets c).any (fun socket => !socket.closed)

/-- An entry is found stale: its socket is closed, or the message that is due to it cannot be sent. To a session
with subscriptions to progress only those count for progress, and an error but a reset is only logged. -/
def foundStale (b : Broadcast) (entry : Entry) (outcome : Sent) : Bool :=
  let subs := (hub.subscriptions entry.sessionId).getD []
  let progSubs := (hub.progressSubs entry.sessionId).getD []
  if !hub.isOpen entry.socket then true
  else match b.kind, progSubs with
    | .progress, id :: ids => covers (id :: ids) b.taskId && decide (outcome = .reset)
    | _, _ => (subs.isEmpty || covers subs b.taskId) && decide (outcome ≠ .ok)

/-- `_broadcast` and `_broadcast_progress`, up to their loops: the connections are copied. -/
def broadcast (b : Nat) (kind : Kind) (taskId : String) : AdminWSHub :=
  if hub.connections.rows.isEmpty || (hub.broadcasts b).isSome then hub
  else hub.setBroadcast b (some ⟨kind, taskId, hub.connections.rows, []⟩)

/-- The next entry of a broadcast, with what comes of the message to it. -/
def send (b : Nat) (outcome : Sent) : AdminWSHub :=
  match hub.broadcasts b with
  | some ⟨kind, taskId, entry :: remaining, stale⟩ =>
    let stale' := if hub.foundStale ⟨kind, taskId, entry :: remaining, stale⟩ entry outcome
      then stale ++ [entry.sessionId] else stale
    hub.setBroadcast b (some ⟨kind, taskId, remaining, stale'⟩)
  | _ => hub

/-- The end of a broadcast: what it found stale is disconnected. -/
def clean (b : Nat) : AdminWSHub :=
  match hub.broadcasts b with
  | some ⟨_, _, [], stale⟩ =>
    stale.foldl disconnect (hub.setBroadcast b none)
  | _ => hub

/-- The sockets that `broadcast_to_all` sends a message to. -/
def broadcastToAll : List Nat := (hub.connections.rows.map Entry.socket).filter hub.isOpen

end Broadcasts

end AdminWSHub

/-- What happens at the hub, between two points where the event loop may turn to something else. -/
inductive Event
  | register (c : Nat) (requestId : String) (now : Rat)
  | receive (c : Nat) (data : Option Json)
  | finish (c : Nat)
  | close (c : Nat)
  | beat (c : Nat) (outcome : Beat)
  | broadcast (b : Nat) (kind : Kind) (taskId : String)
  | send (b : Nat) (outcome : Sent)
  | clean (b : Nat)

def AdminWSHub.step (hub : AdminWSHub) : Event → AdminWSHub
  | .register c requestId now => hub.register c requestId now
  | .receive c data => hub.receive c data
  | .finish c => hub.finish c
  | .close c => hub.close c
  | .beat c outcome => hub.beat c outcome
  | .broadcast b kind taskId => hub.broadcast b kind taskId
  | .send b outcome => hub.send b outcome
  | .clean b => hub.clean b

end A2ARegistry.Admin
