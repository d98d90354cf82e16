import A2ARegistry.Auth.Store
import A2ARegistry.Registry.Handlers
import A2ARegistry.Server.Dispatch

namespace A2ARegistry.Server
open Base Orchestration

/-- Who closed a connection: its own side, which is its peer or the end of its handler, or the handler
of a newer connection. -/
inductive Closer
  | own | replacement
deriving DecidableEq, Repr

/-- Where the handler of an open request stands, at an `await` of `handle_ws`. -/
inductive Phase
  /-- the `close` message to the connection it replaces is being sent -/
  | greeting (old : Nat)
  /-- the connection it replaces is being closed -/
  | closing (old : Nat)
  /-- registered, and reading messages -/
  | serving
  /-- its loop is over and its own connection is being closed -/
  | leaving (wasRegistered : Bool)
  | gone
deriving DecidableEq, Repr

/-- A WebSocket of an agent, and its handler. -/
structure Connection where
  agentId : String
  phase : Phase
  closed : Option Closer
deriving DecidableEq, Repr

/-- The server with the connections of its agents. `registered` is `_ws_connections`; connections are
numbered in the order in which they were prepared. -/
structure Hub extends RegistryHandler where
  connections : Nat → Option Connection
  next : Nat
  registered : String → Option Nat

/-- The handler has not registered its connection yet. -/
def Phase.waits : Phase → Bool
  | .greeting _ | .closing _ => true
  | _ => false

namespace Hub

variable (h : Hub) (c : Nat) (conn : Connection)

/-- `not ws.closed`. -/
def isOpen : Bool := (h.connections c).any (fun conn => conn.closed.isNone)

def set : Hub := { h with connections := Function.update h.connections c (some conn) }

/-- `_ws_connections[agent_id] = ws`. -/
def register : Hub :=
  { h.set c { conn with phase := .serving } with
    registered := Function.update h.registered conn.agentId (some c) }

/-- `ws.close()`, which is nothing to a connection that is closed. -/
def close (closer : Closer) : Hub :=
  match h.connections c with
  | none => h
  | some conn => h.set c { conn with closed := conn.closed.or (some closer) }

/-- `handle_ws` from the end of `prepare` to its next `await`: the old connection is taken out of the
map, and is told when it is open. -/
def connect (agentId : String) : Hub :=
  let conn : Connection := ⟨agentId, .serving, none⟩
  let popped := { h with
    next := h.next + 1
    registered := Function.update h.registered agentId none }
  match h.registered agentId with
  | none => popped.register h.next conn
  | some old =>
    if h.isOpen old then popped.set h.next { conn with phase := .greeting old }
    else popped.register h.next conn

/-- The `close` message was sent, or could not be: then the old connection is not closed. -/
def greeted (sent : Bool) : Hub :=
  match h.connections c with
  | none => h
  | some conn =>
    match conn.phase with
    | .greeting old =>
      if sent then (h.close old .replacement).set c { conn with phase := .closing old }
      else h.register c conn
    | _ => h

/-- The old connection is closed, or could not be. -/
def closedOld : Hub :=
  match h.connections c with
  | none => h
  | some conn =>
    match conn.phase with
    | .closing _ => h.register c conn
    | _ => h

/-- The peer closes a connection. -/
def lost : Hub :=
  match h.connections c with
  | none => h
  | some conn => if conn.phase = .serving then h.close c .own else h

/-- `_dangle_agent_tasks`, the last thing a handler does. -/
def depart (e : Engine) (clocks : String → Clock) : Hub :=
  { h.set c { conn with phase := .gone } with
    toRegistryHandler := dangleAgentTasks e h.toRegistryHandler conn.agentId clocks }

/-- A handler takes its own connection out of the map, and no other. -/
def unregister : Hub :=
  if h.registered conn.agentId = some c then
    { h with registered := Function.update h.registered conn.agentId none }
  else h

/-- The `finally` of `handle_ws`, up to the `await` of the close when the connection is open. -/
def finish (e : Engine) (clocks : String → Clock) : Hub :=
  match h.connections c with
  | none => h
  | some conn =>
    if conn.phase = .serving then
      let popped := h.unregister c conn
      if conn.closed.isNone then
        popped.set c { conn with
          phase := .leaving (h.registered conn.agentId = some c), closed := some .own }
      else popped.depart c conn e clocks
    else h

/-- The rest of it. -/
def leave (e : Engine) (clocks : String → Clock) : Hub :=
  match h.connections c with
  | none => h
  | some conn =>
    match conn.phase with
    | .leaving _ => h.depart c conn e clocks
    | _ => h

/-- No connections yet. -/
def start (handler : RegistryHandler) : Hub where
  toRegistryHandler := handler
  connections := fun _ => none
  next := 0
  registered := fun _ => none

end Hub

/-- A step of the server between two `await`s, with those of `handle_ws` told apart. -/
inductive HubEvent
  | server (ev : Event)
  | connects (agentId : String)
  | greeted (c : Nat) (sent : Bool)
  | closedOld (c : Nat)
  | lost (c : Nat)
  | finishes (c : Nat) (clocks : String → Clock)
  | leaves (c : Nat) (clocks : String → Clock)

/-- A disconnect is the work of the handlers here. -/
def Event.ofConnection : Event → Bool
  | .disconnect .. => true
  | _ => false

def HubEvent.step (e : Engine) (h : Hub) : HubEvent → Hub
  | .server ev =>
    if ev.ofConnection then h else { h with toRegistryHandler := ev.step e h.toRegistryHandler }
  | .connects agentId => h.connect agentId
  | .greeted c sent => h.greeted c sent
  | .closedOld c => h.closedOld c
  | .lost c => h.lost c
  | .finishes c clocks => h.finish c e clocks
  | .leaves c clocks => h.leave c e clocks

namespace Hub

variable (h : Hub) (agentId : String)

/-- The connection of an agent that messages reach: the registered one, while it is open. -/
def live : Option Nat := (h.registered agentId).filter h.isOpen

/-- The agent's connection is taken out of the map, and when it is open and could be told so it is closed, from
another handler as a replaced one is. -/
def drop (sent : Bool) : Hub :=
  let popped := { h with registered := Function.update h.registered agentId none }
  match h.live agentId with
  | some c => if sent then popped.close c .replacement else popped
  | none => popped

end Hub

/-- What an unregistration can reach: the registry, the server with its tasks and connections, and the
credentials. -/
structure Site where
  store : Registry.Store
  hub : Hub
  auth : Auth.AuthStore

/-- The tenant an agent is unregistered in: the caller's when the middleware has set one, the empty one included, or
else the one that the query names. -/
def unregisterTenant (authTenant queryTenant : Option String) : String :=
  match authTenant with
  | some tenant => tenant
  | none => queryTenant.getD ""

/-- `handle_unregister`, with its connection: that one is dropped before the store is asked. -/
def handleUnregister (site : Site) (agentId : String) (authTenant queryTenant : Option String) (sent : Bool) :
    Response × Site :=
  let hub := site.hub.drop agentId sent
  let (response, store) := Registry.handleUnregister site.store agentId (unregisterTenant authTenant queryTenant)
  (response, { site with store := store, hub := hub })

end A2ARegistry.Server
