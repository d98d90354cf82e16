import Mathlib.Logic.Function.Basic
import A2ARegistry.Registry.Handlers

namespace A2ARegistry.Registry
open Base Orchestration

/-- What becomes of the token of a WebSocket upgrade: it is refused, or good for the agent, in the tenant it
names. Where no tokens are asked for, it names none; that of an admin names the empty tenant. -/
inductive Upgrade
  | refused
  | admitted (tokenTenant : Option String)

/-- The registry, with `_ws_connections`: the socket of an agent that is connected. -/
structure Live where
  store : Store
  wsConnections : String → Option Nat

namespace Live

def initial : Live := ⟨⟨Table.empty, AutoTable.empty⟩, fun _ => none⟩

variable (s : Live)

section Sockets

/-- The tenant the agent is marked alive in by `handle_ws`, if it gets that far. -/
def upgraded (now : Rat) (agentId : String) (queryTenant : Option String) : Upgrade → Option String
  | .refused => none
  | .admitted tokenTenant =>
    match s.store.getAgent now agentId queryTenant with
    | some (some _) => some ((tokenTenant.or queryTenant).getD "")
    | _ => none

/-- `handle_ws`, up to its loop: the socket takes the place of the agent's old one, and the agent is marked alive in
the store. -/
def connect (now : Rat) (agentId : String) (socket : Nat) (queryTenant : Option String) (upgrade : Upgrade) : Live :=
  match s.upgraded now agentId queryTenant upgrade with
  | none => s
  | some tenant => ⟨s.store.heartbeat now agentId tenant, Function.update s.wsConnections agentId (some socket)⟩

/-- The `finally` of `handle_ws`: a socket that was replaced is not the agent's any more. -/
def leave (agentId : String) (socket : Nat) : Live :=
  if s.wsConnections agentId = some socket then { s with wsConnections := Function.update s.wsConnections agentId none }
  else s

/-- A text message over a socket of an agent, `none` when it is not JSON, and what is sent back. The messages that are
handed on are about tasks; one that is no object, or whose type has no hash, ends the loop. -/
def onText (agentId : String) (socket : Nat) : Option Json → Live × List Json
  | none => (s, [.obj [("type", .str "error"), ("detail", .str "Invalid JSON")]])
  | some (.obj data) =>
    match Json.get data "type" (.str "") with
    | .str "ping" => (s, [.obj [("type", .str "pong")]])
    | .str "close" => (s.leave agentId socket, [])
    | .arr _ | .obj _ => (s.leave agentId socket, [])
    | _ => (s, [])
  | some _ => (s.leave agentId socket, [])

end Sockets

section Queries

/-- An agent with an open socket is answered as alive. -/
def annotate (view : Store.AgentView) : Store.AgentView :=
  if (s.wsConnections view.id).isSome then { view with status := "alive" } else view

/-- The tenant whose agents are listed: the caller's, or the one the query names to a caller without one. -/
def listingTenant (authTenant queryTenant : Option String) : Option String :=
  if truthy authTenant then authTenant else if truthy queryTenant then queryTenant else none

/-- `handle_list_agents`, all pages. -/
def handleListAgents (now : Rat) (authTenant queryTenant : Option String) : Option (List Store.AgentView) :=
  (s.store.listAgents now (listingTenant authTenant queryTenant)).map (List.map s.annotate)

/-- `handle_get_agent`. -/
def handleGetAgent (now : Rat) (agentId : String) (authTenant queryTenant headerTenant : Option String) :
    Option (Option Store.AgentView) :=
  let tenant := if truthy authTenant then authTenant
    else if queryTenant.isSome then queryTenant
    else if authTenant.isSome then none
    else headerTenant
  (s.store.getAgent now agentId tenant).map (Option.map s.annotate)

end Queries

end Live

/-- Requests and turns of the cleanup task, what agents do over their sockets (`socket` says which), and calls of
`list_agents` and `get_agent`. -/
inductive Event
  | request (request : Request)
  | connect (now : Rat) (agentId : String) (socket : Nat) (queryTenant : Option String) (upgrade : Upgrade)
  | message (now : Rat) (agentId : String) (socket : Nat) (data : Option Json)
  | leave (agentId : String) (socket : Nat)
  | list (now : Rat) (tenant : Option String)
  | get (now : Rat) (agentId : String) (tenant : Option String)

namespace Live

variable (env : Env) (s : Live)

/-- An agent that is unregistered has its socket closed. -/
def step : Event → Live
  | .request (.unregister agentId tenant) =>
    ⟨Registry.step env s.store (.unregister agentId tenant), Function.update s.wsConnections agentId none⟩
  | .request request => { s with store := Registry.step env s.store request }
  | .connect now agentId socket queryTenant upgrade => s.connect now agentId socket queryTenant upgrade
  | .message _ agentId socket data => (s.onText agentId socket data).1
  | .leave agentId socket => s.leave agentId socket
  | .list _ _ | .get _ _ _ => s

/-- The agents that are handed out. -/
def reports : Event → List Store.AgentView
  | .list now tenant => (s.store.listAgents now tenant).getD []
  | .get now agentId tenant => (s.store.getAgent now agentId tenant).join.toList
  | _ => []

end Live

end A2ARegistry.Registry
