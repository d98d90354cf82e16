import A2ARegistry.Auth.Store
import A2ARegistry.Registry.Liveness

namespace A2ARegistry.Server
open Base Auth Registry

/-- What `handle_ws` answers when it does not upgrade. -/
structure WsRefusal where
  status : Nat
  error : String
  detail : String
deriving DecidableEq, Repr

/-- What `handle_ws` looks at of the server, besides the agents. -/
structure WsServer where
  env : Env
  crypto : Crypto
  authEnabled : Bool
  key : SigningKey
  authStore : Option AuthStore

/-- A request for the WebSocket of an agent. -/
structure WsRequest where
  now : Rat
  agentId : String
  tenant : Option String := none
  token : String := ""

section Names

variable (lower : String → String)

/-- `text.endswith(part)`. -/
def endsWith (text part : String) : Bool := decide (part.toList <:+ text.toList)

/-- `s.replace("-", " ").replace("_", " ")`. -/
def spaced (s : String) : String := String.ofList (s.toList.map (fun c => if c = '-' ∨ c = '_' then ' ' else c))

/-- `(card.get("name") or "").lower()`; `none` when it raises. -/
def cardName (card : List (String × Json)) : Option String :=
  let name := Json.field card "name"
  if name.truthy then
    match name with
    | .str s => some (lower s)
    | _ => none
  else some (lower "")

/-- The comparison of the `agent_card_id` of a client with an agent. -/
def subOk (agentCardId cardName agentId : String) : Bool :=
  let cardId := lower agentCardId
  let cardIdNorm := spaced cardId
  cardId == cardName || contains cardName cardId || endsWith cardName cardId || contains cardName cardIdNorm ||
    endsWith cardName cardIdNorm || cardId == lower agentId

end Names

section Upgrade

variable (server : WsServer)

/-- Whether the subject of a token may connect as the agent; `none` when the check raises. -/
def checkSubject (view : Store.AgentView) (agentId : String) (tokenSub : Json) : Option Bool :=
  if tokenSub.isWord [agentId, "simple-a2a-registry"] then some true
  else match server.authStore with
    | none => some false
    | some authStore => match server.env.engine.bind tokenSub with
      | none => none
      | some bound => match bound.bind (getClient authStore) with
        | none => some false
        | some client =>
          if client.agentCardId = "" then some false
          else (cardName server.env.lower view.card).map
            (fun name => subOk server.env.lower client.agentCardId name agentId)

/-- The tenant that the token puts in place of that of the query, if it does; the outer `none` when its scopes are no
text. -/
def tokenTenant (payload : Payload) : Option (Option Json) :=
  match Json.get payload "scope" (.str "") with
  | .str scope =>
    if "registry:admin" ∈ words scope then some (some (.str ""))
    else match Json.field payload "tenant" with
      | .null => some none
      | tenant => some (some tenant)
  | _ => none

/-- `handle_ws`, up to the upgrade: a refusal, or the tenant of the token; `none` when it raises. -/
def handleWs (store : Store) (request : WsRequest) : Option (Except WsRefusal (Option Json)) :=
  let agentId := request.agentId
  match store.getAgent request.now agentId request.tenant with
  | none => none
  | some none => some (.error ⟨404, "agent_not_found", s!"Agent '{agentId}' not found"⟩)
  | some (some view) =>
    if !server.authEnabled then some (.ok none)
    else if request.token = "" then
      some (.error ⟨401, "unauthorized", "WebSocket upgrade requires ?token= query parameter"⟩)
    else match verifyToken server.crypto server.key request.now request.token with
      | none => some (.error ⟨401, "invalid_token", "Token expired or invalid"⟩)
      | some payload =>
        let tokenSub := Json.get payload "sub" (.str "")
        match checkSubject server view agentId tokenSub with
        | none => none
        | some false =>
          let shown := Json.strOf server.env.python tokenSub
          some (.error ⟨403, "forbidden", s!"Token subject '{shown}' does not match agent '{agentId}'"⟩)
        | some true => (tokenTenant payload).map .ok

/-- The request is upgraded to a connection of its agent. -/
def WsAccepts (store : Store) (request : WsRequest) : Prop :=
  ∃ tenant, handleWs server store request = some (.ok tenant)

/-- An upgrade gets as far as the heartbeat. -/
theorem WsAccepts.upgraded {server : WsServer} {live : Live} {request : WsRequest}
    (h : WsAccepts server live.store request) (tokenTenant : Option String) :
    (live.upgraded request.now request.agentId request.tenant (.admitted tokenTenant)).isSome = true := by
  obtain ⟨tenant, h⟩ := h
  unfold handleWs at h
  unfold Live.upgraded
  cases hget : live.store.getAgent request.now request.agentId request.tenant with
  | none => simp [hget] at h
  | some found =>
    cases found with
    | none => simp [hget] at h
    | some view => rfl

end Upgrade

end A2ARegistry.Server
