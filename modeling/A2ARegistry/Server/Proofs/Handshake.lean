import A2ARegistry.Auth.Proofs.Revocation
import A2ARegistry.Orchestration.Workspace
import A2ARegistry.Server.Handshake

namespace A2ARegistry.Server
open Base Auth Registry

/-- The client was registered for the agent, by its id or by its name. -/
def RegisteredFor (client : ClientRow) (view : Store.AgentView) : Prop :=
  client.agentCardId = view.id ∨ Json.field view.card "name" = .str client.agentCardId

/-- The `agent_card_id` of the client, in lower case, is that of the agent, or part of its name, as it is or with
spaces for its hyphens and underscores. -/
def NamesAgent (lower : String → String) (client : ClientRow) (view : Store.AgentView) : Prop :=
  client.agentCardId ≠ "" ∧ ∃ name, cardName lower view.card = some name ∧
    (contains name (lower client.agentCardId) = true ∨ contains name (spaced (lower client.agentCardId)) = true ∨
      lower client.agentCardId = lower view.id)

/-- The client may connect as the agent: it has the id of the agent or of the registry, or it names the agent. -/
def Entitled (lower : String → String) (client : ClientRow) (view : Store.AgentView) : Prop :=
  client.clientId = view.id ∨ client.clientId = issuer ∨ NamesAgent lower client view

/-- A text contains itself and what it ends with. -/
theorem contains_of_endsWith {text part : String} (h : endsWith text part = true) : contains text part = true := by
  obtain ⟨before, hbefore⟩ := of_decide_eq_true h
  exact containsChars_iff.mpr ⟨before, [], by rw [List.append_nil, hbefore]⟩

theorem contains_self (text : String) : contains text text = true :=
  containsChars_iff.mpr ⟨[], [], by simp⟩

/-- Three of the six comparisons are cases of the others. -/
theorem subOk_iff {lower : String → String} {agentCardId name agentId : String} :
    subOk lower agentCardId name agentId = true ↔ contains name (lower agentCardId) = true ∨
      contains name (spaced (lower agentCardId)) = true ∨ lower agentCardId = lower agentId := by
  simp only [subOk, Bool.or_eq_true, beq_iff_eq]
  constructor
  · intro h
    rcases h with ((((heq | hin) | hend) | hnorm) | hnormEnd) | hid
    · exact Or.inl (heq ▸ contains_self _)
    · exact Or.inl hin
    · exact Or.inl (contains_of_endsWith hend)
    · exact Or.inr (Or.inl hnorm)
    · exact Or.inr (Or.inl (contains_of_endsWith hnormEnd))
    · exact Or.inr (Or.inr hid)
  · intro h
    rcases h with hin | hnorm | hid
    · exact Or.inl (Or.inl (Or.inl (Or.inl (Or.inr hin))))
    · exact Or.inl (Or.inl (Or.inr hnorm))
    · exact Or.inr hid

section Subjects

variable {server : WsServer} {authStore : AuthStore} {client : ClientRow} {view : Store.AgentView}

/-- The subject of a client's token passes when the client is entitled. -/
theorem checkSubject_client (hstore : server.authStore = some authStore)
    (hclient : authStore.clients.find? client.clientId = some client) :
    checkSubject server view view.id (.str client.clientId) = some true ↔
      Entitled server.env.lower client view := by
  have hbind : server.env.engine.bind (.str client.clientId) = some (some client.clientId) := rfl
  have hget : getClient authStore client.clientId = some client := hclient
  simp only [checkSubject, Json.isWord, hstore, hbind, Option.bind_some, hget, Entitled, NamesAgent]
  by_cases hword : ([view.id, "simple-a2a-registry"] : List String).contains client.clientId = true
  · have hids : client.clientId = view.id ∨ client.clientId = issuer := by simpa [issuer] using hword
    rw [if_pos hword]
    exact iff_of_true rfl (or_assoc.mp (Or.inl hids))
  · have hids : ¬ (client.clientId = view.id ∨ client.clientId = issuer) := by simpa [issuer] using hword
    rw [if_neg hword, ← or_assoc, or_iff_right hids]
    by_cases hempty : client.agentCardId = ""
    · simp [hempty]
    · rw [if_neg hempty, Option.map_eq_some_iff]
      simp only [subOk_iff, ne_eq, hempty, not_false_eq_true, true_and]

/-- A client that was registered for an agent names it, if the name of the agent is a text. -/
theorem registeredFor_names {lower : String → String} {name : String} (hname : cardName lower view.card = some name)
    (hset : client.agentCardId ≠ "") (h : RegisteredFor client view) : NamesAgent lower client view := by
  refine ⟨hset, name, hname, ?_⟩
  rcases h with hid | hcard
  · exact Or.inr (Or.inr (congrArg lower hid))
  · have htruthy : (Json.str client.agentCardId).truthy = true := by simpa [Json.truthy] using hset
    rw [cardName, hcard] at hname
    simp only [htruthy, if_true, Option.some.injEq] at hname
    exact Or.inl (hname ▸ contains_self _)

end Subjects

/-- The request carries a token of the client, and it verifies. -/
structure Carries (server : WsServer) (request : WsRequest) (client : ClientRow) (payload : Payload) : Prop where
  enabled : server.authEnabled = true
  stored : ∃ authStore, server.authStore = some authStore ∧ authStore.clients.find? client.clientId = some client
  given : request.token ≠ ""
  verified : verifyToken server.crypto server.key request.now request.token = some payload
  subject : Json.get payload "sub" (.str "") = .str client.clientId

theorem tokenTenant_isSome {payload : Payload} :
    (tokenTenant payload).isSome = true ↔ ∃ scope, Json.get payload "scope" (.str "") = .str scope := by
  unfold tokenTenant
  split
  · rename_i scope hscope
    refine iff_of_true ?_ ⟨scope, hscope⟩
    split
    · rfl
    · split <;> rfl
  · rename_i hother
    exact iff_of_false Bool.false_ne_true fun ⟨scope, hscope⟩ => hother scope hscope

/-- A token that verifies is accepted when its subject passes and its scopes are a text. -/
theorem accepts_iff {server : WsServer} {store : Store} {request : WsRequest} {payload : Payload}
    (henabled : server.authEnabled = true) (hgiven : request.token ≠ "")
    (hverify : verifyToken server.crypto server.key request.now request.token = some payload) :
    WsAccepts server store request ↔
      ∃ view, store.getAgent request.now request.agentId request.tenant = some (some view) ∧
        checkSubject server view view.id (Json.get payload "sub" (.str "")) = some true ∧
        ∃ scope, Json.get payload "scope" (.str "") = .str scope := by
  unfold WsAccepts handleWs
  cases hget : store.getAgent request.now request.agentId request.tenant with
  | none => simp [hget]
  | some found =>
    cases found with
    | none => simp [hget]
    | some view =>
      obtain ⟨row, _, hrow, _, hread⟩ := Store.getAgent_some hget
      have hid : view.id = request.agentId := (Store.readAgent_some hread).2.1.trans hrow
      rw [← hid] at hget
      simp only [hget, henabled, Bool.not_true, Bool.false_eq_true, if_false, if_neg hgiven, hverify, ← hid,
        Option.some.injEq, exists_eq_left', ← tokenTenant_isSome]
      cases checkSubject server view view.id (Json.get payload "sub" (.str "")) with
      | none => simp
      | some ok =>
        cases ok with
        | false => simp
        | true => cases tokenTenant payload <;> simp

/-- A token of a client is accepted for the connection of an agent exactly when the agent is there, the client is
entitled to it, and the scopes of the token are a text. -/
theorem client_accepted_iff {server : WsServer} {store : Store} {request : WsRequest} {client : ClientRow}
    {payload : Payload} (h : Carries server request client payload) :
    WsAccepts server store request ↔
      ∃ view, store.getAgent request.now request.agentId request.tenant = some (some view) ∧
        Entitled server.env.lower client view ∧ ∃ scope, Json.get payload "scope" (.str "") = .str scope := by
  obtain ⟨authStore, hstore, hclient⟩ := h.stored
  rw [accepts_iff h.enabled h.given h.verified, h.subject]
  simp only [checkSubject_client hstore hclient]

/-- An agent of a registry. -/
def sampleAgent (id name : String) : AgentRow where
  id := id
  card := .obj [("name", .str name)]
  heartbeatAt := some 0

/-- Two agents, one whose name is part of the other's. -/
def sampleAgents : Store where
  agents := ⟨[sampleAgent "b-1" "coder", sampleAgent "a-1" "senior coder"], by decide⟩
  authorizations := AutoTable.empty

/-- A client that is registered for the first, by its name. -/
def sampleClient : ClientRow where
  clientId := "client-b"
  clientSecretHash := ""
  allowedScopes := ""
  agentCardId := "coder"
  createdAt := 0
  description := ""
  tenantId := ""

def sampleWs : WsServer where
  env := ⟨sampleCrypto.toPython, Orchestration.python sampleCrypto.toPython some, Orchestration.lower, fun _ => "0.0"⟩
  crypto := sampleCrypto
  authEnabled := true
  key := ⟨"private", "public", "RS256"⟩
  authStore := some { AuthStore.empty with clients := ⟨[sampleClient], by decide⟩ }

/-- What its token says. -/
def samplePayload : Payload := TokenArgs.payload { sub := "client-b", scope := "agent:read" } 10 "1"

/-- It asks to be connected as an agent. -/
def sampleRequest (agentId : String) : WsRequest where
  now := 10
  agentId := agentId
  token := rsaSignJwt sampleCrypto samplePayload "private"

theorem sampleRequest_carries (agentId : String) :
    Carries sampleWs (sampleRequest agentId) sampleClient samplePayload where
  enabled := rfl
  stored := ⟨_, rfl, rfl⟩
  given := by
    intro h
    have hlist := congrArg String.toList h
    simp [sampleRequest, rsaSignJwt] at hlist
  verified := by
    have hdecoded := TokenArgs.payload_decoded sampleCrypto.toPython { sub := "client-b", scope := "agent:read" } 10 "1"
    have hverify := rsaVerifyJwt_rsaSignJwt (sampleCrypto_sound "private" "public") hdecoded 10 none issuer
    have hkey : sampleWs.key.algorithm = "RS256" := rfl
    have hadmits : sampleCrypto.admits 10 none issuer samplePayload = true := by decide +kernel
    rw [verifyToken, if_pos hkey]
    exact hverify.trans (if_pos hadmits)
  subject := rfl

/-- The client is accepted for its own agent. -/
theorem own_agent_accepted : WsAccepts sampleWs sampleAgents (sampleRequest "b-1") :=
  (client_accepted_iff (sampleRequest_carries "b-1")).mpr
    ⟨_, rfl, Or.inr (Or.inr ⟨by decide, "coder", by decide +kernel, Or.inl (by decide +kernel)⟩), _, rfl⟩

/-- It is accepted for the other one too. -/
theorem other_agent_accepted :
    (∃ view, sampleAgents.getAgent 10 "b-1" none = some (some view) ∧ RegisteredFor sampleClient view) ∧
      Carries sampleWs (sampleRequest "a-1") sampleClient samplePayload ∧
      WsAccepts sampleWs sampleAgents (sampleRequest "a-1") := by
  have hcarries := sampleRequest_carries "a-1"
  refine ⟨⟨_, rfl, Or.inr rfl⟩, hcarries, (accepts_iff rfl hcarries.given hcarries.verified).mpr ⟨_, rfl, ?_, _, rfl⟩⟩
  decide +kernel

end A2ARegistry.Server
