import A2ARegistry.Auth.Proofs.Steps

namespace A2ARegistry.Auth
open Base Orchestration

/-- The scope of the registry's administration. -/
def adminScope : String := "registry:admin"

/-- A scope text carries it, as the middleware reads the text. -/
def carriesAdmin (scope : String) : Bool := (words scope).contains adminScope

/-- One of the scopes of a client carries it. -/
def anyAdmin (allowedScopes : List String) : Bool := allowedScopes.any carriesAdmin

/-- The scopes that a registration names: there are some, and none carries it. -/
def PlainScopes (allowedScopes : List String) : Prop := allowedScopes ≠ [] ∧ anyAdmin allowedScopes = false

/-- A registration that names its scopes, without the administration's, or a request for a token that
presents neither a client nor a code that had it at the start. -/
def Modest (server : AuthServer) (start : AuthStore) : AuthEvent → Prop
  | .register _ (some body) => ∀ allowed, requestedScopes server.crypto body.allowedScopes = .ok allowed →
      PlainScopes allowed
  | .registerAgent _ card => card.securitySchemes ≠ [] → ∀ allowed, cardScopes card.securitySchemes = some allowed →
      PlainScopes (allowed.flatMap (fun s => splitAt s ','))
  | .token _ (some form) =>
      (∀ row, start.clients.find? form.clientId = some row → anyAdmin row.scopeList = false) ∧
        ∀ row, start.codes.find? form.code = some row → carriesAdmin row.scope = false
  | .createAuthCode row => carriesAdmin row.scope = false
  | _ => True

/-- No token and no client that an event issues carries the scope. -/
def IssuesNoAdmin (server : AuthServer) (store : AuthStore) (e : AuthEvent) : Prop :=
  (∀ grant, issued server store e = some grant → carriesAdmin (textClaim grant.payload "scope") = false) ∧
    ∀ credentials, registered server store e = some credentials → anyAdmin credentials.allowedScopes = false

/-- Whatever carries the scope was there at the start. -/
structure Inherits (start store : AuthStore) : Prop where
  clients : ∀ id row, store.clients.find? id = some row → anyAdmin row.scopeList = true →
    start.clients.find? id = some row
  codes : ∀ code row, store.codes.find? code = some row → carriesAdmin row.scope = true →
    start.codes.find? code = some row

theorem carriesAdmin_iff {scope : String} : carriesAdmin scope = true ↔ adminScope ∈ words scope :=
  List.contains_iff_mem

theorem anyAdmin_iff {allowedScopes : List String} :
    anyAdmin allowedScopes = true ↔ ∃ s ∈ allowedScopes, adminScope ∈ words s := by
  simp only [anyAdmin, List.any_eq_true, carriesAdmin_iff]

theorem anyAdmin_of_mem {allowedScopes : List String} (h : adminScope ∈ allowedScopes) :
    anyAdmin allowedScopes = true :=
  anyAdmin_iff.mpr ⟨adminScope, h, by decide⟩

theorem carriesAdmin_join {allowedScopes : List String} (h : carriesAdmin (joinBy " " allowedScopes) = true) :
    anyAdmin allowedScopes = true :=
  anyAdmin_iff.mpr (mem_words_join (carriesAdmin_iff.mp h))

theorem textClaim_scope (draw : TokenDraw) (clientId scope tenant : String) :
    textClaim (grantPayload draw clientId scope tenant) "scope" = scope := by
  by_cases hs : scope = "" <;> by_cases ht : tenant = "" <;>
    simp [textClaim, grantPayload, TokenArgs.payload, Json.field, hs, ht]

section Registration

variable {c : Crypto} {draw : ClientDraw} {agentCardId description tenant : String} {allowed : List String}

/-- The scopes of a new client are those it was registered with, split at commas. -/
theorem mem_scopeList (hne : allowed ≠ []) {part : String}
    (h : part ∈ (clientRow c draw agentCardId allowed description tenant).scopeList) :
    ∃ s ∈ allowed, part ∈ splitAt s ',' := by
  have hrow : (clientRow c draw agentCardId allowed description tenant).allowedScopes = joinBy "," allowed := by
    simp [clientRow, hne]
  rw [ClientRow.scopeList, hrow] at h
  split at h
  · cases h
  · exact mem_split_join hne h

/-- A client whose registration named plain scopes does not carry the administration's. -/
theorem plain_scopeList (h : PlainScopes (allowed.flatMap (fun s => splitAt s ','))) :
    anyAdmin (clientRow c draw agentCardId allowed description tenant).scopeList = false := by
  have hne : allowed ≠ [] := by
    rintro rfl
    exact h.1 rfl
  apply eq_false_of_ne_true
  intro hadmin
  obtain ⟨part, hpart, hw⟩ := anyAdmin_iff.mp hadmin
  obtain ⟨s, hs, hsplit⟩ := mem_scopeList hne hpart
  have hall : anyAdmin (allowed.flatMap (fun s => splitAt s ',')) = true :=
    anyAdmin_iff.mpr ⟨part, List.mem_flatMap.mpr ⟨s, hs, hsplit⟩, hw⟩
  rw [h.2] at hall
  cases hall

/-- The scopes that pass the validation are known ones. -/
theorem validateScopes_mem {items : List Json} (h : validateScopes c items = .ok allowed) :
    ∀ s ∈ allowed, s ∈ scopes := by
  induction items generalizing allowed with
  | nil =>
    cases h
    simp
  | cons v items ih =>
    cases v with
    | str s =>
      rw [validateScopes] at h
      split at h
      · rename_i hs
        cases hrest : validateScopes c items with
        | error response =>
          rw [hrest] at h
          cases h
        | ok rest =>
          rw [hrest] at h
          cases h
          exact List.forall_mem_cons.mpr ⟨hs, ih hrest⟩
      · cases h
    | _ => cases h

theorem requestedScopes_mem {v : Json} (h : requestedScopes c v = .ok allowed) : ∀ s ∈ allowed, s ∈ scopes := by
  unfold requestedScopes at h
  split at h
  · cases h
    simp
  · split at h
    · cases h
    · exact validateScopes_mem h

/-- No known scope has a comma. -/
theorem splitAt_known : ∀ s ∈ scopes, splitAt s ',' = [s] := by decide +kernel

theorem flatMap_known (h : ∀ s ∈ allowed, s ∈ scopes) : allowed.flatMap (fun s => splitAt s ',') = allowed := by
  induction allowed with
  | nil => rfl
  | cons s allowed ih =>
    obtain ⟨hs, hrest⟩ := List.forall_mem_cons.mp h
    rw [List.flatMap_cons, splitAt_known s hs, ih hrest]
    rfl

end Registration

section Inheritance

variable {start store : AuthStore}

theorem Inherits.refl (store : AuthStore) : Inherits store store := ⟨fun _ _ hf _ => hf, fun _ _ hf _ => hf⟩

theorem Inherits.frame {store' : AuthStore} (h : Inherits start store) (hclients : store'.clients = store.clients)
    (hcodes : CodesFade store store') : Inherits start store' := by
  refine ⟨fun id row hf => h.clients id row ?_, fun code row hf => h.codes code row (hcodes code row hf)⟩
  rwa [hclients] at hf

theorem Inherits.insertClient {row : ClientRow} {clients : Table ClientRow} (h : Inherits start store)
    (hi : store.clients.insert? row = some clients) (hrow : anyAdmin row.scopeList = false) :
    Inherits start { store with clients := clients } := by
  refine ⟨fun id row' hf hadmin => ?_, h.codes⟩
  rw [Table.find_insert hi] at hf
  split at hf
  · cases hf
    rw [hrow] at hadmin
    cases hadmin
  · exact h.clients id row' hf hadmin

theorem Inherits.insertCode {row : AuthCode} {codes : Table AuthCode} (h : Inherits start store)
    (hi : store.codes.insert? row = some codes) (hrow : carriesAdmin row.scope = false) :
    Inherits start { store with codes := codes } := by
  refine ⟨h.clients, fun code row' hf hadmin => ?_⟩
  rw [Table.find_insert hi] at hf
  split at hf
  · cases hf
    rw [hrow] at hadmin
    cases hadmin
  · exact h.codes code row' hf hadmin

theorem Inherits.deleteClient (h : Inherits start store) (clientId : String) :
    Inherits start (Auth.deleteClient store clientId) := by
  refine ⟨fun id row hf => h.clients id row ?_, h.codes⟩
  have hd : (Auth.deleteClient store clientId).clients.find? id =
      (store.clients.find? id).filter (fun r => !(r.clientId == clientId)) := Table.find_delete _ _ id
  rw [hd] at hf
  exact (Option.filter_eq_some_iff.mp hf).1

/-- The scope under client credentials is one the client has. -/
theorem grantedScope_plain {clientId scope : String}
    (hclient : ∀ row, store.clients.find? clientId = some row → anyAdmin row.scopeList = false)
    (hscope : scope = "" ∨ clientAllowedScopes store clientId scope = true) :
    carriesAdmin (grantedScope store clientId scope) = false := by
  apply eq_false_of_ne_true
  intro hadmin
  unfold grantedScope clientAllowedScopes getClient at *
  cases hf : store.clients.find? clientId with
  | none =>
    rw [hf] at hscope hadmin
    rcases hscope with rfl | hscope
    · exact absurd hadmin (by decide)
    · cases hscope
  | some row =>
    have hrow := hclient row hf
    rw [hf] at hscope hadmin
    dsimp only at hscope hadmin
    split at hadmin
    · rw [carriesAdmin_join hadmin] at hrow
      cases hrow
    · rename_i hne
      have hall := List.all_eq_true.mp (hscope.resolve_left hne) adminScope (carriesAdmin_iff.mp hadmin)
      rw [anyAdmin_of_mem (List.contains_iff_mem.mp hall)] at hrow
      cases hrow

end Inheritance

section Steps

variable {server : AuthServer} {start store : AuthStore}

theorem register_plain (h : Inherits start store) (draw : ClientDraw) (body : Option RegisterBody)
    (hm : Modest server start (.register draw body)) :
    Inherits start (step server store (.register draw body)) ∧ IssuesNoAdmin server store (.register draw body) := by
  rcases handleRegister_cases server.crypto store draw body with
    ⟨response, he⟩ | ⟨b, allowed, clients, rfl, hallowed, hi, he⟩
  · simp only [IssuesNoAdmin, issued, registered, step, he, Except.toOption]
    exact ⟨h, nofun, nofun⟩
  · have hplain := hm allowed hallowed
    have hrow : anyAdmin (clientRow server.crypto draw b.agentCardId allowed b.description b.tenant).scopeList =
        false := by
      apply plain_scopeList
      rwa [flatMap_known (requestedScopes_mem hallowed)]
    simp only [IssuesNoAdmin, issued, registered, step, he, Except.toOption]
    refine ⟨h.insertClient hi hrow, nofun, fun credentials hc => ?_⟩
    cases hc
    simpa [hplain.1] using hplain.2

theorem registerAgent_plain (h : Inherits start store) (draw : ClientDraw) (card : AgentCard)
    (hm : Modest server start (.registerAgent draw card)) :
    Inherits start (step server store (.registerAgent draw card)) ∧
      IssuesNoAdmin server store (.registerAgent draw card) := by
  rcases handleRegisterAgent_cases server.crypto store draw card with
    ⟨answer, he, hnone⟩ | ⟨allowed, row, clients, hallowed, hr, hi, he⟩
  · simp only [IssuesNoAdmin, issued, registered, step, he, hnone]
    exact ⟨h, nofun, nofun⟩
  · have hschemes : card.securitySchemes ≠ [] := by
      intro hnil
      rw [handleRegisterAgent, hnil] at he
      cases he
    have hrow : anyAdmin row.scopeList = false := by
      rw [hr]
      exact plain_scopeList (hm hschemes allowed hallowed)
    simp only [IssuesNoAdmin, issued, registered, step, he, Except.toOption, Option.join_some]
    refine ⟨h.insertClient hi hrow, nofun, fun credentials hc => ?_⟩
    cases hc
    exact hrow

theorem token_plain (h : Inherits start store) (draw : TokenDraw) (form : Option TokenForm)
    (hm : Modest server start (.token draw form)) :
    Inherits start (step server store (.token draw form)) ∧ IssuesNoAdmin server store (.token draw form) := by
  cases form with
  | none => exact ⟨h, nofun, nofun⟩
  | some form =>
    obtain ⟨hclient, hcode⟩ := hm
    rcases handleToken_cases server store draw form with ⟨response, store', he, hstore⟩ |
      ⟨row, _, hf, _, he⟩ | ⟨_, hscope, he⟩
    · simp only [IssuesNoAdmin, issued, registered, step, he, Except.toOption]
      refine ⟨?_, nofun, nofun⟩
      rcases hstore with rfl | rfl
      · exact h
      · exact h.frame rfl (deleteCode_fades store form.code)
    · simp only [IssuesNoAdmin, issued, registered, step, he, Except.toOption]
      refine ⟨h.frame rfl (deleteCode_fades store form.code), fun grant hg => ?_, nofun⟩
      cases hg
      have hrow : carriesAdmin row.scope = false :=
        eq_false_of_ne_true fun hadmin => by
          have hplain := hcode row (h.codes form.code row hf hadmin)
          rw [hadmin] at hplain
          cases hplain
      simpa only [issueToken, textClaim_scope] using hrow
    · have hplain : ∀ row, store.clients.find? form.clientId = some row → anyAdmin row.scopeList = false :=
        fun row hf => eq_false_of_ne_true fun hadmin => by
          have hplain := hclient row (h.clients form.clientId row hf hadmin)
          rw [hadmin] at hplain
          cases hplain
      simp only [IssuesNoAdmin, issued, registered, step, he, Except.toOption]
      refine ⟨h.frame rfl (CodesFade.of_eq rfl), fun grant hg => ?_, nofun⟩
      cases hg
      simpa only [issueToken, textClaim_scope] using grantedScope_plain hplain hscope

/-- A modest event issues nothing that carries the scope, and leaves nothing new that does. -/
theorem modest_step (h : Inherits start store) (e : AuthEvent) (hm : Modest server start e) :
    Inherits start (step server store e) ∧ IssuesNoAdmin server store e := by
  cases e with
  | register draw body => exact register_plain h draw body hm
  | registerAgent draw card => exact registerAgent_plain h draw card hm
  | token draw form => exact token_plain h draw form hm
  | createAuthCode row =>
    refine ⟨?_, nofun, nofun⟩
    cases hi : store.codes.insert? row with
    | none =>
      have hs : step server store (.createAuthCode row) = store := by simp [step, createAuthCode, hi]
      rwa [hs]
    | some codes =>
      have hs : step server store (.createAuthCode row) = { store with codes := codes } := by
        simp [step, createAuthCode, hi]
      rw [hs]
      exact h.insertCode hi hm
  | revokeToken | revokeClientTokens => exact ⟨h.frame rfl (CodesFade.of_eq rfl), nofun, nofun⟩
  | deleteClient clientId => exact ⟨h.deleteClient clientId, nofun, nofun⟩
  | request => exact ⟨h, nofun, nofun⟩

end Steps

/-- From any state, modest events issue no token and no client that carries the administration's
scope, however many of them follow each other. -/
theorem no_escalation (server : AuthServer) (start : AuthStore) (events : List AuthEvent)
    (hm : ∀ e ∈ events, Modest server start e) :
    EachStep (step server) (IssuesNoAdmin server) start events := by
  have hrun : ∀ store, Inherits start store → EachStep (step server) (IssuesNoAdmin server) store events := by
    induction events with
    | nil => exact fun _ _ => trivial
    | cons e events ih =>
      intro store h
      obtain ⟨hmodest, hrest⟩ := List.forall_mem_cons.mp hm
      obtain ⟨hnext, hissues⟩ := modest_step h e hmodest
      exact ⟨hissues, ih hrest _ hnext⟩
  exact hrun start (Inherits.refl start)

/-- Two clients name a scope, and one of them asks for a token. -/
theorem no_escalation_sample : EachStep (step sampleServer) (IssuesNoAdmin sampleServer) AuthStore.empty
    (sampleClients ++ [.token ⟨20, 20, "jti-1"⟩ (some {
      grantType := "client_credentials", clientId := "client-a00000000000", clientSecret := "secret-a" })]) := by
  have hplain : ∀ allowed, requestedScopes sampleServer.crypto (.arr [.str "task:read"]) = .ok allowed →
      PlainScopes allowed := by
    intro allowed h
    cases h
    exact ⟨by simp, by decide⟩
  refine no_escalation sampleServer AuthStore.empty _ fun e he => ?_
  simp only [sampleClients, List.cons_append, List.nil_append, List.mem_cons, List.not_mem_nil, or_false] at he
  rcases he with rfl | rfl | rfl
  · exact hplain
  · exact hplain
  · exact ⟨nofun, nofun⟩

/-- Anyone registers a client without naming a scope, and has the administration's. -/
theorem default_scopes_escalate : ¬ EachStep (step sampleServer) (IssuesNoAdmin sampleServer) AuthStore.empty
    [.register ⟨"a00000000000", "secret-a", 0⟩ (some {})] := by
  intro h
  have hcredentials := h.1.2 ⟨"client-a00000000000", "secret-a", scopes, ""⟩ rfl
  exact absurd hcredentials (by decide)

end A2ARegistry.Auth
