import A2ARegistry.Auth.Middleware

namespace A2ARegistry.Auth
open Base Orchestration

/-- The conditions `handle_token` puts on a request for a code, besides those on the code. -/
structure Presentable (server : AuthServer) (store : AuthStore) (form : TokenForm) : Prop where
  grantType : form.grantType = "authorization_code"
  secret : verifyClientSecret server.crypto store form.clientId form.clientSecret = some true
  code : form.code ≠ ""
  codeVerifier : form.codeVerifier ≠ ""

/-- The conditions it puts on the code. -/
structure Redeemable (c : Crypto) (now : Rat) (form : TokenForm) (row : AuthCode) : Prop where
  fresh : row.expired now = false
  verifies : row.verifies c form.codeVerifier = some true
  redirectUri : row.redirectUri = form.redirectUri

/-- No code appears or changes. -/
def CodesFade (store store' : AuthStore) : Prop :=
  ∀ code row, store'.codes.find? code = some row → store.codes.find? code = some row

theorem CodesFade.of_eq {store store' : AuthStore} (h : store'.codes = store.codes) : CodesFade store store' := by
  intro code row hf
  rwa [h] at hf

section Store

variable (c : Crypto) (store : AuthStore)

theorem find_deleteCode (code k : String) :
    (store.deleteCode code).codes.find? k = if k = code then none else store.codes.find? k := by
  have hd : (store.deleteCode code).codes.find? k =
      (store.codes.find? k).filter (fun r => !(r.code == code)) := Table.find_delete _ _ k
  rw [hd]
  cases hf : store.codes.find? k with
  | none => simp
  | some row =>
    have hk : row.code = k := Table.find_key hf
    by_cases he : k = code
    · simp [he, hk]
    · simp [he, hk]

theorem deleteCode_fades (code : String) : CodesFade store (store.deleteCode code) := by
  intro k row hf
  rw [find_deleteCode] at hf
  split at hf
  · cases hf
  · exact hf

theorem consumeAuthCode_cases (now : Rat) (code codeVerifier : String) :
    (∃ row, store.codes.find? code = some row ∧ row.expired now = false ∧
      row.verifies c codeVerifier = some true ∧
      consumeAuthCode c store now code codeVerifier = some (some row, store.deleteCode code)) ∨
    (∀ row, store.codes.find? code = some row → row.expired now = false →
        row.verifies c codeVerifier ≠ some true) ∧
      (consumeAuthCode c store now code codeVerifier = none ∨
        ∃ store', consumeAuthCode c store now code codeVerifier = some (none, store') ∧
          (store' = store ∨ store' = store.deleteCode code)) := by
  unfold consumeAuthCode
  cases hf : store.codes.find? code with
  | none => exact Or.inr ⟨nofun, Or.inr ⟨store, rfl, Or.inl rfl⟩⟩
  | some row =>
    cases he : row.expired now with
    | true =>
      refine Or.inr ⟨?_, Or.inr ⟨store.deleteCode code, by simp [he], Or.inr rfl⟩⟩
      intro row' hrow hfresh
      cases hrow
      rw [he] at hfresh
      cases hfresh
    | false =>
      have hother : row.verifies c codeVerifier ≠ some true → ∀ row', some row = some row' →
          row'.expired now = false → row'.verifies c codeVerifier ≠ some true := by
        intro hv row' hrow _
        cases hrow
        exact hv
      cases hv : row.verifies c codeVerifier with
      | none => exact Or.inr ⟨hother (by simp [hv]), Or.inl (by simp [he, hv])⟩
      | some b =>
        cases b with
        | false =>
          exact Or.inr ⟨hother (by simp [hv]), Or.inr ⟨store, by simp [he, hv], Or.inl rfl⟩⟩
        | true => exact Or.inl ⟨row, rfl, he, hv, by simp [he, hv]⟩

end Store

section Token

variable (server : AuthServer) (store : AuthStore) (draw : TokenDraw) (form : TokenForm)

/-- A code request that meets all the conditions is granted for the client that makes it, with the
scope of the code, and the code is gone. -/
theorem handleToken_redeems {row : AuthCode} (hp : Presentable server store form)
    (hf : store.codes.find? form.code = some row) (hr : Redeemable server.crypto draw.now form row) :
    handleToken server store draw (some form) =
      (.ok (issueToken server (store.deleteCode form.code) draw form.clientId row.scope).1,
        (issueToken server (store.deleteCode form.code) draw form.clientId row.scope).2) := by
  have hconsume : consumeAuthCode server.crypto store draw.now form.code form.codeVerifier =
      some (some row, store.deleteCode form.code) := by
    rw [consumeAuthCode, hf]
    simp only [hr.fresh, hr.verifies, Bool.false_eq_true, if_false]
  rw [handleToken]
  simp only [hp.grantType, hp.secret, List.mem_cons, List.not_mem_nil, or_false, or_true, not_true,
    if_false, String.reduceEq, handleAuthorizationCode, hp.code, hp.codeVerifier, or_self, hconsume,
    hr.redirectUri, ne_eq]

/-- Any other code request is refused. -/
theorem handleToken_refuses (hg : form.grantType = "authorization_code")
    (h : ∀ row, Presentable server store form → store.codes.find? form.code = some row →
      ¬ Redeemable server.crypto draw.now form row) :
    ∃ response store', handleToken server store draw (some form) = (.error response, store') ∧
      (store' = store ∨ store' = store.deleteCode form.code) := by
  rw [handleToken]
  simp only [hg, List.mem_cons, List.not_mem_nil, or_false, or_true, not_true, if_false, String.reduceEq]
  cases hs : verifyClientSecret server.crypto store form.clientId form.clientSecret with
  | none => exact ⟨_, _, rfl, Or.inl rfl⟩
  | some b =>
    cases b with
    | false => exact ⟨_, _, rfl, Or.inl rfl⟩
    | true =>
      simp only [handleAuthorizationCode]
      split
      · exact ⟨_, _, rfl, Or.inl rfl⟩
      · rename_i hne
        obtain ⟨hcode, hverifier⟩ := not_or.mp hne
        have hp : Presentable server store form := ⟨hg, hs, hcode, hverifier⟩
        rcases consumeAuthCode_cases server.crypto store draw.now form.code form.codeVerifier with
          ⟨row, hf, hfresh, hverifies, hc⟩ | ⟨_, hc | ⟨store', hc, hstore⟩⟩
        · have hredirect : row.redirectUri ≠ form.redirectUri := fun he => h row hp hf ⟨hfresh, hverifies, he⟩
          simp only [hc, ne_eq, hredirect, not_false_eq_true, if_true]
          exact ⟨_, _, rfl, Or.inr rfl⟩
        · simp only [hc]
          exact ⟨_, _, rfl, Or.inl rfl⟩
        · simp only [hc]
          exact ⟨_, _, rfl, hstore⟩

/-- A request under any other grant issues a token to the client, or leaves the store alone. -/
theorem handleToken_credentials (hg : form.grantType ≠ "authorization_code") :
    (∃ response, handleToken server store draw (some form) = (.error response, store)) ∨
      (form.scope = "" ∨ clientAllowedScopes store form.clientId form.scope = true) ∧
        handleToken server store draw (some form) =
          (.ok (issueToken server store draw form.clientId (grantedScope store form.clientId form.scope)).1,
            (issueToken server store draw form.clientId (grantedScope store form.clientId form.scope)).2) := by
  rw [handleToken]
  split
  · exact Or.inl ⟨_, rfl⟩
  · rename_i hmem
    have hcc : form.grantType = "client_credentials" := by
      simpa [hg] using hmem
    cases hs : verifyClientSecret server.crypto store form.clientId form.clientSecret with
    | none => exact Or.inl ⟨_, rfl⟩
    | some b =>
      cases b with
      | false => exact Or.inl ⟨_, rfl⟩
      | true =>
        simp only [hcc, if_true, handleClientCredentials]
        split
        · exact Or.inl ⟨_, rfl⟩
        · rename_i hallowed
          refine Or.inr ⟨?_, rfl⟩
          by_cases hscope : form.scope = ""
          · exact Or.inl hscope
          · exact Or.inr (by simpa [hscope] using hallowed)

/-- A token request is refused, or redeems a code, or gets a token by the credentials alone. -/
theorem handleToken_cases :
    (∃ response store', handleToken server store draw (some form) = (.error response, store') ∧
      (store' = store ∨ store' = store.deleteCode form.code)) ∨
    (∃ row, Presentable server store form ∧ store.codes.find? form.code = some row ∧
      Redeemable server.crypto draw.now form row ∧ handleToken server store draw (some form) =
        (.ok (issueToken server (store.deleteCode form.code) draw form.clientId row.scope).1,
          (issueToken server (store.deleteCode form.code) draw form.clientId row.scope).2)) ∨
    form.grantType ≠ "authorization_code" ∧
      (form.scope = "" ∨ clientAllowedScopes store form.clientId form.scope = true) ∧
      handleToken server store draw (some form) =
        (.ok (issueToken server store draw form.clientId (grantedScope store form.clientId form.scope)).1,
          (issueToken server store draw form.clientId (grantedScope store form.clientId form.scope)).2) := by
  by_cases hg : form.grantType = "authorization_code"
  · by_cases hex : ∃ row, Presentable server store form ∧ store.codes.find? form.code = some row ∧
      Redeemable server.crypto draw.now form row
    · obtain ⟨row, hp, hf, hr⟩ := hex
      exact Or.inr (Or.inl ⟨row, hp, hf, hr, handleToken_redeems server store draw form hp hf hr⟩)
    · exact Or.inl (handleToken_refuses server store draw form hg fun row hp hf hr => hex ⟨row, hp, hf, hr⟩)
  · rcases handleToken_credentials server store draw form hg with ⟨response, h⟩ | ⟨hscope, h⟩
    · exact Or.inl ⟨response, store, h, Or.inl rfl⟩
    · exact Or.inr (Or.inr ⟨hg, hscope, h⟩)

theorem issueToken_codes (clientId scope : String) :
    (issueToken server store draw clientId scope).2.codes = store.codes := rfl

end Token

section Clients

variable (c : Crypto) (store : AuthStore) (draw : ClientDraw)

theorem handleRegister_cases (body : Option RegisterBody) :
    (∃ response, handleRegister c store draw body = (.error response, store)) ∨
      ∃ b allowed clients, body = some b ∧ requestedScopes c b.allowedScopes = .ok allowed ∧
        store.clients.insert? (clientRow c draw b.agentCardId allowed b.description b.tenant) = some clients ∧
        handleRegister c store draw body = (.ok ⟨"client-" ++ draw.hex, draw.secret,
          if allowed.isEmpty then scopes else allowed, b.tenant⟩, { store with clients := clients }) := by
  unfold handleRegister
  cases body with
  | none => exact Or.inl ⟨_, rfl⟩
  | some b =>
    cases hs : requestedScopes c b.allowedScopes with
    | error response => exact Or.inl ⟨response, by simp [hs]⟩
    | ok allowed =>
      cases hi : store.clients.insert? (clientRow c draw b.agentCardId allowed b.description b.tenant) with
      | none => exact Or.inl ⟨serverError, by simp [hs, registerClient, hi]⟩
      | some clients =>
        refine Or.inr ⟨b, allowed, clients, rfl, hs, hi, ?_⟩
        simp only [hs, registerClient, hi, Option.map_some]
        rfl

theorem handleRegisterAgent_cases (card : AgentCard) :
    (∃ answer, handleRegisterAgent c store draw card = (answer, store) ∧ answer.toOption.join = none) ∨
      ∃ allowed row clients, cardScopes card.securitySchemes = some allowed ∧
        row = clientRow c draw card.agentId allowed s!"Auto-created client for agent '{card.name}'" card.tenant ∧
        store.clients.insert? row = some clients ∧
        handleRegisterAgent c store draw card = (.ok (some ⟨row.clientId, draw.secret, row.scopeList,
          row.tenantId⟩), { store with clients := clients }) := by
  unfold handleRegisterAgent
  split
  · exact Or.inl ⟨_, rfl, rfl⟩
  · cases hs : cardScopes card.securitySchemes with
    | none => exact Or.inl ⟨_, rfl, rfl⟩
    | some allowed =>
      dsimp only
      generalize hr : clientRow c draw card.agentId allowed
        s!"Auto-created client for agent '{card.name}'" card.tenant = row
      cases hi : store.clients.insert? row with
      | none => exact Or.inl ⟨.error serverError, by simp [registerClient, hi], rfl⟩
      | some clients => exact Or.inr ⟨allowed, row, clients, rfl, hr.symm, hi, by simp [registerClient, hi]⟩

end Clients

section Sample

/-- The hash of the secrets of the runs below. -/
def sampleSha256 (text : String) : String :=
  if text = "secret-a" then "8766b9cb08e6040b704f1e3ee1e186efccf2635b1d2634d6525333007e6aeae1"
  else if text = "secret-b" then "ff492ef788c89b555e6f738b33d2422f57dbb6656af2402155672c5f123a90af"
  else ""

/-- An environment to run the server in: a message is its own signature. -/
def sampleCrypto : Crypto where
  floatOf := id
  isPrintable _ := true
  sha256 := sampleSha256
  exceeds _ _ := false
  textOf bytes := String.fromUTF8? ⟨bytes.toArray⟩
  sign _ message := message
  verify _ message signature := message == signature
  jwtEncode _ _ _ := ""
  jwtDecode _ _ _ _ := none

def sampleServer : AuthServer where
  crypto := sampleCrypto
  enabled := true
  keyPair := ("private", "public")

/-- Two clients register themselves. -/
def sampleClients : List AuthEvent :=
  [.register ⟨"a00000000000", "secret-a", 0⟩ (some { allowedScopes := .arr [.str "task:read"] }),
    .register ⟨"b00000000000", "secret-b", 0⟩ (some { allowedScopes := .arr [.str "task:read"] })]

end Sample

end A2ARegistry.Auth
