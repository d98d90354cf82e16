import A2ARegistry.Auth.Proofs.Steps

namespace A2ARegistry.Auth
open Base Orchestration

/-- A token that was issued. It is void once it, or all tokens of its client, are revoked, or its
client is deleted. -/
structure IssuedToken where
  grant : TokenGrant
  void : Bool

/-- The store, with the tokens issued so far. -/
structure TokenLedger where
  store : AuthStore
  tokens : List IssuedToken

/-- An event voids a token. -/
def voids (payload : Payload) : AuthEvent → Bool
  | .revokeToken jti => (tokenRow payload).jti == jti
  | .revokeClientTokens clientId | .deleteClient clientId => (tokenRow payload).clientId == clientId
  | _ => false

namespace TokenLedger

def start (store : AuthStore) : TokenLedger := ⟨store, []⟩

def step (server : AuthServer) (l : TokenLedger) (e : AuthEvent) : TokenLedger where
  store := Auth.step server l.store e
  tokens := l.tokens.map (fun t => { t with void := t.void || voids t.grant.payload e }) ++
    (issued server l.store e).toList.map (fun grant => ⟨grant, false⟩)

end TokenLedger

/-- A request bears a token in its `Authorization` header. -/
def HttpRequest.Bears (request : HttpRequest) (token : String) : Prop :=
  request.authorization = "Bearer " ++ token

/-- The middleware lets a request in under the claims of a token. -/
def Authenticates (server : AuthServer) (now : Rat) (request : HttpRequest) (payload : Payload) : Prop :=
  ∃ identity, authMiddleware server now request = .identified identity ∧ identity.payload = payload

/-- No request is let in that bears a void token. -/
def Effective (server : AuthServer) (l : TokenLedger) : AuthEvent → Prop
  | .request now request => ∀ t ∈ l.tokens, t.void = true → request.Bears t.grant.accessToken →
      ¬ Authenticates server now request t.grant.payload
  | _ => True

/-- Every request that bears a void token comes when authentication is off, or to a public path, or
after the token has expired. -/
def Lapsed (server : AuthServer) (l : TokenLedger) : AuthEvent → Prop
  | .request now request => ∀ t ∈ l.tokens, t.void = true → request.Bears t.grant.accessToken →
      server.enabled = false ∨ isPublic request.path = true ∨
        ((tokenRow t.grant.payload).expiresAt ≠ 0 ∧ ((tokenRow t.grant.payload).expiresAt : Rat) < now)
  | _ => True

/-- A grant is what `create_token` makes of the claims of a client. -/
def Minted (server : AuthServer) (grant : TokenGrant) : Prop :=
  grant.accessToken = encodeToken server.crypto server.key grant.payload ∧
    ∃ draw clientId scope tenant, grant.payload = grantPayload draw clientId scope tenant

section Claims

variable (draw : TokenDraw) (clientId scope tenant : String)

/-- The claims of a grant. -/
theorem iss_grantPayload : Json.field (grantPayload draw clientId scope tenant) "iss" = .str issuer := rfl

theorem exp_grantPayload : Json.field (grantPayload draw clientId scope tenant) "exp" =
    .int (truncate draw.issuedAt + tokenExpirySeconds) := rfl

theorem scope_grantPayload : Json.get (grantPayload draw clientId scope tenant) "scope" (.str "") = .str scope := by
  by_cases hs : scope = "" <;> by_cases ht : tenant = "" <;>
    simp [grantPayload, TokenArgs.payload, Json.get, hs, ht]

theorem grantPayload_ne_nil : grantPayload draw clientId scope tenant ≠ [] := by
  simp [grantPayload, TokenArgs.payload]

/-- A grant's claims pass the checks until it expires. -/
theorem admits_grantPayload (c : Crypto) (now : Rat) :
    c.admits now none issuer (grantPayload draw clientId scope tenant) = true ↔
      ¬ ((tokenRow (grantPayload draw clientId scope tenant)).expiresAt ≠ 0 ∧
        ((tokenRow (grantPayload draw clientId scope tenant)).expiresAt : Rat) < now) := by
  have hrow : (tokenRow (grantPayload draw clientId scope tenant)).expiresAt =
      truncate draw.issuedAt + tokenExpirySeconds := rfl
  rw [hrow, Crypto.admits, exp_grantPayload, iss_grantPayload]
  simp [Crypto.expired, Json.isWord, or_iff_not_imp_left]

end Claims

section Middleware

variable {server : AuthServer} {now : Rat} {request : HttpRequest} {grant : TokenGrant}

theorem bearerToken_append (token : String) : bearerToken ("Bearer " ++ token) = some token := by
  have hchars : ("Bearer " ++ token).toList = "Bearer ".toList ++ token.toList := String.toList_append
  have hstart : startsWith ("Bearer " ++ token) "Bearer " = true := by
    rw [startsWith, hchars, List.isPrefixOf_iff_prefix]
    exact List.prefix_append _ _
  rw [bearerToken, hstart, if_pos rfl, hchars]
  change some (String.ofList token.toList) = some token
  rw [String.ofList_toList]

/-- A token that was issued verifies as its claims until it expires, whatever became of it. -/
theorem verifyToken_minted (hsound : server.crypto.Sound server.keyPair.1 server.keyPair.2)
    (henabled : server.enabled = true) (hm : Minted server grant) (now : Rat) :
    verifyToken server.crypto server.key now grant.accessToken =
      if server.crypto.admits now none issuer grant.payload then some grant.payload else none := by
  have hkey : server.key = ⟨server.keyPair.1, server.keyPair.2, "RS256"⟩ := by
    rw [AuthServer.key, if_pos henabled]
  obtain ⟨htoken, draw, clientId, scope, tenant, hpayload⟩ := hm
  have hdecoded : (Json.obj grant.payload).Decoded server.crypto.toPython := by
    rw [hpayload]
    exact TokenArgs.payload_decoded _ _ _ _
  rw [htoken, hkey, encodeToken, verifyToken, if_pos rfl, if_pos rfl]
  exact rsaVerifyJwt_rsaSignJwt hsound hdecoded now none issuer

/-- When authentication is off, nobody is let in under the claims of a token. -/
theorem not_authenticates_disabled (henabled : server.enabled = false) (hm : Minted server grant) :
    ¬ Authenticates server now request grant.payload := by
  rintro ⟨identity, hverdict, hpayload⟩
  obtain ⟨_, draw, clientId, scope, tenant, hgrant⟩ := hm
  simp only [authMiddleware, henabled, Bool.not_false, if_true, Verdict.identified.injEq] at hverdict
  subst hverdict
  exact grantPayload_ne_nil draw clientId scope tenant (hgrant ▸ hpayload.symm)

theorem not_authenticates_public (henabled : server.enabled = true) (hpath : isPublic request.path = true)
    (payload : Payload) : ¬ Authenticates server now request payload := by
  rintro ⟨identity, hverdict, _⟩
  simp [authMiddleware, henabled, hpath] at hverdict

/-- At a path that is not public, the bearer of a token is let in until it expires. -/
theorem authenticates_iff (hsound : server.crypto.Sound server.keyPair.1 server.keyPair.2)
    (henabled : server.enabled = true) (hpath : isPublic request.path = false) (hm : Minted server grant)
    (hb : request.Bears grant.accessToken) : Authenticates server now request grant.payload ↔
      ¬ ((tokenRow grant.payload).expiresAt ≠ 0 ∧ ((tokenRow grant.payload).expiresAt : Rat) < now) := by
  have hverify := verifyToken_minted hsound henabled hm now
  obtain ⟨_, draw, clientId, scope, tenant, hpayload⟩ := hm
  have hadmits := admits_grantPayload draw clientId scope tenant server.crypto now
  have hscope := scope_grantPayload draw clientId scope tenant
  rw [← hpayload] at hadmits hscope
  rw [← hadmits, Authenticates, authMiddleware, hb, bearerToken_append]
  simp only [henabled, Bool.not_true, Bool.false_eq_true, if_false, hpath, hverify]
  cases ha : server.crypto.admits now none issuer grant.payload with
  | false =>
    simp
  | true =>
    simp [tokenIdentity, hscope]

end Middleware

/-- The tokens of the ledger were all issued by the server. -/
def TokenLedger.AllMinted (server : AuthServer) (l : TokenLedger) : Prop := ∀ t ∈ l.tokens, Minted server t.grant

theorem issued_minted {server : AuthServer} {store : AuthStore} {e : AuthEvent} {grant : TokenGrant}
    (h : issued server store e = some grant) : Minted server grant := by
  have hissue : ∀ (store : AuthStore) (draw : TokenDraw) (clientId scope : String),
      Minted server (issueToken server store draw clientId scope).1 :=
    fun store draw clientId scope => ⟨rfl, draw, clientId, scope, _, rfl⟩
  cases e with
  | token draw form =>
    cases form with
    | none => cases h
    | some form =>
      rcases handleToken_cases server store draw form with ⟨response, store', he, _⟩ | ⟨row, _, _, _, he⟩ |
        ⟨_, _, he⟩
      · rw [issued, he] at h
        cases h
      · rw [issued, he] at h
        cases h
        exact hissue _ draw form.clientId row.scope
      · rw [issued, he] at h
        cases h
        exact hissue _ draw form.clientId _
  | _ => cases h

theorem TokenLedger.step_minted {server : AuthServer} {l : TokenLedger} (e : AuthEvent)
    (h : l.AllMinted server) : (l.step server e).AllMinted server := by
  intro t ht
  rcases List.mem_append.mp ht with ht | ht
  · obtain ⟨t', ht', rfl⟩ := List.mem_map.mp ht
    exact h t' ht'
  · obtain ⟨grant, hgrant, rfl⟩ := List.mem_map.mp ht
    exact issued_minted (Option.mem_toList.mp hgrant)

/-- What one request shows of revocation: it is effective just as far as it lapses. -/
theorem effective_iff {server : AuthServer} {l : TokenLedger}
    (hsound : server.crypto.Sound server.keyPair.1 server.keyPair.2) (hl : l.AllMinted server) (e : AuthEvent) :
    Effective server l e ↔ Lapsed server l e := by
  cases e with
  | request now request =>
    refine forall_congr' fun t => forall_congr' fun ht => forall_congr' fun _ => forall_congr' fun hb => ?_
    have hm := hl t ht
    cases henabled : server.enabled with
    | false => simp [not_authenticates_disabled henabled hm]
    | true =>
      cases hpath : isPublic request.path with
      | true => simp [not_authenticates_public henabled hpath]
      | false =>
        rw [authenticates_iff hsound henabled hpath hm hb, not_not]
        simp
  | _ => exact Iff.rfl

/-- In a run, revocation is effective exactly as far as void tokens are not presented before
they expire. -/
theorem revocation_effective_iff (server : AuthServer)
    (hsound : server.crypto.Sound server.keyPair.1 server.keyPair.2) (store : AuthStore)
    (events : List AuthEvent) :
    EachStep (TokenLedger.step server) (Effective server) (.start store) events ↔
      EachStep (TokenLedger.step server) (Lapsed server) (.start store) events := by
  have hstart : (TokenLedger.start store).AllMinted server := fun t ht => nomatch ht
  exact eachStep_congr (fun l e h => TokenLedger.step_minted e h)
    (fun l e h => effective_iff hsound h e) hstart events

section Sample

theorem fromUTF8_utf8 (s : String) : String.fromUTF8? ⟨(utf8 s).toArray⟩ = some s := by
  have hbytes : (⟨(utf8 s).toArray⟩ : ByteArray) = s.toByteArray := by
    rw [← String.utf8Encode_toList, List.utf8Encode]
    apply ByteArray.ext
    apply Array.ext'
    rw [List.toList_data_toByteArray]
    rfl
  rw [hbytes, String.fromUTF8?, dif_pos s.isValidUTF8]
  rfl

theorem sampleCrypto_sound (privateKey publicKey : String) : sampleCrypto.Sound privateKey publicKey :=
  ⟨fun v => fromUTF8_utf8 v.compact, fun message => beq_self_eq_true message⟩

/-- The first client asks for a token. -/
def sampleForm : TokenForm where
  grantType := "client_credentials"
  clientId := "client-a00000000000"
  clientSecret := "secret-a"
  scope := "task:read"

/-- The token it gets. -/
def sampleGrant : TokenGrant :=
  (issueToken sampleServer (exec (step sampleServer) AuthStore.empty sampleClients) ⟨20, 20, "jti-1"⟩
    sampleForm.clientId sampleForm.scope).1

/-- The token is issued, and revoked. -/
def revokedRun : List AuthEvent :=
  sampleClients ++ [.token ⟨20, 20, "jti-1"⟩ (some sampleForm), .revokeToken "jti-1"]

def bearingRequest : HttpRequest where
  path := "/v2/tasks"
  authorization := "Bearer " ++ sampleGrant.accessToken

theorem revokedRun_tokens : (exec (TokenLedger.step sampleServer) (.start AuthStore.empty) revokedRun).tokens =
    [⟨sampleGrant, true⟩] := rfl

theorem sampleGrant_expires : (tokenRow sampleGrant.payload).expiresAt = 3620 := rfl

/-- A token that is revoked is accepted as long as it has not expired. -/
theorem revoked_token_accepted : ¬ EachStep (TokenLedger.step sampleServer) (Effective sampleServer)
    (.start AuthStore.empty) (revokedRun ++ [.request 30 bearingRequest]) := by
  intro h
  have heffective := eachStep_iff.mp h revokedRun (.request 30 bearingRequest) [] rfl
  have hmem : ⟨sampleGrant, true⟩ ∈
      (exec (TokenLedger.step sampleServer) (.start AuthStore.empty) revokedRun).tokens := by
    rw [revokedRun_tokens]
    exact List.mem_singleton_self _
  refine heffective _ hmem rfl rfl ?_
  have hminted : Minted sampleServer sampleGrant := ⟨rfl, ⟨20, 20, "jti-1"⟩, _, _, _, rfl⟩
  have hbears : bearingRequest.Bears sampleGrant.accessToken := rfl
  have hpath : isPublic bearingRequest.path = false := by decide
  refine (authenticates_iff (sampleCrypto_sound _ _) rfl hpath hminted hbears).mpr ?_
  rw [sampleGrant_expires]
  decide

/-- After that it is refused, like any other. -/
theorem revoked_token_expired : EachStep (TokenLedger.step sampleServer) (Effective sampleServer)
    (.start AuthStore.empty) (revokedRun ++ [.request 4000 bearingRequest]) := by
  refine (revocation_effective_iff sampleServer (sampleCrypto_sound _ _) AuthStore.empty _).mpr ?_
  refine ⟨trivial, trivial, trivial, trivial, fun t ht _ _ => Or.inr (Or.inr ?_), trivial⟩
  have hmem : t ∈ (exec (TokenLedger.step sampleServer) (.start AuthStore.empty) revokedRun).tokens := ht
  rw [revokedRun_tokens] at hmem
  rw [List.mem_singleton.mp hmem, sampleGrant_expires]
  decide

end Sample

end A2ARegistry.Auth
