import Mathlib.Data.Rat.Floor
import Mathlib.Tactic.Linarith
import A2ARegistry.Auth.Proofs.Revocation
import A2ARegistry.Client.Token

namespace A2ARegistry.Client
open Base Auth Orchestration

/-- The claims of a token of the client: in its name, with the scope it asks for. -/
def OwnClaims (client : A2AClient) (issuedAt : Rat) (payload : Payload) : Prop :=
  ∃ draw scope tenant, draw.issuedAt = issuedAt ∧ payload = grantPayload draw client.clientId scope tenant ∧
    (client.scope ≠ "" → scope = client.scope)

/-- A grant of the server to the client. -/
structure OwnGrant (server : AuthServer) (client : A2AClient) (issuedAt : Rat) (grant : TokenGrant) : Prop where
  token : grant.accessToken = encodeToken server.crypto server.key grant.payload
  claims : OwnClaims client issuedAt grant.payload

/-- An answer takes at most `back` seconds to the client, a request at most `out` seconds to the server. -/
def Timely (back out : Rat) (s : Exchange) : ClientEvent → Prop
  | .answer id now => ∀ method issuedAt answer, s.calls id = .answered method issuedAt answer → now ≤ issuedAt + back
  | .arrive id now _ => ∀ method accessToken since, s.calls id = .requesting method accessToken since →
      now ≤ since + out
  | _ => True

/-- The token of a request verifies, in the client's name and with the scope it asks for, and a request with the
header is let in under it. -/
def Admitted (server : AuthServer) (client : A2AClient) (s : Exchange) : ClientEvent → Prop
  | .arrive id now path => ∀ method accessToken since, s.calls id = .requesting method accessToken since →
      ∃ issuedAt payload, OwnClaims client issuedAt payload ∧
        verifyToken server.crypto server.key now accessToken = some payload ∧
        (isPublic path = false → Authenticates server now (client.request path accessToken) payload)
  | _ => True

/-- No answer makes the client drop its token. -/
def Spared (s : Exchange) : ClientEvent → Prop
  | .respond id _ status => ∀ method, s.calls id = .waiting method → method.drops status = false
  | _ => True

/-- What the calls of a client hold: answers and tokens are the server's, and no token is taken for a request that is
older than the margin allows. -/
def Call.Sound (server : AuthServer) (client : A2AClient) (back : Rat) : Call → Prop
  | .answered _ issuedAt answer => ∀ grant, answer = .ok grant → OwnGrant server client issuedAt grant
  | .requesting _ accessToken since => ∃ issuedAt grant, OwnGrant server client issuedAt grant ∧
      accessToken = grant.accessToken ∧ since ≤ issuedAt + 3570 + back
  | _ => True

/-- A cached token is the server's, and was acquired soon after it was issued. -/
def OAuthToken.Sound (server : AuthServer) (client : A2AClient) (back : Rat) (token : OAuthToken) : Prop :=
  ∃ issuedAt grant, OwnGrant server client issuedAt grant ∧ token.accessToken = grant.accessToken ∧
    token.expiresIn = tokenExpirySeconds ∧ token.acquiredAt ≤ issuedAt + back

structure Exchange.Sound (server : AuthServer) (client : A2AClient) (back : Rat) (s : Exchange) : Prop where
  token : ∀ token, s.token = some token → token.Sound server client back
  calls : ∀ id, (s.calls id).Sound server client back

section Requests

variable (client : A2AClient)

theorem A2AClient.request_path (path accessToken : String) : (client.request path accessToken).path = path := by
  unfold A2AClient.request
  split <;> rfl

theorem A2AClient.request_bears (hclient : client.authEnabled = true) (path accessToken : String) :
    (client.request path accessToken).Bears accessToken := by
  unfold A2AClient.request
  rw [if_pos hclient]
  rfl

end Requests

section Grants

variable {server : AuthServer} {client : A2AClient} {issuedAt : Rat} {grant : TokenGrant}

/-- What a token request of the client is answered with, where it is granted. -/
theorem handleToken_own {store : AuthStore} {draw : TokenDraw}
    (h : (handleToken server store draw (some client.tokenForm)).1 = .ok grant) :
    OwnGrant server client draw.issuedAt grant := by
  have hcode : client.tokenForm.grantType ≠ "authorization_code" := by
    change "client_credentials" ≠ "authorization_code"
    decide
  rcases handleToken_credentials server store draw client.tokenForm hcode with ⟨response, he⟩ | ⟨_, he⟩
  · rw [he] at h
    cases h
  · rw [he] at h
    cases h
    refine ⟨rfl, draw, _, _, rfl, rfl, fun hscope => ?_⟩
    change grantedScope store client.clientId client.scope = client.scope
    unfold grantedScope
    cases getClient store client.clientId with
    | none => rfl
    | some row => exact if_neg hscope

theorem OwnGrant.minted (h : OwnGrant server client issuedAt grant) : Minted server grant := by
  obtain ⟨draw, scope, tenant, _, hpayload, _⟩ := h.claims
  exact ⟨h.token, draw, client.clientId, scope, tenant, hpayload⟩

theorem OwnGrant.expiresAt (h : OwnGrant server client issuedAt grant) :
    (tokenRow grant.payload).expiresAt = truncate issuedAt + tokenExpirySeconds := by
  obtain ⟨draw, scope, tenant, rfl, hpayload, _⟩ := h.claims
  rw [hpayload]
  rfl

/-- The answer to a token request is read as the token it grants. -/
theorem readToken_body (now : Rat) : client.readToken now grant.body =
    some ⟨grant.accessToken, "Bearer", tokenExpirySeconds, grant.scope, now⟩ := rfl

/-- Seconds are cut off by less than one. -/
theorem lt_truncate (x : Rat) : x - 1 < (truncate x : Rat) := by
  have hden : (0 : Rat) < x.den := by exact_mod_cast x.den_pos
  have hnum : (x.num : Rat) < ((truncate x + 1 : Int) : Rat) * x.den := by
    have hint : x.num < (truncate x + 1) * x.den := Int.lt_tdiv_add_one_mul_self x.num (by exact_mod_cast x.den_pos)
    exact_mod_cast hint
  have hlt : x < ((truncate x + 1 : Int) : Rat) := by
    rw [← Rat.num_div_den x, div_lt_iff₀ hden, Rat.num_div_den]
    exact hnum
  rw [Int.cast_add, Int.cast_one] at hlt
  exact sub_lt_iff_lt_add.mpr hlt

/-- A token of the client is within its hour as long as it is used an hour after its issue, less the second that the
clock may be cut off by. -/
theorem OwnGrant.unexpired (h : OwnGrant server client issuedAt grant) {now : Rat} (hnow : now ≤ issuedAt + 3599) :
    ¬ ((tokenRow grant.payload).expiresAt ≠ 0 ∧ ((tokenRow grant.payload).expiresAt : Rat) < now) := by
  intro hexpired
  have hcut := lt_truncate issuedAt
  have hlate := hexpired.2
  rw [h.expiresAt, Int.cast_add, show ((tokenExpirySeconds : Int) : Rat) = 3600 from by norm_num [tokenExpirySeconds]]
    at hlate
  linarith

theorem OwnGrant.verifies (hsound : server.crypto.Sound server.keyPair.1 server.keyPair.2)
    (henabled : server.enabled = true) (h : OwnGrant server client issuedAt grant) {now : Rat}
    (hnow : now ≤ issuedAt + 3599) :
    verifyToken server.crypto server.key now grant.accessToken = some grant.payload := by
  rw [verifyToken_minted hsound henabled h.minted now]
  obtain ⟨draw, scope, tenant, _, hpayload, _⟩ := h.claims
  have hadmits := admits_grantPayload draw client.clientId scope tenant server.crypto now
  rw [← hpayload] at hadmits
  rw [if_pos (hadmits.mpr (h.unexpired hnow))]

/-- A request with a token of the client is let in. -/
theorem OwnGrant.authenticates (hsound : server.crypto.Sound server.keyPair.1 server.keyPair.2)
    (henabled : server.enabled = true) (hclient : client.authEnabled = true) (h : OwnGrant server client issuedAt grant)
    {path : String} (hpath : isPublic path = false) {now : Rat} (hnow : now ≤ issuedAt + 3599) :
    Authenticates server now (client.request path grant.accessToken) grant.payload := by
  have hpublic : isPublic (client.request path grant.accessToken).path = false := by
    rw [client.request_path]
    exact hpath
  exact (authenticates_iff hsound henabled hpublic h.minted (client.request_bears hclient path grant.accessToken)).mpr
    (h.unexpired hnow)

end Grants

section Steps

variable {server : AuthServer} {client : A2AClient} {back out : Rat} {s : Exchange}

theorem Exchange.Sound.put (h : s.Sound server client back) (id : Nat) {call : Call}
    (hcall : call.Sound server client back) : (s.put id call).Sound server client back := by
  refine ⟨h.token, fun k => ?_⟩
  by_cases hk : k = id
  · subst hk
    simpa [Exchange.put] using hcall
  · simpa [Exchange.put, hk] using h.calls k

theorem Exchange.Sound.dropToken (h : s.Sound server client back) : s.dropToken.Sound server client back :=
  ⟨fun _ htoken => (by cases htoken), h.calls⟩

/-- The client takes a token from its cache as long as it is good for longer than the margin. -/
theorem ensureToken_sound (h : s.Sound server client back) (hclient : client.authEnabled = true) (method : Method)
    (now : Rat) : (s.ensureToken client method now).Sound server client back := by
  rw [Exchange.ensureToken, if_pos hclient]
  cases htoken : s.token with
  | none => trivial
  | some token =>
    cases hexpired : token.isExpired now with
    | true =>
      dsimp only
      rw [if_pos hexpired]
      trivial
    | false =>
      dsimp only
      rw [if_neg (by simp [hexpired])]
      obtain ⟨issuedAt, grant, hown, haccess, hexpires, hacquired⟩ := h.token token htoken
      refine ⟨issuedAt, grant, hown, haccess, ?_⟩
      have hfresh : now < token.acquiredAt + (token.expiresIn : Rat) - (tokenRefreshMargin : Rat) :=
        not_le.mp (of_decide_eq_false hexpired)
      rw [hexpires] at hfresh
      norm_num [tokenExpirySeconds, tokenRefreshMargin] at hfresh
      linarith

/-- A token is acquired when the answer arrives, and is held for the request. -/
theorem gotToken_sound (h : s.Sound server client back) {id : Nat} {method : Method} {issuedAt now : Rat}
    {answer : Except Response TokenGrant} (hcall : s.calls id = .answered method issuedAt answer)
    (hback : now ≤ issuedAt + back) : (s.gotToken client id method now answer).Sound server client back := by
  cases answer with
  | error response => exact h.put id trivial
  | ok grant =>
    have hown : OwnGrant server client issuedAt grant := by
      have hanswer := h.calls id
      rw [hcall] at hanswer
      exact hanswer grant rfl
    rw [Exchange.gotToken, readToken_body]
    have hheld : (Call.requesting method grant.accessToken now).Sound server client back :=
      ⟨issuedAt, grant, hown, rfl, by linarith⟩
    have hcalls := h.put id hheld
    refine ⟨fun token htoken => ?_, hcalls.calls⟩
    cases htoken
    exact ⟨issuedAt, grant, hown, rfl, rfl, hback⟩

theorem gotAnswer_sound (h : s.Sound server client back) (hclient : client.authEnabled = true) (id : Nat)
    (method : Method) (now : Rat) (status : Nat) : (s.gotAnswer client id method now status).Sound server client back := by
  unfold Exchange.gotAnswer
  split
  · cases method with
    | heartbeat => exact h.dropToken.put id (ensureToken_sound h.dropToken hclient .http now)
    | http | webSocket => exact h.dropToken.put id trivial
  · exact h.put id trivial

theorem sound_step (hclient : client.authEnabled = true) (h : s.Sound server client back) (event : ClientEvent)
    (ht : Timely back out s event) : (s.step server client event).Sound server client back := by
  cases event with
  | call id method now =>
    rw [Exchange.step]
    split
    · exact h.put id (ensureToken_sound h hclient method now)
    · exact h
  | serve id draw =>
    rw [Exchange.step]
    split
    · rename_i method _
      have hanswer : (Call.answered method draw.issuedAt
          (handleToken server s.store draw (some client.tokenForm)).1).Sound server client back :=
        fun grant hgrant => handleToken_own hgrant
      have hput := h.put id hanswer
      exact ⟨hput.token, hput.calls⟩
    · exact h
  | answer id now =>
    cases hcall : s.calls id with
    | answered method issuedAt answer =>
      rw [Exchange.step, hcall]
      exact gotToken_sound h hcall (ht method issuedAt answer hcall)
    | _ =>
      rw [Exchange.step, hcall]
      exact h
  | arrive id now path =>
    rw [Exchange.step]
    split
    · exact h.put id trivial
    · exact h
  | respond id now status =>
    rw [Exchange.step]
    split
    · rename_i method _
      exact gotAnswer_sound h hclient id method now status
    · exact h
  | lose id => exact h.put id trivial
  | other event => exact ⟨h.token, h.calls⟩

/-- A request that arrives in time is let in. -/
theorem sound_admitted (hsound : server.crypto.Sound server.keyPair.1 server.keyPair.2)
    (henabled : server.enabled = true) (hclient : client.authEnabled = true) (hmargin : back + out ≤ 29)
    (h : s.Sound server client back) {event : ClientEvent} (ht : Timely back out s event) : Admitted server client s event := by
  cases event with
  | arrive id now path =>
    intro method accessToken since hcall
    have hheld := h.calls id
    rw [hcall] at hheld
    obtain ⟨issuedAt, grant, hown, rfl, hsince⟩ := hheld
    have hout : now ≤ since + out := ht method grant.accessToken since hcall
    have hhour : now ≤ issuedAt + 3599 := by linarith
    exact ⟨issuedAt, grant.payload, hown.claims, hown.verifies hsound henabled hhour,
      fun hpath => hown.authenticates hsound henabled hclient hpath hhour⟩
  | _ => trivial

end Steps

section Renewal

variable {server : AuthServer} {client : A2AClient} {s : Exchange} {now : Rat}

/-- A token is cached that was acquired at `now` or later. -/
def Exchange.HasSince (s : Exchange) (now : Rat) : Prop :=
  ∃ token, s.token = some token ∧ token.expiresIn = tokenExpirySeconds ∧ now ≤ token.acquiredAt

theorem gotToken_hasSince (client : A2AClient) (s : Exchange) (id : Nat) (method : Method) (now : Rat)
    (grant : TokenGrant) : (s.gotToken client id method now (.ok grant)).HasSince now := by
  rw [Exchange.gotToken, readToken_body]
  exact ⟨_, rfl, rfl, le_refl now⟩

/-- A cached token is replaced only by one that is acquired later, unless an answer makes the client drop it. -/
theorem hasSince_step (h : s.HasSince now) {event : ClientEvent} (hclock : ∀ id t, event = .answer id t → now ≤ t)
    (hspared : Spared s event) : (s.step server client event).HasSince now := by
  cases event with
  | answer id t =>
    rw [Exchange.step]
    split
    · rename_i method issuedAt answer _
      cases answer with
      | error response => exact h
      | ok grant =>
        obtain ⟨token, htoken, hexpires, hsince⟩ := gotToken_hasSince client s id method t grant
        exact ⟨token, htoken, hexpires, (hclock id t rfl).trans hsince⟩
    · exact h
  | respond id t status =>
    rw [Exchange.step]
    split
    · rename_i method hcall
      unfold Exchange.gotAnswer
      rw [if_neg (by simp [hspared method hcall])]
      exact h
    · exact h
  | call id method t | serve id draw | arrive id t path =>
    rw [Exchange.step]
    split
    · exact h
    · exact h
  | lose id => exact h
  | other event => exact h

/-- With such a token no other one is asked for until the margin is reached. -/
theorem hasSince_spares (h : s.HasSince now) (hclient : client.authEnabled = true) {method asker : Method} {later : Rat}
    (hasks : s.ensureToken client method later = .asking asker) : now + 3570 ≤ later := by
  obtain ⟨token, htoken, hexpires, hsince⟩ := h
  rw [Exchange.ensureToken, if_pos hclient, htoken] at hasks
  dsimp only at hasks
  split at hasks
  · rename_i hexpired
    have hlate := of_decide_eq_true hexpired
    rw [hexpires] at hlate
    norm_num [tokenExpirySeconds, tokenRefreshMargin] at hlate
    linarith
  · cases hasks

end Renewal

/-- Where an answer and a request together are at most 29 seconds on their way, every request that a client makes bears
a token that is good, in its name and with the scope it asks for, and is let in, whatever calls it makes at once, however
they are answered and whatever else the server is asked. When it has got a token, no call asks for another one in the
next 3570 seconds, unless an answer has made it drop the token. -/
theorem client_stays_admitted {server : AuthServer} {client : A2AClient}
    (hsound : server.crypto.Sound server.keyPair.1 server.keyPair.2) (henabled : server.enabled = true)
    (hclient : client.authEnabled = true) {back out : Rat} (hmargin : back + out ≤ 29) (store : AuthStore)
    {events : List ClientEvent}
    (h : EachStep (Exchange.step server client) (Timely back out) (.start store) events) :
    EachStep (Exchange.step server client) (Admitted server client) (.start store) events ∧
    ∀ pre id now mid got issuedAt grant method asker later, events = pre ++ .answer id now :: mid →
      (exec (Exchange.step server client) (.start store) pre).calls id = .answered got issuedAt (.ok grant) →
      (∀ k t, .answer k t ∈ mid → now ≤ t) →
      EachStep (Exchange.step server client) Spared
        (exec (Exchange.step server client) (.start store) (pre ++ [.answer id now])) mid →
      (exec (Exchange.step server client) (.start store) events).ensureToken client method later = .asking asker →
      now + 3570 ≤ later := by
  constructor
  · have hstart : (Exchange.start store).Sound server client back :=
      ⟨fun _ htoken => (by cases htoken), fun _ => trivial⟩
    exact h.imp_invariant (I := Exchange.Sound server client back)
      (fun s event hs ht => sound_step hclient hs event ht)
      (fun s event hs ht => sound_admitted hsound henabled hclient hmargin hs ht) hstart
  · rintro pre id now mid got issuedAt grant method asker later rfl hcall hclock hspared hasks
    have hacquired : ((exec (Exchange.step server client) (.start store) pre).step server client
        (.answer id now)).HasSince now := by
      rw [Exchange.step, hcall]
      exact gotToken_hasSince client _ id got now grant
    have hheld : (exec (Exchange.step server client) (.start store) (pre ++ .answer id now :: mid)).HasSince now := by
      rw [exec_append, exec_cons]
      rw [exec_append] at hspared
      have hkept : ∀ s : Exchange, ∀ event ∈ mid, s.HasSince now → Spared s event →
          (s.step server client event).HasSince now :=
        fun s event hmem hs hspare => hasSince_step hs (fun k t ht => hclock k t (ht ▸ hmem)) hspare
      exact EachStep.invariant_of_mem (I := fun s : Exchange => s.HasSince now) hkept hacquired hspared
    exact hasSince_spares hheld hclient hasks

section Sample

/-- The first of the clients that register themselves. -/
def sampleClient : A2AClient := A2AClient.create "client-a00000000000" "secret-a" none "task:read"

def sampleStore : AuthStore := exec (Auth.step sampleServer) AuthStore.empty sampleClients

/-- It asks for a token, and reads the tasks with it. -/
def firstCall (back out : Rat) : List ClientEvent :=
  [.call 0 .http 20, .serve 0 ⟨20, 20, "jti-1"⟩, .answer 0 (20 + back), .arrive 0 (20 + back + out) "/v2/tasks",
    .respond 0 (20 + back + out + back) 200]

/-- The token request has been answered. -/
def served : Exchange := exec (Exchange.step sampleServer sampleClient) (.start sampleStore)
  [.call 0 .http 20, .serve 0 ⟨20, 20, "jti-1"⟩]

theorem served_calls : served.calls 0 = .answered .http 20 (.ok sampleGrant) := rfl

/-- The answer arrives. -/
theorem served_answer (now : Rat) : served.step sampleServer sampleClient (.answer 0 now) =
    { served.put 0 (.requesting .http sampleGrant.accessToken now) with
      token := some ⟨sampleGrant.accessToken, "Bearer", tokenExpirySeconds, sampleGrant.scope, now⟩ } := by
  rw [Exchange.step, served_calls]
  rfl

theorem firstCall_timely (back out : Rat) : EachStep (Exchange.step sampleServer sampleClient) (Timely back out)
    (.start sampleStore) (firstCall back out) := by
  refine ⟨trivial, trivial, fun method issuedAt answer hcall => ?_, fun method accessToken since hcall => ?_, trivial,
    trivial⟩
  · have hserved : served.calls 0 = .answered method issuedAt answer := hcall
    rw [served_calls] at hserved
    cases hserved
    exact le_refl _
  · have hanswered : (served.step sampleServer sampleClient (.answer 0 (20 + back))).calls 0 =
      .requesting method accessToken since := hcall
    rw [served_answer] at hanswered
    cases hanswered
    exact le_refl _

/-- Once the answer has arrived, nothing makes the client drop its token. -/
theorem firstCall_spared : EachStep (Exchange.step sampleServer sampleClient) Spared
    (exec (Exchange.step sampleServer sampleClient) (.start sampleStore)
      [.call 0 .http 20, .serve 0 ⟨20, 20, "jti-1"⟩, .answer 0 21])
    [.arrive 0 22 "/v2/tasks", .respond 0 23 200] :=
  ⟨trivial, fun method _ => (by cases method <;> rfl), trivial⟩

/-- The client's first request is let in, and the token is used for the next hour but thirty seconds. -/
theorem first_call_admitted : Admitted sampleServer sampleClient (served.step sampleServer sampleClient (.answer 0 21))
      (.arrive 0 22 "/v2/tasks") ∧
    ∀ method asker later, (exec (Exchange.step sampleServer sampleClient) (.start sampleStore)
      (firstCall 1 1)).ensureToken sampleClient method later = .asking asker → 21 + 3570 ≤ later := by
  have hsound : sampleServer.crypto.Sound sampleServer.keyPair.1 sampleServer.keyPair.2 := sampleCrypto_sound _ _
  have hmargin : (1 : Rat) + 1 ≤ 29 := by norm_num
  obtain ⟨hadmitted, hspared⟩ := client_stays_admitted hsound rfl rfl hmargin sampleStore (firstCall_timely 1 1)
  have htimes : firstCall 1 1 = [.call 0 .http 20, .serve 0 ⟨20, 20, "jti-1"⟩, .answer 0 21,
      .arrive 0 22 "/v2/tasks", .respond 0 23 200] := by
    norm_num [firstCall]
  rw [htimes] at hadmitted hspared ⊢
  refine ⟨hadmitted.2.2.2.1, fun method asker later hasks => ?_⟩
  exact hspared [.call 0 .http 20, .serve 0 ⟨20, 20, "jti-1"⟩] 0 21 [.arrive 0 22 "/v2/tasks", .respond 0 23 200]
    .http 20 sampleGrant method asker later rfl served_calls (by simp) firstCall_spared hasks

end Sample

end A2ARegistry.Client
