import A2ARegistry.Auth.Proofs.Steps

namespace A2ARegistry.Auth
open Base Orchestration

/-- A token that was issued for a code: the code as it was stored, the request, and when it came. -/
structure Redemption where
  stored : Option AuthCode
  form : TokenForm
  now : Rat
deriving DecidableEq, Repr

/-- The store, with all codes that were created and all tokens that were issued for a code. -/
structure CodeLedger where
  store : AuthStore
  created : List AuthCode
  redeemed : List Redemption

def createdBy (store : AuthStore) : AuthEvent → List AuthCode
  | .createAuthCode row => if (createAuthCode store row).isSome then [row] else []
  | _ => []

def redeemedBy (server : AuthServer) (store : AuthStore) : AuthEvent → List Redemption
  | .token draw (some form) =>
    if form.grantType = "authorization_code" ∧ (issued server store (.token draw (some form))).isSome then
      [⟨store.codes.find? form.code, form, draw.now⟩]
    else []
  | _ => []

namespace CodeLedger

/-- The codes that are there at the start count as created. -/
def start (store : AuthStore) : CodeLedger := ⟨store, store.codes.rows, []⟩

def step (server : AuthServer) (l : CodeLedger) (e : AuthEvent) : CodeLedger where
  store := Auth.step server l.store e
  created := l.created ++ createdBy l.store e
  redeemed := l.redeemed ++ redeemedBy server l.store e

/-- How often a code was created, and how often it was redeemed. -/
def timesCreated (l : CodeLedger) (code : String) : Nat := l.created.countP (fun row => row.code == code)

def timesRedeemed (l : CodeLedger) (code : String) : Nat := l.redeemed.countP (fun r => r.form.code == code)

end CodeLedger

/-- A verifier matches a challenge under the method that is stored with it. -/
def AuthCode.Matches (c : Crypto) (row : AuthCode) (codeVerifier : String) : Prop :=
  (row.codeChallengeMethod = "S256" ∧ c.sha256 codeVerifier = row.codeChallenge) ∨
    (row.codeChallengeMethod = "plain" ∧ codeVerifier = row.codeChallenge)

/-- The request is one that the code was created for. -/
structure Entitled (c : Crypto) (row : AuthCode) (form : TokenForm) (now : Rat) : Prop where
  clientId : row.clientId = form.clientId
  redirectUri : row.redirectUri = form.redirectUri
  fresh : row.expired now = false
  challenge : row.codeChallenge ≠ "" → row.Matches c form.codeVerifier

/-- The safety of authorization codes: no code yields more tokens than it was created times, and
every token was issued to a request its code was created for. -/
structure CodeLedger.Safe (c : Crypto) (l : CodeLedger) : Prop where
  once : ∀ code, l.timesRedeemed code ≤ l.timesCreated code
  entitled : ∀ r ∈ l.redeemed, ∃ row ∈ l.created, r.stored = some row ∧ row.code = r.form.code ∧
    Entitled c row r.form r.now

/-- A request that passes every check on it and on its code is made by the client the code was issued
to and, where the challenge of the code is under a method that is not verified, matches it. -/
def Bound (server : AuthServer) (store : AuthStore) : AuthEvent → Prop
  | .token draw (some form) => ∀ row, Presentable server store form →
      store.codes.find? form.code = some row → Redeemable server.crypto draw.now form row →
      row.clientId = form.clientId ∧ (row.codeChallenge ≠ "" → row.codeChallengeMethod ≠ "S256" →
        row.codeChallengeMethod = "plain" ∧ form.codeVerifier = row.codeChallenge)
  | _ => True

section Steps

variable (server : AuthServer) (store : AuthStore)

/-- What an event does to the codes: it takes some away, or it creates one, or it redeems one. -/
theorem codes_cases (e : AuthEvent) :
    (createdBy store e = [] ∧ redeemedBy server store e = [] ∧ CodesFade store (step server store e)) ∨
    (∃ row codes, e = .createAuthCode row ∧ store.codes.insert? row = some codes ∧
      createdBy store e = [row] ∧ redeemedBy server store e = [] ∧ (step server store e).codes = codes) ∨
    ∃ draw form row, e = .token draw (some form) ∧ Presentable server store form ∧
      store.codes.find? form.code = some row ∧ Redeemable server.crypto draw.now form row ∧
      createdBy store e = [] ∧ redeemedBy server store e = [⟨some row, form, draw.now⟩] ∧
      (step server store e).codes = (store.deleteCode form.code).codes := by
  cases e with
  | register draw body =>
    refine Or.inl ⟨rfl, rfl, CodesFade.of_eq ?_⟩
    rcases handleRegister_cases server.crypto store draw body with
      ⟨response, h⟩ | ⟨b, allowed, clients, _, _, _, h⟩
    · rw [step, h]
    · rw [step, h]
  | registerAgent draw card =>
    refine Or.inl ⟨rfl, rfl, CodesFade.of_eq ?_⟩
    rcases handleRegisterAgent_cases server.crypto store draw card with
      ⟨answer, h, _⟩ | ⟨allowed, row, clients, _, _, _, h⟩
    · rw [step, h]
    · rw [step, h]
  | token draw form =>
    cases form with
    | none => exact Or.inl ⟨rfl, rfl, CodesFade.of_eq rfl⟩
    | some form =>
      rcases handleToken_cases server store draw form with ⟨response, store', h, hstore⟩ |
        ⟨row, hp, hf, hr, h⟩ | ⟨hg, _, h⟩
      · refine Or.inl ⟨rfl, ?_, ?_⟩
        · simp [redeemedBy, issued, h, Except.toOption]
        · rw [step, h]
          rcases hstore with rfl | rfl
          · exact CodesFade.of_eq rfl
          · exact deleteCode_fades store form.code
      · refine Or.inr (Or.inr ⟨draw, form, row, rfl, hp, hf, hr, rfl, ?_, ?_⟩)
        · simp [redeemedBy, issued, h, hp.grantType, hf, Except.toOption]
        · rw [step, h, issueToken_codes]
      · refine Or.inl ⟨rfl, by simp [redeemedBy, hg], CodesFade.of_eq ?_⟩
        rw [step, h, issueToken_codes]
  | createAuthCode row =>
    cases hi : store.codes.insert? row with
    | none => exact Or.inl ⟨by simp [createdBy, createAuthCode, hi], rfl,
        CodesFade.of_eq (by simp [step, createAuthCode, hi])⟩
    | some codes => exact Or.inr (Or.inl ⟨row, codes, rfl, hi, by simp [createdBy, createAuthCode, hi], rfl,
        by simp [step, createAuthCode, hi]⟩)
  | revokeToken | revokeClientTokens | deleteClient | request =>
    exact Or.inl ⟨rfl, rfl, CodesFade.of_eq rfl⟩

end Steps

/-- Every stored code was created, and is left over from the times it was. -/
structure CodeLedger.Accounted (l : CodeLedger) : Prop where
  known : ∀ code row, l.store.codes.find? code = some row → row ∈ l.created
  left : ∀ code, l.timesRedeemed code + (if (l.store.codes.find? code).isSome then 1 else 0) ≤ l.timesCreated code

namespace CodeLedger

variable {server : AuthServer} {l : CodeLedger}

theorem start_accounted (store : AuthStore) : (start store).Accounted := by
  refine ⟨fun code row hf => (Table.find_some_iff.mp hf).1, fun code => ?_⟩
  cases hf : store.codes.find? code with
  | none => simp [start, timesRedeemed, hf]
  | some row =>
    obtain ⟨hmem, hcode⟩ := Table.find_some_iff.mp hf
    have hpos : 0 < (start store).timesCreated code :=
      List.countP_pos_iff.mpr ⟨row, hmem, by simpa using hcode⟩
    simp only [start] at hpos
    simpa [start, timesRedeemed, hf] using Nat.succ_le_of_lt hpos

theorem step_accounted (e : AuthEvent) (h : l.Accounted) : (step server l e).Accounted := by
  rcases codes_cases server l.store e with ⟨hc, hr, hfade⟩ | ⟨row, codes, rfl, hi, hc, hr, hcodes⟩ |
    ⟨draw, form, row, rfl, _, hf, _, hc, hr, hcodes⟩
  · have hcreated : (step server l e).created = l.created := by simp [step, hc]
    have hredeemed : (step server l e).redeemed = l.redeemed := by simp [step, hr]
    refine ⟨fun code row hf => ?_, fun code => ?_⟩
    · rw [hcreated]
      exact h.known code row (hfade code row hf)
    · have hleft := h.left code
      rw [timesRedeemed, timesCreated, hcreated, hredeemed]
      cases hf : (step server l e).store.codes.find? code with
      | none =>
        simp only [timesRedeemed, timesCreated] at hleft
        simp only [Option.isSome_none, Bool.false_eq_true, if_false]
        omega
      | some row =>
        rw [hfade code row hf] at hleft
        exact hleft
  · have hfind := Table.find_insert hi
    obtain ⟨hnew, _⟩ := Table.insert_some hi
    have hstore : (step server l (.createAuthCode row)).store.codes = codes := hcodes
    refine ⟨fun code row' hf => ?_, fun code => ?_⟩
    · rw [hstore, hfind] at hf
      simp only [step, hc, List.mem_append, List.mem_singleton]
      split at hf
      · exact Or.inr (Option.some.inj hf).symm
      · exact Or.inl (h.known code row' hf)
    · have hleft := h.left code
      have hcount : (step server l (.createAuthCode row)).timesCreated code =
          l.timesCreated code + if row.code = code then 1 else 0 := by
        simp [timesCreated, step, hc, List.countP_cons]
      have hsame : (step server l (.createAuthCode row)).timesRedeemed code = l.timesRedeemed code := by
        simp [timesRedeemed, step, hr]
      rw [hsame, hcount, hstore, hfind]
      by_cases hk : code = row.code
      · subst hk
        rw [key_code] at hnew
        simpa [hnew] using hleft
      · simpa [hk, Ne.symm hk] using hleft
  · have hstore : ∀ k, (step server l (.token draw (some form))).store.codes.find? k =
        if k = form.code then none else l.store.codes.find? k := by
      intro k
      have hd := find_deleteCode l.store form.code k
      rw [← hcodes] at hd
      exact hd
    refine ⟨fun code row' hf' => ?_, fun code => ?_⟩
    · rw [hstore] at hf'
      simp only [step, hc, List.append_nil]
      split at hf'
      · cases hf'
      · exact h.known code row' hf'
    · have hleft := h.left code
      have hsame : (step server l (.token draw (some form))).timesCreated code = l.timesCreated code := by
        simp [timesCreated, step, hc]
      have hcount : (step server l (.token draw (some form))).timesRedeemed code =
          l.timesRedeemed code + if form.code = code then 1 else 0 := by
        simp [timesRedeemed, step, hr, List.countP_cons]
      rw [hsame, hcount, hstore]
      by_cases hk : code = form.code
      · subst hk
        simpa [hf] using hleft
      · simpa [hk, Ne.symm hk] using hleft

theorem Accounted.once (h : l.Accounted) (code : String) : l.timesRedeemed code ≤ l.timesCreated code := by
  have := h.left code
  omega

end CodeLedger

/-- A request that passes the checks is entitled exactly when it is bound to its code. -/
theorem entitled_iff {c : Crypto} {row : AuthCode} {form : TokenForm} {now : Rat}
    (h : Redeemable c now form row) : Entitled c row form now ↔
      row.clientId = form.clientId ∧ (row.codeChallenge ≠ "" → row.codeChallengeMethod ≠ "S256" →
        row.codeChallengeMethod = "plain" ∧ form.codeVerifier = row.codeChallenge) := by
  constructor
  · intro he
    refine ⟨he.clientId, fun hc hm => ?_⟩
    exact (he.challenge hc).resolve_left fun hs => hm hs.1
  · rintro ⟨hclient, hplain⟩
    refine ⟨hclient, h.redirectUri, h.fresh, fun hc => ?_⟩
    by_cases hm : row.codeChallengeMethod = "S256"
    · have hv := h.verifies
      rw [AuthCode.verifies, if_pos hm, compareDigest] at hv
      split at hv
      · exact Or.inl ⟨hm, by simpa using hv⟩
      · cases hv
    · exact Or.inr (hplain hc hm)

/-- An event that redeems nothing is bound. -/
theorem bound_of_unredeemed {server : AuthServer} {store : AuthStore} {e : AuthEvent}
    (h : redeemedBy server store e = []) : Bound server store e := by
  cases e with
  | token draw form =>
    cases form with
    | none => exact trivial
    | some form =>
      intro row hp hf hr
      have hredeems := handleToken_redeems server store draw form hp hf hr
      simp [redeemedBy, issued, hredeems, hp.grantType, Except.toOption] at h
  | register | registerAgent | createAuthCode | revokeToken | revokeClientTokens | deleteClient | request =>
    exact trivial

/-- A step keeps codes safe exactly when the request it serves is bound to its code. -/
theorem safe_step_iff {server : AuthServer} {l : CodeLedger} (e : AuthEvent) (ha : l.Accounted)
    (hs : l.Safe server.crypto) : (l.step server e).Safe server.crypto ↔ Bound server l.store e := by
  have hold : ∀ r ∈ l.redeemed, ∃ row ∈ (l.step server e).created, r.stored = some row ∧
      row.code = r.form.code ∧ Entitled server.crypto row r.form r.now := by
    intro r hr
    obtain ⟨row, hrow, h⟩ := hs.entitled r hr
    exact ⟨row, List.mem_append_left _ hrow, h⟩
  have haccounted : (l.step server e).Accounted := CodeLedger.step_accounted e ha
  have hunredeemed : redeemedBy server l.store e = [] → (l.step server e).Safe server.crypto := by
    intro hr
    refine ⟨haccounted.once, fun r hmem => hold r ?_⟩
    simpa [CodeLedger.step, hr] using hmem
  rcases codes_cases server l.store e with ⟨_, hr, _⟩ | ⟨_, _, _, _, _, hr, _⟩ |
    ⟨draw, form, row, rfl, hp, hf, hredeemable, _, hr, _⟩
  · exact iff_of_true (hunredeemed hr) (bound_of_unredeemed hr)
  · exact iff_of_true (hunredeemed hr) (bound_of_unredeemed hr)
  · have hnew : ⟨some row, form, draw.now⟩ ∈ (l.step server (.token draw (some form))).redeemed := by
      simp [CodeLedger.step, hr]
    constructor
    · intro hsafe row' _ hf' _
      cases hf.symm.trans hf'
      obtain ⟨row', _, hrow', _, he⟩ := hsafe.entitled _ hnew
      cases hrow'
      exact (entitled_iff hredeemable).mp he
    · intro hbound
      refine ⟨haccounted.once, fun r hmem => ?_⟩
      rcases List.mem_append.mp hmem with hmem | hmem
      · exact hold r hmem
      · rw [hr] at hmem
        cases List.mem_singleton.mp hmem
        have he := (entitled_iff hredeemable).mpr (hbound row hp hf hredeemable)
        exact ⟨row, List.mem_append_left _ (ha.known _ row hf), rfl, Table.find_key hf, he⟩

/-- In a run, codes are safe exactly as long as every request for a token is bound to its code. -/
theorem codes_safe_iff (server : AuthServer) (store : AuthStore) (events : List AuthEvent) :
    Always (CodeLedger.step server) (CodeLedger.Safe server.crypto) (.start store) events ↔
      EachStep (CodeLedger.step server) (fun l e => Bound server l.store e) (.start store) events := by
  refine always_iff_guarded (fun l e ha _ => CodeLedger.step_accounted e ha)
    (fun l e ha hs => safe_step_iff e ha hs) (CodeLedger.start_accounted store) ?_ events
  exact ⟨(CodeLedger.start_accounted store).once, by simp [CodeLedger.start]⟩

/-- A code for the first client, with a challenge in plain. -/
def plainCode : AuthCode :=
  ⟨"code-1", "client-a00000000000", "challenge", "plain", "https://a.example/callback", "task:write", 10⟩

/-- The second client redeems it, with a verifier that matches nothing. -/
def stolenForm : TokenForm where
  grantType := "authorization_code"
  clientId := "client-b00000000000"
  clientSecret := "secret-b"
  code := "code-1"
  codeVerifier := "guess"
  redirectUri := "https://a.example/callback"

/-- A client redeems the code of another one, without knowing its verifier. -/
theorem code_stolen : ¬ Always (CodeLedger.step sampleServer) (CodeLedger.Safe sampleServer.crypto)
    (.start AuthStore.empty) (sampleClients ++ [.createAuthCode plainCode,
      .token ⟨20, 20, "jti-1"⟩ (some stolenForm)]) := by
  intro h
  have hredeemed : ⟨some plainCode, stolenForm, 20⟩ ∈ (exec (CodeLedger.step sampleServer) (.start AuthStore.empty)
      (sampleClients ++ [.createAuthCode plainCode, .token ⟨20, 20, "jti-1"⟩ (some stolenForm)])).redeemed := by
    decide +kernel
  obtain ⟨row, _, hrow, _, he⟩ := h.last.entitled _ hredeemed
  cases hrow
  exact absurd he.clientId (by decide)

end A2ARegistry.Auth
