import A2ARegistry.Auth.Proofs.Revocation
import A2ARegistry.Security.Proofs.Replay

namespace A2ARegistry.Security
open Base Auth Orchestration

/-- The type of an error of `verify_delegation_token`. -/
inductive TokenErrorKind
  | invalid | expired | taskMismatch | subjectMismatch | replay | other
deriving DecidableEq, Repr

def TokenError.kind : TokenError → TokenErrorKind
  | .invalid _ => .invalid
  | .expired _ => .expired
  | .taskMismatch _ => .taskMismatch
  | .subjectMismatch _ => .subjectMismatch
  | .replay _ => .replay
  | .other => .other

/-- What the replay check makes of what passed the checks before it. -/
def replayCheck (tokens : DelegationTokens) : Except TokenErrorKind (Option String) → Except TokenErrorKind Unit
  | .error kind => .error kind
  | .ok jti => if isUsed tokens jti then .error .replay else .ok ()

/-- What a verification says of a token: it accepts, or it rejects with a type of error. -/
def verdict (dtm : Dtm) (tokens : DelegationTokens) (now : Rat) (tokenStr taskId agentId : String) (consume : Bool) :
    Except TokenErrorKind Unit :=
  match (verifyDelegationToken dtm tokens now tokenStr taskId agentId consume).1 with
  | .error e => .error e.kind
  | .ok _ => .ok ()

theorem verdict_eq (dtm : Dtm) (tokens : DelegationTokens) (now : Rat) (tokenStr taskId agentId : String)
    (consume : Bool) : verdict dtm tokens now tokenStr taskId agentId consume =
      replayCheck tokens ((checkToken dtm tokens now tokenStr taskId agentId).mapError TokenError.kind) := by
  unfold verdict verifyDelegationToken
  cases checkToken dtm tokens now tokenStr taskId agentId with
  | error e => rfl
  | ok jti =>
    cases hused : isUsed tokens jti <;> simp [replayCheck, Except.mapError, hused, TokenError.kind]

/-- The checks that a token calls for once it is known to be over or not. -/
def DelegatedTaskToken.check (token : DelegatedTaskToken) (expired : Bool) (taskId agentId : String) :
    Except TokenErrorKind (Option String) :=
  if expired then .error .expired
  else if token.taskId ≠ taskId then .error .taskMismatch
  else if token.sub ≠ "" ∧ token.sub ≠ agentId then .error .subjectMismatch
  else .ok (some token.jti)

/-- Only a token that is over is rejected as that. -/
theorem DelegatedTaskToken.check_expired (token : DelegatedTaskToken) (tokens : DelegationTokens) (expired : Bool)
    (taskId agentId : String) :
    replayCheck tokens (token.check expired taskId agentId) = .error .expired ↔ expired = true := by
  cases expired with
  | true => exact iff_of_true rfl rfl
  | false =>
    refine iff_of_false ?_ Bool.false_ne_true
    rw [check, if_neg Bool.false_ne_true]
    split
    · exact fun h => by cases h
    · split
      · exact fun h => by cases h
      · rw [replayCheck]
        split
        · exact fun h => by cases h
        · exact fun h => by cases h

/-- Two verdicts on a token are the same when they agree on whether it is over, and only then. -/
theorem DelegatedTaskToken.check_agree (token : DelegatedTaskToken) (tokens : DelegationTokens)
    {expired expired' : Bool} {taskId agentId : String} :
    replayCheck tokens (token.check expired taskId agentId) =
        replayCheck tokens (token.check expired' taskId agentId) ↔
      expired = expired' := by
  constructor
  · intro h
    rw [Bool.eq_iff_iff, ← token.check_expired tokens expired taskId agentId, h, token.check_expired]
  · intro h
    rw [h]

section Signed

variable {dtm : Dtm} {token : DelegatedTaskToken} {now : Rat}

/-- The environment is faithful to a token: what its key pair signs verifies, the claims are JSON, and its expiry is
compared with the time as the number it is. -/
structure Dtm.Faithful (dtm : Dtm) (token : DelegatedTaskToken) (now : Rat) : Prop where
  keys : dtm.crypto.Sound dtm.privateKey dtm.publicKey
  chain : ∀ hop ∈ token.delegationChain, hop.Decoded dtm.crypto.toPython
  issued : Json.IsFloat dtm.crypto.toPython (dtm.floatRepr token.iat)
  expiry : Json.IsFloat dtm.crypto.toPython (dtm.floatRepr token.exp)
  exceeds : dtm.crypto.exceeds now (dtm.floatRepr token.exp) = decide (token.exp < now)

theorem payload_decoded (h : dtm.Faithful token now) :
    (Json.obj (token.toJwtPayload dtm)).Decoded dtm.crypto.toPython := by
  have hfloat : ∀ r, Json.IsFloat dtm.crypto.toPython r → (Json.float r).Decoded dtm.crypto.toPython :=
    fun r hr => (Json.every_leaf rfl).mpr hr
  refine Json.every_obj.mpr ⟨?_, ?_⟩
  · change ((token.toJwtPayload dtm).map Prod.fst).Nodup
    simp [DelegatedTaskToken.toJwtPayload]
  · simp only [DelegatedTaskToken.toJwtPayload, List.forall_mem_cons]
    refine ⟨decoded_str _ _, decoded_str _ _, decoded_str _ _, hfloat _ h.issued, hfloat _ h.expiry,
      decoded_str _ _, decoded_str _ _, Json.every_arr.mpr ⟨trivial, h.chain⟩, decoded_str _ _, decoded_str _ _,
      decoded_int _ _, decoded_int _ _, ?_, decoded_str _ _, fun f hf => absurd hf List.not_mem_nil⟩
    cases token.allowedCallees with
    | none => exact (Json.every_leaf rfl).mpr trivial
    | some names => exact decoded_texts _ names

/-- `from_jwt` of what `to_jwt` wrote: an expiry that is over and is not zero is an error, and nothing else is. -/
theorem fromJwt_toJwt (h : dtm.Faithful token now) (hiss : token.iss = issuer) :
    (fromJwt dtm now (token.toJwt dtm)).mapError TokenError.kind =
      if (Json.float (dtm.floatRepr token.exp)).truthy && decide (token.exp < now) then .error .expired
      else .ok (token.toJwtPayload dtm) := by
  have hdecoded := payload_decoded h
  have hexp : Json.get (token.toJwtPayload dtm) "exp" (.int 0) = .float (dtm.floatRepr token.exp) := rfl
  have hfield : Json.field (token.toJwtPayload dtm) "exp" = .float (dtm.floatRepr token.exp) := rfl
  have hissuer : (Json.field (token.toJwtPayload dtm) "iss").isWord [issuer] = true := by
    change (Json.str token.iss).isWord [issuer] = true
    rw [hiss]
    rfl
  have hclaim : expiredClaim dtm now (token.toJwt dtm) =
      if (Json.float (dtm.floatRepr token.exp)).truthy && decide (token.exp < now) then
        some (.float (dtm.floatRepr token.exp)) else none := by
    rw [expiredClaim, DelegatedTaskToken.toJwt, split_rsaSignJwt]
    dsimp only
    rw [readSegment_segment h.keys hdecoded, Option.bind_some, hexp, Crypto.expired, h.exceeds]
    simp only [Option.some.injEq]
  rw [fromJwt, hclaim]
  split
  · rename_i hsome
    split at hsome
    · rename_i hover
      rw [if_pos hover]
      rfl
    · cases hsome
  · rename_i hnone
    split at hnone
    · cases hnone
    · rename_i hover
      have hadmits : dtm.crypto.admits now none issuer (token.toJwtPayload dtm) = true := by
        simp only [Crypto.admits, hfield, Crypto.expired, h.exceeds, hissuer, Bool.and_true, beq_iff_eq,
          Option.some.injEq]
        simpa using hover
      rw [DelegatedTaskToken.toJwt, rsaVerifyJwt_rsaSignJwt h.keys hdecoded, if_pos hadmits, if_neg hover]
      rfl

/-- The checks on the claims that `to_jwt` wrote. -/
theorem checkClaims_payload (h : dtm.Faithful token now) (taskId agentId : String) :
    (checkClaims dtm now taskId agentId (token.toJwtPayload dtm)).mapError TokenError.kind =
      token.check (decide (token.exp < now)) taskId agentId := by
  have hexp : Json.get (token.toJwtPayload dtm) "exp" (.float "0.0") = .float (dtm.floatRepr token.exp) := rfl
  have htask : Json.get (token.toJwtPayload dtm) "task_id" (.str "") = .str token.taskId := rfl
  have hsub : Json.get (token.toJwtPayload dtm) "sub" (.str "") = .str token.sub := rfl
  have hjti : Json.get (token.toJwtPayload dtm) "jti" (.str "") = .str token.jti := rfl
  rw [checkClaims, DelegatedTaskToken.check]
  simp only [hexp, htask, hsub, hjti, before, h.exceeds, Engine.bind, Json.isWord, Json.truthy]
  by_cases hover : token.exp < now
  · simp [hover, Except.mapError, TokenError.kind]
  · by_cases htask : token.taskId = taskId
    · by_cases hsub : token.sub ≠ "" ∧ token.sub ≠ agentId
      · simp [hover, htask, hsub, Except.mapError, TokenError.kind]
      · simp [hover, htask, hsub, Except.mapError]
    · simp [hover, htask, Except.mapError, TokenError.kind]

theorem dot_toJwt (dtm : Dtm) (token : DelegatedTaskToken) : '.' ∈ (token.toJwt dtm).toList := by
  rw [DelegatedTaskToken.toJwt, rsaSignJwt, String.toList_ofList]
  exact List.mem_append_right _ List.mem_cons_self

/-- A full JWT is checked by the expiry it was minted with. -/
theorem checkToken_toJwt (h : dtm.Faithful token now) (hiss : token.iss = issuer) (tokens : DelegationTokens)
    (taskId agentId : String) :
    (checkToken dtm tokens now (token.toJwt dtm) taskId agentId).mapError TokenError.kind =
      token.check (decide (token.exp < now)) taskId agentId := by
  have hjwt := fromJwt_toJwt h hiss
  rw [checkToken, if_neg (not_not.mpr (dot_toJwt dtm token))]
  cases hread : fromJwt dtm now (token.toJwt dtm) with
  | error e =>
    rw [hread] at hjwt
    split at hjwt
    · rename_i hover
      rw [DelegatedTaskToken.check, if_pos (Bool.and_eq_true_iff.mp hover).2]
      simp only [Except.mapError, Except.error.injEq] at hjwt ⊢
      exact hjwt
    · cases hjwt
  | ok payload =>
    rw [hread] at hjwt
    split at hjwt
    · cases hjwt
    · cases hjwt
      exact checkClaims_payload h taskId agentId

end Signed

section Stored

variable {dtm : Dtm} {token : DelegatedTaskToken} {tokens : DelegationTokens}

/-- A token is stored as it was persisted, used or not. -/
def DelegatedTaskToken.StoredIn (token : DelegatedTaskToken) (tokens : DelegationTokens) : Prop :=
  ∃ createdAt usedAt, tokens.find? token.jti = some { token.row createdAt with usedAt := usedAt }

/-- A stored `jti` is checked by the whole seconds of the expiry. -/
theorem checkToken_jti (hstored : token.StoredIn tokens) (hdot : '.' ∉ token.jti.toList) (now : Rat)
    (taskId agentId : String) :
    (checkToken dtm tokens now token.jti taskId agentId).mapError TokenError.kind =
      token.check (decide ((truncate token.exp : Rat) < now)) taskId agentId := by
  obtain ⟨createdAt, usedAt, hfind⟩ := hstored
  rw [checkToken, if_pos hdot, hfind]
  simp only [checkRow, DelegatedTaskToken.row, DelegatedTaskToken.check, decide_eq_true_eq]
  by_cases hover : (truncate token.exp : Rat) < now
  · simp [hover, Except.mapError, TokenError.kind]
  · by_cases htask : token.taskId = taskId
    · by_cases hsub : token.sub ≠ "" ∧ token.sub ≠ agentId
      · simp [hover, htask, hsub, Except.mapError, TokenError.kind]
      · simp [hover, htask, hsub, Except.mapError]
    · simp [hover, htask, Except.mapError, TokenError.kind]

theorem persistTokenHash_storedIn (hfresh : tokens.find? token.jti = none) (now : Rat) :
    token.StoredIn (persistTokenHash tokens now token true) := by
  have hsome : (tokens.insert? (token.row now)).isSome := Table.insert_isSome.mpr hfresh
  obtain ⟨tokens', htokens'⟩ := Option.isSome_iff_exists.mp hsome
  refine ⟨now, none, ?_⟩
  rw [persistTokenHash, if_pos rfl, htokens', Option.getD_some, Table.find_insert htokens']
  exact if_pos rfl

/-- What is stored is not stored anew. -/
theorem storedIn_persistTokenHash (h : token.StoredIn tokens) (now : Rat) (other : DelegatedTaskToken)
    (referenced : Bool) : token.StoredIn (persistTokenHash tokens now other referenced) := by
  obtain ⟨createdAt, usedAt, hfind⟩ := h
  unfold persistTokenHash
  cases referenced with
  | false => exact ⟨createdAt, usedAt, hfind⟩
  | true =>
    cases hinsert : tokens.insert? (other.row now) with
    | none => exact ⟨createdAt, usedAt, hfind⟩
    | some tokens' =>
      refine ⟨createdAt, usedAt, ?_⟩
      rw [if_pos rfl, Option.getD_some, Table.find_insert hinsert, ← hfind]
      refine if_neg fun hkey => ?_
      rw [hkey, (Table.insert_some hinsert).1] at hfind
      cases hfind

theorem storedIn_markUsed (h : token.StoredIn tokens) (now : Rat) (used : Option String) :
    token.StoredIn (markUsed tokens now used) := by
  obtain ⟨createdAt, usedAt, hfind⟩ := h
  cases used with
  | none => exact ⟨createdAt, usedAt, hfind⟩
  | some used =>
    unfold markUsed
    simp only [DelegatedTaskToken.StoredIn, Table.find_modify, hfind, Option.map_some]
    split
    · exact ⟨createdAt, some now, rfl⟩
    · exact ⟨createdAt, usedAt, rfl⟩

/-- A call keeps what is stored. -/
theorem storedIn_step {engine : PolicyEngine} {u : TokenUses} (call : TokenCall) (h : token.StoredIn u.tokens) :
    token.StoredIn (u.step engine call).tokens := by
  cases call with
  | mint | checkTaskClaim => exact h
  | persist now other referenced => exact storedIn_persistTokenHash h now other referenced
  | verify now tokenStr taskId agentId consume =>
    change token.StoredIn (verifyDelegationToken engine.dtm u.tokens now tokenStr taskId agentId consume).2
    cases hr : (verifyDelegationToken engine.dtm u.tokens now tokenStr taskId agentId consume).1 with
    | error e =>
      rw [verifyDelegationToken_error hr]
      exact h
    | ok jti =>
      rw [verifyDelegationToken_tokens hr]
      cases consume with
      | false => exact h
      | true => exact storedIn_markUsed h now jti

end Stored

/-- A token that was minted and persisted is judged alike by its JWT and by its `jti`, after every history, exactly
when the time is not between its expiry and the whole seconds of it. -/
theorem paths_agree_iff {engine : PolicyEngine} {minted : Rat} {jti : String} {args : MintArgs}
    {token : DelegatedTaskToken} (hmint : mintDelegationToken engine.dtm minted jti args = some token)
    (hdot : '.' ∉ jti.toList) {u : TokenUses} (hfresh : u.tokens.find? jti = none) (persisted : Rat)
    (calls : List TokenCall) {now : Rat} (hfaithful : engine.dtm.Faithful token now) (taskId agentId : String)
    (consume : Bool) :
    let tokens := (exec (TokenUses.step engine) u (.persist persisted token true :: calls)).tokens
    verdict engine.dtm tokens now (token.toJwt engine.dtm) taskId agentId consume =
        verdict engine.dtm tokens now token.jti taskId agentId consume ↔
      (token.exp < now ↔ (truncate token.exp : Rat) < now) := by
  obtain ⟨hjti, hiss⟩ : token.jti = jti ∧ token.iss = issuer := by
    obtain ⟨attenuated, -, rfl⟩ := Option.map_eq_some_iff.mp hmint
    exact ⟨rfl, rfl⟩
  intro tokens
  have hstored : token.StoredIn tokens := by
    have hfirst : token.StoredIn (u.step engine (.persist persisted token true)).tokens :=
      persistTokenHash_storedIn (hjti.symm ▸ hfresh) persisted
    have hkept : ∀ (u : TokenUses) (call : TokenCall), token.StoredIn u.tokens →
        token.StoredIn (u.step engine call).tokens := fun _ call h => storedIn_step call h
    exact exec_invariant hkept hfirst calls
  rw [verdict_eq, verdict_eq, checkToken_toJwt hfaithful hiss, checkToken_jti hstored (hjti.symm ▸ hdot),
    DelegatedTaskToken.check_agree, decide_eq_decide]

/-- An engine whose clock shows the numbers it compares, for a token minted at half a second. -/
def gapEngine : PolicyEngine where
  tasks := true
  dtm := {
    engine := python sampleCrypto.toPython some
    crypto := { sampleCrypto with
      exceeds := fun now r => decide ((if r = "300.5" then 601 / 2 else 1 / 2 : Rat) < now) }
    privateKey := "private"
    publicKey := "public"
    floatRepr := fun x => if x = 601 / 2 then "300.5" else "0.5" }

/-- The token that is good until 300.5. -/
def gapToken : DelegatedTaskToken where
  jti := "jti-1"
  sub := "agent-b"
  iat := 1 / 2
  exp := 601 / 2
  originAgent := "agent-a"
  originTenant := ""
  delegationChain := [.obj [("agent", .str "agent-b"), ("action", .str "delegate"), ("scope", .str "task:write"),
    ("timestamp", .float "0.5")]]
  effectiveScope := "task:write"
  attenuatedFrom := "task:write"
  maxDepth := 10
  depth := 0
  allowedCallees := none
  taskId := "t_1"

theorem gapToken_minted : mintDelegationToken gapEngine.dtm (1 / 2) "jti-1" sampleMint = some gapToken := by
  have hexp : (1 / 2 : Rat) + ((300 : Int) : Rat) = 601 / 2 := by decide +kernel
  have hrepr : gapEngine.dtm.floatRepr (1 / 2) = "0.5" := by decide +kernel
  have hmint : mintDelegationToken gapEngine.dtm (1 / 2) "jti-1" sampleMint = some { gapToken with
      exp := 1 / 2 + ((300 : Int) : Rat)
      delegationChain := [.obj [("agent", .str "agent-b"), ("action", .str "delegate"), ("scope", .str "task:write"),
        ("timestamp", .float (gapEngine.dtm.floatRepr (1 / 2)))]] } := rfl
  rw [hmint, hexp, hrepr]
  rfl

theorem gapEngine_faithful {now : Rat} : gapEngine.dtm.Faithful gapToken now where
  keys := ⟨(sampleCrypto_sound "private" "public").textOf_utf8, (sampleCrypto_sound "private" "public").verify_sign⟩
  chain := by
    intro hop hhop
    obtain rfl := List.mem_singleton.mp hhop
    refine Json.every_obj.mpr ⟨?_, ?_⟩
    · simp [Json.decodedNode]
    · simp only [List.forall_mem_cons]
      refine ⟨decoded_str _ _, decoded_str _ _, decoded_str _ _, (Json.every_leaf rfl).mpr (Or.inr rfl),
        fun f hf => absurd hf List.not_mem_nil⟩
  issued := by
    have hrepr : gapEngine.dtm.floatRepr gapToken.iat = "0.5" := by decide +kernel
    rw [hrepr]
    exact Or.inr rfl
  expiry := by
    have hrepr : gapEngine.dtm.floatRepr gapToken.exp = "300.5" := by decide +kernel
    rw [hrepr]
    exact Or.inr rfl
  exceeds := by
    have hrepr : gapEngine.dtm.floatRepr gapToken.exp = "300.5" := by decide +kernel
    rw [hrepr]
    rfl

/-- Within its time the token is judged alike. -/
theorem paths_agree_early :
    let tokens := (exec (TokenUses.step gapEngine) (.start Table.empty) [.persist 1 gapToken true]).tokens
    verdict gapEngine.dtm tokens 10 (gapToken.toJwt gapEngine.dtm) "t_1" "agent-b" true =
      verdict gapEngine.dtm tokens 10 gapToken.jti "t_1" "agent-b" true :=
  (paths_agree_iff gapToken_minted (by decide) rfl 1 [] gapEngine_faithful "t_1" "agent-b" true).mpr
    (by decide +kernel)

/-- A quarter of a second before the token is over, its `jti` is rejected and its JWT is not. -/
theorem paths_disagree :
    let tokens := (exec (TokenUses.step gapEngine) (.start Table.empty) [.persist 1 gapToken true]).tokens
    verdict gapEngine.dtm tokens (1201 / 4) (gapToken.toJwt gapEngine.dtm) "t_1" "agent-b" true = .ok () ∧
      verdict gapEngine.dtm tokens (1201 / 4) gapToken.jti "t_1" "agent-b" true = .error .expired := by
  intro tokens
  have hstored : gapToken.StoredIn tokens := persistTokenHash_storedIn rfl 1
  rw [verdict_eq, verdict_eq, checkToken_toJwt gapEngine_faithful rfl, checkToken_jti hstored (by decide)]
  exact ⟨by decide +kernel, by decide +kernel⟩

end A2ARegistry.Security
