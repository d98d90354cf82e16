import A2ARegistry.Auth.Proofs.Steps
import A2ARegistry.Orchestration.Detail
import A2ARegistry.Orchestration.Store.Ops
import A2ARegistry.Security.PolicyEngine

namespace A2ARegistry.Security
open Base Orchestration

/-- A call on delegation tokens. A claim is checked against the tasks there are at the time. -/
inductive TokenCall
  | mint (now : Rat) (jti : String) (args : MintArgs)
  | persist (now : Rat) (token : DelegatedTaskToken) (referenced : Bool)
  | verify (now : Rat) (tokenStr taskId agentId : String) (consume : Bool)
  | checkTaskClaim (now : Rat) (db : Db) (caller : CallerIdentity) (taskId : String) (token : Option String)

/-- The table, with the `jti` of each consuming verification that succeeded, of those where the token was
stored at the time, and of each claim that was allowed on a token. -/
structure TokenUses where
  tokens : DelegationTokens
  consumed : List (Option String)
  spent : List (Option String)
  allowed : List (Option String)

/-- A claim that passes every check except the one against replay: the task is there, the caller is its
assignee, the token is good for the two, and no plugin rejects. -/
structure Presented (engine : PolicyEngine) (tokens : DelegationTokens) (now : Rat) (db : Db)
    (caller : CallerIdentity) (taskId : String) (token : Option String) (jti : Option String) : Prop where
  assigned : ∃ view, (if engine.tasks then getTask db taskId else none) = some view ∧
    view.task.assignee = some caller.agentId
  given : token.getD "" ≠ ""
  checks : checkToken engine.dtm tokens now (token.getD "") taskId caller.agentId = .ok jti
  accepted : engine.plugins.rejectsClaim caller taskId token = none

/-- Such a claim is allowed on its token exactly when the token is not marked. -/
theorem claimVerdict_onToken {engine : PolicyEngine} {tokens : DelegationTokens} {now : Rat} {db : Db}
    {caller : CallerIdentity} {taskId : String} {token jti : Option String} :
    claimVerdict engine db tokens now caller taskId token = .onToken jti ↔
      Presented engine tokens now db caller taskId token jti ∧ isUsed tokens jti = false := by
  constructor
  · intro h
    unfold claimVerdict at h
    cases hv : (if engine.tasks then getTask db taskId else none) with
    | none => simp [hv] at h
    | some view =>
      simp only [hv] at h
      split at h
      · cases h
      · rename_i hassignee
        split at h
        · rename_i hgiven
          cases hr : (verifyDelegationToken engine.dtm tokens now (token.getD "") taskId caller.agentId false).1 with
          | error e =>
            cases hm : e.message <;> simp [hr, hm] at h
          | ok jti' =>
            simp only [hr, claimHook] at h
            split at h
            · cases h
            · rename_i haccepted
              cases h
              obtain ⟨hc, hu⟩ := (verifyDelegationToken_ok _).mp hr
              exact ⟨⟨⟨view, hv, by simpa using hassignee⟩, hgiven, hc, haccepted⟩, hu⟩
        · split at h
          · cases h
          · unfold claimHook at h
            split at h <;> cases h
  · rintro ⟨⟨⟨view, hv, hassignee⟩, hgiven, hc, haccepted⟩, hu⟩
    have hr := (verifyDelegationToken_ok false).mpr ⟨hc, hu⟩
    simp [claimVerdict, hv, hassignee, hgiven, hr, claimHook, haccepted]

namespace TokenUses

def start (tokens : DelegationTokens) : TokenUses := ⟨tokens, [], [], []⟩

variable (engine : PolicyEngine) (u : TokenUses)

/-- The table after a call. -/
def tokensAfter : TokenCall → DelegationTokens
  | .mint .. | .checkTaskClaim .. => u.tokens
  | .persist now token referenced => persistTokenHash u.tokens now token referenced
  | .verify now tokenStr taskId agentId consume =>
    (verifyDelegationToken engine.dtm u.tokens now tokenStr taskId agentId consume).2

/-- The token a call consumes. -/
def consumedBy : TokenCall → Option (Option String)
  | .verify now tokenStr taskId agentId true =>
    (verifyDelegationToken engine.dtm u.tokens now tokenStr taskId agentId true).1.toOption
  | _ => none

/-- The token on which a call allows a claim. -/
def allowedBy : TokenCall → Option (Option String)
  | .checkTaskClaim now db caller taskId token =>
    match claimVerdict engine db u.tokens now caller taskId token with
    | .onToken jti => some jti
    | _ => none
  | _ => none

def step (call : TokenCall) : TokenUses where
  tokens := u.tokensAfter engine call
  consumed := u.consumed ++ (u.consumedBy engine call).toList
  spent := u.spent ++ (u.consumedBy engine call).toList.filter (isStored u.tokens)
  allowed := u.allowed ++ (u.allowedBy engine call).toList

/-- No token is consumed twice, and no two claims are allowed on one. -/
structure SingleUse : Prop where
  consumed : u.consumed.Nodup
  allowed : u.allowed.Nodup

/-- A token that passes the other checks of the call, and was used in the same way before, was consumed
while it was stored. -/
def SpentBefore : TokenCall → Prop
  | .verify now tokenStr taskId agentId true => ∀ jti,
      checkToken engine.dtm u.tokens now tokenStr taskId agentId = .ok jti → jti ∈ u.consumed → jti ∈ u.spent
  | .checkTaskClaim now db caller taskId token => ∀ jti,
      Presented engine u.tokens now db caller taskId token jti → jti ∈ u.allowed → jti ∈ u.spent
  | _ => True

/-- The tokens that are marked are those that were consumed while they were stored, and some that were
marked from the start, which nobody can use. -/
structure Kept : Prop where
  spent : ∀ jti ∈ u.spent, isUsed u.tokens jti = true
  marked : ∀ jti, isUsed u.tokens jti = true → jti ∈ u.spent ∨ jti ∉ u.consumed ∧ jti ∉ u.allowed

/-- A call uses no token and marks none, or it consumes one, or it allows a claim on one. -/
theorem step_cases (call : TokenCall) :
    (u.consumedBy engine call = none ∧ u.allowedBy engine call = none ∧
      ∀ jti, isUsed (u.tokensAfter engine call) jti = isUsed u.tokens jti) ∨
    (∃ now tokenStr taskId agentId jti, call = .verify now tokenStr taskId agentId true ∧
      checkToken engine.dtm u.tokens now tokenStr taskId agentId = .ok jti ∧ isUsed u.tokens jti = false ∧
      u.consumedBy engine call = some jti ∧ u.allowedBy engine call = none ∧
      u.tokensAfter engine call = markUsed u.tokens now jti) ∨
    ∃ now db caller taskId token jti, call = .checkTaskClaim now db caller taskId token ∧
      Presented engine u.tokens now db caller taskId token jti ∧ isUsed u.tokens jti = false ∧
      u.consumedBy engine call = none ∧ u.allowedBy engine call = some jti ∧
      u.tokensAfter engine call = u.tokens := by
  cases call with
  | mint => exact Or.inl ⟨rfl, rfl, fun _ => rfl⟩
  | persist now token referenced => exact Or.inl ⟨rfl, rfl, isUsed_persistTokenHash token referenced⟩
  | verify now tokenStr taskId agentId consume =>
    cases hr : (verifyDelegationToken engine.dtm u.tokens now tokenStr taskId agentId consume).1 with
    | error e =>
      have htokens := verifyDelegationToken_error hr
      refine Or.inl ⟨?_, rfl, fun jti => by rw [tokensAfter, htokens]⟩
      cases consume with
      | false => rfl
      | true => simp [consumedBy, hr, Except.toOption]
    | ok jti =>
      obtain ⟨hc, hu⟩ := (verifyDelegationToken_ok _).mp hr
      have htokens := verifyDelegationToken_tokens hr
      cases consume with
      | false => exact Or.inl ⟨rfl, rfl, fun jti => by rw [tokensAfter, htokens]; rfl⟩
      | true => exact Or.inr (Or.inl ⟨now, tokenStr, taskId, agentId, jti, rfl, hc, hu,
          by simp [consumedBy, hr, Except.toOption], rfl, htokens⟩)
  | checkTaskClaim now db caller taskId token =>
    cases hv : claimVerdict engine db u.tokens now caller taskId token with
    | onToken jti =>
      obtain ⟨hp, hu⟩ := claimVerdict_onToken.mp hv
      exact Or.inr (Or.inr ⟨now, db, caller, taskId, token, jti, rfl, hp, hu, rfl, by simp [allowedBy, hv], rfl⟩)
    | raised | denied | withoutToken => exact Or.inl ⟨rfl, by simp [allowedBy, hv], fun _ => rfl⟩

variable {engine u}

theorem start_kept (tokens : DelegationTokens) : (start tokens).Kept :=
  ⟨fun _ h => absurd h List.not_mem_nil, fun _ _ => Or.inr ⟨List.not_mem_nil, List.not_mem_nil⟩⟩

theorem step_kept (call : TokenCall) (h : u.Kept) : (u.step engine call).Kept := by
  rcases step_cases engine u call with ⟨hc, ha, hused⟩ |
    ⟨now, tokenStr, taskId, agentId, jti, rfl, _, hfresh, hc, ha, htokens⟩ |
    ⟨now, db, caller, taskId, token, jti, rfl, _, hfresh, hc, ha, htokens⟩
  · refine ⟨fun jti hs => ?_, fun jti hu => ?_⟩
    · have hs' : jti ∈ u.spent := by simpa [step, hc] using hs
      exact (hused jti).trans (h.spent jti hs')
    · have hu' : isUsed u.tokens jti = true := (hused jti).symm.trans hu
      simpa [step, hc, ha] using h.marked jti hu'
  · -- the token is spent if it is stored, and then it is also marked
    have hspent : ∀ j, j ∈ (u.step engine (.verify now tokenStr taskId agentId true)).spent ↔
        j ∈ u.spent ∨ j = jti ∧ isStored u.tokens jti = true := by
      intro j
      simp only [step, hc, Option.toList_some, List.mem_append, List.mem_filter, List.mem_singleton]
      refine or_congr_right (and_congr_right ?_)
      rintro rfl
      exact Iff.rfl
    have hmarked : ∀ j, isUsed (u.step engine (.verify now tokenStr taskId agentId true)).tokens j = true ↔
        isUsed u.tokens j = true ∨ j = jti ∧ isStored u.tokens jti = true := by
      intro j
      rw [step, htokens]
      exact isUsed_markUsed jti j
    refine ⟨fun j hs => ?_, fun j hu => ?_⟩
    · rw [hmarked]
      exact ((hspent j).mp hs).imp (h.spent j) id
    · rw [hspent]
      rcases (hmarked j).mp hu with hu | hu
      · rcases h.marked j hu with hs | ⟨hnc, hna⟩
        · exact Or.inl (Or.inl hs)
        · have hne : j ≠ jti := by
            rintro rfl
            simp [hfresh] at hu
          exact Or.inr ⟨by simpa [step, hc, hnc] using hne, by simpa [step, ha] using hna⟩
      · exact Or.inl (Or.inr hu)
  · have htokens' : (u.step engine (.checkTaskClaim now db caller taskId token)).tokens = u.tokens := htokens
    refine ⟨fun j hs => ?_, fun j hu => ?_⟩
    · have hs' : j ∈ u.spent := by simpa [step, hc] using hs
      rw [htokens']
      exact h.spent j hs'
    · rw [htokens'] at hu
      rcases h.marked j hu with hs | ⟨hnc, hna⟩
      · exact Or.inl (by simpa [step, hc] using hs)
      · have hne : j ≠ jti := by
          rintro rfl
          simp [hfresh] at hu
        exact Or.inr ⟨by simpa [step, hc] using hnc, by simpa [step, ha, hna] using hne⟩

/-- A token that is marked was used in neither way, or spent. -/
theorem Kept.spent_of_used (h : u.Kept) {jti : Option String} (hu : isUsed u.tokens jti = true)
    (hbefore : jti ∈ u.consumed ∨ jti ∈ u.allowed) : jti ∈ u.spent := by
  rcases h.marked jti hu with hs | ⟨hnc, hna⟩
  · exact hs
  · exact absurd hbefore (not_or.mpr ⟨hnc, hna⟩)

/-- A call that uses no token presents none that was used, unless it is spent. -/
theorem spentBefore_of_unused (call : TokenCall) (h : u.Kept) (hc : u.consumedBy engine call = none)
    (ha : u.allowedBy engine call = none) : u.SpentBefore engine call := by
  cases call with
  | mint | persist => exact trivial
  | verify now tokenStr taskId agentId consume =>
    cases consume with
    | false => exact trivial
    | true =>
      intro jti hcheck hmem
      cases hu : isUsed u.tokens jti with
      | true => exact h.spent_of_used hu (Or.inl hmem)
      | false =>
        have hr := (verifyDelegationToken_ok true).mpr ⟨hcheck, hu⟩
        simp [consumedBy, hr, Except.toOption] at hc
  | checkTaskClaim now db caller taskId token =>
    intro jti hp hmem
    cases hu : isUsed u.tokens jti with
    | true => exact h.spent_of_used hu (Or.inr hmem)
    | false =>
      have hv := claimVerdict_onToken.mpr ⟨hp, hu⟩
      simp [allowedBy, hv] at ha

/-- A call keeps the use of tokens single exactly when what it presents was not used, or is spent. -/
theorem singleUse_step_iff (call : TokenCall) (h : u.Kept) (hs : u.SingleUse) :
    (u.step engine call).SingleUse ↔ u.SpentBefore engine call := by
  rcases step_cases engine u call with ⟨hc, ha, _⟩ |
    ⟨now, tokenStr, taskId, agentId, jti, rfl, hcheck, hfresh, hc, ha, _⟩ |
    ⟨now, db, caller, taskId, token, jti, rfl, hp, hfresh, hc, ha, _⟩
  · refine iff_of_true ⟨?_, ?_⟩ (spentBefore_of_unused call h hc ha)
    · simpa [step, hc] using hs.consumed
    · simpa [step, ha] using hs.allowed
  · have hunspent : jti ∉ u.spent := fun hmem => by simp [h.spent jti hmem] at hfresh
    have hnodup : (u.step engine (.verify now tokenStr taskId agentId true)).consumed.Nodup ↔ jti ∉ u.consumed := by
      simpa [step, hc, hs.consumed] using List.nodup_concat u.consumed jti
    constructor
    · intro hafter jti' hcheck' hmem
      cases hcheck.symm.trans hcheck'
      exact absurd hmem (hnodup.mp hafter.consumed)
    · intro hbefore
      refine ⟨hnodup.mpr fun hmem => hunspent (hbefore jti hcheck hmem), ?_⟩
      simpa [step, ha] using hs.allowed
  · have hunspent : jti ∉ u.spent := fun hmem => by simp [h.spent jti hmem] at hfresh
    have hnodup : (u.step engine (.checkTaskClaim now db caller taskId token)).allowed.Nodup ↔ jti ∉ u.allowed := by
      simpa [step, ha, hs.allowed] using List.nodup_concat u.allowed jti
    constructor
    · intro hafter jti' hp' hmem
      cases hp.checks.symm.trans hp'.checks
      exact absurd hmem (hnodup.mp hafter.allowed)
    · intro hbefore
      refine ⟨?_, hnodup.mpr fun hmem => hunspent (hbefore jti hp hmem)⟩
      simpa [step, hc] using hs.consumed

/-- A consuming verification of a token that is not stored leaves nothing behind that the next one could
see. -/
theorem unstored_consumed {now : Rat} {tokenStr taskId agentId : String} {jti : Option String}
    (hcheck : checkToken engine.dtm u.tokens now tokenStr taskId agentId = .ok jti)
    (hstored : isStored u.tokens jti = false) :
    u.consumedBy engine (.verify now tokenStr taskId agentId true) = some jti ∧
      ∀ j, isUsed (u.tokensAfter engine (.verify now tokenStr taskId agentId true)) j = isUsed u.tokens j := by
  have hunused : isUsed u.tokens jti = false := by
    cases jti with
    | none => rfl
    | some jti =>
      have hnone : u.tokens.find? jti = none := by simpa [isStored] using hstored
      simp [isUsed, hnone]
  have hr := (verifyDelegationToken_ok true).mpr ⟨hcheck, hunused⟩
  refine ⟨by simp [consumedBy, hr, Except.toOption], fun j => ?_⟩
  rw [tokensAfter, verifyDelegationToken_tokens hr, if_pos rfl]
  refine Bool.eq_iff_iff.mpr ((isUsed_markUsed jti j).trans ?_)
  simp [hstored]

end TokenUses

/-- In a run, every token is used at most once in each way exactly as long as every call that presents a
used one again presents one that was consumed while it was stored. -/
theorem single_use_iff (engine : PolicyEngine) (tokens : DelegationTokens) (calls : List TokenCall) :
    Always (TokenUses.step engine) TokenUses.SingleUse (.start tokens) calls ↔
      EachStep (TokenUses.step engine) (TokenUses.SpentBefore engine) (.start tokens) calls :=
  always_iff_guarded (fun _ call h _ => TokenUses.step_kept call h)
    (fun _ call h hs => TokenUses.singleUse_step_iff call h hs) (TokenUses.start_kept tokens)
    ⟨List.nodup_nil, List.nodup_nil⟩ calls

/-- An engine that enforces, in the environment of the sample server. -/
def sampleEngine : PolicyEngine where
  mode := "enforce"
  tasks := true
  dtm := { engine := python Auth.sampleCrypto.toPython some, crypto := Auth.sampleCrypto, privateKey := "private", publicKey := "public", floatRepr := fun _ => "0.0" }

/-- A task for the second agent. -/
def sampleTasks : Db := exec Orchestration.step Db.empty
  [.createTask (.fixed 0) "1" { title := "task", assignee := some "agent-b" }]

/-- A token for it. -/
def sampleMint : MintArgs where
  sub := "agent-b"
  taskId := "t_1"
  originAgent := "agent-a"
  effectiveScope := "task:write"

/-- The token is minted and persisted, and the task is claimed with it, twice. -/
def claimedTwice : List TokenCall :=
  .mint 0 "jti-1" sampleMint ::
  ((mintDelegationToken sampleEngine.dtm 0 "jti-1" sampleMint).toList.map (fun token => .persist 0 token true) ++
  [.checkTaskClaim 10 sampleTasks { agentId := "agent-b" } "t_1" (some "jti-1"),
    .checkTaskClaim 20 sampleTasks { agentId := "agent-b" } "t_1" (some "jti-1")])

/-- Two claims are allowed on one token. -/
theorem claim_replayed :
    ¬ Always (TokenUses.step sampleEngine) TokenUses.SingleUse (.start Table.empty) claimedTwice := by
  intro h
  have hallowed : (exec (TokenUses.step sampleEngine) (.start Table.empty) claimedTwice).allowed =
      [some "jti-1", some "jti-1"] := by
    decide +kernel
  have hnodup := h.last.allowed
  rw [hallowed] at hnodup
  exact absurd hnodup (by decide)

end A2ARegistry.Security
