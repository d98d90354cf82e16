import Mathlib.Data.List.Dedup
import A2ARegistry.Auth.Proofs.Steps
import A2ARegistry.Base.Run
import A2ARegistry.Orchestration.Detail
import A2ARegistry.Security.Dtm

namespace A2ARegistry.Security
open Base Auth

/-- A scope that a restriction leaves of some scopes. A mapping leaves the scopes it leads to, and those it
leads out of the set. -/
def Restriction.Leaves (scopes : List String) (s : String) : Restriction → Prop
  | .exclude excluded => s ∈ scopes ∧ s ∉ excluded
  | .reduceTo kept => s ∈ scopes ∧ s ∈ kept
  | .map mapping => s ∈ scopes ∧
      ((∃ t ∈ scopes, (mapping.lookup t).getD t = s) ∨ (mapping.lookup s).getD s ∉ scopes)
  | .unknown => s ∈ scopes

theorem Restriction.mem_apply {scopes : List String} {s : String} (restriction : Restriction) :
    s ∈ restriction.apply scopes ↔ restriction.Leaves scopes s := by
  cases restriction with
  | exclude excluded => simp [apply, Leaves]
  | reduceTo kept => simp [apply, Leaves]
  | unknown => exact Iff.rfl
  | map mapping =>
    simp only [apply, Leaves, List.mem_dedup, List.mem_map, List.contains_iff_mem]
    constructor
    · intro hleft
      obtain ⟨t, ht, hs⟩ := hleft
      split at hs
      · rename_i hin
        exact ⟨hs ▸ hin, Or.inl ⟨t, ht, hs⟩⟩
      · rename_i hout
        subst hs
        exact ⟨ht, Or.inr hout⟩
    · intro hleaves
      obtain ⟨hs, ⟨t, ht, hmap⟩ | hout⟩ := hleaves
      · exact ⟨t, ht, by rw [hmap, if_pos hs]⟩
      · exact ⟨s, hs, if_neg hout⟩

theorem Restriction.leaves_mem {scopes : List String} {s : String} {restriction : Restriction}
    (h : restriction.Leaves scopes s) : s ∈ scopes := by
  cases restriction with
  | unknown => exact h
  | _ => exact h.1

/-- Which scopes there are is all that counts. -/
theorem Restriction.leaves_dedup {scopes : List String} {s : String} (restriction : Restriction) :
    restriction.Leaves scopes.dedup s ↔ restriction.Leaves scopes s := by
  cases restriction <;> simp [Leaves]

/-- The text of no scopes is empty, and of some it is not. -/
theorem joined_empty {parts : List String} (h : ∀ w ∈ parts, words w = [w]) :
    joinBy " " parts = "" ↔ parts = [] := by
  constructor
  · intro he
    rw [← words_join h, he]
    rfl
  · rintro rfl
    rfl

theorem sorted_words {scope : String} (restriction : Restriction) :
    ∀ w ∈ (restriction.apply (words scope).dedup).insertionSort (· ≤ ·), words w = [w] := by
  intro w hw
  rw [List.mem_insertionSort, Restriction.mem_apply, Restriction.leaves_dedup] at hw
  exact words_word (Restriction.leaves_mem hw)

/-- `attenuate_scope` raises when the restriction leaves nothing. -/
theorem attenuateScope_none {scope : String} (restriction : Restriction) :
    attenuateScope scope (some restriction) = none ↔ ∀ s, ¬ restriction.Leaves (words scope) s := by
  have hwords := @sorted_words scope restriction
  simp only [attenuateScope, ite_eq_left_iff, reduceCtorEq, imp_false, not_not, joined_empty hwords,
    List.eq_nil_iff_forall_not_mem, List.mem_insertionSort, Restriction.mem_apply, Restriction.leaves_dedup]

/-- Where it does not, the scopes are those the restriction leaves. -/
theorem mem_attenuateScope {scope attenuated : String} {restriction : Restriction}
    (h : attenuateScope scope (some restriction) = some attenuated) (s : String) :
    s ∈ words attenuated ↔ restriction.Leaves (words scope) s := by
  have hwords := @sorted_words scope restriction
  simp only [attenuateScope] at h
  split at h
  · cases h
  · cases h
    rw [words_join hwords, List.mem_insertionSort, Restriction.mem_apply, Restriction.leaves_dedup]

/-- A call of `mint_delegation_token` but for its parent scope. -/
structure MintCall where
  now : Rat
  jti : String
  args : MintArgs
  restriction : Option (List (String × Json)) := none

namespace MintCall

def mint (dtm : Dtm) (parentScope : String) (call : MintCall) : Option DelegatedTaskToken :=
  mintRestricted dtm call.now call.jti { call.args with parentScope := parentScope } call.restriction

/-- A scope of its `effective_scope` that its restriction leaves. -/
def Leaves (call : MintCall) (s : String) : Prop :=
  match call.restriction with
  | none | some [] => s ∈ words call.args.effectiveScope
  | some fields => ∃ restriction, readRestriction (words call.args.effectiveScope).dedup fields = some restriction ∧
      restriction.Leaves (words call.args.effectiveScope) s

/-- It has a restriction, which cannot be read or leaves nothing. -/
def Rejected (call : MintCall) : Prop := call.restriction.getD [] ≠ [] ∧ ∀ s, ¬ call.Leaves s

/-- Such a call raises, and no other does. -/
theorem mint_none (dtm : Dtm) (parentScope : String) (call : MintCall) :
    call.mint dtm parentScope = none ↔ call.Rejected := by
  unfold mint mintRestricted Rejected Leaves
  split
  · simp [mintDelegationToken, attenuateScope, *]
  · simp [mintDelegationToken, attenuateScope, *]
  · rename_i fields hfields hsome
    have hne : fields ≠ [] := fun he => hfields he
    simp only [hsome, Option.getD_some, ne_eq, hne, not_false_eq_true, true_and]
    cases readRestriction (words call.args.effectiveScope).dedup fields with
    | none => simp
    | some restriction => simp [mintDelegationToken, attenuateScope_none]

theorem leaves_restricted {call : MintCall} {fields : List (String × Json)} (hsome : call.restriction = some fields)
    (hne : fields ≠ []) (s : String) : call.Leaves s ↔
      ∃ restriction, readRestriction (words call.args.effectiveScope).dedup fields = some restriction ∧
        restriction.Leaves (words call.args.effectiveScope) s := by
  cases fields with
  | nil => exact absurd rfl hne
  | cons field fields =>
    unfold Leaves
    rw [hsome]

/-- What is minted has the scopes that are left, at the depth and under the limit of the call. -/
theorem mint_some {dtm : Dtm} {parentScope : String} {call : MintCall} {token : DelegatedTaskToken}
    (h : call.mint dtm parentScope = some token) :
    (∀ s, s ∈ words token.effectiveScope ↔ call.Leaves s) ∧ token.depth = call.args.depth ∧
      token.maxDepth = call.args.maxDepth.getD dtm.maxDepth := by
  unfold mint mintRestricted at h
  split at h
  · cases h
    simp [Leaves, *]
  · cases h
    simp [Leaves, *]
  · rename_i fields hfields hsome
    obtain ⟨restriction, hread, hmint⟩ := Option.bind_eq_some_iff.mp h
    obtain ⟨attenuated, hatt, rfl⟩ := Option.map_eq_some_iff.mp hmint
    refine ⟨fun s => ?_, rfl, rfl⟩
    rw [mem_attenuateScope hatt s, leaves_restricted hsome (fun he => hfields he)]
    simp [hread]

end MintCall

/-- A chain of tokens: the scope it started from, the one that is next passed as parent, and the tokens. -/
structure Chain where
  root : String
  scope : String
  tokens : List DelegatedTaskToken

namespace Chain

def start (root : String) : Chain := ⟨root, root, []⟩

/-- The scope of a token that is minted is the next parent; a call that raises leaves the chain alone. -/
def step (dtm : Dtm) (chain : Chain) (call : MintCall) : Chain :=
  match call.mint dtm chain.scope with
  | none => chain
  | some token => { chain with scope := token.effectiveScope, tokens := chain.tokens ++ [token] }

/-- The call raises, or its token keeps to the parent's scope and to its own limit. -/
def Narrows (dtm : Dtm) (chain : Chain) (call : MintCall) : Prop :=
  ∀ token, call.mint dtm chain.scope = some token →
    (∀ s ∈ words token.effectiveScope, s ∈ words chain.scope) ∧ token.depth ≤ token.maxDepth

/-- The call raises, or what it leaves of `effective_scope` is in the parent's, and `depth` is no more than
the limit. -/
def Covered (dtm : Dtm) (chain : Chain) (call : MintCall) : Prop :=
  call.Rejected ∨ (∀ s, call.Leaves s → s ∈ words chain.scope) ∧
    call.args.depth ≤ call.args.maxDepth.getD dtm.maxDepth

/-- Every token of the chain keeps to the scope it started from, and so does the next parent. -/
structure WithinRoot (chain : Chain) : Prop where
  scope : ∀ s ∈ words chain.scope, s ∈ words chain.root
  tokens : ∀ token ∈ chain.tokens, (∀ s ∈ words token.effectiveScope, s ∈ words chain.root) ∧
    token.depth ≤ token.maxDepth

variable {dtm : Dtm}

theorem narrows_iff (chain : Chain) (call : MintCall) : chain.Narrows dtm call ↔ chain.Covered dtm call := by
  unfold Narrows Covered
  rw [← MintCall.mint_none dtm chain.scope]
  cases hmint : call.mint dtm chain.scope with
  | none => simp
  | some token =>
    obtain ⟨hscope, hdepth, hlimit⟩ := MintCall.mint_some hmint
    simp [hscope, hdepth, hlimit]

/-- A call that narrows keeps the chain within its root. -/
theorem step_withinRoot {chain : Chain} {call : MintCall} (h : chain.WithinRoot)
    (hcall : chain.Narrows dtm call) : (chain.step dtm call).WithinRoot := by
  unfold step
  cases hmint : call.mint dtm chain.scope with
  | none => exact h
  | some token =>
    obtain ⟨hscope, hdepth⟩ := hcall token hmint
    have hroot : ∀ s ∈ words token.effectiveScope, s ∈ words chain.root :=
      fun s hs => h.scope s (hscope s hs)
    refine ⟨hroot, fun t ht => ?_⟩
    rcases List.mem_append.mp ht with ht | ht
    · exact h.tokens t ht
    · obtain rfl := List.mem_singleton.mp ht
      exact ⟨hroot, hdepth⟩

/-- Minting never widens authority, and the chain keeps to its root, exactly along the chains whose calls are
all covered by their parents. -/
theorem minting_narrows (dtm : Dtm) (root : String) (calls : List MintCall) :
    EachStep (step dtm) (Narrows dtm) (start root) calls ∧ Always (step dtm) WithinRoot (start root) calls ↔
      EachStep (step dtm) (Covered dtm) (start root) calls := by
  have hstart : (start root).WithinRoot := ⟨fun _ hs => hs, fun _ ht => by cases ht⟩
  constructor
  · intro ⟨hnarrows, _⟩
    exact hnarrows.imp (fun chain call h => (narrows_iff chain call).mp h)
  · intro hcovered
    have hnarrows : EachStep (step dtm) (Narrows dtm) (start root) calls :=
      hcovered.imp (fun chain call h => (narrows_iff chain call).mpr h)
    exact ⟨hnarrows, hnarrows.always (fun _ _ h hcall => step_withinRoot h hcall) hstart⟩

/-- A manager in an environment where nothing is signed. -/
def sampleDtm : Dtm where
  engine := Orchestration.python sampleCrypto.toPython some
  crypto := sampleCrypto
  privateKey := ""
  publicKey := ""
  floatRepr := fun _ => "0.0"

/-- A token that administers the registry, eleven levels down from the root. -/
def wideMint : MintArgs where
  sub := "agent-b"
  taskId := "t_1"
  originAgent := "agent-a"
  effectiveScope := "registry:admin"
  depth := 11

/-- It is minted under a parent that may read tasks. -/
theorem minting_widens :
    ¬ EachStep (step sampleDtm) (Narrows sampleDtm) (start "task:read") [⟨0, "1", wideMint, none⟩] := by
  intro h
  obtain ⟨hscope, _⟩ := h.1 _ rfl
  exact absurd (hscope "registry:admin" (by decide +kernel)) (by decide +kernel)

end Chain

/-- What a restriction owes its parent scope. A map owes the removal of a scope it sends to one of the targets, unless
it sends another there. -/
structure Attenuated (targets : String → Prop) (parentScope : String) (restriction : Option Restriction) : Prop where
  subset : ∀ result, attenuateScope parentScope restriction = some result → ∀ s ∈ words result, s ∈ words parentScope
  excluded : ∀ result scopes, attenuateScope parentScope restriction = some result →
    restriction = some (.exclude scopes) → ∀ s ∈ words result, s ∉ scopes
  reduced : ∀ result scopes, attenuateScope parentScope restriction = some result →
    restriction = some (.reduceTo scopes) → ∀ s ∈ words result, s ∈ scopes
  mapped : ∀ result mapping, attenuateScope parentScope restriction = some result →
    restriction = some (.map mapping) → ∀ a b, mapping.lookup a = some b → b ≠ a → targets b →
      (∀ t ∈ words parentScope, t ≠ a → mapping.lookup t ≠ some a) → a ∉ words result
  raises : ∀ r, restriction = some r →
    (attenuateScope parentScope restriction = none ↔ r.apply (words parentScope).dedup = [])

/-- No scope a mapping moves within the parent's is left, unless another is moved to it. -/
theorem Restriction.map_leaves {scopes : List String} {mapping : List (String × String)} {a b : String}
    (hb : mapping.lookup a = some b) (hne : b ≠ a) (hin : b ∈ scopes)
    (hother : ∀ t ∈ scopes, t ≠ a → mapping.lookup t ≠ some a) : ¬ (Restriction.map mapping).Leaves scopes a := by
  intro ⟨_, hleft⟩
  rcases hleft with ⟨t, ht, hmap⟩ | hout
  · by_cases hta : t = a
    · rw [hta, hb, Option.getD_some] at hmap
      exact hne hmap
    · cases hlookup : mapping.lookup t with
      | none =>
        rw [hlookup, Option.getD_none] at hmap
        exact hta hmap
      | some u =>
        rw [hlookup, Option.getD_some] at hmap
        exact hother t ht hta (hlookup.trans (congrArg some hmap))
  · rw [hb, Option.getD_some] at hout
    exact hout hin

theorem attenuateScope_raises (parentScope : String) (restriction : Restriction) :
    attenuateScope parentScope (some restriction) = none ↔ restriction.apply (words parentScope).dedup = [] := by
  rw [attenuateScope_none, List.eq_nil_iff_forall_not_mem]
  simp only [Restriction.mem_apply, Restriction.leaves_dedup]

/-- Every restriction of every scope keeps to it, with a map's targets those in the scope. -/
theorem attenuateScope_attenuated (parentScope : String) (restriction : Option Restriction) :
    Attenuated (· ∈ words parentScope) parentScope restriction := by
  refine ⟨fun result h s hs => ?_, fun result scopes h hr s hs => ?_, fun result scopes h hr s hs => ?_,
    fun result mapping h hr a b hb hne hin hother ha => ?_, fun r hr => ?_⟩
  · cases restriction with
    | none =>
      cases h
      exact hs
    | some restriction => exact Restriction.leaves_mem ((mem_attenuateScope h s).mp hs)
  · subst hr
    exact ((mem_attenuateScope h s).mp hs).2
  · subst hr
    exact ((mem_attenuateScope h s).mp hs).2
  · subst hr
    exact Restriction.map_leaves hb hne hin hother ((mem_attenuateScope h a).mp ha)
  · subst hr
    exact attenuateScope_raises parentScope r

/-- The scope after one more restriction; one that raises leaves it. -/
def attenuate (scope : String) (restriction : Option Restriction) : String :=
  (attenuateScope scope restriction).getD scope

/-- A scope is no wider than the one it comes from. -/
def NoWider (root scope : String) : Prop := ∀ s ∈ words scope, s ∈ words root

theorem attenuate_noWider {root scope : String} (h : NoWider root scope) (restriction : Option Restriction) :
    NoWider root (attenuate scope restriction) := by
  unfold attenuate
  cases hatt : attenuateScope scope restriction with
  | none => exact h
  | some result => exact fun s hs => h s ((attenuateScope_attenuated scope restriction).subset result hatt s hs)

/-- Along every chain each restriction keeps to the scope before it, and every scope to the first. -/
theorem attenuation_chain (root : String) (restrictions : List (Option Restriction)) :
    EachStep attenuate (fun scope restriction => Attenuated (· ∈ words scope) scope restriction) root restrictions ∧
      Always attenuate (NoWider root) root restrictions := by
  have hsteps : EachStep attenuate (fun scope restriction => Attenuated (· ∈ words scope) scope restriction) root
      restrictions := EachStep.of_forall attenuateScope_attenuated root restrictions
  have hkept : ∀ scope restriction, NoWider root scope → Attenuated (· ∈ words scope) scope restriction →
      NoWider root (attenuate scope restriction) := fun _ restriction h _ => attenuate_noWider h restriction
  have hroot : NoWider root root := fun _ hs => hs
  exact ⟨hsteps, EachStep.always hkept hroot hsteps⟩

/-- A scope that is mapped to one outside the parent's stays. -/
theorem downgrade_kept :
    ¬ Attenuated (fun _ => True) "task:read" (some (.map [("task:read", "task:write")])) := by
  intro h
  have hwords : words "task:read" = ["task:read"] := by decide +kernel
  have hleaves : (Restriction.map [("task:read", "task:write")]).Leaves (words "task:read") "task:read" := by
    rw [hwords]
    exact ⟨List.mem_singleton_self _, Or.inr (by decide +kernel)⟩
  cases hatt : attenuateScope "task:read" (some (.map [("task:read", "task:write")])) with
  | none => exact (attenuateScope_none _).mp hatt "task:read" hleaves
  | some result =>
    have hin : "task:read" ∈ words result := (mem_attenuateScope hatt _).mpr hleaves
    refine h.mapped result [("task:read", "task:write")] hatt rfl "task:read" "task:write" ?_ (by decide) trivial ?_ hin
    · decide +kernel
    · rw [hwords]
      exact fun t ht hne => absurd (List.mem_singleton.mp ht) hne

end A2ARegistry.Security
