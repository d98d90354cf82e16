import Mathlib.Data.List.Induction

namespace A2ARegistry.Base

variable {σ ι : Type} (step : σ → ι → σ)

/-- The state a list of inputs leads to. -/
def exec : σ → List ι → σ
  | s, [] => s
  | s, i :: is => exec (step s i) is

/-- `P` holds in every state the run passes through, both ends included. -/
def Always (P : σ → Prop) : σ → List ι → Prop
  | s, [] => P s
  | s, i :: is => P s ∧ Always P (step s i) is

/-- Every step of the run meets `C`, judged by its input and the state before it. -/
def EachStep (C : σ → ι → Prop) : σ → List ι → Prop
  | _, [] => True
  | s, i :: is => C s i ∧ EachStep C (step s i) is

/-- The states of an infinite run. -/
def trace (s : σ) (is : Nat → ι) : Nat → σ
  | 0 => s
  | n + 1 => step (trace s is n) (is n)

/-- Some state the run passes through satisfies `P`. -/
def Visits (P : σ → Prop) : σ → List ι → Prop
  | s, [] => P s
  | s, i :: is => P s ∨ Visits P (step s i) is

instance Visits.decidable (P : σ → Prop) [DecidablePred P] :
    ∀ s is, Decidable (Visits step P s is)
  | s, [] => inferInstanceAs (Decidable (P s))
  | s, i :: is =>
    have := Visits.decidable P (step s i) is
    inferInstanceAs (Decidable (P s ∨ Visits step P (step s i) is))

instance EachStep.decidable (C : σ → ι → Prop) [∀ s i, Decidable (C s i)] : ∀ s is, Decidable (EachStep step C s is)
  | _, [] => inferInstanceAs (Decidable True)
  | s, i :: is =>
    have := EachStep.decidable C (step s i) is
    inferInstanceAs (Decidable (C s i ∧ EachStep step C (step s i) is))

/-- How many steps of the run `c` picks out. -/
def tally (c : σ → ι → Bool) : σ → List ι → Nat
  | _, [] => 0
  | s, i :: is => (if c s i then 1 else 0) + tally c (step s i) is

variable {step}

@[simp] theorem exec_nil (s : σ) : exec step s [] = s := rfl

@[simp] theorem exec_cons (s : σ) (i : ι) (is : List ι) :
    exec step s (i :: is) = exec step (step s i) is := rfl

@[simp] theorem exec_append (s : σ) (is js : List ι) :
    exec step s (is ++ js) = exec step (exec step s is) js := by
  induction is generalizing s with
  | nil => rfl
  | cons i is ih => exact ih (step s i)

theorem exec_invariant {I : σ → Prop} (hI : ∀ s i, I s → I (step s i)) {s : σ} (hs : I s)
    (is : List ι) : I (exec step s is) := by
  induction is generalizing s with
  | nil => exact hs
  | cons i is ih => exact ih (hI s i hs)

theorem Always.head {P : σ → Prop} {s : σ} {is : List ι} (h : Always step P s is) : P s := by
  cases is with
  | nil => exact h
  | cons i is => exact h.1

theorem Always.last {P : σ → Prop} {s : σ} {is : List ι} (h : Always step P s is) :
    P (exec step s is) := by
  induction is generalizing s with
  | nil => exact h
  | cons i is ih => exact ih h.2

/-- What every input meets in every state, every run does. -/
theorem EachStep.of_forall {C : σ → ι → Prop} (h : ∀ s i, C s i) (s : σ) (is : List ι) : EachStep step C s is := by
  induction is generalizing s with
  | nil => trivial
  | cons i is ih => exact ⟨h s i, ih (step s i)⟩

/-- Steps that meet `C` keep what the invariant and `C` together preserve. -/
theorem EachStep.invariant {C : σ → ι → Prop} {I : σ → Prop}
    (hI : ∀ s i, I s → C s i → I (step s i)) {s : σ} (hs : I s) {is : List ι}
    (hc : EachStep step C s is) : I (exec step s is) := by
  induction is generalizing s with
  | nil => exact hs
  | cons i is ih => exact ih (hI s i hs hc.1) hc.2

theorem EachStep.always {C : σ → ι → Prop} {I : σ → Prop} (hI : ∀ s i, I s → C s i → I (step s i))
    {s : σ} (hs : I s) {is : List ι} (hc : EachStep step C s is) : Always step I s is := by
  induction is generalizing s with
  | nil => exact hs
  | cons i is ih => exact ⟨hs, ih (hI s i hs hc.1) hc.2⟩

/-- The same, where what the steps preserve goes by which inputs the run has. -/
theorem EachStep.invariant_of_mem {C : σ → ι → Prop} {I : σ → Prop} {is : List ι}
    (hI : ∀ s, ∀ i ∈ is, I s → C s i → I (step s i)) {s : σ} (hs : I s) (hc : EachStep step C s is) :
    I (exec step s is) := by
  induction is generalizing s with
  | nil => exact hs
  | cons i is ih =>
    exact ih (fun s j hj => hI s j (List.mem_cons_of_mem i hj)) (hI s i List.mem_cons_self hs hc.1) hc.2

theorem eachStep_append {C : σ → ι → Prop} {s : σ} {is js : List ι} :
    EachStep step C s (is ++ js) ↔ EachStep step C s is ∧ EachStep step C (exec step s is) js := by
  induction is generalizing s with
  | nil => exact ⟨fun h => ⟨trivial, h⟩, fun h => h.2⟩
  | cons i is ih =>
    rw [List.cons_append, EachStep, EachStep, ih, and_assoc]
    rfl

/-- What always holds holds after every part of the run. -/
theorem Always.after {P : σ → Prop} {s : σ} {is js : List ι} (h : Always step P s (is ++ js)) :
    P (exec step s is) := by
  induction is generalizing s with
  | nil => exact h.head
  | cons i is ih => exact ih h.2

theorem EachStep.imp {C D : σ → ι → Prop} (hCD : ∀ s i, C s i → D s i) {s : σ} {is : List ι}
    (h : EachStep step C s is) : EachStep step D s is := by
  induction is generalizing s with
  | nil => exact trivial
  | cons i is ih => exact ⟨hCD s i h.1, ih h.2⟩

/-- The same, where one condition gives the other in the states of an invariant. -/
theorem EachStep.imp_invariant {C D : σ → ι → Prop} {I : σ → Prop} (hI : ∀ s i, I s → C s i → I (step s i))
    (hCD : ∀ s i, I s → C s i → D s i) {s : σ} (hs : I s) {is : List ι} (h : EachStep step C s is) :
    EachStep step D s is := by
  induction is generalizing s with
  | nil => exact trivial
  | cons i is ih => exact ⟨hCD s i hs h.1, ih (hI s i hs h.1) h.2⟩

/-- Conditions that agree where the invariant holds pick out the same runs. -/
theorem eachStep_congr {C D : σ → ι → Prop} {I : σ → Prop} (hI : ∀ s i, I s → I (step s i))
    (hCD : ∀ s i, I s → (C s i ↔ D s i)) {s : σ} (hs : I s) (is : List ι) :
    EachStep step C s is ↔ EachStep step D s is := by
  induction is generalizing s with
  | nil => exact Iff.rfl
  | cons i is ih => exact and_congr (hCD s i hs) (ih (hI s i hs))

/-- Conditions that agree where the invariant and `G` hold pick out the same runs among those that `G` admits. -/
theorem eachStep_congr_guarded {C D G : σ → ι → Prop} {I : σ → Prop} (hI : ∀ s i, I s → G s i → I (step s i))
    (hCD : ∀ s i, I s → G s i → (C s i ↔ D s i)) {s : σ} (hs : I s) {is : List ι} (hG : EachStep step G s is) :
    EachStep step C s is ↔ EachStep step D s is := by
  induction is generalizing s with
  | nil => exact Iff.rfl
  | cons i is ih => exact and_congr (hCD s i hs hG.1) (ih (hI s i hs hG.1) hG.2)

theorem Always.imp {P Q : σ → Prop} (hpq : ∀ s, P s → Q s) {s : σ} {is : List ι}
    (h : Always step P s is) : Always step Q s is := by
  induction is generalizing s with
  | nil => exact hpq s h
  | cons i is ih => exact ⟨hpq s h.1, ih h.2⟩

/-- The guard rule. If in every state satisfying the invariant `I` a step from a
`P`-state ends in a `P`-state exactly when its guard `C` holds, then a run stays
in `P` exactly when every one of its steps meets the guard. `G` is what the runs
in question are restricted to; it may be what keeps the invariant. -/
theorem always_iff_restricted {P I : σ → Prop} {C G : σ → ι → Prop}
    (hI : ∀ s i, I s → P s → G s i → I (step s i))
    (hC : ∀ s i, I s → P s → G s i → (P (step s i) ↔ C s i))
    {s : σ} (hs : I s) (hp : P s) {is : List ι} (hG : EachStep step G s is) :
    Always step P s is ↔ EachStep step C s is := by
  induction is generalizing s with
  | nil => exact ⟨fun _ => trivial, fun _ => hp⟩
  | cons i is ih =>
    have hstep := hC s i hs hp hG.1
    have hnext := hI s i hs hp hG.1
    constructor
    · intro h
      have hp' : P (step s i) := Always.head h.2
      exact ⟨hstep.mp hp', (ih hnext hp' hG.2).mp h.2⟩
    · intro h
      have hp' := hstep.mpr h.1
      exact ⟨hp, (ih hnext hp' hG.2).mpr h.2⟩

/-- The guard rule, where every step keeps the invariant. -/
theorem always_iff_eachStep {P I : σ → Prop} {C G : σ → ι → Prop}
    (hI : ∀ s i, I s → P s → I (step s i))
    (hC : ∀ s i, I s → P s → G s i → (P (step s i) ↔ C s i))
    {s : σ} (hs : I s) (hp : P s) {is : List ι} (hG : EachStep step G s is) :
    Always step P s is ↔ EachStep step C s is :=
  always_iff_restricted (fun s i hi hp _ => hI s i hi hp) hC hs hp hG

/-- The guard rule for unrestricted runs. -/
theorem always_iff_guarded {P I : σ → Prop} {C : σ → ι → Prop}
    (hI : ∀ s i, I s → P s → I (step s i)) (hC : ∀ s i, I s → P s → (P (step s i) ↔ C s i))
    {s : σ} (hs : I s) (hp : P s) (is : List ι) :
    Always step P s is ↔ EachStep step C s is := by
  have hG : EachStep step (fun _ _ => True) s is := EachStep.of_forall (fun _ _ => trivial) s is
  exact always_iff_eachStep hI (fun s i hi hp _ => hC s i hi hp) hs hp hG

/-- The guard rule with an invariant that only guarded steps keep: where any other step from it leaves `P`, a run stays
in `P` exactly when every step meets the guard. -/
theorem always_iff_kept {P I : σ → Prop} {C : σ → ι → Prop} (hP : ∀ s, I s → P s)
    (hI : ∀ s i, I s → C s i → I (step s i)) (hC : ∀ s i, I s → ¬ C s i → ¬ P (step s i)) {s : σ} (hs : I s)
    (is : List ι) : Always step P s is ↔ EachStep step C s is := by
  induction is generalizing s with
  | nil => exact iff_of_true (hP s hs) trivial
  | cons i is ih =>
    constructor
    · intro h
      have hmet : C s i := by
        by_contra hbroken
        exact hC s i hs hbroken h.2.head
      exact ⟨hmet, (ih (hI s i hs hmet)).mp h.2⟩
    · intro h
      exact ⟨hP s hs, (ih (hI s i hs h.1)).mpr h.2⟩

/-- The same rule for infinite runs. -/
theorem trace_iff_kept {P I : σ → Prop} {C : σ → ι → Prop} (hP : ∀ s, I s → P s)
    (hI : ∀ s i, I s → C s i → I (step s i)) (hC : ∀ s i, I s → ¬ C s i → ¬ P (step s i)) {s : σ} (hs : I s)
    (is : Nat → ι) : (∀ n, P (trace step s is n)) ↔ ∀ n, C (trace step s is n) (is n) := by
  constructor
  · intro h
    have hmet : ∀ n, I (trace step s is n) → C (trace step s is n) (is n) := by
      intro n hn
      by_contra hbroken
      exact hC _ (is n) hn hbroken (h (n + 1))
    have hkept : ∀ n, I (trace step s is n) := by
      intro n
      induction n with
      | zero => exact hs
      | succ n ih => exact hI _ (is n) ih (hmet n ih)
    exact fun n => hmet n (hkept n)
  · intro h n
    apply hP
    induction n with
    | zero => exact hs
    | succ n ih => exact hI _ (is n) ih (h n)

theorem visits_append {P : σ → Prop} {s : σ} {is js : List ι} :
    Visits step P s (is ++ js) ↔ Visits step P s is ∨ Visits step P (exec step s is) js := by
  induction is generalizing s with
  | nil =>
    refine ⟨Or.inr, fun h => h.elim (fun hp => ?_) id⟩
    cases js with
    | nil => exact hp
    | cons j js => exact Or.inl hp
  | cons i is ih => simp only [List.cons_append, Visits, exec_cons, ih, or_assoc]

theorem Visits.of_last {P : σ → Prop} {s : σ} {is : List ι} (h : P (exec step s is)) :
    Visits step P s is := by
  induction is generalizing s with
  | nil => exact h
  | cons i is ih => exact Or.inr (ih h)

theorem Visits.snoc {P : σ → Prop} {s : σ} {is : List ι} (h : Visits step P s is) (i : ι) :
    Visits step P s (is ++ [i]) :=
  visits_append.mpr (Or.inl h)

/-- A fact about whole histories: what holds initially and survives each step
taken after any history holds after every history. -/
theorem history_invariant {s₀ : σ} {H : List ι → σ → Prop} (h0 : H [] s₀)
    (hstep : ∀ is i, H is (exec step s₀ is) → H (is ++ [i]) (step (exec step s₀ is) i))
    (is : List ι) : H is (exec step s₀ is) := by
  induction is using List.reverseRecOn with
  | nil => exact h0
  | append_singleton is i ih => simpa using hstep is i ih

/-- A run from outside `P` to inside it has a step that enters `P`. -/
theorem exec_enters {P : σ → Prop} {s : σ} {is : List ι} (h0 : ¬ P s) (h1 : P (exec step s is)) :
    ∃ pre i post, is = pre ++ i :: post ∧
      ¬ P (exec step s pre) ∧ P (step (exec step s pre) i) := by
  induction is generalizing s with
  | nil => exact absurd h1 h0
  | cons i is ih =>
    by_cases hi : P (step s i)
    · exact ⟨[], i, is, rfl, h0, hi⟩
    · obtain ⟨pre, j, post, he, hn, hp⟩ := ih hi h1
      exact ⟨i :: pre, j, post, by rw [he, List.cons_append], hn, hp⟩

theorem Always.snoc {P : σ → Prop} {s : σ} {is : List ι} {i : ι} (h : Always step P s is)
    (hl : P (exec step s (is ++ [i]))) : Always step P s (is ++ [i]) := by
  induction is generalizing s with
  | nil => exact ⟨h, hl⟩
  | cons j is ih => exact ⟨h.1, ih h.2 hl⟩

/-- The last time such a run enters `P` it stays inside. -/
theorem exec_last_entry {P : σ → Prop} {s : σ} {is : List ι} (h0 : ¬ P s) (h1 : P (exec step s is)) :
    ∃ pre i mid, is = pre ++ i :: mid ∧ ¬ P (exec step s pre) ∧
      Always step P (step (exec step s pre) i) mid := by
  induction is using List.reverseRecOn with
  | nil => exact absurd h1 h0
  | append_singleton is j ih =>
    by_cases hp : P (exec step s is)
    · obtain ⟨pre, i, mid, rfl, hn, hm⟩ := ih hp
      refine ⟨pre, i, mid ++ [j], by simp, hn, hm.snoc ?_⟩
      simpa using h1
    · refine ⟨is, j, [], rfl, hp, ?_⟩
      simpa [Always] using h1

/-- Along a run that stays in `P`, what each step between `P`-states keeps is kept. -/
theorem Always.keeps {P I : σ → Prop} (hI : ∀ s i, P s → P (step s i) → I s → I (step s i)) {s : σ}
    {is : List ι} (h : Always step P s is) (hs : I s) : I (exec step s is) := by
  induction is generalizing s with
  | nil => exact hs
  | cons i is ih => exact ih h.2 (hI s i h.1 h.2.head hs)

theorem eachStep_iff {C : σ → ι → Prop} {s : σ} {is : List ι} : EachStep step C s is ↔
    ∀ pre i post, is = pre ++ i :: post → C (exec step s pre) i := by
  induction is generalizing s with
  | nil =>
    refine ⟨fun _ pre i post he => ?_, fun _ => trivial⟩
    cases pre <;> cases he
  | cons j is ih =>
    constructor
    · rintro ⟨hj, his⟩ pre i post he
      cases pre with
      | nil =>
        cases he
        exact hj
      | cons k pre =>
        cases he
        exact ih.mp his pre i post rfl
    · intro h
      refine ⟨h [] j is rfl, ih.mpr fun pre i post he => ?_⟩
      exact h (j :: pre) i post (by rw [he]; rfl)

/-- A potential that the counted steps raise by one, and no other step changes, counts them. -/
theorem tally_eq_potential {c : σ → ι → Bool} {I : σ → Prop} {G : σ → ι → Prop} {m : σ → Nat}
    (hI : ∀ s i, I s → G s i → I (step s i))
    (hm : ∀ s i, I s → G s i → m (step s i) = m s + (if c s i then 1 else 0))
    {s : σ} (hs : I s) {is : List ι} (hG : EachStep step G s is) :
    m (exec step s is) = m s + tally step c s is := by
  induction is generalizing s with
  | nil => rfl
  | cons i is ih =>
    have h1 := hm s i hs hG.1
    have h2 := ih (hI s i hs hG.1) hG.2
    simp only [tally, exec_cons]
    omega

/-- Where a step that meets `C` is always there to lower the potential, until `P` holds, some run of such steps
leads to `P`. -/
theorem exec_reaches {P I : σ → Prop} {C : σ → ι → Prop} {m : σ → Nat} (hI : ∀ s i, I s → C s i → I (step s i))
    (hC : ∀ s, I s → ¬ P s → ∃ i, C s i ∧ m (step s i) < m s) {s : σ} (hs : I s) :
    ∃ is, EachStep step C s is ∧ P (exec step s is) := by
  induction hn : m s using Nat.strongRecOn generalizing s with
  | ind n ih =>
    by_cases hp : P s
    · exact ⟨[], trivial, hp⟩
    · obtain ⟨i, hi, hlt⟩ := hC s hs hp
      obtain ⟨is, his, hlast⟩ := ih _ (hn ▸ hlt) (hI s i hs hi) rfl
      exact ⟨i :: is, ⟨hi, his⟩, hlast⟩

/-- A potential that every counted step raises, and no step lowers, bounds the count. -/
theorem tally_le_potential {c : σ → ι → Bool} {I : σ → Prop} {G : σ → ι → Prop} {pot : σ → Nat}
    (hI : ∀ s i, I s → G s i → I (step s i))
    (hpot : ∀ s i, I s → G s i → pot s + (if c s i then 1 else 0) ≤ pot (step s i))
    {s : σ} (hs : I s) {is : List ι} (hG : EachStep step G s is) :
    pot s + tally step c s is ≤ pot (exec step s is) := by
  induction is generalizing s with
  | nil => exact Nat.le_refl _
  | cons i is ih =>
    have h1 := hpot s i hs hG.1
    have h2 := ih (hI s i hs hG.1) hG.2
    simp only [tally, exec_cons]
    omega

variable {ρ : Type} (act : σ → ι → ρ × σ)

/-- What the inputs of a run are answered with, in order. -/
def outputs : σ → List ι → List ρ
  | _, [] => []
  | s, i :: is => (act s i).1 :: outputs (act s i).2 is

theorem outputs_append (s : σ) (is js : List ι) :
    outputs act s (is ++ js) = outputs act s is ++ outputs act (exec (fun s i => (act s i).2) s is) js := by
  induction is generalizing s with
  | nil => rfl
  | cons i is ih => rw [List.cons_append, outputs, ih]; rfl

variable {act}

/-- From states that a relation takes to be alike, inputs that it does not tell apart are answered alike. -/
theorem outputs_eq_of_related {R : σ → σ → Prop} {C : σ → ι → Prop}
    (hR : ∀ s t i, R s t → C s i → C t i → (act s i).1 = (act t i).1 ∧ R (act s i).2 (act t i).2)
    {s t : σ} (hst : R s t) {is : List ι} (hs : EachStep (fun s i => (act s i).2) C s is)
    (ht : EachStep (fun s i => (act s i).2) C t is) : outputs act s is = outputs act t is := by
  induction is generalizing s t with
  | nil => rfl
  | cons i is ih =>
    obtain ⟨hanswer, hnext⟩ := hR s t i hst hs.1 ht.1
    rw [outputs, outputs, hanswer, ih hnext hs.2 ht.2]

section Unwinding

variable (act) in
/-- The answers to the inputs that are picked out. -/
def answersTo (concerns : ι → Bool) : σ → List ι → List ρ
  | _, [] => []
  | s, i :: is =>
    let rest := answersTo concerns (act s i).2 is
    if concerns i then (act s i).1 :: rest else rest

/-- Noninterference by unwinding. Where the inputs that concern a party are answered alike in states that it cannot tell
apart, and no other input lets it tell them apart, the other inputs can be left out of the run. -/
theorem answers_purged {concerns : ι → Bool} {R : σ → σ → Prop}
    (hconcerned : ∀ s t i, R s t → concerns i = true → (act s i).1 = (act t i).1 ∧ R (act s i).2 (act t i).2)
    (hother : ∀ s t i, R s t → concerns i = false → R (act s i).2 t) {s t : σ} (hst : R s t) (is : List ι) :
    answersTo act concerns s is = outputs act t (is.filter concerns) := by
  induction is generalizing s t with
  | nil => rfl
  | cons i is ih =>
    cases hi : concerns i with
    | true =>
      obtain ⟨hanswer, hnext⟩ := hconcerned s t i hst hi
      rw [answersTo, List.filter_cons_of_pos hi, outputs, hi, if_pos rfl, hanswer, ih hnext]
    | false =>
      rw [answersTo, List.filter_cons_of_neg (by simp [hi]), hi]
      exact ih (hother s t i hst hi)

end Unwinding

section
variable {σ' ι' : Type} {step : σ → ι → σ} {step' : σ' → ι' → σ'} {concerns : ι → Option ι'} {I : σ → Prop}
  (part : σ → σ')

/-- A part of the state that takes its own steps, on the inputs that concern it. -/
theorem exec_part (hI : ∀ s i, I s → I (step s i))
    (hpart : ∀ s i, I s → part (step s i) = ((concerns i).map (step' (part s))).getD (part s))
    {s : σ} (hs : I s) (is : List ι) : part (exec step s is) = exec step' (part s) (is.filterMap concerns) := by
  induction is generalizing s with
  | nil => rfl
  | cons i is ih =>
    rw [exec_cons, ih (hI s i hs), hpart s i hs]
    cases hi : concerns i with
    | none => rw [List.filterMap_cons_none hi]; rfl
    | some j => rw [List.filterMap_cons_some hi]; rfl

/-- What its steps meet in the whole run they meet in the run of its own. -/
theorem eachStep_part (hI : ∀ s i, I s → I (step s i))
    (hpart : ∀ s i, I s → part (step s i) = ((concerns i).map (step' (part s))).getD (part s))
    {C : σ' → ι' → Prop} {s : σ} (hs : I s) (is : List ι) :
    EachStep step (fun s i => ∀ j, concerns i = some j → C (part s) j) s is ↔
      EachStep step' C (part s) (is.filterMap concerns) := by
  induction is generalizing s with
  | nil => exact Iff.rfl
  | cons i is ih =>
    have hrest := ih (hI s i hs)
    rw [hpart s i hs] at hrest
    cases hi : concerns i with
    | none =>
      rw [hi] at hrest
      rw [List.filterMap_cons_none hi, EachStep, hrest, hi]
      refine ⟨fun h => h.2, fun h => ⟨?_, h⟩⟩
      intro j hj
      cases hj
    | some j =>
      rw [hi] at hrest
      rw [List.filterMap_cons_some hi, EachStep, EachStep, hrest, hi]
      refine and_congr_left fun _ => ⟨fun h => h j rfl, ?_⟩
      intro h j' hj'
      cases hj'
      exact h

end

end A2ARegistry.Base
