import A2ARegistry.Auth.Proofs.Steps
import A2ARegistry.Security.Guardrail

namespace A2ARegistry.Security
open Base

/-- A key or a text of a value that is nested no deeper than a number of levels. -/
inductive Holds (s : String) : Nat → Json → Prop
  | text (n) : Holds s n (.str s)
  | key {n fields value} (h : (s, value) ∈ fields) : Holds s n (.obj fields)
  | field {n key value} {fields : List (String × Json)} (hf : (key, value) ∈ fields) (h : Holds s n value) :
      Holds s (n + 1) (.obj fields)
  | item {n value items} (hi : value ∈ items) (h : Holds s n value) : Holds s (n + 1) (.arr items)

/-- A text that survives whatever is joined to it by spaces. -/
def Survives (P : String → Prop) : Prop := ∀ s t, P s → P (t ++ " " ++ s) ∧ P (s ++ " " ++ t)

/-- It survives in the text its part is joined into. -/
theorem Survives.joined {P : String → Prop} (hP : Survives P) {s : String} {parts : List String} (h : s ∈ parts)
    (hs : P s) : P (joinBy " " parts) := by
  induction parts with
  | nil => cases h
  | cons t parts ih =>
    by_cases hempty : parts = []
    · subst hempty
      obtain rfl := List.mem_singleton.mp h
      rw [joinBy_singleton]
      exact hs
    · rw [joinBy_cons " " t hempty]
      rcases List.mem_cons.mp h with rfl | h
      · exact (hP s _ hs).2
      · exact (hP _ t (ih h)).1

section Flatten

variable {p : Python} {depth : Nat}

theorem mem_flattenFields {key : String} {value : Json} {fields : List (String × Json)} (h : (key, value) ∈ fields) :
    key ∈ flattenFields p depth fields ∧ flattenToText p (depth + 1) value ∈ flattenFields p depth fields := by
  induction fields with
  | nil => cases h
  | cons field fields ih =>
    obtain ⟨key', value'⟩ := field
    rw [flattenFields]
    rcases List.mem_cons.mp h with he | h
    · cases he
      exact ⟨List.mem_cons_self .., List.mem_cons_of_mem _ (List.mem_cons_self ..)⟩
    · obtain ⟨hkey, hvalue⟩ := ih h
      exact ⟨List.mem_cons_of_mem _ (List.mem_cons_of_mem _ hkey),
        List.mem_cons_of_mem _ (List.mem_cons_of_mem _ hvalue)⟩

theorem flattenItems_eq (items : List Json) : flattenItems p depth items = items.map (flattenToText p (depth + 1)) := by
  induction items with
  | nil => rfl
  | cons item items ih => rw [flattenItems, ih, List.map_cons]

/-- What is nested within the depth that is left, and survives being joined, is found in the flattened text. -/
theorem flattenToText_holds {P : String → Prop} (hP : Survives P) {s : String} (hs : P s) {n : Nat} {value : Json}
    (h : Holds s n value) (hd : depth + n ≤ flattenDepth) : P (flattenToText p depth value) := by
  have hreach : ∀ {d m}, d + m ≤ flattenDepth → ¬ flattenDepth < d := fun h => by omega
  induction h generalizing depth with
  | text n => simpa [flattenToText, hreach hd, Json.strOf] using hs
  | key hf =>
    rw [flattenToText, if_neg (hreach hd)]
    exact hP.joined (mem_flattenFields hf).1 hs
  | field hf _ ih =>
    rw [flattenToText, if_neg (hreach hd)]
    exact hP.joined (mem_flattenFields hf).2 (ih (by omega))
  | item hi _ ih =>
    rw [flattenToText, if_neg (hreach hd), flattenItems_eq]
    exact hP.joined (List.mem_map_of_mem hi) (ih (by omega))

/-- A key or a text that is not empty leaves a text that is not empty. -/
theorem flattenToText_ne {s : String} (hs : s ≠ "") {n : Nat} {value : Json} (h : Holds s n value)
    (hd : depth + n ≤ flattenDepth) : flattenToText p depth value ≠ "" := by
  have hP : Survives (fun s => s ≠ "") := by
    intro a b _
    constructor
    · intro he
      simpa using congrArg String.toList he
    · intro he
      simpa using congrArg String.toList he
  exact flattenToText_holds hP hs h hd

end Flatten

theorem InjectionPattern.survives (pattern : InjectionPattern) :
    Survives (fun s => (pattern.search s).isSome = true) :=
  fun s t hs => ⟨pattern.before s t hs, pattern.after s t hs⟩

/-- In the other two modes nothing is denied, and in every other everything is. -/
theorem applyMode_allowed (mode reason matchedPattern actor : String) :
    (applyMode mode reason matchedPattern actor).allowed = true ↔ mode = "audit" ∨ mode = "warn" := by
  unfold applyMode
  split
  · rename_i haudit
    simp [haudit]
  · rename_i haudit
    split
    · rename_i hwarn
      simp [hwarn]
    · rename_i hwarn
      simp [haudit, hwarn]

/-- A guardrail that enforces denies an input with a key or a text at most eight levels deep that a pattern
matches, if that or the text of the whole input is not empty. -/
theorem inbound_denied (g : Guardrail) (inputData : Json) (mode : Option String) (actor : String)
    (hmode : g.effectiveMode mode = "enforce") {pattern : InjectionPattern}
    (hpattern : pattern ∈ g.injectionPatterns) {s : String} (hs : (pattern.search s).isSome = true)
    (hin : Holds s flattenDepth inputData) (htext : s ≠ "" ∨ flattenToText g.toPython 0 inputData ≠ "") :
    (checkInbound g inputData mode actor).allowed = false := by
  have hblob : (pattern.search (flattenToText g.toPython 0 inputData)).isSome = true :=
    flattenToText_holds pattern.survives hs hin (by simp)
  have hne : flattenToText g.toPython 0 inputData ≠ "" :=
    htext.elim (fun hs => flattenToText_ne hs hin (by simp)) id
  have hfound : (g.injectionPatterns.findSome? (fun pattern =>
      pattern.search (flattenToText g.toPython 0 inputData))).isSome = true :=
    List.findSome?_isSome_iff.mpr ⟨pattern, hpattern, hblob⟩
  obtain ⟨found, hfound⟩ := Option.isSome_iff_exists.mp hfound
  apply Bool.eq_false_iff.mpr
  simp only [checkInbound, if_neg hne, hfound, ne_eq, applyMode_allowed, hmode]
  decide

/-- A pattern that finds one text in others. -/
def phrase (needle : String) : InjectionPattern where
  search s := if contains s needle then some needle else none
  before s t h := by
    have hs : contains s needle = true := by simpa using h
    simpa using contains_append hs (t ++ " ") ""
  after s t h := by
    have hs : contains s needle = true := by simpa using h
    simpa [String.append_assoc] using contains_append hs "" (" " ++ t)

def jailbreakGuardrail : Guardrail where
  mode := "enforce"
  sensitivePatterns := []
  sensitiveKey _ := false
  injectionPatterns := [phrase "[system]"]
  toPython := Auth.sampleCrypto.toPython

/-- A text within a number of lists. -/
def wrapped (s : String) : Nat → Json
  | 0 => .str s
  | n + 1 => .arr [wrapped s n]

theorem holds_wrapped (s : String) (n : Nat) : Holds s n (wrapped s n) := by
  induction n with
  | zero => exact .text 0
  | succ n ih => exact .item (List.mem_singleton_self _) ih

/-- Eight lists do not hide a text. -/
theorem inbound_denied_sample : (checkInbound jailbreakGuardrail (wrapped "[system]" 8) none "agent-a").allowed = false :=
  inbound_denied jailbreakGuardrail (wrapped "[system]" 8) none "agent-a" rfl (List.mem_singleton_self _)
    (by decide +kernel) (holds_wrapped "[system]" 8) (Or.inl (by decide))

/-- Nine do. -/
theorem deep_text_allowed : ¬ ∀ (g : Guardrail) (inputData : Json) (actor : String), ∀ pattern ∈ g.injectionPatterns,
    ∀ s n, (pattern.search s).isSome = true → Holds s n inputData →
      (checkInbound g inputData (some "enforce") actor).allowed = false := by
  intro h
  have hdenied := h jailbreakGuardrail (wrapped "[system]" 9) "agent-a" _ (List.mem_singleton_self _)
    "[system]" 9 (by decide +kernel) (holds_wrapped "[system]" 9)
  exact absurd hdenied (by decide +kernel)

end A2ARegistry.Security
