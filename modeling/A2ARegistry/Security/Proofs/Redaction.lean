import A2ARegistry.Auth.Proofs.Steps
import A2ARegistry.Security.Guardrail

namespace A2ARegistry.Security
open Base

section Sanitized

variable (g : Guardrail)

/-- The text that stands for a value that is masked. -/
def mask : Json := .str "***"

/-- The composition of the substitutions, in the order of the list. -/
def compose (patterns : List SensitivePattern) (s : String) : String :=
  patterns.foldl (fun s pattern => pattern.sub s) s

mutual

/-- What sanitizing is for: the value under a sensitive key is masked, of whatever type it is, and every other
text is substituted in, at any depth. -/
def sanitized : Json → Json
  | .str s => .str (compose g.sensitivePatterns s)
  | .obj fields => .obj (sanitizedFields fields)
  | .arr items => .arr (sanitizedItems items)
  | value => value

def sanitizedFields : List (String × Json) → List (String × Json)
  | [] => []
  | (key, value) :: fields => (key, if g.sensitiveKey key then mask else sanitized value) :: sanitizedFields fields

def sanitizedItems : List Json → List Json
  | [] => []
  | item :: items => sanitized item :: sanitizedItems items

end

theorem sanitizedFields_eq (fields : List (String × Json)) : sanitizedFields g fields =
    fields.map (fun f => (f.1, if g.sensitiveKey f.1 then mask else sanitized g f.2)) := by
  induction fields with
  | nil => rfl
  | cons f fields ih => simp [sanitizedFields, ih]

theorem sanitizedItems_eq (items : List Json) : sanitizedItems g items = items.map (sanitized g) := by
  induction items with
  | nil => rfl
  | cons item items ih => simp [sanitizedItems, ih]

@[simp] theorem sanitized_str (s : String) : sanitized g (.str s) = .str (compose g.sensitivePatterns s) := rfl

@[simp] theorem sanitized_obj (fields : List (String × Json)) : sanitized g (.obj fields) =
    .obj (fields.map (fun f => (f.1, if g.sensitiveKey f.1 then mask else sanitized g f.2))) := by
  rw [sanitized, sanitizedFields_eq]

@[simp] theorem sanitized_arr (items : List Json) : sanitized g (.arr items) = .arr (items.map (sanitized g)) := by
  rw [sanitized, sanitizedItems_eq]

/-- Searching before substituting changes nothing. -/
theorem substitute_eq (patterns : List SensitivePattern) (s : String) : substitute patterns s = compose patterns s := by
  induction patterns generalizing s with
  | nil => rfl
  | cons pattern patterns ih =>
    rw [substitute, ih]
    cases hs : pattern.search s with
    | true => rfl
    | false => simp [compose, pattern.unmatched s hs]

end Sanitized

section Redacted

variable {g : Guardrail}

/-- What `_redact_tree` leaves of a value at a depth, whatever path it reports. -/
def Redacts (g : Guardrail) (depth : Nat) (value redacted : Json) : Prop :=
  ∀ path, (redactTree g path depth value).2 = redacted

theorem redactFields_eq {path : String} {depth : Nat} {fields : List (String × Json)} {f : Json → Json}
    (h : ∀ field ∈ fields, Redacts g (depth + 1) field.2 (f field.2)) (report : SanitizeReport) :
    (redactFields g path depth report fields).2 =
      fields.map (fun field => (field.1, if isText field.2 && g.sensitiveKey field.1 then mask else f field.2)) := by
  induction fields generalizing report with
  | nil => rfl
  | cons field fields ih =>
    obtain ⟨key, value⟩ := field
    have hvalue := h (key, value) (List.mem_cons_self ..) (path ++ "." ++ key)
    have hfields := ih (fun field hfield => h field (List.mem_cons_of_mem _ hfield))
    cases hmask : isText value && g.sensitiveKey key with
    | true =>
      simp only [redactFields, hmask, hfields, List.map_cons, if_true]
      rfl
    | false =>
      simp only [redactFields, hmask, hfields, List.map_cons, Bool.false_eq_true, if_false]
      rw [hvalue]

theorem redactItems_eq {path : String} {depth : Nat} {items : List Json} {f : Json → Json}
    (h : ∀ item ∈ items, Redacts g (depth + 1) item (f item)) (idx : Nat) (report : SanitizeReport) :
    (redactItems g path depth idx report items).2 = items.map f := by
  induction items generalizing idx report with
  | nil => rfl
  | cons item items ih =>
    have hitem := h item (List.mem_cons_self ..)
    have hitems := ih (fun item hitem => h item (List.mem_cons_of_mem _ hitem))
    simp [redactItems, hitems, hitem _]

/-- Sanitizing leaves a value as it is: its values under sensitive keys are masked already, and no substitution
finds anything in its other texts. -/
inductive Clean (g : Guardrail) : Json → Prop
  | text {s} (h : compose g.sensitivePatterns s = s) : Clean g (.str s)
  | other {value : Json} (h : value.isLeaf = true) (hs : isText value = false) : Clean g value
  | arr {items} (h : ∀ item ∈ items, Clean g item) : Clean g (.arr items)
  | obj {fields : List (String × Json)} (hmask : ∀ f ∈ fields, g.sensitiveKey f.1 = true → f.2 = mask)
      (h : ∀ f ∈ fields, g.sensitiveKey f.1 = false → Clean g f.2) : Clean g (.obj fields)

/-- What is to be redacted in a value is within the reach of `_redact_tree`: the values under sensitive keys
are texts, and below its depth there is nothing left to do. -/
inductive InReach (g : Guardrail) : Nat → Json → Prop
  | deep {depth value} (hd : redactDepth < depth) (h : Clean g value) : InReach g depth value
  | leaf {depth} {value : Json} (hd : depth ≤ redactDepth) (h : value.isLeaf = true) : InReach g depth value
  | arr {depth items} (hd : depth ≤ redactDepth) (h : ∀ item ∈ items, InReach g (depth + 1) item) :
      InReach g depth (.arr items)
  | obj {depth} {fields : List (String × Json)} (hd : depth ≤ redactDepth)
      (hmask : ∀ f ∈ fields, g.sensitiveKey f.1 = true → isText f.2 = true)
      (h : ∀ f ∈ fields, g.sensitiveKey f.1 = false → InReach g (depth + 1) f.2) : InReach g depth (.obj fields)

theorem map_eq_self {α : Type} {f : α → α} {as : List α} : as.map f = as ↔ ∀ a ∈ as, f a = a := by
  induction as with
  | nil => simp
  | cons a as ih => simp [ih]

theorem sanitized_leaf {value : Json} (h : value.isLeaf = true) (hs : isText value = false) :
    sanitized g value = value := by
  cases value with
  | str s => cases hs
  | arr items => cases h
  | obj fields => cases h
  | _ => rfl

/-- The values that sanitizing leaves alone are the clean ones. -/
theorem sanitized_self (value : Json) : sanitized g value = value ↔ Clean g value := by
  induction value using Json.nested with
  | leaf value hleaf =>
    cases hs : isText value with
    | false => exact iff_of_true (sanitized_leaf hleaf hs) (.other hleaf hs)
    | true =>
      obtain ⟨s, rfl⟩ : ∃ s, value = .str s := by cases value <;> simp_all [isText]
      rw [sanitized_str, Json.str.injEq]
      constructor
      · exact Clean.text
      · intro h
        cases h with
        | text h => exact h
        | other _ hs => cases hs
  | arr items ih =>
    rw [sanitized_arr, Json.arr.injEq, map_eq_self]
    constructor
    · intro h
      exact .arr fun item hitem => (ih item hitem).mp (h item hitem)
    · intro h
      cases h with
      | other hleaf => cases hleaf
      | arr h => exact fun item hitem => (ih item hitem).mpr (h item hitem)
  | obj fields ih =>
    rw [sanitized_obj, Json.obj.injEq, map_eq_self]
    constructor
    · intro h
      refine .obj (fun f hf hkey => ?_) (fun f hf hkey => (ih f hf).mp ?_)
      · simpa [hkey] using (congrArg Prod.snd (h f hf)).symm
      · simpa [hkey] using congrArg Prod.snd (h f hf)
    · intro h f hf
      cases h with
      | other hleaf => cases hleaf
      | obj hmask h =>
        cases hkey : g.sensitiveKey f.1 with
        | true => simp [← hmask f hf hkey]
        | false => simp [(ih f hf).mpr (h f hf hkey)]

/-- The value that `_redact_tree` leaves. -/
def redactValue (g : Guardrail) (depth : Nat) (value : Json) : Json := (redactTree g "" depth value).2

/-- The path is only reported. -/
theorem redacts (value : Json) (depth : Nat) : Redacts g depth value (redactValue g depth value) := by
  induction value using Json.nested generalizing depth with
  | leaf value hleaf =>
    intro path
    unfold redactValue
    cases value with
    | str s =>
      unfold redactTree
      split
      · rfl
      · unfold redactText
        split <;> rfl
    | arr items => cases hleaf
    | obj fields => cases hleaf
    | _ => rfl
  | arr items ih =>
    intro path
    unfold redactValue redactTree
    split
    · rfl
    · have hitems := fun item hitem => ih item hitem (depth + 1)
      dsimp only
      rw [redactItems_eq hitems, redactItems_eq hitems]
  | obj fields ih =>
    intro path
    unfold redactValue redactTree
    split
    · rfl
    · have hfields : ∀ f ∈ fields, Redacts g (depth + 1) f.2 (redactValue g (depth + 1) f.2) :=
        fun f hf => ih f hf (depth + 1)
      dsimp only
      rw [redactFields_eq hfields, redactFields_eq hfields]

theorem redactValue_deep {depth : Nat} (hd : redactDepth < depth) (value : Json) :
    redactValue g depth value = value := by
  cases value <;> simp [redactValue, redactTree, hd]

theorem redactValue_arr {depth : Nat} (hd : ¬ redactDepth < depth) (items : List Json) :
    redactValue g depth (.arr items) = .arr (items.map (redactValue g (depth + 1))) := by
  simp only [redactValue, redactTree, if_neg hd]
  rw [redactItems_eq fun item _ => redacts item (depth + 1)]

theorem redactValue_obj {depth : Nat} (hd : ¬ redactDepth < depth) (fields : List (String × Json)) :
    redactValue g depth (.obj fields) = .obj (fields.map (fun f =>
      (f.1, if isText f.2 && g.sensitiveKey f.1 then mask else redactValue g (depth + 1) f.2))) := by
  have hfields : ∀ f ∈ fields, Redacts g (depth + 1) f.2 (redactValue g (depth + 1) f.2) :=
    fun f _ => redacts f.2 (depth + 1)
  simp only [redactValue, redactTree, if_neg hd]
  rw [redactFields_eq hfields]
  rfl

/-- What it leaves is no text where the value is none. -/
theorem redactValue_text (depth : Nat) (value : Json) : isText (redactValue g depth value) = isText value := by
  by_cases hd : redactDepth < depth
  · rw [redactValue_deep hd]
  · cases value with
    | str s =>
      simp only [redactValue, redactTree, if_neg hd, redactText]
      split <;> rfl
    | obj fields => rw [redactValue_obj hd]; rfl
    | arr items => rw [redactValue_arr hd]; rfl
    | _ => rfl

/-- Below its depth `_redact_tree` does what sanitizing is for exactly where there is nothing to do. -/
theorem redactValue_sanitized_deep {depth : Nat} (hd : redactDepth < depth) (value : Json) :
    redactValue g depth value = sanitized g value ↔ InReach g depth value := by
  rw [redactValue_deep hd, eq_comm, sanitized_self]
  constructor
  · exact InReach.deep hd
  · intro h
    cases h with
    | deep _ h => exact h
    | leaf hd' | arr hd' | obj hd' => exact absurd hd (Nat.not_lt.mpr hd')

/-- It does so exactly where all there is to redact is within its reach. -/
theorem redactValue_sanitized (value : Json) (depth : Nat) :
    redactValue g depth value = sanitized g value ↔ InReach g depth value := by
  induction value using Json.nested generalizing depth with
  | leaf value hleaf =>
    by_cases hd : redactDepth < depth
    · exact redactValue_sanitized_deep hd value
    refine iff_of_true ?_ (.leaf (Nat.le_of_not_lt hd) hleaf)
    cases value with
    | str s =>
      simp only [redactValue, redactTree, if_neg hd, redactText, substitute_eq]
      split <;> rfl
    | arr items => cases hleaf
    | obj fields => cases hleaf
    | _ => rfl
  | arr items ih =>
    by_cases hd : redactDepth < depth
    · exact redactValue_sanitized_deep hd _
    rw [redactValue_arr hd, sanitized_arr, Json.arr.injEq, List.map_inj_left]
    constructor
    · intro h
      exact .arr (Nat.le_of_not_lt hd) fun item hitem => (ih item hitem _).mp (h item hitem)
    · intro h item hitem
      cases h with
      | deep hd' => exact absurd hd' hd
      | leaf _ hleaf => cases hleaf
      | arr _ h => exact (ih item hitem _).mpr (h item hitem)
  | obj fields ih =>
    by_cases hd : redactDepth < depth
    · exact redactValue_sanitized_deep hd _
    rw [redactValue_obj hd, sanitized_obj, Json.obj.injEq, List.map_inj_left]
    constructor
    · intro h
      refine .obj (Nat.le_of_not_lt hd) (fun f hf hkey => ?_) (fun f hf hkey => (ih f hf _).mp ?_)
      · -- a value that is no text is not masked, and does not become the mask
        by_contra hs
        have hmasked : redactValue g (depth + 1) f.2 = mask := by
          simpa [hkey, hs] using congrArg Prod.snd (h f hf)
        have htext := redactValue_text (g := g) (depth + 1) f.2
        rw [hmasked] at htext
        exact hs htext.symm
      · simpa [hkey] using congrArg Prod.snd (h f hf)
    · intro h f hf
      cases h with
      | deep hd' => exact absurd hd' hd
      | leaf _ hleaf => cases hleaf
      | obj _ hmask h =>
        cases hkey : g.sensitiveKey f.1 with
        | true => simp [hmask f hf hkey]
        | false => simp [(ih f hf _).mpr (h f hf hkey)]

/-- Nothing in a value is redacted: down to the depth texts under sensitive keys are masked already, and no
substitution finds anything in the other texts. -/
inductive Untouched (g : Guardrail) : Nat → Json → Prop
  | deep {depth value} (hd : redactDepth < depth) : Untouched g depth value
  | text {depth s} (h : compose g.sensitivePatterns s = s) : Untouched g depth (.str s)
  | other {depth} {value : Json} (h : value.isLeaf = true) (hs : isText value = false) : Untouched g depth value
  | arr {depth items} (h : ∀ item ∈ items, Untouched g (depth + 1) item) : Untouched g depth (.arr items)
  | obj {depth} {fields : List (String × Json)}
      (hmask : ∀ f ∈ fields, (isText f.2 && g.sensitiveKey f.1) = true → f.2 = mask)
      (h : ∀ f ∈ fields, (isText f.2 && g.sensitiveKey f.1) = false → Untouched g (depth + 1) f.2) :
      Untouched g depth (.obj fields)

theorem redactValue_self (value : Json) (depth : Nat) : redactValue g depth value = value ↔ Untouched g depth value := by
  induction value using Json.nested generalizing depth with
  | leaf value hleaf =>
    by_cases hd : redactDepth < depth
    · exact iff_of_true (redactValue_deep hd value) (.deep hd)
    have hsame : redactValue g depth value = sanitized g value :=
      (redactValue_sanitized value depth).mpr (.leaf (Nat.le_of_not_lt hd) hleaf)
    rw [hsame, sanitized_self]
    constructor
    · intro h
      cases h with
      | text h => exact .text h
      | other h hs => exact .other h hs
      | arr => cases hleaf
      | obj => cases hleaf
    · intro h
      cases h with
      | deep hd' => exact absurd hd' hd
      | text h => exact .text h
      | other h hs => exact .other h hs
      | arr => cases hleaf
      | obj => cases hleaf
  | arr items ih =>
    by_cases hd : redactDepth < depth
    · exact iff_of_true (redactValue_deep hd _) (.deep hd)
    rw [redactValue_arr hd, Json.arr.injEq, map_eq_self]
    constructor
    · intro h
      exact .arr fun item hitem => (ih item hitem _).mp (h item hitem)
    · intro h item hitem
      cases h with
      | deep hd' => exact absurd hd' hd
      | other hleaf => cases hleaf
      | arr h => exact (ih item hitem _).mpr (h item hitem)
  | obj fields ih =>
    by_cases hd : redactDepth < depth
    · exact iff_of_true (redactValue_deep hd _) (.deep hd)
    rw [redactValue_obj hd, Json.obj.injEq, map_eq_self]
    constructor
    · intro h
      refine .obj (fun f hf hkey => ?_) (fun f hf hkey => (ih f hf _).mp ?_)
      · simpa [hkey] using (congrArg Prod.snd (h f hf)).symm
      · simpa [hkey] using congrArg Prod.snd (h f hf)
    · intro h f hf
      cases h with
      | deep hd' => exact absurd hd' hd
      | other hleaf => cases hleaf
      | obj hmask h =>
        cases hkey : isText f.2 && g.sensitiveKey f.1 with
        | true => rw [if_pos rfl, ← hmask f hf hkey]
        | false => rw [if_neg Bool.false_ne_true, (ih f hf _).mpr (h f hf hkey)]

/-- The values that `sanitize_output` leaves alone. -/
theorem sanitizeOutput_self (output : Json) : sanitizeOutput g output = output ↔ Untouched g 0 output := by
  rw [← redactValue_self]
  exact iff_of_eq (congrArg (· = output) (redacts output 0 "$"))

end Redacted

/-- Redaction is complete exactly for the outputs in which all there is to redact is within reach: down to its
depth the values under sensitive keys are texts, and below it there is nothing to redact. -/
theorem redaction_complete_iff (g : Guardrail) (output : Json) :
    sanitizeOutput g output = sanitized g output ↔ InReach g 0 output := by
  have hvalue : sanitizeOutput g output = redactValue g 0 output := redacts output 0 "$"
  rw [hvalue]
  exact redactValue_sanitized output 0

/-- A guardrail that knows one sensitive key. -/
def sampleGuardrail : Guardrail where
  sensitivePatterns := []
  sensitiveKey key := key == "password"
  injectionPatterns := []
  toPython := Auth.sampleCrypto.toPython

/-- A number under it is handed out. -/
theorem number_leaks :
    ¬ sanitizeOutput sampleGuardrail (.obj [("password", .int 1234)]) =
      sanitized sampleGuardrail (.obj [("password", .int 1234)]) := by
  intro h
  have hmasked : Json.obj [("password", .int 1234)] = .obj [("password", mask)] := h
  simp [mask] at hmasked

end A2ARegistry.Security
