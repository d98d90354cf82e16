import Mathlib.Data.List.Forall2
import Mathlib.Data.List.Infix

namespace A2ARegistry.Base

/-- The case of ASCII letters does not count. -/
def sameLetter (c d : Char) : Bool := c.toLower == d.toLower

/-- `text LIKE pattern`: `%` stands for any characters, `_` for one. -/
def like : List Char → List Char → Bool
  | [], text => text.isEmpty
  | c :: pattern, text =>
    if c = '%' then text.tails.any (fun rest => like pattern rest)
    else match text with
      | [] => false
      | d :: text => (c == '_' || sameLetter c d) && like pattern text

/-- What SQLite sees of a text in a comparison: a NUL ends it. -/
def cText (text : List Char) : List Char := text.takeWhile (fun c => c != '\x00')

/-- `LIKE` on texts as SQLite stores them. -/
def likeText (pattern text : String) : Bool := like (cText pattern.toList) (cText text.toList)

/-- What a pattern stands for. -/
inductive Spells : List Char → List Char → Prop
  | nil : Spells [] []
  | any {pattern text : List Char} (piece : List Char) : Spells pattern text → Spells ('%' :: pattern) (piece ++ text)
  | one {pattern text : List Char} (d : Char) : Spells pattern text → Spells ('_' :: pattern) (d :: text)
  | letter {pattern text : List Char} {c d : Char} (h : sameLetter c d = true) :
    Spells pattern text → Spells (c :: pattern) (d :: text)

variable {pattern more text rest spelled : List Char} {c : Char}

theorem like_any : like ('%' :: pattern) text = true ↔ ∃ rest, rest <:+ text ∧ like pattern rest = true := by
  simp [like, List.mem_tails]

/-- `like` decides what a pattern stands for. -/
theorem like_iff : like pattern text = true ↔ Spells pattern text := by
  constructor
  · intro h
    induction pattern generalizing text with
    | nil =>
      cases text with
      | nil => exact Spells.nil
      | cons d text => simp [like] at h
    | cons c pattern ih =>
      by_cases hany : c = '%'
      · subst hany
        obtain ⟨rest, ⟨piece, rfl⟩, hrest⟩ := like_any.mp h
        exact Spells.any piece (ih hrest)
      · cases text with
        | nil => simp [like, hany] at h
        | cons d text =>
          simp only [like, if_neg hany, Bool.and_eq_true, Bool.or_eq_true, beq_iff_eq] at h
          obtain ⟨hone | hletter, hrest⟩ := h
          · subst hone
            exact Spells.one d (ih hrest)
          · exact Spells.letter hletter (ih hrest)
  · intro h
    induction h with
    | nil => rfl
    | any piece _ ih => exact like_any.mpr ⟨_, List.suffix_append _ _, ih⟩
    | one d _ ih => simp [like, ih]
    | @letter pattern text c d hletter _ ih =>
      by_cases hany : c = '%'
      · subst hany
        exact like_any.mpr ⟨text, List.suffix_cons _ _, ih⟩
      · simp [like, hany, hletter, ih]

/-- A pattern stands for what is written as it is, wildcards included, in any case. -/
theorem spells_letters (h : List.Forall₂ (fun c d => sameLetter c d = true) pattern text) : Spells pattern text := by
  induction h with
  | nil => exact Spells.nil
  | cons hletter _ ih => exact Spells.letter hletter ih

theorem Spells.self (text : List Char) : Spells text text := by
  induction text with
  | nil => exact Spells.nil
  | cons c text ih => exact Spells.letter (by simp [sameLetter]) ih

theorem Spells.append (h : Spells pattern text) (hmore : Spells more rest) : Spells (pattern ++ more) (text ++ rest) := by
  induction h with
  | nil => exact hmore
  | any piece _ ih =>
    rw [List.append_assoc]
    exact Spells.any piece ih
  | one d _ ih => exact Spells.one d ih
  | letter hletter _ ih => exact Spells.letter hletter ih

theorem Spells.remainder (text : List Char) : Spells ['%'] text := by
  simpa using Spells.any text Spells.nil

/-- A pattern without wildcards stands for what is written as it is only. -/
theorem Spells.letters (h : Spells pattern text) (hany : '%' ∉ pattern) (hone : '_' ∉ pattern) :
    List.Forall₂ (fun c d => sameLetter c d = true) pattern text := by
  induction h with
  | nil => exact List.Forall₂.nil
  | any => simp at hany
  | one => simp at hone
  | letter hletter _ ih =>
    exact List.Forall₂.cons hletter (ih (fun hin => hany (List.mem_cons_of_mem _ hin))
      (fun hin => hone (List.mem_cons_of_mem _ hin)))

/-- What is no wildcard in a pattern stands for a character of the text. -/
theorem Spells.letter_mem {pattern text : List Char} (h : Spells pattern text) (hc : c ∈ pattern) (hany : c ≠ '%')
    (hone : c ≠ '_') : ∃ d ∈ text, sameLetter c d = true := by
  induction h with
  | nil => cases hc
  | any piece _ ih =>
    obtain ⟨d, hd, hsame⟩ := ih ((List.mem_cons.mp hc).resolve_left hany)
    exact ⟨d, List.mem_append_right _ hd, hsame⟩
  | one e _ ih =>
    obtain ⟨d, hd, hsame⟩ := ih ((List.mem_cons.mp hc).resolve_left hone)
    exact ⟨d, List.mem_cons_of_mem _ hd, hsame⟩
  | letter hletter _ ih =>
    rcases List.mem_cons.mp hc with rfl | hc
    · exact ⟨_, List.mem_cons_self, hletter⟩
    · obtain ⟨d, hd, hsame⟩ := ih hc
      exact ⟨d, List.mem_cons_of_mem _ hd, hsame⟩

/-- Before its end a pattern stands for a part of the text. -/
theorem Spells.split (h : Spells (pattern ++ more) text) :
    ∃ front back, text = front ++ back ∧ Spells pattern front ∧ Spells more back := by
  induction pattern generalizing text with
  | nil => exact ⟨[], text, rfl, Spells.nil, h⟩
  | cons c pattern ih =>
    cases h with
    | any piece h =>
      obtain ⟨front, back, rfl, hfront, hback⟩ := ih h
      exact ⟨piece ++ front, back, by simp, Spells.any piece hfront, hback⟩
    | one d h =>
      obtain ⟨front, back, rfl, hfront, hback⟩ := ih h
      exact ⟨d :: front, back, rfl, Spells.one d hfront, hback⟩
    | letter hletter h =>
      obtain ⟨front, back, rfl, hfront, hback⟩ := ih h
      exact ⟨_ :: front, back, rfl, Spells.letter hletter hfront, hback⟩

theorem Spells.contained (h : Spells ('%' :: (pattern ++ ['%'])) text) :
    ∃ before spelled after, text = before ++ spelled ++ after ∧ Spells pattern spelled := by
  rw [← List.singleton_append] at h
  obtain ⟨before, rest, rfl, _, hrest⟩ := h.split
  obtain ⟨spelled, after, rfl, hspelled, _⟩ := hrest.split
  exact ⟨before, spelled, after, by simp, hspelled⟩

/-- What a text contains is found in it. -/
theorem Spells.within (h : Spells pattern spelled) (before after : List Char) :
    Spells ('%' :: (pattern ++ ['%'])) (before ++ spelled ++ after) := by
  rw [List.append_assoc]
  exact Spells.any before (h.append (Spells.remainder after))

theorem likeText_iff {pattern text : String} :
    likeText pattern text = true ↔ Spells (cText pattern.toList) (cText text.toList) := like_iff

theorem cText_append (h : '\x00' ∉ text) (rest : List Char) : cText (text ++ rest) = text ++ cText rest := by
  rw [cText, List.takeWhile_append_of_pos]
  · rfl
  · intro c hc
    have hne : c ≠ '\x00' := fun he => h (he ▸ hc)
    simpa using hne

theorem cText_of_fresh (h : '\x00' ∉ text) : cText text = text := by
  simpa [cText] using cText_append h []

/-- Nothing behind a NUL is seen. -/
theorem cText_cut (h : '\x00' ∈ text) (rest : List Char) : cText (text ++ rest) = cText text := by
  obtain ⟨front, back, rfl, hfront⟩ := List.eq_append_cons_of_mem h
  rw [List.append_assoc, cText_append hfront, cText_append hfront]
  rfl

end A2ARegistry.Base
