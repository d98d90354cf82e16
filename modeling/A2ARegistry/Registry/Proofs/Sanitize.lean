import Mathlib.Data.List.Basic
import Mathlib.Data.List.Chain
import A2ARegistry.Registry.Validation

namespace A2ARegistry.Registry
open Base

mutual

/-- The texts in a value, each with the depth it stands at. -/
def leaves (depth : Nat) : Json → List (Nat × String)
  | .str s => [(depth, s)]
  | .arr items => itemLeaves (depth + 1) items
  | .obj fields => fieldLeaves (depth + 1) fields
  | _ => []

def itemLeaves (depth : Nat) : List Json → List (Nat × String)
  | [] => []
  | v :: vs => leaves depth v ++ itemLeaves depth vs

def fieldLeaves (depth : Nat) : List (String × Json) → List (Nat × String)
  | [] => []
  | (_, v) :: fs => leaves depth v ++ fieldLeaves depth fs

end

/-- No character of the text can open or close a tag or an attribute. -/
def InjectionFree (s : String) : Prop := ∀ c ∈ s.toList, c ≠ '<' ∧ c ≠ '>' ∧ c ≠ '"' ∧ c ≠ '\''

instance (s : String) : Decidable (InjectionFree s) := List.decidableBAll _ s.toList

/-- What becomes of a text at a depth. -/
def sanitizeLeaf (leaf : Nat × String) : Nat × String :=
  (leaf.1, if leaf.1 ≤ maxDepth ∧ looksEncoded leaf.2 = false then escape leaf.2 else leaf.2)

theorem itemLeaves_eq (depth : Nat) (items : List Json) : itemLeaves depth items = items.flatMap (leaves depth) := by
  induction items with
  | nil => rfl
  | cons v vs ih => rw [itemLeaves, ih, List.flatMap_cons]

theorem fieldLeaves_eq (depth : Nat) (fields : List (String × Json)) :
    fieldLeaves depth fields = fields.flatMap (fun f => leaves depth f.2) := by
  induction fields with
  | nil => rfl
  | cons f fs ih => rw [fieldLeaves, ih, List.flatMap_cons]

/-- Nothing stands above the value it is in. -/
theorem leaves_depth (v : Json) {depth : Nat} {leaf : Nat × String} (h : leaf ∈ leaves depth v) : depth ≤ leaf.1 := by
  induction v using Json.nested generalizing depth with
  | leaf v hleaf =>
    cases v with
    | str s =>
      obtain rfl : leaf = (depth, s) := by simpa [leaves] using h
      exact Nat.le_refl depth
    | arr items => cases hleaf
    | obj fields => cases hleaf
    | _ => cases h
  | arr items ih =>
    rw [leaves, itemLeaves_eq] at h
    obtain ⟨v, hv, hmem⟩ := List.mem_flatMap.mp h
    exact Nat.le_of_succ_le (ih v hv hmem)
  | obj fields ih =>
    rw [leaves, fieldLeaves_eq] at h
    obtain ⟨f, hf, hmem⟩ := List.mem_flatMap.mp h
    exact Nat.le_of_succ_le (ih f hf hmem)

theorem sanitize_deep {depth : Nat} (h : maxDepth < depth) (v : Json) : sanitizeCardOutput v depth = v := by
  rw [sanitizeCardOutput.eq_def, if_pos h]

theorem sanitizeLeaf_deep {depth : Nat} (h : maxDepth < depth) (v : Json) :
    ∀ leaf ∈ leaves depth v, sanitizeLeaf leaf = leaf := by
  intro leaf hmem
  have hdepth := leaves_depth v hmem
  rw [sanitizeLeaf, if_neg (by omega)]

theorem leaves_deep {depth : Nat} (h : maxDepth < depth) (v : Json) :
    (leaves depth v).map sanitizeLeaf = leaves depth v := by
  rw [List.map_congr_left (sanitizeLeaf_deep h v), List.map_id']

section Shallow

variable {depth : Nat} (h : ¬ maxDepth < depth)

include h

theorem sanitize_str (s : String) : sanitizeCardOutput (.str s) depth = .str (sanitizeLeaf (depth, s)).2 := by
  rw [sanitizeCardOutput.eq_def, if_neg h]
  cases hlooks : looksEncoded s with
  | true => simp [sanitizeLeaf, hlooks]
  | false => simp [sanitizeLeaf, sanitizeHtml, hlooks, Nat.le_of_not_lt h]

theorem sanitize_arr (items : List Json) : sanitizeCardOutput (.arr items) depth =
    .arr (items.map (fun v => sanitizeCardOutput v (depth + 1))) := by
  rw [sanitizeCardOutput.eq_def, if_neg h]
  exact congrArg Json.arr (sanitizeItems_eq items (depth + 1))

theorem sanitize_obj (fields : List (String × Json)) : sanitizeCardOutput (.obj fields) depth =
    .obj (fields.map (fun f => (f.1, sanitizeCardOutput f.2 (depth + 1)))) := by
  rw [sanitizeCardOutput.eq_def, if_neg h]
  exact congrArg Json.obj (sanitizeFields_eq fields (depth + 1))

end Shallow

/-- The output of a card is the card with each text encoded, or not, on its own. -/
theorem leaves_sanitize (v : Json) (depth : Nat) :
    leaves depth (sanitizeCardOutput v depth) = (leaves depth v).map sanitizeLeaf := by
  induction v using Json.nested generalizing depth with
  | leaf v hleaf =>
    by_cases hdeep : maxDepth < depth
    · rw [sanitize_deep hdeep, leaves_deep hdeep]
    · cases v with
      | str s =>
        rw [sanitize_str hdeep]
        rfl
      | arr items => cases hleaf
      | obj fields => cases hleaf
      | _ => simp [sanitizeCardOutput.eq_def, leaves]
  | arr items ih =>
    by_cases hdeep : maxDepth < depth
    · rw [sanitize_deep hdeep, leaves_deep hdeep]
    · rw [sanitize_arr hdeep]
      simp only [leaves, itemLeaves_eq, List.flatMap_map, List.map_flatMap]
      exact List.flatMap_congr (fun v hv => ih v hv (depth + 1))
  | obj fields ih =>
    by_cases hdeep : maxDepth < depth
    · rw [sanitize_deep hdeep, leaves_deep hdeep]
    · rw [sanitize_obj hdeep]
      simp only [leaves, fieldLeaves_eq, List.flatMap_map, List.map_flatMap]
      exact List.flatMap_congr (fun f hf => ih f hf (depth + 1))

theorem escapeChar_free (c : Char) : InjectionFree (String.ofList (escapeChar c)) := by
  unfold escapeChar
  split
  iterate 5 decide +kernel
  intro d hd
  rw [String.toList_ofList] at hd
  obtain rfl := List.mem_singleton.mp hd
  simp_all

theorem escape_free (s : String) : InjectionFree (escape s) := by
  intro d hd
  rw [escape, String.toList_ofList] at hd
  obtain ⟨c, -, hmem⟩ := List.mem_flatMap.mp hd
  exact escapeChar_free c d (by rwa [String.toList_ofList])

theorem sanitizeLeaf_free (leaf : Nat × String) : InjectionFree (sanitizeLeaf leaf).2 ↔
    (¬ InjectionFree leaf.2 → leaf.1 ≤ maxDepth ∧ looksEncoded leaf.2 = false) := by
  rw [sanitizeLeaf]
  by_cases hencoded : leaf.1 ≤ maxDepth ∧ looksEncoded leaf.2 = false
  · rw [if_pos hencoded]
    exact iff_of_true (escape_free leaf.2) (fun _ => hencoded)
  · rw [if_neg hencoded]
    constructor
    · intro hfree hnot
      exact absurd hfree hnot
    · intro h
      exact Decidable.by_contra fun hnot => hencoded (h hnot)

/-- The texts of the output have no markup in them if and only if those of the card that have
some stand at most twenty deep and do not look encoded. -/
theorem output_free_iff (card : Json) :
    (∀ leaf ∈ leaves 0 (sanitizeCardOutput card 0), InjectionFree leaf.2) ↔
      ∀ leaf ∈ leaves 0 card, ¬ InjectionFree leaf.2 → leaf.1 ≤ maxDepth ∧ looksEncoded leaf.2 = false := by
  rw [leaves_sanitize, List.forall_mem_map]
  constructor
  · intro h leaf hmem
    exact (sanitizeLeaf_free leaf).mp (h leaf hmem)
  · intro h leaf hmem
    exact (sanitizeLeaf_free leaf).mpr (h leaf hmem)

/-- A name that holds an ampersand already written out is not encoded, and its tag comes through. -/
theorem marked_script_kept :
    ¬ ∀ leaf ∈ leaves 0 (sanitizeCardOutput (.obj [("name", .str "R&amp;D <script>")]) 0),
      InjectionFree leaf.2 := by
  decide +kernel

section Twice

/-- An ampersand, an angle bracket or an apostrophe: what is written for it has one of the marks. -/
def Marking (c : Char) : Prop := c = '&' ∨ c = '<' ∨ c = '>' ∨ c = '\''

/-- What stands behind an ampersand in a text whose quotes alone were written out. -/
def QuoteOnly (c d : Char) : Prop := c = '&' → d = 'q'

theorem escapeChar_quote {c : Char} (hc : ¬ Marking c) :
    (escapeChar c).IsChain QuoteOnly ∧ ∀ d ∈ (escapeChar c).getLast?, d ≠ '&' := by
  by_cases hquote : c = '"'
  · subst hquote
    constructor
    · have hwritten : escapeChar '"' = ['&', 'q', 'u', 'o', 't', ';'] := rfl
      rw [hwritten]
      simp only [List.isChain_cons_cons, List.isChain_singleton, QuoteOnly]
      decide
    · intro d hd
      have hlast : ';' = d := Option.some.inj hd
      rw [← hlast]
      decide
  · have hself : escapeChar c = [c] := by
      unfold Marking at hc
      unfold escapeChar
      split <;> simp_all
    rw [hself]
    constructor
    · exact List.IsChain.singleton c
    · intro d hd
      cases hd
      exact fun he => hc (Or.inl he)

theorem escape_quote {cs : List Char} (hcs : ∀ c ∈ cs, ¬ Marking c) : (cs.flatMap escapeChar).IsChain QuoteOnly := by
  induction cs with
  | nil => exact List.IsChain.nil
  | cons c cs ih =>
    obtain ⟨hchain, hlast⟩ := escapeChar_quote (hcs c List.mem_cons_self)
    rw [List.flatMap_cons, List.isChain_append]
    refine ⟨hchain, ih fun d hd => hcs d (List.mem_cons_of_mem c hd), fun x hx y _ he => ?_⟩
    exact absurd he (hlast x hx)

/-- No mark is written for quotes. -/
theorem quoted_unmarked {s : String} (hs : ∀ c ∈ s.toList, ¬ Marking c) : looksEncoded (escape s) = false := by
  have hchain := escape_quote hs
  rw [looksEncoded, List.any_eq_false]
  intro mark hmark hin
  obtain ⟨front, back, hsplit⟩ := containsChars_iff.mp hin
  rw [escape, String.toList_ofList] at hsplit
  have hinfix : mark.toList <:+: s.toList.flatMap escapeChar := ⟨front, back, hsplit.symm⟩
  have hmarked := hchain.infix hinfix
  simp only [encodedMarks, List.mem_cons, List.not_mem_nil, or_false] at hmark
  rcases hmark with rfl | rfl | rfl | rfl <;> simp [QuoteOnly] at hmarked

/-- What is written for a marking character has a mark, and so has a text with it. -/
theorem marking_marked {s : String} {c : Char} (hc : c ∈ s.toList) (hmarking : Marking c) :
    looksEncoded (escape s) = true := by
  obtain ⟨front, back, hsplit⟩ := List.append_of_mem hc
  have hescaped : (escape s).toList = front.flatMap escapeChar ++ escapeChar c ++ back.flatMap escapeChar := by
    rw [escape, String.toList_ofList, hsplit, List.flatMap_append, List.flatMap_cons, List.append_assoc]
  have hcontains : ∀ mark ∈ encodedMarks, (∃ rest, escapeChar c = mark.toList ++ rest) →
      looksEncoded (escape s) = true := by
    intro mark hmark hrest
    obtain ⟨rest, hrest⟩ := hrest
    refine List.any_eq_true.mpr ⟨mark, hmark, containsChars_iff.mpr ⟨front.flatMap escapeChar,
      rest ++ back.flatMap escapeChar, ?_⟩⟩
    rw [hescaped, hrest]
    simp only [List.append_assoc]
  rcases hmarking with rfl | rfl | rfl | rfl
  · exact hcontains "&amp;" (by decide) ⟨[], rfl⟩
  · exact hcontains "&lt;" (by decide) ⟨[], rfl⟩
  · exact hcontains "&gt;" (by decide) ⟨[], rfl⟩
  · exact hcontains "&#x" (by decide) ⟨['2', '7', ';'], rfl⟩

/-- A text that looks encoded has an ampersand. -/
theorem marked_ampersand {s : String} (h : looksEncoded s = true) : '&' ∈ s.toList := by
  obtain ⟨mark, hmark, hin⟩ := List.any_eq_true.mp h
  obtain ⟨front, back, hsplit⟩ := containsChars_iff.mp hin
  have hfirst : ∀ mark ∈ encodedMarks, '&' ∈ mark.toList := by decide
  rw [hsplit]
  exact List.mem_append_left back (List.mem_append_right front (hfirst mark hmark))

/-- A text without characters to write stays as it is. -/
theorem escape_plain {s : String} (h : ∀ c ∈ s.toList, ¬ Marking c ∧ c ≠ '"') : escape s = s := by
  have hself : ∀ c ∈ s.toList, escapeChar c = [c] := by
    intro c hc
    obtain ⟨hmarking, hquote⟩ := h c hc
    unfold Marking at hmarking
    unfold escapeChar
    split <;> simp_all
  rw [escape, List.flatMap_congr hself, List.flatMap_singleton', String.ofList_toList]

/-- Once written, a text stays as it is unless all that was written in it are quotes. -/
theorem sanitizeLeaf_twice (leaf : Nat × String) : sanitizeLeaf (sanitizeLeaf leaf) = sanitizeLeaf leaf ↔
    (leaf.1 ≤ maxDepth → '"' ∈ leaf.2.toList → ∃ c ∈ leaf.2.toList, Marking c) := by
  obtain ⟨depth, s⟩ := leaf
  by_cases hdepth : depth ≤ maxDepth
  · by_cases hmarking : ∃ c ∈ s.toList, Marking c
    · refine iff_of_true ?_ fun _ _ => hmarking
      obtain ⟨c, hc, hmark⟩ := hmarking
      cases hlooks : looksEncoded s with
      | true => simp [sanitizeLeaf, hlooks]
      | false => simp [sanitizeLeaf, hlooks, hdepth, marking_marked hc hmark]
    · have hnone : ∀ c ∈ s.toList, ¬ Marking c := fun c hc hmark => hmarking ⟨c, hc, hmark⟩
      have hlooks : looksEncoded s = false := by
        rw [← Bool.not_eq_true]
        exact fun h => hnone '&' (marked_ampersand h) (Or.inl rfl)
      by_cases hquote : '"' ∈ s.toList
      · refine iff_of_false ?_ fun h => hmarking (h hdepth hquote)
        -- The ampersand of the quote that was written is written again, with a mark.
        simp only [sanitizeLeaf, hlooks, hdepth, quoted_unmarked hnone, and_self, if_true, Prod.mk.injEq, true_and]
        intro hsame
        have hwritten : '&' ∈ (escape s).toList := by
          rw [escape, String.toList_ofList]
          exact List.mem_flatMap.mpr ⟨'"', hquote, by decide⟩
        have hmarked := marking_marked hwritten (Or.inl rfl)
        rw [hsame, quoted_unmarked hnone] at hmarked
        cases hmarked
      · refine iff_of_true ?_ fun _ h => absurd h hquote
        have hself : escape s = s := escape_plain fun c hc => ⟨hnone c hc, fun he => hquote (he ▸ hc)⟩
        simp [sanitizeLeaf, hself]
  · exact iff_of_true (by simp [sanitizeLeaf, hdepth]) fun h => absurd h hdepth

end Twice

theorem sanitize_twice_deep {depth : Nat} (h : maxDepth < depth) (v : Json) :
    sanitizeCardOutput (sanitizeCardOutput v depth) depth = sanitizeCardOutput v depth ↔
      ∀ leaf ∈ leaves depth v, sanitizeLeaf (sanitizeLeaf leaf) = sanitizeLeaf leaf := by
  refine iff_of_true (by rw [sanitize_deep h, sanitize_deep h]) fun leaf hmem => ?_
  rw [sanitizeLeaf_deep h v leaf hmem, sanitizeLeaf_deep h v leaf hmem]

/-- A second pass over a value changes it where it changes one of its texts. -/
theorem sanitize_twice (v : Json) (depth : Nat) :
    sanitizeCardOutput (sanitizeCardOutput v depth) depth = sanitizeCardOutput v depth ↔
      ∀ leaf ∈ leaves depth v, sanitizeLeaf (sanitizeLeaf leaf) = sanitizeLeaf leaf := by
  induction v using Json.nested generalizing depth with
  | leaf v hleaf =>
    by_cases hdeep : maxDepth < depth
    · exact sanitize_twice_deep hdeep v
    · cases v with
      | str s =>
        have hpair : ∀ t, sanitizeLeaf (depth, t) = (depth, (sanitizeLeaf (depth, t)).2) := fun _ => rfl
        rw [sanitize_str hdeep, sanitize_str hdeep, leaves, List.forall_mem_singleton, Json.str.injEq, hpair s, hpair,
          Prod.mk.injEq]
        exact (and_iff_right rfl).symm
      | arr items => cases hleaf
      | obj fields => cases hleaf
      | _ =>
        refine iff_of_true ?_ fun leaf hmem => absurd hmem List.not_mem_nil
        simp [sanitizeCardOutput.eq_def]
  | arr items ih =>
    by_cases hdeep : maxDepth < depth
    · exact sanitize_twice_deep hdeep _
    · rw [sanitize_arr hdeep, sanitize_arr hdeep, Json.arr.injEq, List.map_map, List.map_inj_left, leaves,
        itemLeaves_eq]
      simp only [List.mem_flatMap, forall_exists_index, and_imp]
      constructor
      · intro h leaf v hv hmem
        exact (ih v hv (depth + 1)).mp (h v hv) leaf hmem
      · intro h v hv
        exact (ih v hv (depth + 1)).mpr fun leaf hmem => h leaf v hv hmem
  | obj fields ih =>
    by_cases hdeep : maxDepth < depth
    · exact sanitize_twice_deep hdeep _
    · rw [sanitize_obj hdeep, sanitize_obj hdeep, Json.obj.injEq, List.map_map, List.map_inj_left, leaves,
        fieldLeaves_eq]
      simp only [List.mem_flatMap, forall_exists_index, and_imp, Function.comp_apply, Prod.mk.injEq, true_and]
      constructor
      · intro h leaf f hf hmem
        exact (ih f hf (depth + 1)).mp (h f hf) leaf hmem
      · intro h f hf
        exact (ih f hf (depth + 1)).mpr fun leaf hmem => h leaf f hf hmem

/-- The output of a card passes unchanged a second time if and only if no text of it, at most twenty deep, has quotes
and no ampersand, angle bracket or apostrophe. -/
theorem output_twice_iff (card : Json) :
    sanitizeCardOutput (sanitizeCardOutput card 0) 0 = sanitizeCardOutput card 0 ↔
      ∀ leaf ∈ leaves 0 card, leaf.1 ≤ maxDepth → '"' ∈ leaf.2.toList → ∃ c ∈ leaf.2.toList, Marking c := by
  rw [sanitize_twice]
  exact forall₂_congr fun leaf _ => sanitizeLeaf_twice leaf

/-- A name in quotes is written a second time. -/
theorem quotes_written_twice :
    ¬ ∀ card, sanitizeCardOutput (sanitizeCardOutput card 0) 0 = sanitizeCardOutput card 0 := by
  intro h
  have hleaves := congrArg (leaves 0) (h (.obj [("name", .str "the \"best\" agent")]))
  revert hleaves
  decide +kernel

end A2ARegistry.Registry
