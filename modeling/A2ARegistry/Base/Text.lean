namespace A2ARegistry.Base

/-- The characters `str.strip()` removes: Python's `str.isspace`. -/
def isSpace (c : Char) : Bool :=
  let n := c.toNat
  (0x9 ≤ n && n ≤ 0xD) || (0x1C ≤ n && n ≤ 0x20) || n == 0x85 || n == 0xA0 || n == 0x1680 ||
    (0x2000 ≤ n && n ≤ 0x200A) || n == 0x2028 || n == 0x2029 || n == 0x202F || n == 0x205F ||
    n == 0x3000

/-- `str.strip()`. -/
def strip (s : String) : String :=
  String.ofList ((s.toList.dropWhile isSpace).reverse.dropWhile isSpace).reverse

/-- `s.split()`. -/
def words (s : String) : List String :=
  ((s.toList.splitOnP isSpace).filter (fun cs => !cs.isEmpty)).map String.ofList

/-- `s.split(sep)`, for a single character. -/
def splitAt (s : String) (sep : Char) : List String := (s.toList.splitOn sep).map String.ofList

/-- `sep.join(parts)`. -/
def joinBy (sep : String) (parts : List String) : String :=
  String.ofList (sep.toList.intercalate (parts.map String.toList))

/-- `s.encode("utf-8")`. -/
def utf8 (s : String) : List UInt8 := s.toList.flatMap String.utf8EncodeChar

/-- `needle in s`, on characters. -/
def containsChars (needle : List Char) : List Char → Bool
  | [] => needle.isEmpty
  | c :: cs => needle.isPrefixOf (c :: cs) || containsChars needle cs

/-- `needle in s`. -/
def contains (s needle : String) : Bool := containsChars needle.toList s.toList

theorem containsChars_iff {needle cs : List Char} : containsChars needle cs = true ↔ ∃ a b, cs = a ++ needle ++ b := by
  induction cs with
  | nil =>
    rw [containsChars, List.isEmpty_iff]
    constructor
    · intro h
      exact ⟨[], [], by simp [h]⟩
    · intro ⟨a, b, h⟩
      simp_all
  | cons c cs ih =>
    rw [containsChars, Bool.or_eq_true, List.isPrefixOf_iff_prefix, ih]
    constructor
    · intro h
      rcases h with ⟨b, hb⟩ | ⟨a, b, hb⟩
      · exact ⟨[], b, hb.symm⟩
      · exact ⟨c :: a, b, by simp [hb]⟩
    · intro ⟨a, b, h⟩
      cases a with
      | nil => exact Or.inl ⟨b, h.symm⟩
      | cons d a =>
        obtain ⟨_, hcs⟩ := List.cons.inj h
        exact Or.inr ⟨a, b, hcs⟩

/-- What a text contains it contains whatever is written before and after it. -/
theorem contains_append {s needle : String} (h : contains s needle = true) (t u : String) :
    contains (t ++ s ++ u) needle = true := by
  obtain ⟨a, b, hs⟩ := containsChars_iff.mp h
  exact containsChars_iff.mpr ⟨t.toList ++ a, b ++ u.toList, by simp [hs]⟩

/-- The decimal digits of `int(s)`, with single underscores between them. -/
def parseNat (cs : List Char) : Option Nat :=
  let groups := cs.splitOn '_'
  if groups.all (fun group => !group.isEmpty && group.all Char.isDigit) then
    some (groups.flatten.foldl (fun n c => 10 * n + (c.toNat - '0'.toNat)) 0)
  else none

/-- `int(s)` of a text; `none` when it raises. -/
def parseInt (s : String) : Option Int :=
  match (strip s).toList with
  | '-' :: cs => (parseNat cs).map (fun n => -(n : Int))
  | '+' :: cs => (parseNat cs).map Int.ofNat
  | cs => (parseNat cs).map Int.ofNat

/-- No part of a list that is split at its separators has a separator in it. -/
theorem splitOnP_letters {p : Char → Bool} {cs part : List Char} (h : part ∈ cs.splitOnP p) :
    ∀ c ∈ part, p c = false := by
  induction cs generalizing part with
  | nil =>
    obtain rfl : part = [] := by simpa using h
    simp
  | cons c cs ih =>
    rw [List.splitOnP_cons_eq_if_modifyHead] at h
    split at h
    · rcases List.mem_cons.mp h with rfl | h
      · simp
      · exact ih h
    · rename_i hc
      cases hsplit : cs.splitOnP p with
      | nil => exact absurd hsplit (List.splitOnP_ne_nil p cs)
      | cons head rest =>
        rw [hsplit, List.modifyHead_cons] at h
        rcases List.mem_cons.mp h with rfl | h
        · intro d hd
          rcases List.mem_cons.mp hd with rfl | hd
          · simpa using hc
          · exact ih (hsplit ▸ List.mem_cons_self ..) d hd
        · exact ih (hsplit ▸ List.mem_cons_of_mem head h)

theorem joinBy_singleton (sep s : String) : joinBy sep [s] = s := by
  simp [joinBy, List.intercalate]

theorem joinBy_cons (sep s : String) {parts : List String} (h : parts ≠ []) :
    joinBy sep (s :: parts) = s ++ sep ++ joinBy sep parts := by
  cases parts with
  | nil => exact absurd rfl h
  | cons t parts =>
    apply String.toList_inj.mp
    simp [joinBy, List.intercalate]

theorem words_append (s t : String) : words (s ++ " " ++ t) = words s ++ words t := by
  have hspace : isSpace ' ' = true := rfl
  have hlist : (s ++ " " ++ t).toList = s.toList ++ ' ' :: t.toList := by simp
  rw [words, hlist, List.splitOnP_append_cons _ _ hspace, List.filter_append, List.map_append]
  rfl

/-- A word of joined texts is a word of one of them. -/
theorem mem_words_join {w : String} {parts : List String} (h : w ∈ words (joinBy " " parts)) :
    ∃ s ∈ parts, w ∈ words s := by
  induction parts with
  | nil => cases h
  | cons s parts ih =>
    by_cases hlast : parts = []
    · subst hlast
      rw [joinBy_singleton] at h
      exact ⟨s, List.mem_singleton_self s, h⟩
    · rw [joinBy_cons " " s hlast, words_append] at h
      rcases List.mem_append.mp h with h | h
      · exact ⟨s, List.mem_cons_self .., h⟩
      · obtain ⟨u, hu, hw⟩ := ih h
        exact ⟨u, List.mem_cons_of_mem s hu, hw⟩

/-- A word is one word. -/
theorem words_word {w s : String} (h : w ∈ words s) : words w = [w] := by
  obtain ⟨cs, hcs, rfl⟩ := List.mem_map.mp h
  obtain ⟨hpart, hne⟩ := List.mem_filter.mp hcs
  have hletters : ∀ c ∈ cs, isSpace c = false := splitOnP_letters hpart
  simp [words, List.splitOnP_eq_singleton hletters, hne]

/-- Words that are joined are the words of the text. -/
theorem words_join {parts : List String} (h : ∀ w ∈ parts, words w = [w]) : words (joinBy " " parts) = parts := by
  induction parts with
  | nil => rfl
  | cons s parts ih =>
    have hs := h s (List.mem_cons_self ..)
    by_cases hlast : parts = []
    · rw [hlast, joinBy_singleton, hs]
    · rw [joinBy_cons " " s hlast, words_append, hs, ih (fun w hw => h w (List.mem_cons_of_mem s hw))]
      rfl

theorem splitAt_append (s t : String) : splitAt (s ++ "," ++ t) ',' = splitAt s ',' ++ splitAt t ',' := by
  have hlist : (s ++ "," ++ t).toList = s.toList ++ ',' :: t.toList := by simp
  rw [splitAt, hlist, List.splitOn_append_cons_self, List.map_append]
  rfl

/-- A part of texts joined by commas is a part of one of them. -/
theorem mem_split_join {part : String} {parts : List String} (hne : parts ≠ [])
    (h : part ∈ splitAt (joinBy "," parts) ',') : ∃ s ∈ parts, part ∈ splitAt s ',' := by
  induction parts with
  | nil => exact absurd rfl hne
  | cons s parts ih =>
    by_cases hlast : parts = []
    · subst hlast
      rw [joinBy_singleton] at h
      exact ⟨s, List.mem_singleton_self s, h⟩
    · rw [joinBy_cons "," s hlast, splitAt_append] at h
      rcases List.mem_append.mp h with h | h
      · exact ⟨s, List.mem_cons_self .., h⟩
      · obtain ⟨u, hu, hw⟩ := ih hlast h
        exact ⟨u, List.mem_cons_of_mem s hu, hw⟩

end A2ARegistry.Base
