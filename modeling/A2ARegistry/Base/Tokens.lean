import A2ARegistry.Base.Loads

namespace A2ARegistry.Base.Json

/-- What may follow a value or a key: nothing, or a separator. -/
def Stops (rest : List Char) : Prop := ∀ c, rest.head? = some c → c ∈ [',', ':', ']', '}']

/-- A text that is read as `a`, whatever follows it; if not `good`, it is not read at all. -/
structure Token {α : Type} (read : Nat → List Char → Option (α × List Char)) (good : Prop) (a : α)
    (cs : List Char) : Prop where
  head : ∃ c rest, cs = c :: rest ∧ isBlank c = false ∧ c ≠ ']' ∧ c ≠ '}'
  reads : good → ∀ n rest, Stops rest → 2 * cs.length ≤ n → read n (cs ++ rest) = some (a, rest)
  only : ∀ n rest r, Stops rest → read n (cs ++ rest) = some r → good ∧ r = (a, rest)

section

variable {p : Python} {good : Prop} {v : Json} {cs : List Char}

theorem stops_nil : Stops [] := by simp [Stops]

theorem stops_cons {c : Char} {rest : List Char} (h : c ∈ [',', ':', ']', '}']) : Stops (c :: rest) := by
  intro d hd
  cases hd
  exact h

theorem skip_cons {c : Char} (h : isBlank c = false) (rest : List Char) : skip (c :: rest) = c :: rest :=
  List.dropWhile_cons_of_neg (by simp [h])

theorem Token.skips {α : Type} {read : Nat → List Char → Option (α × List Char)} {a : α}
    (h : Token read good a cs) (rest : List Char) : skip (cs ++ rest) = cs ++ rest := by
  obtain ⟨c, more, rfl, hblank, _⟩ := h.head
  exact skip_cons hblank (more ++ rest)

/-- A text that is a word, or a number, or neither. -/
theorem Token.of_word {c : Char} {more : List Char} (hcs : cs = c :: more)
    (hc : isBlank c = false ∧ c ∉ [']', '}', '"', '[', '{'])
    (h : ∀ rest, Stops rest → (good → scanWord p (cs ++ rest) = some (v, rest)) ∧
      (¬ good → scanWord p (cs ++ rest) = none)) : Token (scan p) good v cs := by
  obtain ⟨hblank, hc⟩ := hc
  simp only [List.mem_cons, List.not_mem_nil, or_false, not_or] at hc
  have hword : ∀ n rest, scan p (n + 1) (cs ++ rest) = scanWord p (cs ++ rest) := by
    intro n rest
    refine scan_word p n fun d hd => ?_
    rw [hcs] at hd
    cases hd
    simp [hc]
  refine ⟨⟨c, more, hcs, hblank, hc.1, hc.2.1⟩, fun hg n rest hs hn => ?_, fun n rest r hs hr => ?_⟩
  · cases n with
    | zero => simp [hcs] at hn
    | succ n => rw [hword, (h rest hs).1 hg]
  · cases n with
    | zero => cases hr
    | succ n =>
      rw [hword] at hr
      by_cases hg : good
      · rw [(h rest hs).1 hg] at hr
        cases hr
        exact ⟨hg, rfl⟩
      · rw [(h rest hs).2 hg] at hr
        cases hr

/-- A whole text is read as what its token is read as. -/
theorem Token.loads (h : Token (scan p) good v cs) (w : Json) :
    loads p (String.ofList cs) = some w ↔ good ∧ w = v := by
  have hskip : skip cs = cs := by simpa using h.skips []
  have hscan : ∀ r, scan p (2 * cs.length) cs = some r ↔ good ∧ r = (v, []) := by
    intro r
    constructor
    · intro hr
      exact h.only _ [] r stops_nil (by simpa using hr)
    · rintro ⟨hg, rfl⟩
      simpa using h.reads hg _ [] stops_nil (Nat.le_refl _)
  have hrest : skip [] = [] := rfl
  unfold Json.loads
  rw [String.length_ofList, String.toList_ofList, hskip]
  cases hs : scan p (2 * cs.length) cs with
  | none =>
    constructor
    · intro h
      cases h
    · rintro ⟨hg, _⟩
      have := (hscan (v, [])).mpr ⟨hg, rfl⟩
      rw [hs] at this
      cases this
  | some r =>
    obtain ⟨hg, rfl⟩ := (hscan r).mp hs
    simp only [hrest, if_true, Option.some.injEq, hg, true_and, eq_comm]

end

section Texts

/-- What is written for a character: it is read as the character, or not at all. -/
structure CharToken (good : Prop) (c : Char) (cs : List Char) : Prop where
  head : ∃ d rest, cs = d :: rest ∧ d ≠ '"'
  reads : good → ∀ more, scanChar (cs ++ more) = some (c, more)
  fails : ¬ good → ∀ more, scanChar (cs ++ more) = none

variable {p : Python} {good : Char → Prop} {f : Char → List Char} {s : List Char}

theorem CharToken.scanText {good : Prop} {c : Char} {cs : List Char} (h : CharToken good c cs) (n : Nat)
    (more : List Char) : scanText (n + 1) (cs ++ more) =
      (scanChar (cs ++ more)).bind (fun (c, more) => (Json.scanText n more).map (fun r => (c :: r.1, r.2))) := by
  obtain ⟨d, rest, hcs, hd⟩ := h.head
  refine scanText_char n fun rest' he => hd ?_
  rw [hcs] at he
  exact (List.cons.inj he).1

theorem scanText_reads (h : ∀ c ∈ s, CharToken (good c) c (f c)) (hg : ∀ c ∈ s, good c) {n : Nat}
    (hn : s.length < n) (rest : List Char) : scanText n (s.flatMap f ++ '"' :: rest) = some (s, rest) := by
  induction s generalizing n with
  | nil =>
    cases n with
    | zero => simp at hn
    | succ n => rfl
  | cons c s ih =>
    cases n with
    | zero => simp at hn
    | succ n =>
      have hc := h c (by simp)
      have hs := ih (fun d hd => h d (by simp [hd])) (fun d hd => hg d (by simp [hd]))
        (n := n) (by simpa using hn)
      rw [List.flatMap_cons, List.append_assoc, hc.scanText, hc.reads (hg c (by simp))]
      simp only [Option.bind_some, hs, Option.map_some]

theorem scanText_only (h : ∀ c ∈ s, CharToken (good c) c (f c)) {n : Nat} {rest : List Char}
    {r : List Char × List Char} (hr : scanText n (s.flatMap f ++ '"' :: rest) = some r) :
    (∀ c ∈ s, good c) ∧ r = (s, rest) := by
  induction s generalizing n r with
  | nil =>
    cases n with
    | zero => cases hr
    | succ n =>
      cases hr
      exact ⟨by simp, rfl⟩
  | cons c s ih =>
    cases n with
    | zero => cases hr
    | succ n =>
      have hc := h c (by simp)
      rw [List.flatMap_cons, List.append_assoc, hc.scanText] at hr
      by_cases hg : good c
      · rw [hc.reads hg] at hr
        obtain ⟨t, ht, rfl⟩ := Option.map_eq_some_iff.mp hr
        obtain ⟨hs, rfl⟩ := ih (fun d hd => h d (by simp [hd])) ht
        exact ⟨List.forall_mem_cons.mpr ⟨hg, hs⟩, rfl⟩
      · rw [hc.fails hg] at hr
        cases hr

theorem length_le_flatMap (h : ∀ c ∈ s, CharToken (good c) c (f c)) : s.length ≤ (s.flatMap f).length := by
  induction s with
  | nil => simp
  | cons c s ih =>
    obtain ⟨d, rest, hc, _⟩ := (h c (by simp)).head
    have := ih (fun d hd => h d (by simp [hd]))
    rw [List.flatMap_cons, hc]
    simp only [List.length_cons, List.length_append]
    omega

/-- A text between double quotes. -/
theorem Token.of_text {t : String} (h : ∀ c ∈ t.toList, CharToken (good c) c (f c)) :
    Token (scan p) (∀ c ∈ t.toList, good c) (.str t) ('"' :: (t.toList.flatMap f ++ ['"'])) := by
  have hlen := length_le_flatMap h
  refine ⟨⟨'"', _, rfl, rfl, by decide, by decide⟩, fun hg n rest hs hn => ?_, fun n rest r hs hr => ?_⟩
  · cases n with
    | zero => simp at hn
    | succ n =>
      simp only [List.length_cons, List.length_append, List.length_nil] at hn
      have hread := scanText_reads h hg (n := n) (by omega) rest
      simp only [List.cons_append, List.append_assoc, List.nil_append, scan_quote, hread, Option.map_some,
        String.ofList_toList]
  · cases n with
    | zero => cases hr
    | succ n =>
      simp only [List.cons_append, List.append_assoc, List.nil_append, scan_quote] at hr
      obtain ⟨t', ht, rfl⟩ := Option.map_eq_some_iff.mp hr
      obtain ⟨hg, rfl⟩ := scanText_only h ht
      exact ⟨hg, by rw [String.ofList_toList]⟩

end Texts

section Numbers

variable {p : Python} {cs rest : List Char}

theorem stops_not (hs : Stops rest) {P : Char → Prop} (h : ∀ c ∈ [',', ':', ']', '}'], ¬ P c) :
    ∀ c more, rest = c :: more → ¬ P c := by
  rintro c more rfl
  exact h c (hs c rfl)

theorem stops_not_digit (hs : Stops rest) : rest.takeWhile Char.isDigit = [] ∧
    rest.dropWhile Char.isDigit = rest := by
  cases rest with
  | nil => exact ⟨rfl, rfl⟩
  | cons c more =>
    have hc : ¬ c.isDigit = true := stops_not hs (P := fun c => c.isDigit = true) (by simp) c more rfl
    exact ⟨List.takeWhile_cons_of_neg hc, List.dropWhile_cons_of_neg hc⟩

theorem digits_append (hs : Stops rest) (cs : List Char) :
    (cs ++ rest).takeWhile Char.isDigit = cs.takeWhile Char.isDigit ∧
      (cs ++ rest).dropWhile Char.isDigit = cs.dropWhile Char.isDigit ++ rest := by
  induction cs with
  | nil => exact stops_not_digit hs
  | cons c cs ih =>
    by_cases hc : c.isDigit = true
    · simp [hc, ih]
    · simp [hc]

theorem scanSign_other (h : ∀ more, cs ≠ '-' :: more) : scanSign cs = ([], cs) := by
  unfold scanSign
  split
  · rename_i more
    exact absurd rfl (h more)
  · rfl

theorem scanWhole_other (h : ∀ more, cs ≠ '0' :: more) : scanWhole cs =
    if (cs.takeWhile Char.isDigit).isEmpty then none
    else some (cs.takeWhile Char.isDigit, cs.dropWhile Char.isDigit) := by
  unfold scanWhole
  split
  · rename_i more
    exact absurd rfl (h more)
  · rfl

theorem scanFraction_other (h : ∀ more, cs ≠ '.' :: more) : scanFraction cs = ([], cs) := by
  unfold scanFraction
  split
  · rename_i more
    exact absurd rfl (h more)
  · rfl

theorem scanExponentSign_other (hm : ∀ more, cs ≠ '-' :: more) (hp : ∀ more, cs ≠ '+' :: more) :
    scanExponentSign cs = ([], cs) := by
  unfold scanExponentSign
  split
  · rename_i more
    exact absurd rfl (hm more)
  · rename_i more
    exact absurd rfl (hp more)
  · rfl

/-- What stops a value begins with no character of a number. -/
theorem stops_ne (hs : Stops rest) {d : Char} (h : d ∉ [',', ':', ']', '}']) :
    ∀ more, rest ≠ d :: more := by
  rintro more rfl
  exact h (hs d rfl)

theorem cons_ne {c d : Char} {more : List Char} (h : c ≠ d) : ∀ more', c :: more ≠ d :: more' :=
  fun _ he => h (List.cons.inj he).1

theorem scanSign_append (hs : Stops rest) (cs : List Char) :
    scanSign (cs ++ rest) = ((scanSign cs).1, (scanSign cs).2 ++ rest) := by
  cases cs with
  | nil => exact scanSign_other (stops_ne hs (by decide))
  | cons c cs =>
    by_cases hc : c = '-'
    · subst hc
      rfl
    · rw [List.cons_append, scanSign_other (cons_ne hc), scanSign_other (cons_ne hc)]
      rfl

theorem scanWhole_append (hs : Stops rest) (cs : List Char) :
    scanWhole (cs ++ rest) = (scanWhole cs).map (fun r => (r.1, r.2 ++ rest)) := by
  have hother : (∀ more, cs ≠ '0' :: more) → (∀ more, cs ++ rest ≠ '0' :: more) →
      scanWhole (cs ++ rest) = (scanWhole cs).map (fun r => (r.1, r.2 ++ rest)) := by
    intro h h'
    obtain ⟨htake, hdrop⟩ := digits_append hs cs
    rw [scanWhole_other h, scanWhole_other h', htake, hdrop]
    split <;> rfl
  cases cs with
  | nil => exact hother (by simp) (stops_ne hs (by decide))
  | cons c cs =>
    by_cases hc : c = '0'
    · subst hc
      rfl
    · exact hother (cons_ne hc) (cons_ne hc)

theorem scanFraction_append (hs : Stops rest) (cs : List Char) :
    scanFraction (cs ++ rest) = ((scanFraction cs).1, (scanFraction cs).2 ++ rest) := by
  cases cs with
  | nil => exact scanFraction_other (stops_ne hs (by decide))
  | cons c cs =>
    by_cases hc : c = '.'
    · subst hc
      obtain ⟨htake, hdrop⟩ := digits_append hs cs
      simp only [List.cons_append, scanFraction, htake, hdrop]
      split <;> rfl
    · rw [List.cons_append, scanFraction_other (cons_ne hc), scanFraction_other (cons_ne hc)]
      rfl

theorem scanExponentSign_append (hs : Stops rest) (cs : List Char) :
    scanExponentSign (cs ++ rest) = ((scanExponentSign cs).1, (scanExponentSign cs).2 ++ rest) := by
  cases cs with
  | nil => exact scanExponentSign_other (stops_ne hs (by decide)) (stops_ne hs (by decide))
  | cons c cs =>
    by_cases hm : c = '-'
    · subst hm
      rfl
    · by_cases hp : c = '+'
      · subst hp
        rfl
      · rw [List.cons_append, scanExponentSign_other (cons_ne hm) (cons_ne hp),
          scanExponentSign_other (cons_ne hm) (cons_ne hp)]
        rfl

theorem scanExponent_append (hs : Stops rest) (cs : List Char) :
    scanExponent (cs ++ rest) = ((scanExponent cs).1, (scanExponent cs).2 ++ rest) := by
  cases cs with
  | nil =>
    cases rest with
    | nil => rfl
    | cons c more =>
      have hc : ¬ (c = 'e' ∨ c = 'E') :=
        stops_not hs (P := fun c => c = 'e' ∨ c = 'E') (by simp) c more rfl
      simp [scanExponent, hc]
  | cons c cs =>
    have hsign := scanExponentSign_append hs cs
    obtain ⟨htake, hdrop⟩ := digits_append hs (scanExponentSign cs).2
    simp only [List.cons_append, scanExponent, hsign, htake, hdrop]
    split <;> rfl

/-- A number ends where a separator begins. -/
theorem scanNumber_append (hs : Stops rest) (cs : List Char) : scanNumber p (cs ++ rest) =
    (scanNumber p cs).map (fun r => (r.1, r.2 ++ rest)) := by
  simp only [scanNumber, scanSign_append hs, scanWhole_append hs, Option.bind_eq_bind]
  cases scanWhole (scanSign cs).2 with
  | none => rfl
  | some w => simp only [Option.map_some, Option.bind_some, scanFraction_append hs,
      scanExponent_append hs, Option.pure_def]

theorem scanWhole_digit {r : List Char × List Char} (h : scanWhole cs = some r) :
    ∃ c more, cs = c :: more ∧ c.isDigit = true := by
  cases cs with
  | nil => cases h
  | cons c more =>
    refine ⟨c, more, rfl, ?_⟩
    by_cases hc : c = '0'
    · rw [hc]
      rfl
    · rw [scanWhole_other (cons_ne hc)] at h
      cases hd : c.isDigit with
      | true => rfl
      | false => simp [hd] at h

theorem digit_ne {c d : Char} (h : c.isDigit = true) (hd : d.isDigit = false) : d ≠ c := by
  rintro rfl
  rw [hd] at h
  cases h

theorem scanWord_number (h : ∀ w ∈ constants, w.1.isPrefixOf cs = false) :
    scanWord p cs = scanNumber p cs := by
  have hfind : constants.find? (fun w => w.1.isPrefixOf cs) = none :=
    List.find?_eq_none.mpr fun w hw => by simp [h w hw]
  rw [scanWord, hfind]

/-- A number begins with a digit, or with a sign and a digit, as no word does. -/
theorem scanNumber_head {r : Json × List Char} (h : scanNumber p cs = some r) :
    ∃ d more, d.isDigit = true ∧ (cs = d :: more ∨ cs = '-' :: d :: more) := by
  simp only [scanNumber, Option.bind_eq_bind, Option.bind_eq_some_iff] at h
  obtain ⟨w, hw, _⟩ := h
  obtain ⟨d, more, hcs, hd⟩ := scanWhole_digit hw
  refine ⟨d, more, hd, ?_⟩
  by_cases hm : ∃ more, cs = '-' :: more
  · obtain ⟨more', rfl⟩ := hm
    exact Or.inr (congrArg (List.cons '-') hcs)
  · rw [scanSign_other fun more' he => hm ⟨more', he⟩] at hcs
    exact Or.inl hcs

theorem scanNumber_word {r : Json × List Char} (h : scanNumber p cs = some r) :
    (∃ c more, cs = c :: more ∧ isBlank c = false ∧ c ∉ [']', '}', '"', '[', '{']) ∧
      scanWord p cs = scanNumber p cs := by
  obtain ⟨d, more, hd, hcs⟩ := scanNumber_head h
  have hne : ∀ c, c.isDigit = false → (c == d) = false := fun c hc => by simp [digit_ne hd hc]
  rcases hcs with rfl | rfl
  · refine ⟨⟨d, more, rfl, ?_, ?_⟩, scanWord_number fun w hw => ?_⟩
    · simp [isBlank, beq_eq_false_iff_ne, (digit_ne hd (d := ' ') rfl).symm, (digit_ne hd (d := '\t') rfl).symm,
        (digit_ne hd (d := '\n') rfl).symm, (digit_ne hd (d := '\r') rfl).symm]
    · intro hmem
      have hall : ∀ c ∈ [']', '}', '"', '[', '{'], c.isDigit = false := by simp
      exact digit_ne hd (hall d hmem) rfl
    · simp only [constants, List.mem_cons, List.not_mem_nil, or_false] at hw
      rcases hw with rfl | rfl | rfl | rfl | rfl | rfl
      all_goals simp [List.isPrefixOf, hne]
  · refine ⟨⟨'-', d :: more, rfl, rfl, by decide⟩, scanWord_number fun w hw => ?_⟩
    simp only [constants, List.mem_cons, List.not_mem_nil, or_false] at hw
    rcases hw with rfl | rfl | rfl | rfl | rfl | rfl
    all_goals simp [List.isPrefixOf, hne]

/-- A text that is a whole number. -/
theorem Token.of_number {v : Json} (h : scanNumber p cs = some (v, [])) : Token (scan p) True v cs := by
  obtain ⟨⟨c, more, hcs, hc⟩, _⟩ := scanNumber_word h
  refine Token.of_word hcs hc fun rest hs => ⟨fun _ => ?_, fun hf => absurd trivial hf⟩
  have happ := scanNumber_append (p := p) hs cs
  rw [h, Option.map_some, List.nil_append] at happ
  rw [(scanNumber_word happ).2, happ]

theorem toDigits_head {n : Nat} (hn : 0 < n) (more : List Char) : Nat.toDigits 10 n ≠ '0' :: more := by
  induction n using Nat.strongRecOn generalizing more with
  | _ n ih =>
    rw [Nat.toDigits_eq_if (by decide)]
    split
    · intro he
      have := (List.cons.inj he).1
      simp at this
      omega
    · intro he
      cases hd : Nat.toDigits 10 (n / 10) with
      | nil => exact Nat.toDigits_ne_nil hd
      | cons c cs =>
        rw [hd, List.cons_append] at he
        rw [(List.cons.inj he).1] at hd
        exact ih (n / 10) (by omega) (by omega) cs hd

theorem digits_all (h : ∀ c ∈ cs, c.isDigit = true) :
    cs.takeWhile Char.isDigit = cs ∧ cs.dropWhile Char.isDigit = [] := by
  induction cs with
  | nil => exact ⟨rfl, rfl⟩
  | cons c cs ih =>
    obtain ⟨htake, hdrop⟩ := ih fun d hd => h d (by simp [hd])
    simp [h c (by simp), htake, hdrop]

theorem scanWhole_toDigits (n : Nat) : scanWhole (Nat.toDigits 10 n) = some (Nat.toDigits 10 n, []) := by
  by_cases hn : n = 0
  · rw [hn, Nat.toDigits_zero]
    rfl
  · have hall : ∀ c ∈ Nat.toDigits 10 n, c.isDigit = true := fun c hc =>
      Nat.isDigit_of_mem_toDigits (by decide) (by decide) hc
    obtain ⟨htake, hdrop⟩ := digits_all hall
    rw [scanWhole_other (toDigits_head (by omega)), htake, hdrop, if_neg (by simp)]

theorem scanNumber_whole {sign ds : List Char} (hs : scanSign cs = (sign, ds))
    (hw : scanWhole ds = some (ds, [])) : scanNumber p cs = some (numberValue p sign ds [] [], []) := by
  rw [scanNumber, hs]
  simp only [hw, Option.bind_eq_bind, Option.bind_some]
  rfl

theorem scanNumber_int (p : Python) (n : Int) : scanNumber p (toString n).toList = some (.int n, []) := by
  have hvalue : ∀ n, Nat.ofDigitChars 10 (Nat.toDigits 10 n) 0 = n := fun n =>
    Nat.ofDigitChars_toDigits (by decide) (by decide)
  cases n with
  | ofNat m =>
    have htext : (toString (Int.ofNat m)).toList = Nat.toDigits 10 m := Nat.toList_repr
    have hsign : scanSign (Nat.toDigits 10 m) = ([], Nat.toDigits 10 m) := by
      refine scanSign_other fun more he => ?_
      have hdigit : Char.isDigit '-' = true :=
        Nat.isDigit_of_mem_toDigits (b := 10) (n := m) (by decide) (by decide) (by simp [he])
      cases hdigit
    rw [htext, scanNumber_whole hsign (scanWhole_toDigits m)]
    simp [numberValue, hvalue]
  | negSucc m =>
    have htext : (toString (Int.negSucc m)).toList = '-' :: Nat.toDigits 10 (m + 1) := by
      have hrepr : toString (Int.negSucc m) = "-" ++ (m + 1).repr := rfl
      rw [hrepr, String.toList_append, Nat.toList_repr]
      rfl
    have hsign : scanSign ('-' :: Nat.toDigits 10 (m + 1)) = (['-'], Nat.toDigits 10 (m + 1)) := rfl
    rw [htext, scanNumber_whole hsign (scanWhole_toDigits (m + 1))]
    simp only [numberValue, and_self, if_true, hvalue, reduceCtorEq, if_false]
    rfl

end Numbers

section Lists

/-- What may stand behind a separator: nothing that is read. -/
def Gap (gap : List Char) : Prop := ∀ more, skip (gap ++ more) = skip more

theorem gap_nil : Gap [] := fun _ => rfl

theorem gap_blank : Gap [' '] := fun _ => rfl

/-- The texts of elements, with a comma and a gap between them. -/
def join (gap : List Char) : List (List Char) → List Char
  | [] => []
  | [cs] => cs
  | cs :: css => cs ++ ',' :: (gap ++ join gap css)

variable {α : Type} {gap : List Char} {close : Char} {element : Nat → List Char → Option (α × List Char)}
  {elements : Nat → List Char → Option (List α × List Char)} {good : α → Prop} {text : α → List Char}
  {as : List α}

theorem scanRest_close (hc : isBlank close = false) (f : List Char → Option (List α × List Char)) (a : α)
    (rest : List Char) : scanRest close f a (close :: rest) = some ([a], rest) := by
  simp only [scanRest, skip_cons hc, if_true]

theorem scanRest_comma (hc : ',' ≠ close) (f : List Char → Option (List α × List Char)) (a : α)
    (hgap : Gap gap) {more : List Char} (hskip : skip more = more) :
    scanRest close f a (',' :: (gap ++ more)) = (f more).map (fun r => (a :: r.1, r.2)) := by
  have hblank : skip (gap ++ more) = more := (hgap more).trans hskip
  simp only [scanRest, skip_cons (c := ',') rfl, hc, if_false, if_true, hblank]

/-- A reader of elements, by the reader of one. -/
structure Elements (close : Char) (element : Nat → List Char → Option (α × List Char))
    (elements : Nat → List Char → Option (List α × List Char)) : Prop where
  bracket : close = ']' ∨ close = '}'
  zero : ∀ cs, elements 0 cs = none
  succ : ∀ n cs, elements (n + 1) cs =
    (element n cs).bind (fun r => scanRest close (elements n) r.1 r.2)

theorem Elements.close_facts (he : Elements close element elements) :
    isBlank close = false ∧ ',' ≠ close ∧ ∀ rest, Stops (close :: rest) := by
  rcases he.bracket with rfl | rfl
  · exact ⟨rfl, by decide, fun rest => stops_cons (by decide)⟩
  · exact ⟨rfl, by decide, fun rest => stops_cons (by decide)⟩

theorem join_append (gap : List Char) (text : α → List Char) (a b : α) (as : List α) (rest : List Char) :
    join gap ((a :: b :: as).map text) ++ rest =
      text a ++ ',' :: (gap ++ (join gap ((b :: as).map text) ++ rest)) := by
  have hcons : join gap ((a :: b :: as).map text) =
      text a ++ ',' :: (gap ++ join gap ((b :: as).map text)) := rfl
  rw [hcons, List.append_assoc, List.cons_append, List.append_assoc]

theorem join_head (gap : List Char) (h : ∀ a ∈ as, Token element (good a) a (text a)) (hne : as ≠ []) :
    ∃ c rest, join gap (as.map text) = c :: rest ∧ isBlank c = false ∧ c ≠ ']' ∧ c ≠ '}' := by
  cases as with
  | nil => exact absurd rfl hne
  | cons a as =>
    obtain ⟨c, more, hcs, hc⟩ := (h a (by simp)).head
    cases as with
    | nil => exact ⟨c, more, hcs, hc⟩
    | cons b as =>
      have happ := join_append gap text a b as []
      rw [hcs, List.append_nil] at happ
      exact ⟨c, _, happ, hc⟩

theorem join_skips (h : ∀ a ∈ as, Token element (good a) a (text a)) (hne : as ≠ []) (rest : List Char) :
    skip (join gap (as.map text) ++ rest) = join gap (as.map text) ++ rest := by
  obtain ⟨c, more, hhead, hc, _⟩ := join_head gap h hne
  rw [hhead]
  exact skip_cons hc _

theorem elements_reads (he : Elements close element elements) (hgap : Gap gap)
    (h : ∀ a ∈ as, Token element (good a) a (text a)) (hg : ∀ a ∈ as, good a) (hne : as ≠ []) (n : Nat)
    (rest : List Char) (hn : 2 * (join gap (as.map text)).length + 1 ≤ n) :
    elements n (join gap (as.map text) ++ close :: rest) = some (as, rest) := by
  obtain ⟨hblank, hcomma, hstops⟩ := he.close_facts
  induction as generalizing n with
  | nil => exact absurd rfl hne
  | cons a as ih =>
    cases n with
    | zero => omega
    | succ n =>
      have ha := h a (by simp)
      have hga := hg a (by simp)
      cases as with
      | nil =>
        simp only [List.map_cons, List.map_nil, join] at hn ⊢
        rw [he.succ, ha.reads hga n _ (hstops rest) (by omega), Option.bind_some, scanRest_close hblank]
      | cons b as =>
        simp only [List.map_cons, join, List.length_append, List.length_cons] at hn
        have htail : ∀ c ∈ b :: as, Token element (good c) c (text c) := fun c hc =>
          h c (List.mem_cons_of_mem a hc)
        have hrest := ih htail (fun c hc => hg c (List.mem_cons_of_mem a hc)) (by simp) n
          (by simp only [List.map_cons]; omega)
        rw [join_append, he.succ, ha.reads hga n _ (stops_cons (by decide)) (by omega), Option.bind_some,
          scanRest_comma hcomma _ _ hgap (join_skips htail (by simp) _), hrest, Option.map_some]

theorem elements_only (he : Elements close element elements) (hgap : Gap gap)
    (h : ∀ a ∈ as, Token element (good a) a (text a)) (hne : as ≠ []) (n : Nat)
    (rest : List Char) {r : List α × List Char}
    (hr : elements n (join gap (as.map text) ++ close :: rest) = some r) :
    (∀ a ∈ as, good a) ∧ r = (as, rest) := by
  obtain ⟨hblank, hcomma, hstops⟩ := he.close_facts
  induction as generalizing n r with
  | nil => exact absurd rfl hne
  | cons a as ih =>
    cases n with
    | zero =>
      rw [he.zero] at hr
      cases hr
    | succ n =>
      have ha := h a (by simp)
      cases as with
      | nil =>
        simp only [List.map_cons, List.map_nil, join, he.succ] at hr
        obtain ⟨t, ht, hr⟩ := Option.bind_eq_some_iff.mp hr
        obtain ⟨hga, rfl⟩ := ha.only n _ t (hstops rest) ht
        rw [scanRest_close hblank] at hr
        cases hr
        exact ⟨by simpa using hga, rfl⟩
      | cons b as =>
        have htail : ∀ c ∈ b :: as, Token element (good c) c (text c) := fun c hc =>
          h c (List.mem_cons_of_mem a hc)
        rw [join_append, he.succ] at hr
        obtain ⟨t, ht, hr⟩ := Option.bind_eq_some_iff.mp hr
        obtain ⟨hga, rfl⟩ := ha.only n _ t (stops_cons (by decide)) ht
        rw [scanRest_comma hcomma _ _ hgap (join_skips htail (by simp) _)] at hr
        obtain ⟨u, hu, rfl⟩ := Option.map_eq_some_iff.mp hr
        obtain ⟨hg, rfl⟩ := ih htail (by simp) n hu
        exact ⟨List.forall_mem_cons.mpr ⟨hga, hg⟩, rfl⟩

/-- Between brackets stand the elements, if any. -/
theorem scanInside_nil (he : Elements close element elements) (n : Nat) (rest : List Char) :
    scanInside close (elements n) (close :: rest) = some ([], rest) := by
  simp only [scanInside, skip_cons he.close_facts.1, if_true]

theorem scanInside_elements (he : Elements close element elements)
    (h : ∀ a ∈ as, Token element (good a) a (text a)) (hne : as ≠ []) (n : Nat) (rest : List Char) :
    scanInside close (elements n) (join gap (as.map text) ++ rest) = elements n (join gap (as.map text) ++ rest) := by
  obtain ⟨c, more, hhead, hblank, hbracket, hbrace⟩ := join_head gap h hne
  have hc : c ≠ close := by
    rcases he.bracket with rfl | rfl
    · exact hbracket
    · exact hbrace
  rw [scanInside, hhead, List.cons_append, skip_cons hblank]
  simp only [hc, if_false]

theorem inside_reads (he : Elements close element elements) (hgap : Gap gap)
    (h : ∀ a ∈ as, Token element (good a) a (text a)) (hg : ∀ a ∈ as, good a) (n : Nat)
    (rest : List Char) (hn : 2 * (join gap (as.map text)).length + 1 ≤ n) :
    scanInside close (elements n) (join gap (as.map text) ++ close :: rest) = some (as, rest) := by
  by_cases hne : as = []
  · rw [hne]
    exact scanInside_nil he n rest
  · rw [scanInside_elements he h hne]
    exact elements_reads he hgap h hg hne n rest hn

theorem inside_only (he : Elements close element elements) (hgap : Gap gap)
    (h : ∀ a ∈ as, Token element (good a) a (text a)) (n : Nat) (rest : List Char)
    {r : List α × List Char} (hr : scanInside close (elements n) (join gap (as.map text) ++ close :: rest) = some r) :
    (∀ a ∈ as, good a) ∧ r = (as, rest) := by
  by_cases hne : as = []
  · subst hne
    have hnil := hr.symm.trans (scanInside_nil he n rest)
    cases hnil
    exact ⟨by simp, rfl⟩
  · rw [scanInside_elements he h hne] at hr
    exact elements_only he hgap h hne n rest hr

end Lists

section Values

variable {p : Python} {v : Json}

theorem items_elements (p : Python) : Elements ']' (scan p) (scanItems p) :=
  ⟨Or.inl rfl, fun _ => rfl, fun _ _ => rfl⟩

theorem fields_elements (p : Python) :
    Elements '}' (fun n => scanField n (scan p n)) (scanFields p) :=
  ⟨Or.inr rfl, fun _ => rfl, fun _ _ => rfl⟩

/-- An array of tokens. -/
theorem Token.of_items {gap : List Char} (hgap : Gap gap) {good : Json → Prop} {text : Json → List Char}
    {items : List Json} (h : ∀ v ∈ items, Token (scan p) (good v) v (text v)) :
    Token (scan p) (∀ v ∈ items, good v) (.arr items) ('[' :: (join gap (items.map text) ++ [']'])) := by
  refine ⟨⟨'[', _, rfl, rfl, by decide, by decide⟩, fun hg n rest hs hn => ?_, fun n rest r hs hr => ?_⟩
  · cases n with
    | zero => simp at hn
    | succ n =>
      simp only [List.length_cons, List.length_append, List.length_nil] at hn
      have hread := inside_reads (items_elements p) hgap h hg n rest (by omega)
      simp only [List.cons_append, List.append_assoc, List.nil_append, scan_bracket, hread, Option.map_some]
  · cases n with
    | zero => cases hr
    | succ n =>
      simp only [List.cons_append, List.append_assoc, List.nil_append, scan_bracket] at hr
      obtain ⟨t, ht, rfl⟩ := Option.map_eq_some_iff.mp hr
      obtain ⟨hg, rfl⟩ := inside_only (items_elements p) hgap h n rest ht
      exact ⟨hg, rfl⟩

/-- A key is read as the text it is. -/
theorem scanKey_iff (p : Python) (n : Nat) (cs : List Char) (k : String) (rest : List Char) :
    scan p (n + 1) cs = some (.str k, rest) ↔ scanKey n cs = some (k, rest) := by
  have hother : (∀ more, cs ≠ '"' :: more) → scanKey n cs = none := by
    intro h
    unfold scanKey
    split
    · rename_i more
      exact absurd rfl (h more)
    · rfl
  rcases head_cases cs with ⟨more, rfl⟩ | ⟨more, rfl⟩ | ⟨more, rfl⟩ | hw
  · rw [scan_quote, scanKey]
    simp only [Option.map_eq_some_iff, Prod.mk.injEq, Json.str.injEq]
  · rw [hother (cons_ne (by decide)), scan_bracket]
    simp
  · rw [hother (cons_ne (by decide)), scan_brace]
    simp
  · have hne : ∀ more, cs ≠ '"' :: more := by
      rintro more rfl
      exact hw '"' rfl (by decide)
    rw [hother hne, scan_word p n hw]
    simp [scanWord_ne_str]

theorem Token.of_key {good : Prop} {k : String} {cs : List Char} (h : Token (scan p) good (.str k) cs) :
    Token scanKey good k cs := by
  refine ⟨h.head, fun hg n rest hs hn => ?_, fun n rest r hs hr => ?_⟩
  · exact (scanKey_iff p n _ k rest).mp (h.reads hg (n + 1) rest hs (by omega))
  · obtain ⟨hg, he⟩ := h.only (n + 1) rest (.str r.1, r.2) hs ((scanKey_iff p n _ r.1 r.2).mpr hr)
    cases r
    cases he
    exact ⟨hg, rfl⟩

/-- A key and a value. -/
theorem Token.of_field {gap : List Char} (hgap : Gap gap) {goodKey goodValue : Prop} {k : String}
    {cs ds : List Char} (hk : Token scanKey goodKey k cs) (hv : Token (scan p) goodValue v ds) :
    Token (fun n => scanField n (scan p n)) (goodKey ∧ goodValue) (k, v) (cs ++ ':' :: (gap ++ ds)) := by
  obtain ⟨c, more, hcs, hc⟩ := hk.head
  have hcolon : ∀ rest, scanColon (':' :: (gap ++ ds) ++ rest) = some (ds ++ rest) := by
    intro rest
    have hblank : skip (gap ++ (ds ++ rest)) = ds ++ rest := (hgap _).trans (hv.skips rest)
    simp only [scanColon, List.cons_append, List.append_assoc, skip_cons (c := ':') rfl, hblank]
  have hstops : ∀ rest, Stops (':' :: (gap ++ ds) ++ rest) := fun rest => stops_cons (by decide)
  refine ⟨⟨c, more ++ ':' :: (gap ++ ds), by rw [hcs]; rfl, hc⟩, fun hg n rest hs hn => ?_,
    fun n rest r hs hr => ?_⟩
  · simp only [List.length_append, List.length_cons] at hn
    rw [List.append_assoc, scanField, hk.reads hg.1 n _ (hstops rest) (by omega), Option.bind_some]
    dsimp only
    rw [hcolon, Option.bind_some, hv.reads hg.2 n rest hs (by omega), Option.map_some]
  · rw [List.append_assoc] at hr
    obtain ⟨t, ht, hr⟩ := Option.bind_eq_some_iff.mp hr
    obtain ⟨hgk, rfl⟩ := hk.only n _ t (hstops rest) ht
    dsimp only at hr
    rw [hcolon, Option.bind_some] at hr
    obtain ⟨u, hu, rfl⟩ := Option.map_eq_some_iff.mp hr
    obtain ⟨hgv, rfl⟩ := hv.only n rest u hs hu
    exact ⟨⟨hgk, hgv⟩, rfl⟩

theorem putField_new {fields : List (String × Json)} {f : String × Json}
    (h : f.1 ∉ fields.map Prod.fst) : putField fields f = fields ++ [f] := by
  have hany : fields.any (fun g => g.1 == f.1) = false := by
    rw [List.any_eq_false]
    intro g hg he
    exact h (by rw [← beq_iff_eq.mp he]; exact List.mem_map_of_mem hg)
  rw [putField, hany]
  rfl

/-- Pairs with distinct keys are the dictionary they make. -/
theorem dict_of_nodup {fields : List (String × Json)} (h : (fields.map Prod.fst).Nodup) :
    dict fields = fields := by
  have hfold : ∀ done todo : List (String × Json), ((done ++ todo).map Prod.fst).Nodup →
      todo.foldl putField done = done ++ todo := by
    intro done todo
    induction todo generalizing done with
    | nil => simp
    | cons f todo ih =>
      intro hd
      have hnew : f.1 ∉ done.map Prod.fst := by
        intro hf
        rw [List.map_append, List.nodup_append] at hd
        exact hd.2.2 f.1 hf f.1 (by simp) rfl
      rw [List.foldl_cons, putField_new hnew, ih (done ++ [f]) (by simpa using hd), List.append_assoc]
      rfl
  exact hfold [] fields (by simpa using h)

/-- An object of tokens, with distinct keys. -/
theorem Token.of_fields {gap : List Char} (hgap : Gap gap) {good : String × Json → Prop}
    {text : String × Json → List Char} {fields : List (String × Json)} (hd : (fields.map Prod.fst).Nodup)
    (h : ∀ f ∈ fields, Token (fun n => scanField n (scan p n)) (good f) f (text f)) :
    Token (scan p) (∀ f ∈ fields, good f) (.obj fields) ('{' :: (join gap (fields.map text) ++ ['}'])) := by
  refine ⟨⟨'{', _, rfl, rfl, by decide, by decide⟩, fun hg n rest hs hn => ?_, fun n rest r hs hr => ?_⟩
  · cases n with
    | zero => simp at hn
    | succ n =>
      simp only [List.length_cons, List.length_append, List.length_nil] at hn
      have hread := inside_reads (fields_elements p) hgap h hg n rest (by omega)
      simp only [List.cons_append, List.append_assoc, List.nil_append, scan_brace, hread, Option.map_some,
        dict_of_nodup hd]
  · cases n with
    | zero => cases hr
    | succ n =>
      simp only [List.cons_append, List.append_assoc, List.nil_append, scan_brace] at hr
      obtain ⟨t, ht, rfl⟩ := Option.map_eq_some_iff.mp hr
      obtain ⟨hg, rfl⟩ := inside_only (fields_elements p) hgap h n rest ht
      exact ⟨hg, by rw [dict_of_nodup hd]⟩

end Values

end A2ARegistry.Base.Json
