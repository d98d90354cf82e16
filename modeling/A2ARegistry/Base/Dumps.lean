import A2ARegistry.Base.Loads

namespace A2ARegistry.Base.Json

/-- How the leaves of a value are written; lists and objects are written alike by `json.dumps`
and by `repr`. -/
structure Style where
  null : List Char
  bool : Bool → List Char
  float : String → List Char
  text : List Char → List Char

mutual

/-- The text of a value in a style. -/
def render (st : Style) : Json → List Char
  | .null => st.null
  | .bool b => st.bool b
  | .int n => (toString n).toList
  | .float r => st.float r
  | .str s => st.text s.toList
  | .arr items => '[' :: (renderItems st items ++ [']'])
  | .obj fields => '{' :: (renderFields st fields ++ ['}'])

def renderItems (st : Style) : List Json → List Char
  | [] => []
  | [v] => render st v
  | v :: vs => render st v ++ ',' :: ' ' :: renderItems st vs

def renderFields (st : Style) : List (String × Json) → List Char
  | [] => []
  | [(k, v)] => st.text k.toList ++ ':' :: ' ' :: render st v
  | (k, v) :: fs => st.text k.toList ++ ':' :: ' ' :: render st v ++ ',' :: ' ' :: renderFields st fs

end

/-- `n` in hex, to a number of digits. -/
def hexDigits : Nat → Nat → List Char
  | 0, _ => []
  | width + 1, n => hexDigits width (n / 16) ++ [Nat.digitChar (n % 16)]

section Dumps

/-- `'\\u{0:04x}'`. -/
def unicodeEscape (n : Nat) : List Char := '\\' :: 'u' :: hexDigits 4 n

/-- `ESCAPE_DCT`: the characters with a short escape, and its letter. -/
def escapeDct : List (Char × Char) :=
  [('\\', '\\'), ('"', '"'), ('\x08', 'b'), ('\x0c', 'f'), ('\n', 'n'), ('\r', 'r'), ('\t', 't')]

/-- A character in `py_encode_basestring_ascii`. -/
def dumpsChar (c : Char) : List Char :=
  match escapeDct.lookup c with
  | some letter => ['\\', letter]
  | none =>
    if ' ' ≤ c ∧ c ≤ '~' then [c]
    else if c.toNat < 0x10000 then unicodeEscape c.toNat
    else
      let n := c.toNat - 0x10000
      unicodeEscape (0xd800 + n / 0x400) ++ unicodeEscape (0xdc00 + n % 0x400)

/-- `floatstr`. -/
def dumpsFloat (r : String) : String :=
  if r = "nan" then "NaN" else if r = "inf" then "Infinity" else if r = "-inf" then "-Infinity" else r

def dumpsStyle : Style where
  null := "null".toList
  bool b := if b then "true".toList else "false".toList
  float r := (dumpsFloat r).toList
  text s := '"' :: (s.flatMap dumpsChar ++ ['"'])

/-- `json.dumps`. -/
def dumps (v : Json) : String := String.ofList (render dumpsStyle v)

/-- A character in `py_encode_basestring`. -/
def plainChar (c : Char) : List Char :=
  match escapeDct.lookup c with
  | some letter => ['\\', letter]
  | none => if c < ' ' then unicodeEscape c.toNat else [c]

def plainStyle : Style := { dumpsStyle with text := fun s => '"' :: (s.flatMap plainChar ++ ['"']) }

/-- `json.dumps` with `ensure_ascii=False`. -/
def dumpsPlain (v : Json) : String := String.ofList (render plainStyle v)

/-- A character `json.dumps` may put out. -/
def Printable (c : Char) : Prop := ' ' ≤ c ∧ c ≤ '~'

theorem hexDigits_printable (width n : Nat) : ∀ d ∈ hexDigits width n, Printable d := by
  have hdigit : ∀ k < 16, ' ' ≤ Nat.digitChar k ∧ Nat.digitChar k ≤ '~' := by decide
  induction width generalizing n with
  | zero => simp [hexDigits]
  | succ width ih =>
    intro d hd
    rcases List.mem_append.mp hd with hd | hd
    · exact ih (n / 16) d hd
    · rw [List.mem_singleton.mp hd]
      exact hdigit (n % 16) (Nat.mod_lt n (by decide))

theorem unicodeEscape_printable (n : Nat) : ∀ d ∈ unicodeEscape n, Printable d := by
  intro d hd
  rcases List.mem_cons.mp hd with rfl | hd
  · exact ⟨by decide, by decide⟩
  rcases List.mem_cons.mp hd with rfl | hd
  · exact ⟨by decide, by decide⟩
  · exact hexDigits_printable 4 n d hd

theorem dumpsChar_printable (c : Char) : ∀ d ∈ dumpsChar c, Printable d := by
  intro d hd
  unfold dumpsChar at hd
  split at hd
  · rename_i letter hletter
    have hall : ∀ e ∈ escapeDct, ' ' ≤ e.2 ∧ e.2 ≤ '~' := by decide
    have hmem : (c, letter) ∈ escapeDct := by
      obtain ⟨front, back, he, _⟩ := List.lookup_eq_some_iff.mp hletter
      simp [he]
    rcases List.mem_cons.mp hd with rfl | hd
    · exact ⟨by decide, by decide⟩
    · rw [List.mem_singleton.mp hd]
      exact hall _ hmem
  · split at hd
    · rename_i hself
      rw [List.mem_singleton.mp hd]
      exact hself
    · split at hd
      · exact unicodeEscape_printable _ d hd
      · rcases List.mem_append.mp hd with hd | hd
        · exact unicodeEscape_printable _ d hd
        · exact unicodeEscape_printable _ d hd

/-- A character that stands for itself. -/
theorem dumpsChar_self {c : Char} (hc : Printable c) (hquote : c ≠ '"') (hslash : c ≠ '\\') : dumpsChar c = [c] := by
  have hnone : escapeDct.lookup c = none := by
    apply List.lookup_eq_none_iff.mpr
    intro e he
    have hctrl : ∀ e ∈ escapeDct, e.1 = '"' ∨ e.1 = '\\' ∨ e.1 < ' ' := by decide
    rcases hctrl e he with hq | hs | hlt
    · simpa [hq] using hquote
    · simpa [hs] using hslash
    · have hne : c ≠ e.1 := fun hce => absurd hc.1 (by rw [hce]; exact Char.not_le.mpr hlt)
      simpa using hne
  rw [dumpsChar, hnone]
  exact if_pos hc

/-- The text of an item is a part of that of the list. -/
theorem renderItems_infix (st : Style) {items : List Json} {v : Json} (h : v ∈ items) :
    ∃ before after, renderItems st items = before ++ render st v ++ after := by
  induction items with
  | nil => cases h
  | cons w items ih =>
    cases items with
    | nil =>
      cases List.mem_singleton.mp h
      exact ⟨[], [], by simp [renderItems]⟩
    | cons u items =>
      rcases List.mem_cons.mp h with rfl | h
      · exact ⟨[], ',' :: ' ' :: renderItems st (u :: items), by simp [renderItems]⟩
      · obtain ⟨before, after, he⟩ := ih h
        exact ⟨render st w ++ ',' :: ' ' :: before, after, by simp [renderItems, he]⟩

end Dumps

section Repr

/-- The quote `repr` writes a text in. -/
def reprQuote (s : List Char) : Char := if '\'' ∈ s ∧ '"' ∉ s then '"' else '\''

/-- The characters `repr` has a short escape for, besides the quote and the backslash. -/
def reprEscapes : List (Char × Char) := [('\t', 't'), ('\n', 'n'), ('\r', 'r')]

/-- A character in the `repr` of a text in this quote. -/
def reprChar (p : Python) (quote c : Char) : List Char :=
  if c = quote ∨ c = '\\' then ['\\', c]
  else match reprEscapes.lookup c with
    | some letter => ['\\', letter]
    | none =>
      if ' ' ≤ c ∧ c ≤ '~' then [c]
      else if 0x80 ≤ c.toNat ∧ p.isPrintable c then [c]
      else if c.toNat < 0x100 then '\\' :: 'x' :: hexDigits 2 c.toNat
      else if c.toNat < 0x10000 then '\\' :: 'u' :: hexDigits 4 c.toNat
      else '\\' :: 'U' :: hexDigits 8 c.toNat

def reprText (p : Python) (s : List Char) : List Char :=
  reprQuote s :: (s.flatMap (reprChar p (reprQuote s)) ++ [reprQuote s])

def reprStyle (p : Python) : Style where
  null := "None".toList
  bool b := if b then "True".toList else "False".toList
  float r := r.toList
  text := reprText p

/-- `str(value)`: a text is its own. -/
def strOf (p : Python) : Json → String
  | .str s => s
  | v => String.ofList (render (reprStyle p) v)

end Repr

end A2ARegistry.Base.Json
