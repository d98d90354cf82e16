import A2ARegistry.Base.Json

namespace A2ARegistry.Base

/-- What the text conversions of Python take from outside the text: the `repr` of the float that
a JSON number denotes, and `str.isprintable`. -/
structure Python where
  floatOf : String → String
  isPrintable : Char → Bool

namespace Json

/-- The whitespace of `json.decoder`. -/
def isBlank (c : Char) : Bool := c == ' ' || c == '\t' || c == '\n' || c == '\r'

def skip (cs : List Char) : List Char := cs.dropWhile isBlank

section Texts

/-- The short escapes, and the characters they stand for. -/
def escapes : List (Char × Char) :=
  [('"', '"'), ('\\', '\\'), ('/', '/'), ('b', '\x08'), ('f', '\x0c'), ('n', '\n'), ('r', '\r'),
    ('t', '\t')]

def hexVal (c : Char) : Option Nat :=
  if '0' ≤ c ∧ c ≤ '9' then some (c.toNat - '0'.toNat)
  else if 'a' ≤ c ∧ c ≤ 'f' then some (c.toNat - 'a'.toNat + 10)
  else if 'A' ≤ c ∧ c ≤ 'F' then some (c.toNat - 'A'.toNat + 10)
  else none

/-- The four hex digits of a `\u` escape. -/
def scanHex : List Char → Option (Nat × List Char)
  | a :: b :: c :: d :: rest => do
    let a ← hexVal a
    let b ← hexVal b
    let c ← hexVal c
    let d ← hexVal d
    return (((a * 16 + b) * 16 + c) * 16 + d, rest)
  | _ => none

def isHigh (u : Nat) : Bool := 0xd800 ≤ u && u ≤ 0xdbff

def isLow (u : Nat) : Bool := 0xdc00 ≤ u && u ≤ 0xdfff

/-- The second half of a surrogate pair. -/
def scanLow (high : Nat) : List Char → Option (Char × List Char)
  | '\\' :: 'u' :: rest => do
    let (low, rest) ← scanHex rest
    if isLow low then
      return (Char.ofNat (0x10000 + (high - 0xd800) * 0x400 + (low - 0xdc00)), rest)
    else none
  | _ => none

/-- A `\u` escape, from behind the `u`. A surrogate without its other half is no character. -/
def scanUnicode (cs : List Char) : Option (Char × List Char) := do
  let (u, rest) ← scanHex cs
  if isHigh u then scanLow u rest
  else if isLow u then none
  else return (Char.ofNat u, rest)

/-- An escape, from behind the backslash. -/
def scanEscape : List Char → Option (Char × List Char)
  | [] => none
  | c :: rest => if c = 'u' then scanUnicode rest else (escapes.lookup c).map (fun d => (d, rest))

/-- One character of a text; the control characters are refused. -/
def scanChar : List Char → Option (Char × List Char)
  | [] => none
  | c :: rest => if c = '\\' then scanEscape rest else if c < ' ' then none else some (c, rest)

/-- `scanstring`, from behind the opening quote. The first argument bounds the characters. -/
def scanText : Nat → List Char → Option (List Char × List Char)
  | 0, _ => none
  | n + 1, cs =>
    match cs with
    | '"' :: rest => some ([], rest)
    | cs => (scanChar cs).bind (fun (c, more) => (scanText n more).map (fun r => (c :: r.1, r.2)))

end Texts

section Numbers

def scanSign : List Char → List Char × List Char
  | '-' :: rest => (['-'], rest)
  | cs => ([], cs)

/-- `0|[1-9]\d*`. -/
def scanWhole : List Char → Option (List Char × List Char)
  | '0' :: rest => some (['0'], rest)
  | cs =>
    if (cs.takeWhile Char.isDigit).isEmpty then none
    else some (cs.takeWhile Char.isDigit, cs.dropWhile Char.isDigit)

/-- `(\.\d+)?`. -/
def scanFraction : List Char → List Char × List Char
  | '.' :: rest =>
    if (rest.takeWhile Char.isDigit).isEmpty then ([], '.' :: rest)
    else ('.' :: rest.takeWhile Char.isDigit, rest.dropWhile Char.isDigit)
  | cs => ([], cs)

def scanExponentSign : List Char → List Char × List Char
  | '-' :: rest => (['-'], rest)
  | '+' :: rest => (['+'], rest)
  | cs => ([], cs)

/-- `([eE][-+]?\d+)?`. -/
def scanExponent : List Char → List Char × List Char
  | [] => ([], [])
  | c :: rest =>
    let (sign, more) := scanExponentSign rest
    if (c = 'e' ∨ c = 'E') ∧ (more.takeWhile Char.isDigit).isEmpty = false then
      (c :: sign ++ more.takeWhile Char.isDigit, more.dropWhile Char.isDigit)
    else ([], c :: rest)

/-- The value of a number: a float if it has a fraction or an exponent. -/
def numberValue (p : Python) (sign whole fraction exponent : List Char) : Json :=
  if fraction = [] ∧ exponent = [] then
    .int (if sign = [] then Nat.ofDigitChars 10 whole 0 else -Nat.ofDigitChars 10 whole 0)
  else .float (p.floatOf (String.ofList (sign ++ whole ++ fraction ++ exponent)))

def scanNumber (p : Python) (cs : List Char) : Option (Json × List Char) := do
  let (sign, cs) := scanSign cs
  let (whole, cs) ← scanWhole cs
  let (fraction, cs) := scanFraction cs
  let (exponent, cs) := scanExponent cs
  return (numberValue p sign whole fraction exponent, cs)

end Numbers

/-- The words that stand for a value. -/
def constants : List (List Char × Json) :=
  [("null".toList, .null), ("true".toList, .bool true), ("false".toList, .bool false),
    ("NaN".toList, .float "nan"), ("Infinity".toList, .float "inf"), ("-Infinity".toList, .float "-inf")]

def scanWord (p : Python) (cs : List Char) : Option (Json × List Char) :=
  match constants.find? (fun w => w.1.isPrefixOf cs) with
  | some (word, value) => some (value, cs.drop word.length)
  | none => scanNumber p cs

/-- A key that is there keeps its place and gets the new value. -/
def putField (fields : List (String × Json)) (field : String × Json) : List (String × Json) :=
  if fields.any (fun f => f.1 == field.1) then
    fields.map (fun f => if f.1 == field.1 then field else f)
  else fields ++ [field]

/-- `dict(pairs)`. -/
def dict (pairs : List (String × Json)) : List (String × Json) := pairs.foldl putField []

/-- A key, from its quote on. -/
def scanKey (n : Nat) : List Char → Option (String × List Char)
  | '"' :: rest => (scanText n rest).map (fun r => (String.ofList r.1, r.2))
  | _ => none

/-- The colon behind a key. -/
def scanColon (cs : List Char) : Option (List Char) :=
  match skip cs with
  | ':' :: rest => some (skip rest)
  | _ => none

/-- A field of an object, with the reader of its value. -/
def scanField (n : Nat) (value : List Char → Option (Json × List Char)) (cs : List Char) :
    Option ((String × Json) × List Char) :=
  (scanKey n cs).bind (fun (key, rest) => (scanColon rest).bind (fun more =>
    (value more).map (fun r => ((key, r.1), r.2))))

section

variable {α : Type} (close : Char) (elements : List Char → Option (List α × List Char))

/-- What stands behind an opening bracket: nothing, or some elements. -/
def scanInside (cs : List Char) : Option (List α × List Char) :=
  match skip cs with
  | [] => none
  | c :: rest => if c = close then some ([], rest) else elements (c :: rest)

/-- What stands behind an element: the closing bracket, or a comma and more elements. -/
def scanRest (element : α) (cs : List Char) : Option (List α × List Char) :=
  match skip cs with
  | [] => none
  | c :: rest =>
    if c = close then some ([element], rest)
    else if c = ',' then (elements (skip rest)).map (fun r => (element :: r.1, r.2))
    else none

end

mutual

/-- `scan_once`. The first argument bounds the nested calls. -/
def scan (p : Python) : Nat → List Char → Option (Json × List Char)
  | 0, _ => none
  | n + 1, cs =>
    match cs with
    | '"' :: rest => (scanText n rest).map (fun r => (.str (String.ofList r.1), r.2))
    | '[' :: rest => (scanInside ']' (scanItems p n) rest).map (fun r => (.arr r.1, r.2))
    | '{' :: rest => (scanInside '}' (scanFields p n) rest).map (fun r => (.obj (dict r.1), r.2))
    | cs => scanWord p cs

/-- The items of an array, from the first one on. -/
def scanItems (p : Python) : Nat → List Char → Option (List Json × List Char)
  | 0, _ => none
  | n + 1, cs => (scan p n cs).bind (fun (value, rest) => scanRest ']' (scanItems p n) value rest)

/-- The fields of an object, from the first key on. -/
def scanFields (p : Python) : Nat → List Char → Option (List (String × Json) × List Char)
  | 0, _ => none
  | n + 1, cs =>
    (scanField n (scan p n) cs).bind (fun (field, rest) => scanRest '}' (scanFields p n) field rest)

end

/-- `json.loads`; `none` when it raises. Two calls are nested for a character at most. -/
def loads (p : Python) (text : String) : Option Json :=
  match scan p (2 * text.length) (skip text.toList) with
  | some (value, rest) => if skip rest = [] then some value else none
  | none => none

section Limits

/-- What the interpreter bounds: how deep `json.loads` may nest, which is up to the stack it is called on, and how many
digits an integer may have (`sys.get_int_max_str_digits`, where 0 is no bound). -/
structure Limits where
  nesting : Nat
  digits : Nat := 4300

/-- What `json.loads` raises at the bounds. -/
inductive Overrun
  | recursionError
  | valueError
deriving DecidableEq, Repr

inductive LoadsError
  | decodeError
  | overrun (o : Overrun)
deriving DecidableEq, Repr

variable (limits : Limits) (p : Python)

/-- An integer with too many digits. A float may have any number of them. -/
def wordOverrun (cs : List Char) : Option Overrun :=
  if constants.any (fun w => w.1.isPrefixOf cs) then none
  else (scanWhole (scanSign cs).2).bind (fun (whole, rest) =>
    let (fraction, rest) := scanFraction rest
    if fraction = [] ∧ (scanExponent rest).1 = [] ∧ limits.digits ≠ 0 ∧ limits.digits < whole.length then
      some .valueError
    else none)

section

variable (close : Char) (elements : List Char → Option Overrun)

def overrunInside (cs : List Char) : Option Overrun :=
  match skip cs with
  | [] => none
  | c :: rest => if c = close then none else elements (c :: rest)

def overrunRest (cs : List Char) : Option Overrun :=
  match skip cs with
  | [] => none
  | c :: rest => if c = ',' then elements (skip rest) else none

end

mutual

/-- The bound that `scan_once` meets first, before it is through or stops at something that is not JSON. The second number
is how many arrays and objects may still be opened. -/
def overrun : Nat → Nat → List Char → Option Overrun
  | 0, _, _ => none
  | n + 1, left, cs =>
    match cs with
    | '"' :: _ => none
    | '[' :: rest => match left with
      | 0 => some .recursionError
      | left + 1 => overrunInside ']' (overrunItems n left) rest
    | '{' :: rest => match left with
      | 0 => some .recursionError
      | left + 1 => overrunInside '}' (overrunFields n left) rest
    | cs => wordOverrun limits cs

def overrunItems : Nat → Nat → List Char → Option Overrun
  | 0, _, _ => none
  | n + 1, left, cs => (overrun n left cs).or
      ((scan p n cs).bind (fun (_, rest) => overrunRest (overrunItems n left) rest))

def overrunFields : Nat → Nat → List Char → Option Overrun
  | 0, _, _ => none
  | n + 1, left, cs => (scanKey n cs).bind (fun (_, rest) => (scanColon rest).bind (fun more =>
      (overrun n left more).or ((scan p n more).bind (fun (_, rest) => overrunRest (overrunFields n left) rest))))

end

/-- `json.loads`, with what it raises. -/
def loadsWithin (text : String) : Except LoadsError Json :=
  match overrun limits p (2 * text.length) limits.nesting (skip text.toList) with
  | some o => .error (.overrun o)
  | none => match loads p text with
    | none => .error .decodeError
    | some value => .ok value

variable {p}

/-- What is read without the bounds is read with them, or goes beyond one. -/
theorem loadsWithin_of_loads (limits : Limits) {text : String} {value : Json} (h : loads p text = some value) :
    loadsWithin limits p text = .ok value ∨ ∃ o, loadsWithin limits p text = .error (.overrun o) := by
  unfold loadsWithin
  split
  · exact Or.inr ⟨_, rfl⟩
  · rw [h]
    exact Or.inl rfl

end Limits

variable {p : Python}

theorem skip_length (cs : List Char) : (skip cs).length ≤ cs.length :=
  (List.dropWhile_suffix isBlank).length_le

theorem dropDigits_length (cs : List Char) : (cs.dropWhile Char.isDigit).length ≤ cs.length :=
  (List.dropWhile_suffix Char.isDigit).length_le

section Shrink

variable {n : Nat} {cs : List Char}

theorem scanHex_length {r : Nat × List Char} (h : scanHex cs = some r) : r.2.length < cs.length := by
  match cs, h with
  | a :: b :: c :: d :: rest, h =>
    simp only [scanHex, Option.bind_eq_bind, Option.bind_eq_some_iff] at h
    obtain ⟨_, _, _, _, _, _, _, _, h⟩ := h
    cases h
    simp only [List.length_cons]
    omega

theorem scanLow_length {high : Nat} {r : Char × List Char} (h : scanLow high cs = some r) :
    r.2.length < cs.length := by
  unfold scanLow at h
  split at h
  · simp only [Option.bind_eq_bind, Option.bind_eq_some_iff] at h
    obtain ⟨u, hu, h⟩ := h
    have := scanHex_length hu
    simp only [Option.ite_none_right_eq_some, Option.pure_def, Option.some.injEq] at h
    rw [← h.2]
    simp only [List.length_cons]
    omega
  · cases h

theorem scanUnicode_length {r : Char × List Char} (h : scanUnicode cs = some r) :
    r.2.length < cs.length := by
  simp only [scanUnicode, Option.bind_eq_bind, Option.bind_eq_some_iff] at h
  obtain ⟨u, hu, h⟩ := h
  have hlt := scanHex_length hu
  split at h
  · exact Nat.lt_trans (scanLow_length h) hlt
  · split at h
    · cases h
    · cases h
      exact hlt

theorem scanChar_length {r : Char × List Char} (h : scanChar cs = some r) : r.2.length < cs.length := by
  cases cs with
  | nil => cases h
  | cons c rest =>
    simp only [scanChar] at h
    split at h
    · cases rest with
      | nil => cases h
      | cons d rest =>
        simp only [scanEscape] at h
        split at h
        · have := scanUnicode_length h
          simp only [List.length_cons]
          omega
        · obtain ⟨e, _, rfl⟩ := Option.map_eq_some_iff.mp h
          simp only [List.length_cons]
          omega
    · split at h
      · cases h
      · cases h
        simp

theorem scanText_char (n : Nat) (h : ∀ rest, cs ≠ '"' :: rest) : scanText (n + 1) cs =
    (scanChar cs).bind (fun (c, more) => (scanText n more).map (fun r => (c :: r.1, r.2))) := by
  rw [scanText]
  exact h

/-- No text is as long as what it is read from. -/
theorem scanText_length {r : List Char × List Char} (h : scanText n cs = some r) :
    r.1.length + r.2.length < cs.length := by
  induction n generalizing cs r with
  | zero => cases h
  | succ n ih =>
    by_cases hq : ∃ rest, cs = '"' :: rest
    · obtain ⟨rest, rfl⟩ := hq
      cases h
      simp
    · rw [scanText_char n (fun rest he => hq ⟨rest, he⟩)] at h
      obtain ⟨c, hc, h⟩ := Option.bind_eq_some_iff.mp h
      obtain ⟨s, hs, rfl⟩ := Option.map_eq_some_iff.mp h
      have := scanChar_length hc
      have := ih hs
      simp only [List.length_cons]
      omega

theorem scanText_fuel {m : Nat} (hn : cs.length ≤ n) (hm : cs.length ≤ m) :
    scanText n cs = scanText m cs := by
  induction n generalizing m cs with
  | zero =>
    have hnil : cs = [] := List.eq_nil_of_length_eq_zero (by omega)
    subst hnil
    cases m <;> rfl
  | succ n ih =>
    cases m with
    | zero =>
      have hnil : cs = [] := List.eq_nil_of_length_eq_zero (by omega)
      subst hnil
      rfl
    | succ m =>
      by_cases hq : ∃ rest, cs = '"' :: rest
      · obtain ⟨rest, rfl⟩ := hq
        rfl
      · have hne : ∀ rest, cs ≠ '"' :: rest := fun rest he => hq ⟨rest, he⟩
        rw [scanText_char n hne, scanText_char m hne]
        refine Option.bind_congr fun c hc => ?_
        have := scanChar_length hc
        have hmore := @ih c.2 m (by omega) (by omega)
        simp only [hmore]

theorem scanSign_length (cs : List Char) : (scanSign cs).2.length ≤ cs.length := by
  unfold scanSign
  split <;> simp

theorem scanWhole_length {r : List Char × List Char} (h : scanWhole cs = some r) :
    r.2.length < cs.length := by
  unfold scanWhole at h
  split at h
  · cases h
    simp
  · split at h
    · cases h
    · rename_i hne
      cases h
      have hlen := congrArg List.length (List.takeWhile_append_dropWhile (p := Char.isDigit) (l := cs))
      have hpos := List.length_pos_iff.mpr (fun hnil => hne (List.isEmpty_iff.mpr hnil))
      simp only [List.length_append] at hlen
      dsimp only
      omega

theorem scanFraction_length (cs : List Char) : (scanFraction cs).2.length ≤ cs.length := by
  unfold scanFraction
  split
  · rename_i rest
    have := dropDigits_length rest
    split
    · simp
    · simp only [List.length_cons]
      omega
  · simp

theorem scanExponent_length (cs : List Char) : (scanExponent cs).2.length ≤ cs.length := by
  cases cs with
  | nil => simp [scanExponent]
  | cons c rest =>
    have hsign : (scanExponentSign rest).2.length ≤ rest.length := by
      unfold scanExponentSign
      split <;> simp
    have := dropDigits_length (scanExponentSign rest).2
    simp only [scanExponent]
    split
    · simp only [List.length_cons]
      omega
    · simp

theorem scanNumber_length {r : Json × List Char} (h : scanNumber p cs = some r) :
    r.2.length < cs.length := by
  simp only [scanNumber, Option.bind_eq_bind, Option.bind_eq_some_iff] at h
  obtain ⟨w, hw, h⟩ := h
  cases h
  have := scanSign_length cs
  have := scanWhole_length hw
  have := scanFraction_length w.2
  have := scanExponent_length (scanFraction w.2).2
  dsimp only
  omega

theorem scanWord_length {r : Json × List Char} (h : scanWord p cs = some r) : r.2.length < cs.length := by
  unfold scanWord at h
  split at h
  · rename_i word value hfind
    cases h
    have hmem := List.mem_of_find?_eq_some hfind
    have hpre : word <+: cs := by simpa using List.find?_some hfind
    have hle := hpre.length_le
    have hpos : 0 < word.length := by
      simp only [constants, List.mem_cons, Prod.mk.injEq, List.not_mem_nil, or_false] at hmem
      rcases hmem with ⟨rfl, _⟩ | ⟨rfl, _⟩ | ⟨rfl, _⟩ | ⟨rfl, _⟩ | ⟨rfl, _⟩ | ⟨rfl, _⟩ <;> decide
    dsimp only at hle ⊢
    simp only [List.length_drop]
    omega
  · exact scanNumber_length h

theorem scanKey_length {r : String × List Char} (h : scanKey n cs = some r) : r.2.length < cs.length := by
  unfold scanKey at h
  split at h
  · obtain ⟨t, ht, rfl⟩ := Option.map_eq_some_iff.mp h
    have := scanText_length ht
    simp only [List.length_cons]
    omega
  · cases h

theorem scanColon_length {rest : List Char} (h : scanColon cs = some rest) : rest.length < cs.length := by
  unfold scanColon at h
  split at h
  · rename_i more hs
    cases h
    have h1 := skip_length cs
    have h2 := skip_length more
    rw [hs] at h1
    simp only [List.length_cons] at h1
    omega
  · cases h

/-- A reader that takes something of what it reads. -/
def Shrinks {α : Type} (f : List Char → Option (α × List Char)) : Prop :=
  ∀ ⦃cs r⦄, f cs = some r → r.2.length < cs.length

/-- Two readers that agree on what is not longer than a bound. -/
def AgreeTo {α : Type} (bound : Nat) (f g : List Char → Option (α × List Char)) : Prop :=
  ∀ cs : List Char, cs.length ≤ bound → f cs = g cs

section

variable {α : Type} {f g : List Char → Option (List α × List Char)} {close : Char}

theorem scanInside_shrinks (hf : Shrinks f) : Shrinks (scanInside close f) := by
  intro cs r h
  have hskip := skip_length cs
  unfold scanInside at h
  split at h
  · cases h
  · rename_i c rest hs
    rw [hs, List.length_cons] at hskip
    split at h
    · cases h
      exact hskip
    · have := hf h
      simp only [List.length_cons] at this
      omega

theorem scanRest_shrinks (hf : Shrinks f) (element : α) : Shrinks (scanRest close f element) := by
  intro cs r h
  have hskip := skip_length cs
  unfold scanRest at h
  split at h
  · cases h
  · rename_i c rest hs
    rw [hs, List.length_cons] at hskip
    split at h
    · cases h
      exact hskip
    · split at h
      · obtain ⟨t, ht, rfl⟩ := Option.map_eq_some_iff.mp h
        have := hf ht
        have := skip_length rest
        dsimp only
        omega
      · cases h

theorem scanInside_agree {bound : Nat} (h : AgreeTo bound f g) :
    AgreeTo bound (scanInside close f) (scanInside close g) := by
  intro cs hcs
  have hskip := skip_length cs
  unfold scanInside
  split
  · rfl
  · rename_i c rest hs
    rw [hs] at hskip
    rw [h (c :: rest) (by omega)]

theorem scanRest_agree {bound : Nat} (h : AgreeTo bound f g) (element : α) :
    AgreeTo (bound + 1) (scanRest close f element) (scanRest close g element) := by
  intro cs hcs
  have hskip := skip_length cs
  unfold scanRest
  split
  · rfl
  · rename_i c rest hs
    rw [hs, List.length_cons] at hskip
    have := skip_length rest
    rw [h (skip rest) (by omega)]

end

theorem scanField_shrinks {f : List Char → Option (Json × List Char)} (hf : Shrinks f) (n : Nat) :
    Shrinks (scanField n f) := by
  intro cs r h
  obtain ⟨key, hk, h⟩ := Option.bind_eq_some_iff.mp h
  obtain ⟨more, hm, h⟩ := Option.bind_eq_some_iff.mp h
  obtain ⟨t, ht, rfl⟩ := Option.map_eq_some_iff.mp h
  have := scanKey_length hk
  have := scanColon_length hm
  have := hf ht
  dsimp only
  omega

theorem scan_quote (p : Python) (n : Nat) (rest : List Char) : scan p (n + 1) ('"' :: rest) =
    (scanText n rest).map (fun r => (.str (String.ofList r.1), r.2)) := rfl

theorem scan_bracket (p : Python) (n : Nat) (rest : List Char) : scan p (n + 1) ('[' :: rest) =
    (scanInside ']' (scanItems p n) rest).map (fun r => (.arr r.1, r.2)) := rfl

theorem scan_brace (p : Python) (n : Nat) (rest : List Char) : scan p (n + 1) ('{' :: rest) =
    (scanInside '}' (scanFields p n) rest).map (fun r => (.obj (dict r.1), r.2)) := rfl

/-- What begins with no quote and no bracket is a word or a number. -/
theorem scan_word (p : Python) (n : Nat) (h : ∀ c, cs.head? = some c → c ∉ ['"', '[', '{']) :
    scan p (n + 1) cs = scanWord p cs := by
  cases cs with
  | nil => rfl
  | cons c rest =>
    have hc := h c rfl
    simp only [List.mem_cons, List.not_mem_nil, or_false, not_or] at hc
    rw [scan]
    · exact fun _ he => hc.1 (List.cons.inj he).1
    · exact fun _ he => hc.2.1 (List.cons.inj he).1
    · exact fun _ he => hc.2.2 (List.cons.inj he).1

theorem scanItems_succ (p : Python) (n : Nat) (cs : List Char) : scanItems p (n + 1) cs =
    (scan p n cs).bind (fun (value, rest) => scanRest ']' (scanItems p n) value rest) := rfl

theorem scanFields_succ (p : Python) (n : Nat) (cs : List Char) : scanFields p (n + 1) cs =
    (scanField n (scan p n) cs).bind (fun (field, rest) => scanRest '}' (scanFields p n) field rest) := rfl

/-- How a value can begin. -/
theorem head_cases (cs : List Char) : (∃ rest, cs = '"' :: rest) ∨ (∃ rest, cs = '[' :: rest) ∨
    (∃ rest, cs = '{' :: rest) ∨ ∀ c, cs.head? = some c → c ∉ ['"', '[', '{'] := by
  cases cs with
  | nil => exact Or.inr (Or.inr (Or.inr (by simp)))
  | cons c rest =>
    by_cases hc : c ∈ ['"', '[', '{']
    · simp only [List.mem_cons, List.not_mem_nil, or_false] at hc
      rcases hc with rfl | rfl | rfl
      · exact Or.inl ⟨rest, rfl⟩
      · exact Or.inr (Or.inl ⟨rest, rfl⟩)
      · exact Or.inr (Or.inr (Or.inl ⟨rest, rfl⟩))
    · refine Or.inr (Or.inr (Or.inr fun d hd => ?_))
      cases hd
      exact hc

theorem scan_shrinks (p : Python) (n : Nat) :
    Shrinks (scan p n) ∧ Shrinks (scanItems p n) ∧ Shrinks (scanFields p n) := by
  induction n with
  | zero =>
    refine ⟨?_, ?_, ?_⟩ <;>
    · intro cs r h
      cases h
  | succ n ih =>
    obtain ⟨hv, hi, hf⟩ := ih
    refine ⟨fun cs r h => ?_, fun cs r h => ?_, fun cs r h => ?_⟩
    · rcases head_cases cs with ⟨rest, rfl⟩ | ⟨rest, rfl⟩ | ⟨rest, rfl⟩ | hw
      · obtain ⟨t, ht, rfl⟩ := Option.map_eq_some_iff.mp h
        have := scanText_length ht
        simp only [List.length_cons]
        omega
      · obtain ⟨t, ht, rfl⟩ := Option.map_eq_some_iff.mp h
        have := scanInside_shrinks hi ht
        simp only [List.length_cons]
        omega
      · obtain ⟨t, ht, rfl⟩ := Option.map_eq_some_iff.mp h
        have := scanInside_shrinks hf ht
        simp only [List.length_cons]
        omega
      · rw [scan_word p n hw] at h
        exact scanWord_length h
    · obtain ⟨t, ht, h⟩ := Option.bind_eq_some_iff.mp h
      have := hv ht
      have := scanRest_shrinks hi t.1 h
      omega
    · obtain ⟨t, ht, h⟩ := Option.bind_eq_some_iff.mp h
      have := scanField_shrinks hv n ht
      have := scanRest_shrinks hf t.1 h
      omega

theorem scanKey_fuel {m : Nat} (hn : cs.length ≤ n) (hm : cs.length ≤ m) : scanKey n cs = scanKey m cs := by
  unfold scanKey
  split
  · rename_i rest
    simp only [List.length_cons] at hn hm
    rw [scanText_fuel (m := m) (by omega) (by omega)]
  · rfl

theorem scanField_fuel {m : Nat} {f g : List Char → Option (Json × List Char)} {bound : Nat}
    (h : AgreeTo bound f g) (hb : cs.length ≤ bound) (hn : bound ≤ n) (hm : bound ≤ m) :
    scanField n f cs = scanField m g cs := by
  unfold scanField
  rw [scanKey_fuel (m := m) (by omega) (by omega)]
  refine Option.bind_congr fun key hk => Option.bind_congr fun more hmore => ?_
  have := scanKey_length hk
  have := scanColon_length hmore
  rw [h more (by omega)]

/-- Two calls for a character are enough: more change nothing. -/
theorem scan_fuel (p : Python) (n m : Nat) :
    (∀ bound, 2 * bound ≤ n → 2 * bound ≤ m → AgreeTo bound (scan p n) (scan p m)) ∧
    (∀ bound, 2 * bound + 1 ≤ n → 2 * bound + 1 ≤ m → AgreeTo bound (scanItems p n) (scanItems p m)) ∧
    ∀ bound, 2 * bound + 1 ≤ n → 2 * bound + 1 ≤ m → AgreeTo bound (scanFields p n) (scanFields p m) := by
  have hnil : ∀ n, scan p n [] = none := by
    intro n
    cases n <;> rfl
  induction n generalizing m with
  | zero =>
    refine ⟨fun bound hn _ cs hcs => ?_, fun bound hn => by omega, fun bound hn => by omega⟩
    have he : cs = [] := List.eq_nil_of_length_eq_zero (by omega)
    rw [he, hnil, hnil]
  | succ n ih =>
    cases m with
    | zero =>
      refine ⟨fun bound _ hm cs hcs => ?_, fun bound _ hm => by omega, fun bound _ hm => by omega⟩
      have he : cs = [] := List.eq_nil_of_length_eq_zero (by omega)
      rw [he, hnil, hnil]
    | succ m =>
      obtain ⟨hv, hi, hf⟩ := ih m
      refine ⟨fun bound hn hm cs hcs => ?_, fun bound hn hm cs hcs => ?_, fun bound hn hm cs hcs => ?_⟩
      · rcases head_cases cs with ⟨rest, rfl⟩ | ⟨rest, rfl⟩ | ⟨rest, rfl⟩ | hw
        · simp only [List.length_cons] at hcs
          rw [scan_quote, scan_quote, scanText_fuel (m := m) (by omega) (by omega)]
        · simp only [List.length_cons] at hcs
          have hitems := hi rest.length (by omega) (by omega)
          rw [scan_bracket, scan_bracket, scanInside_agree hitems rest (Nat.le_refl _)]
        · simp only [List.length_cons] at hcs
          have hfields := hf rest.length (by omega) (by omega)
          rw [scan_brace, scan_brace, scanInside_agree hfields rest (Nat.le_refl _)]
        · rw [scan_word p n hw, scan_word p m hw]
      · rw [scanItems_succ, scanItems_succ, hv bound (by omega) (by omega) cs hcs]
        refine Option.bind_congr fun r hr => ?_
        have := (scan_shrinks p m).1 hr
        exact scanRest_agree (hi (bound - 1) (by omega) (by omega)) r.1 r.2 (by omega)
      · have hfield := scanField_fuel (n := n) (m := m) (hv bound (by omega) (by omega)) hcs
          (by omega) (by omega)
        rw [scanFields_succ, scanFields_succ, hfield]
        refine Option.bind_congr fun r hr => ?_
        have := scanField_shrinks (scan_shrinks p m).1 m hr
        exact scanRest_agree (hf (bound - 1) (by omega) (by omega)) r.1 r.2 (by omega)

theorem scanWord_ne_str {t : String} {rest : List Char} : scanWord p cs ≠ some (.str t, rest) := by
  intro h
  unfold scanWord at h
  split at h
  · rename_i word value hfind
    have hmem := List.mem_of_find?_eq_some hfind
    cases h
    simp [constants] at hmem
  · simp only [scanNumber, Option.bind_eq_bind, Option.bind_eq_some_iff] at h
    obtain ⟨w, _, h⟩ := h
    simp only [Option.pure_def, Option.some.injEq, Prod.mk.injEq, numberValue] at h
    split at h
    · cases h.1
    · cases h.1

/-- A text is shorter than what it is read from. -/
theorem scan_text_length {t : String} {rest : List Char} (h : scan p n cs = some (.str t, rest)) :
    t.length < cs.length := by
  cases n with
  | zero => cases h
  | succ n =>
    rcases head_cases cs with ⟨more, rfl⟩ | ⟨more, rfl⟩ | ⟨more, rfl⟩ | hw
    · obtain ⟨r, hr, he⟩ := Option.map_eq_some_iff.mp h
      have := scanText_length hr
      cases he
      simp only [String.length_ofList, List.length_cons]
      omega
    · obtain ⟨r, _, he⟩ := Option.map_eq_some_iff.mp h
      cases he
    · obtain ⟨r, _, he⟩ := Option.map_eq_some_iff.mp h
      cases he
    · rw [scan_word p n hw] at h
      exact absurd h scanWord_ne_str

/-- No text is read as itself. -/
theorem loads_ne_self (p : Python) (s : String) : loads p s ≠ some (.str s) := by
  intro h
  unfold loads at h
  split at h
  · rename_i value rest hscan
    split at h
    · cases h
      have hlt := scan_text_length hscan
      have hskip := skip_length s.toList
      rw [String.length_toList] at hskip
      omega
    · cases h
  · cases h

end Shrink

end Json

end A2ARegistry.Base
