import Mathlib.Data.List.Basic

namespace A2ARegistry.Base.Base64

/-- The URL-safe alphabet. -/
def alphabet : List Char :=
  "ABCDEFGHIJKLMNOPQRSTUVWXYZabcdefghijklmnopqrstuvwxyz0123456789-_".toList

/-- The character of six bits. -/
def digit (n : Nat) : Char := alphabet.getD n '='

/-- The six bits of a character. The two characters of the standard alphabet that the
URL-safe one replaces are read too. -/
def value (c : Char) : Option Nat :=
  if 'A' ≤ c ∧ c ≤ 'Z' then some (c.toNat - 'A'.toNat)
  else if 'a' ≤ c ∧ c ≤ 'z' then some (c.toNat - 'a'.toNat + 26)
  else if '0' ≤ c ∧ c ≤ '9' then some (c.toNat - '0'.toNat + 52)
  else if c = '-' ∨ c = '+' then some 62
  else if c = '_' ∨ c = '/' then some 63
  else none

/-- `urlsafe_b64encode`. -/
def encode : List UInt8 → List Char
  | [] => []
  | [a] => [digit (a.toNat / 4), digit (a.toNat % 4 * 16), '=', '=']
  | [a, b] => [digit (a.toNat / 4), digit (a.toNat % 4 * 16 + b.toNat / 16), digit (b.toNat % 16 * 4), '=']
  | a :: b :: c :: rest =>
    digit (a.toNat / 4) :: digit (a.toNat % 4 * 16 + b.toNat / 16) ::
      digit (b.toNat % 16 * 4 + c.toNat / 64) :: digit (c.toNat % 64) :: encode rest

/-- The loop of `a2b_base64`: `quad` characters of the group at hand are read, `left` holds the
bits of them that are not written yet, and `pads` signs of padding stand behind them. Characters
outside the alphabet are skipped, and a full padding ends the data. -/
def decodeFrom (quad left pads : Nat) : List Char → Option (List UInt8)
  | [] => if quad = 0 then some [] else none
  | c :: cs =>
    if c = '=' then
      if 2 ≤ quad then
        if 4 ≤ quad + (pads + 1) then some [] else decodeFrom quad left (pads + 1) cs
      else decodeFrom quad left pads cs
    else match value c with
      | none => decodeFrom quad left pads cs
      | some v => match quad with
        | 0 => decodeFrom 1 v 0 cs
        | 1 => (decodeFrom 2 (v % 16) 0 cs).map (UInt8.ofNat (left * 4 + v / 16) :: ·)
        | 2 => (decodeFrom 3 (v % 4) 0 cs).map (UInt8.ofNat (left * 16 + v / 4) :: ·)
        | _ => (decodeFrom 0 0 0 cs).map (UInt8.ofNat (left * 64 + v) :: ·)

/-- `urlsafe_b64decode`; `none` when it raises. -/
def decode (cs : List Char) : Option (List UInt8) :=
  if cs.all (fun c => c.toNat < 128) then decodeFrom 0 0 0 cs else none

/-- `data.rstrip("=")`. -/
def unpad (cs : List Char) : List Char := (cs.reverse.dropWhile (· == '=')).reverse

/-- `data` with the padding its length asks for. -/
def pad (cs : List Char) : List Char :=
  let paddingLen := 4 - cs.length % 4
  if paddingLen = 4 then cs else cs ++ List.replicate paddingLen '='

theorem digit_spec : ∀ n < 64, value (digit n) = some n ∧ digit n ∈ alphabet := by decide +kernel

theorem alphabet_plain : ∀ c ∈ alphabet, c ≠ '=' ∧ c ≠ '.' ∧ c.toNat < 128 := by
  have hall : alphabet.all (fun c => decide (c ≠ '=' ∧ c ≠ '.' ∧ c.toNat < 128)) = true := by decide
  exact fun c hc => of_decide_eq_true (List.all_eq_true.mp hall c hc)

theorem value_digit {n : Nat} (hn : n < 64) : value (digit n) = some n := (digit_spec n hn).1

theorem digit_mem {n : Nat} (hn : n < 64) : digit n ∈ alphabet := (digit_spec n hn).2

theorem digit_ne_pad {n : Nat} (hn : n < 64) : digit n ≠ '=' := (alphabet_plain _ (digit_mem hn)).1

section Digits

variable {v : Nat} (hv : v < 64) (left pads : Nat) (cs : List Char)
include hv

/-- The four steps of the loop over a group of digits. -/
theorem decodeFrom_digit0 : decodeFrom 0 left pads (digit v :: cs) = decodeFrom 1 v 0 cs := by
  rw [decodeFrom, if_neg (digit_ne_pad hv), value_digit hv]
  rfl

theorem decodeFrom_digit1 : decodeFrom 1 left pads (digit v :: cs) =
    (decodeFrom 2 (v % 16) 0 cs).map (UInt8.ofNat (left * 4 + v / 16) :: ·) := by
  rw [decodeFrom, if_neg (digit_ne_pad hv), value_digit hv]
  rfl

theorem decodeFrom_digit2 : decodeFrom 2 left pads (digit v :: cs) =
    (decodeFrom 3 (v % 4) 0 cs).map (UInt8.ofNat (left * 16 + v / 4) :: ·) := by
  rw [decodeFrom, if_neg (digit_ne_pad hv), value_digit hv]
  rfl

theorem decodeFrom_digit3 : decodeFrom 3 left pads (digit v :: cs) =
    (decodeFrom 0 0 0 cs).map (UInt8.ofNat (left * 64 + v) :: ·) := by
  rw [decodeFrom, if_neg (digit_ne_pad hv), value_digit hv]
  rfl

end Digits

theorem ofNat_of_eq {n : Nat} {a : UInt8} (h : n = a.toNat) : UInt8.ofNat n = a := by
  rw [h, UInt8.ofNat_toNat]

/-- The loop reads back what was encoded. -/
theorem decodeFrom_encode (bs : List UInt8) : decodeFrom 0 0 0 (encode bs) = some bs := by
  induction bs using encode.induct with
  | case1 => rfl
  | case2 a =>
    have ha := a.toNat_lt
    rw [encode, decodeFrom_digit0 (by omega), decodeFrom_digit1 (by omega), ofNat_of_eq (a := a) (by omega)]
    rfl
  | case3 a b =>
    have ha := a.toNat_lt
    have hb := b.toNat_lt
    rw [encode, decodeFrom_digit0 (by omega), decodeFrom_digit1 (by omega), decodeFrom_digit2 (by omega),
      ofNat_of_eq (a := a) (by omega), ofNat_of_eq (a := b) (by omega)]
    rfl
  | case4 a b c rest ih =>
    have ha := a.toNat_lt
    have hb := b.toNat_lt
    have hc := c.toNat_lt
    rw [encode, decodeFrom_digit0 (by omega), decodeFrom_digit1 (by omega), decodeFrom_digit2 (by omega),
      decodeFrom_digit3 (by omega), ih, ofNat_of_eq (a := a) (by omega), ofNat_of_eq (a := b) (by omega),
      ofNat_of_eq (a := c) (by omega)]
    rfl

/-- An encoding is a text of the alphabet and the padding its length asks for. -/
theorem encode_shape (bs : List UInt8) : ∃ cs : List Char, (∀ c ∈ cs, c ∈ alphabet) ∧
    encode bs = cs ++ List.replicate ((4 - cs.length % 4) % 4) '=' := by
  induction bs using encode.induct with
  | case1 => exact ⟨[], by simp [encode]⟩
  | case2 a =>
    have ha := a.toNat_lt
    refine ⟨[digit (a.toNat / 4), digit (a.toNat % 4 * 16)], ?_, rfl⟩
    simp only [List.forall_mem_cons, List.not_mem_nil, false_imp_iff, implies_true, and_true]
    exact ⟨digit_mem (by omega), digit_mem (by omega)⟩
  | case3 a b =>
    have ha := a.toNat_lt
    have hb := b.toNat_lt
    refine ⟨[digit (a.toNat / 4), digit (a.toNat % 4 * 16 + b.toNat / 16), digit (b.toNat % 16 * 4)], ?_, rfl⟩
    simp only [List.forall_mem_cons, List.not_mem_nil, false_imp_iff, implies_true, and_true]
    exact ⟨digit_mem (by omega), digit_mem (by omega), digit_mem (by omega)⟩
  | case4 a b c rest ih =>
    have ha := a.toNat_lt
    have hb := b.toNat_lt
    have hc := c.toNat_lt
    obtain ⟨cs, hmem, he⟩ := ih
    refine ⟨digit (a.toNat / 4) :: digit (a.toNat % 4 * 16 + b.toNat / 16) ::
      digit (b.toNat % 16 * 4 + c.toNat / 64) :: digit (c.toNat % 64) :: cs, ?_, ?_⟩
    · simp only [List.forall_mem_cons]
      exact ⟨digit_mem (by omega), digit_mem (by omega), digit_mem (by omega), digit_mem (by omega), hmem⟩
    · have hlen : (cs.length + 1 + 1 + 1 + 1) % 4 = cs.length % 4 := by omega
      rw [encode, he]
      simp only [List.length_cons, List.cons_append, hlen]

theorem unpad_plain {cs : List Char} (h : ∀ c ∈ cs, c ≠ '=') (n : Nat) :
    unpad (cs ++ List.replicate n '=') = cs := by
  have hrep : (List.replicate n '=' ++ cs.reverse).dropWhile (· == '=') = cs.reverse := by
    rw [List.dropWhile_append_of_pos (by simp)]
    cases hr : cs.reverse with
    | nil => rfl
    | cons c more =>
      have hc : c ∈ cs := by
        rw [← List.mem_reverse, hr]
        simp
      exact List.dropWhile_cons_of_neg (by simpa using h c hc)
  rw [unpad, List.reverse_append, List.reverse_replicate, hrep, List.reverse_reverse]

/-- Putting the padding back undoes taking it off. -/
theorem pad_unpad (bs : List UInt8) : pad (unpad (encode bs)) = encode bs := by
  obtain ⟨cs, hmem, he⟩ := encode_shape bs
  rw [he, unpad_plain fun c hc => (alphabet_plain c (hmem c hc)).1, pad]
  by_cases hfull : cs.length % 4 = 0
  · simp [hfull]
  · have hlt : cs.length % 4 < 4 := Nat.mod_lt _ (by omega)
    have hmod : (4 - cs.length % 4) % 4 = 4 - cs.length % 4 := Nat.mod_eq_of_lt (by omega)
    have hne : ¬ 4 - cs.length % 4 = 4 := by omega
    simp only [hne, if_false, hmod]

/-- An unpadded encoding is a text of the alphabet. -/
theorem unpad_mem {bs : List UInt8} {c : Char} (h : c ∈ unpad (encode bs)) : c ∈ alphabet := by
  obtain ⟨cs, hmem, he⟩ := encode_shape bs
  rw [he, unpad_plain fun c hc => (alphabet_plain c (hmem c hc)).1] at h
  exact hmem c h

theorem encode_ascii (bs : List UInt8) : (encode bs).all (fun c => c.toNat < 128) = true := by
  obtain ⟨cs, hmem, he⟩ := encode_shape bs
  rw [List.all_eq_true, he]
  intro c hc
  rcases List.mem_append.mp hc with hc | hc
  · exact decide_eq_true (alphabet_plain c (hmem c hc)).2.2
  · rw [List.eq_of_mem_replicate hc]
    rfl

/-- What was encoded and stripped of its padding is read back. -/
theorem decode_encode (bs : List UInt8) : decode (pad (unpad (encode bs))) = some bs := by
  rw [pad_unpad, decode, encode_ascii, if_pos rfl, decodeFrom_encode]

end A2ARegistry.Base.Base64
