import A2ARegistry.Base.Dumps
import A2ARegistry.Base.Tokens

namespace A2ARegistry.Base.Json

variable {p : Python}

/-- A condition on leaves, on the nodes of a value: on a key it is that on the text it is. -/
def node (good : Json → Prop) : Json → Prop
  | .arr _ => True
  | .obj fields => ∀ f ∈ fields, good (.str f.1)
  | v => good v

/-- The `repr` of a float: one of the three that are no numbers, or the number itself. -/
def IsFloat (p : Python) (r : String) : Prop :=
  r ∈ ["nan", "inf", "-inf"] ∨ scanNumber p r.toList = some (.float r, [])

def decodedNode (p : Python) : Json → Prop
  | .float r => IsFloat p r
  | .obj fields => (fields.map Prod.fst).Nodup
  | _ => True

/-- A value as `json.loads` makes it: its floats are what a `repr` is, its keys are distinct. -/
def Decoded (p : Python) (v : Json) : Prop := v.Every (decodedNode p)

theorem node_leaf {good : Json → Prop} {v : Json} (h : v.isLeaf = true) :
    v.Every (node good) ↔ good v := by
  rw [every_leaf h]
  cases v <;> first | rfl | cases h

theorem Token.congr {α : Type} {read : Nat → List Char → Option (α × List Char)} {good good' : Prop}
    {a : α} {cs : List Char} (h : Token read good a cs) (hg : good' ↔ good) : Token read good' a cs :=
  ⟨h.head, fun hgood => h.reads (hg.mp hgood), fun n rest r hs hr => by rw [hg]; exact h.only n rest r hs hr⟩

section Styles

variable {st : Style} {good : Json → Prop}

theorem renderItems_join (st : Style) (items : List Json) :
    renderItems st items = join [' '] (items.map (render st)) := by
  induction items with
  | nil => rfl
  | cons v vs ih =>
    cases vs with
    | nil => rfl
    | cons w ws =>
      rw [renderItems, ih]
      · rfl
      · simp

/-- A field as it is written. -/
def renderField (st : Style) (f : String × Json) : List Char :=
  st.text f.1.toList ++ ':' :: ' ' :: render st f.2

theorem renderFields_join (st : Style) (fields : List (String × Json)) :
    renderFields st fields = join [' '] (fields.map (renderField st)) := by
  induction fields with
  | nil => rfl
  | cons f fs ih =>
    cases fs with
    | nil => rfl
    | cons g gs =>
      rw [renderFields, ih]
      · simp only [List.map_cons, join, renderField, List.append_assoc, List.cons_append, List.nil_append]
      · simp

/-- A style whose leaves are read back, if they are good, has its values read back, if all
their leaves and keys are good. -/
theorem render_token
    (leaf : ∀ v, v.isLeaf = true → v.Decoded p → Token (scan p) (good v) v (render st v)) (v : Json)
    (hv : v.Decoded p) : Token (scan p) (v.Every (node good)) v (render st v) := by
  induction v using nested with
  | leaf v hleaf => exact (leaf v hleaf hv).congr (node_leaf hleaf)
  | arr items ih =>
    have hitems : ∀ v ∈ items, Token (scan p) (v.Every (node good)) v (render st v) := fun v hmem =>
      ih v hmem ((every_arr.mp hv).2 v hmem)
    rw [render, renderItems_join]
    exact (Token.of_items gap_blank hitems).congr (by simp [node])
  | obj fields ih =>
    obtain ⟨hkeys, hvalues⟩ := every_obj.mp hv
    have hfields : ∀ f ∈ fields, Token (fun n => scanField n (scan p n))
        (good (.str f.1) ∧ f.2.Every (node good)) f (renderField st f) := by
      intro f hmem
      have hkey := leaf (.str f.1) rfl ((every_leaf rfl).mpr trivial)
      exact Token.of_field gap_blank hkey.of_key (ih f hmem (hvalues f hmem))
    rw [render, renderFields_join]
    refine (Token.of_fields gap_blank hkeys hfields).congr ?_
    simp [node, forall_and]

end Styles

section Escapes

theorem hexVal_digitChar : ∀ d < 16, hexVal (Nat.digitChar d) = some d := by decide

theorem scanHex_hexDigits {n : Nat} (hn : n < 0x10000) (more : List Char) :
    scanHex (hexDigits 4 n ++ more) = some (n, more) := by
  have hdigits : hexDigits 4 n = [Nat.digitChar (n / 16 / 16 / 16 % 16), Nat.digitChar (n / 16 / 16 % 16),
      Nat.digitChar (n / 16 % 16), Nat.digitChar (n % 16)] := rfl
  have hvalue : ((n / 16 / 16 / 16 % 16 * 16 + n / 16 / 16 % 16) * 16 + n / 16 % 16) * 16 + n % 16 = n := by
    omega
  have hlt : ∀ m, m % 16 < 16 := fun m => Nat.mod_lt m (by decide)
  simp only [hdigits, List.cons_append, List.nil_append, scanHex, hexVal_digitChar _ (hlt _),
    Option.bind_eq_bind, Option.bind_some, hvalue]
  rfl

theorem char_valid (c : Char) : c.toNat < 0xd800 ∨ (0xdfff < c.toNat ∧ c.toNat < 0x110000) := c.valid

theorem scanEscape_unicode {c : Char} (hc : c.toNat < 0x10000) (more : List Char) :
    scanEscape ('u' :: hexDigits 4 c.toNat ++ more) = some (c, more) := by
  have hvalid := char_valid c
  have hhigh : isHigh c.toNat = false := by
    simp only [isHigh, Bool.and_eq_false_iff, decide_eq_false_iff_not]
    omega
  have hlow : isLow c.toNat = false := by
    simp only [isLow, Bool.and_eq_false_iff, decide_eq_false_iff_not]
    omega
  have hscan : scanEscape ('u' :: hexDigits 4 c.toNat ++ more) = scanUnicode (hexDigits 4 c.toNat ++ more) := rfl
  rw [hscan, scanUnicode, scanHex_hexDigits hc]
  simp [hhigh, hlow]

theorem scanLow_pair {high low : Nat} (h : isLow low = true) (more : List Char) :
    scanLow high (unicodeEscape low ++ more) =
      some (Char.ofNat (0x10000 + (high - 0xd800) * 0x400 + (low - 0xdc00)), more) := by
  have hlt : low < 0x10000 := by
    simp only [isLow, Bool.and_eq_true, decide_eq_true_eq] at h
    omega
  have hscan : scanLow high (unicodeEscape low ++ more) = (scanHex (hexDigits 4 low ++ more)).bind
      (fun r => if isLow r.1 then
        some (Char.ofNat (0x10000 + (high - 0xd800) * 0x400 + (r.1 - 0xdc00)), r.2) else none) := rfl
  rw [hscan, scanHex_hexDigits hlt, Option.bind_some, if_pos h]

theorem scanEscape_surrogates {high low : Nat} (hh : isHigh high = true) (hl : isLow low = true)
    (more : List Char) : scanEscape ('u' :: hexDigits 4 high ++ (unicodeEscape low ++ more)) =
      some (Char.ofNat (0x10000 + (high - 0xd800) * 0x400 + (low - 0xdc00)), more) := by
  have hlt : high < 0x10000 := by
    simp only [isHigh, Bool.and_eq_true, decide_eq_true_eq] at hh
    omega
  have hscan : scanEscape ('u' :: hexDigits 4 high ++ (unicodeEscape low ++ more)) =
      scanUnicode (hexDigits 4 high ++ (unicodeEscape low ++ more)) := rfl
  rw [hscan, scanUnicode, scanHex_hexDigits hlt, ← scanLow_pair hl]
  simp only [Option.bind_eq_bind, Option.bind_some, hh, if_true]

/-- The two escapes of a character that has no room in one. -/
theorem scanEscape_pair {c : Char} (hc : 0x10000 ≤ c.toNat) (more : List Char) :
    scanEscape ('u' :: hexDigits 4 (0xd800 + (c.toNat - 0x10000) / 0x400) ++
      (unicodeEscape (0xdc00 + (c.toNat - 0x10000) % 0x400) ++ more)) = some (c, more) := by
  have hvalid := char_valid c
  have hback : Char.ofNat c.toNat = c := Char.ofNat_toNat c
  generalize c.toNat = n at hc hvalid hback ⊢
  have hhigh : isHigh (0xd800 + (n - 0x10000) / 0x400) = true := by
    simp only [isHigh, Bool.and_eq_true, decide_eq_true_eq]
    omega
  have hlow : isLow (0xdc00 + (n - 0x10000) % 0x400) = true := by
    simp only [isLow, Bool.and_eq_true, decide_eq_true_eq]
    omega
  have hsum : 0x10000 + (0xd800 + (n - 0x10000) / 0x400 - 0xd800) * 0x400 +
      (0xdc00 + (n - 0x10000) % 0x400 - 0xdc00) = n := by
    omega
  rw [scanEscape_surrogates hhigh hlow, hsum, hback]

/-- A short escape is read as its character. -/
theorem scanChar_escape {c letter : Char} (hu : letter ≠ 'u') (h : escapes.lookup letter = some c)
    (more : List Char) : scanChar ('\\' :: letter :: more) = some (c, more) := by
  have hscan : scanChar ('\\' :: letter :: more) = scanEscape (letter :: more) := rfl
  rw [hscan, scanEscape, if_neg hu, h]
  rfl

theorem lookup_mem {c d : Char} {l : List (Char × Char)} (h : l.lookup c = some d) : (c, d) ∈ l := by
  obtain ⟨before, after, rfl, _⟩ := List.lookup_eq_some_iff.mp h
  simp

theorem scanChar_self {c : Char} (hb : c ≠ '\\') (hc : ¬ c < ' ') (more : List Char) :
    scanChar (c :: more) = some (c, more) := by
  rw [scanChar, if_neg hb, if_neg hc]

/-- Every character `json.dumps` writes is read back. -/
theorem dumpsChar_token (c : Char) : CharToken True c (dumpsChar c) := by
  unfold dumpsChar
  cases hl : escapeDct.lookup c with
  | some letter =>
    have hall : ∀ e ∈ escapeDct, e.2 ≠ 'u' ∧ escapes.lookup e.2 = some e.1 := by decide
    obtain ⟨hu, hback⟩ := hall _ (lookup_mem hl)
    exact ⟨⟨'\\', [letter], rfl, by decide⟩, fun _ more => scanChar_escape hu hback more,
      fun h => absurd trivial h⟩
  | none =>
    have hne : ∀ d, escapeDct.lookup d ≠ none → c ≠ d := fun d hd he => hd (he ▸ hl)
    dsimp only
    split
    · rename_i hprint
      exact ⟨⟨c, [], rfl, hne '"' (by decide)⟩,
        fun _ more => scanChar_self (hne '\\' (by decide)) (Char.not_lt.mpr hprint.1) more,
        fun h => absurd trivial h⟩
    · split
      · rename_i hc
        exact ⟨⟨'\\', _, rfl, by decide⟩, fun _ more => scanEscape_unicode hc more,
          fun h => absurd trivial h⟩
      · rename_i hc
        refine ⟨⟨'\\', _, rfl, by decide⟩, fun _ more => ?_, fun h => absurd trivial h⟩
        rw [List.append_assoc]
        exact scanEscape_pair (by omega) more

/-- So is every character that is written with `ensure_ascii=False`. -/
theorem plainChar_token (c : Char) : CharToken True c (plainChar c) := by
  unfold plainChar
  cases hl : escapeDct.lookup c with
  | some letter =>
    have hdumps := dumpsChar_token c
    simp only [dumpsChar, hl] at hdumps
    exact hdumps
  | none =>
    have hne : ∀ d, escapeDct.lookup d ≠ none → c ≠ d := fun d hd he => hd (he ▸ hl)
    dsimp only
    split
    · rename_i hcontrol
      have hlt : c.toNat < 32 := hcontrol
      exact ⟨⟨'\\', _, rfl, by decide⟩, fun _ more => scanEscape_unicode (by omega) more,
        fun h => absurd trivial h⟩
    · rename_i hcontrol
      exact ⟨⟨c, [], rfl, hne '"' (by decide)⟩, fun _ more => scanChar_self (hne '\\' (by decide)) hcontrol more,
        fun h => absurd trivial h⟩

/-- `repr` writes the character with an escape that JSON does not have: `\x` or `\U`. -/
def hexes (p : Python) (c : Char) : Prop :=
  ¬ (' ' ≤ c ∧ c ≤ '~') ∧ reprEscapes.lookup c = none ∧ ¬ (0x80 ≤ c.toNat ∧ p.isPrintable c) ∧
    (c.toNat < 0x100 ∨ 0x10000 ≤ c.toNat)

/-- In double quotes the characters of a `repr` are read back, but for those escapes. -/
theorem reprChar_token {c : Char} (hc : c ≠ '"') : CharToken (¬ hexes p c) c (reprChar p '"' c) := by
  unfold reprChar
  by_cases hb : c = '\\'
  · subst hb
    rw [if_pos (Or.inr rfl)]
    exact ⟨⟨'\\', _, rfl, by decide⟩, fun _ more => rfl, fun h => absurd (fun hx => hx.1 (by decide)) h⟩
  rw [if_neg (by simp [hc, hb])]
  cases hl : reprEscapes.lookup c with
  | some letter =>
    have hall : ∀ e ∈ reprEscapes, e.2 ≠ 'u' ∧ escapes.lookup e.2 = some e.1 := by decide
    obtain ⟨hu, hback⟩ := hall _ (lookup_mem hl)
    exact ⟨⟨'\\', [letter], rfl, by decide⟩, fun _ more => scanChar_escape hu hback more,
      fun h => absurd (fun hx => by simp [hx.2.1] at hl) h⟩
  | none =>
    dsimp only
    split
    · rename_i hprint
      exact ⟨⟨c, [], rfl, hc⟩, fun _ more => scanChar_self hb (Char.not_lt.mpr hprint.1) more,
        fun h => absurd (fun hx => hx.1 hprint) h⟩
    · rename_i hprint
      split
      · rename_i hu
        have hspace : ¬ c < ' ' := by
          intro hlt
          have : c.toNat < 32 := hlt
          omega
        exact ⟨⟨c, [], rfl, hc⟩, fun _ more => scanChar_self hb hspace more,
          fun h => absurd (fun hx => hx.2.2.1 hu) h⟩
      · rename_i hu
        split
        · rename_i hx
          exact ⟨⟨'\\', _, rfl, by decide⟩, fun h => absurd ⟨hprint, hl, hu, Or.inl hx⟩ h, fun _ more => rfl⟩
        · rename_i hx
          split
          · rename_i hw
            refine ⟨⟨'\\', _, rfl, by decide⟩, fun _ more => scanEscape_unicode hw more, fun h => ?_⟩
            exact absurd (fun hh => by have := hh.2.2.2; omega) h
          · rename_i hw
            exact ⟨⟨'\\', _, rfl, by decide⟩,
              fun h => absurd ⟨hprint, hl, hu, Or.inr (by omega)⟩ h, fun _ more => rfl⟩

end Escapes

section Leaves

theorem scanNumber_nan (p : Python) {r : String} (h : r ∈ ["nan", "inf", "-inf"]) :
    scanNumber p r.toList = none := by
  simp only [List.mem_cons, List.not_mem_nil, or_false] at h
  rcases h with rfl | rfl | rfl <;> rfl

/-- The style of `json.dumps` with another way to write the characters of a text. -/
def quotedStyle (f : Char → List Char) : Style :=
  { dumpsStyle with text := fun s => '"' :: (s.flatMap f ++ ['"']) }

/-- A leaf is read back, if the characters of a text are. -/
theorem quoted_leaf {f : Char → List Char} (hf : ∀ c, CharToken True c (f c)) (v : Json) (hleaf : v.isLeaf = true)
    (hv : v.Decoded p) : Token (scan p) True v (render (quotedStyle f) v) := by
  have hword : ∀ {cs more : List Char} {c : Char}, cs = c :: more →
      (isBlank c = false ∧ c ∉ [']', '}', '"', '[', '{']) →
      (∀ rest, scanWord p (cs ++ rest) = some (v, rest)) → Token (scan p) True v cs :=
    fun hcs hc h => Token.of_word hcs hc fun rest _ => ⟨fun _ => h rest, fun hn => absurd trivial hn⟩
  cases v with
  | null => exact hword rfl (by decide) fun rest => rfl
  | bool b =>
    cases b with
    | true => exact hword rfl (by decide) fun rest => rfl
    | false => exact hword rfl (by decide) fun rest => rfl
  | int n => exact Token.of_number (scanNumber_int p n)
  | float r =>
    rcases (every_leaf rfl).mp hv with hr | hr
    · simp only [List.mem_cons, List.not_mem_nil, or_false] at hr
      rcases hr with rfl | rfl | rfl
      · exact hword rfl (by decide) fun rest => rfl
      · exact hword rfl (by decide) fun rest => rfl
      · exact hword rfl (by decide) fun rest => rfl
    · have hne : r ∉ ["nan", "inf", "-inf"] := by
        intro hmem
        rw [scanNumber_nan p hmem] at hr
        cases hr
      simp only [List.mem_cons, List.not_mem_nil, or_false, not_or] at hne
      have htext : dumpsFloat r = r := by
        rw [dumpsFloat, if_neg hne.1, if_neg hne.2.1, if_neg hne.2.2]
      have hrender : render (quotedStyle f) (.float r) = r.toList := congrArg String.toList htext
      rw [hrender]
      exact Token.of_number hr
  | str s =>
    exact (Token.of_text (t := s) (fun c _ => hf c)).congr (by simp)
  | arr | obj => cases hleaf

/-- A leaf `json.dumps` writes is read back. -/
theorem dumps_leaf (v : Json) (hleaf : v.isLeaf = true) (hv : v.Decoded p) :
    Token (scan p) True v (render dumpsStyle v) :=
  quoted_leaf dumpsChar_token v hleaf hv

theorem plain_leaf (v : Json) (hleaf : v.isLeaf = true) (hv : v.Decoded p) :
    Token (scan p) True v (render plainStyle v) :=
  quoted_leaf plainChar_token v hleaf hv

/-- The leaves that `repr` writes as JSON: numbers, and the texts it puts in double quotes and
writes without an escape that JSON does not have. -/
def reprGood (p : Python) : Json → Prop
  | .null | .bool _ => False
  | .int _ => True
  | .float r => r ∉ ["nan", "inf", "-inf"]
  | .str s => ('\'' ∈ s.toList ∧ '"' ∉ s.toList) ∧ ∀ c ∈ s.toList, ¬ hexes p c
  | .arr _ | .obj _ => True

theorem render_reprText (p : Python) (s : String) : render (reprStyle p) (.str s) =
    reprQuote s.toList :: (s.toList.flatMap (reprChar p (reprQuote s.toList)) ++ [reprQuote s.toList]) := rfl

theorem repr_leaf (v : Json) (hleaf : v.isLeaf = true) (hv : v.Decoded p) :
    Token (scan p) (reprGood p v) v (render (reprStyle p) v) := by
  have hnone : ∀ {cs more : List Char} {c : Char}, ¬ reprGood p v → cs = c :: more →
      (isBlank c = false ∧ c ∉ [']', '}', '"', '[', '{']) → (∀ rest, scanWord p (cs ++ rest) = none) →
      Token (scan p) (reprGood p v) v cs :=
    fun hbad hcs hc h => Token.of_word hcs hc fun rest _ => ⟨fun hg => absurd hg hbad, fun _ => h rest⟩
  cases v with
  | null => exact hnone id rfl (by decide) fun rest => rfl
  | bool b =>
    cases b with
    | true => exact hnone id rfl (by decide) fun rest => rfl
    | false => exact hnone id rfl (by decide) fun rest => rfl
  | int n => exact Token.of_number (scanNumber_int p n)
  | float r =>
    rcases (every_leaf rfl).mp hv with hr | hr
    · have hbad : ¬ reprGood p (.float r) := fun h => h hr
      simp only [List.mem_cons, List.not_mem_nil, or_false] at hr
      rcases hr with rfl | rfl | rfl
      · exact hnone hbad rfl (by decide) fun rest => rfl
      · exact hnone hbad rfl (by decide) fun rest => rfl
      · exact hnone hbad rfl (by decide) fun rest => rfl
    · have hne : r ∉ ["nan", "inf", "-inf"] := by
        intro hmem
        rw [scanNumber_nan p hmem] at hr
        cases hr
      exact (Token.of_number hr).congr (by simpa [reprGood] using hne)
  | str s =>
    by_cases hq : '\'' ∈ s.toList ∧ '"' ∉ s.toList
    · have hquote : reprQuote s.toList = '"' := if_pos hq
      have hchars : ∀ c ∈ s.toList, CharToken (¬ hexes p c) c (reprChar p '"' c) := fun c hc =>
        reprChar_token fun he => hq.2 (he ▸ hc)
      rw [render_reprText, hquote]
      exact (Token.of_text hchars).congr (by simp [reprGood, hq])
    · have hquote : reprQuote s.toList = '\'' := if_neg hq
      rw [render_reprText, hquote]
      exact hnone (fun h => hq h.1) rfl (by decide) fun rest => rfl
  | arr | obj => cases hleaf

end Leaves

/-- A value whose leaves are read back is. -/
theorem loads_render {st : Style}
    (leaf : ∀ v, v.isLeaf = true → v.Decoded p → Token (scan p) True v (render st v)) {v : Json} (hv : v.Decoded p) :
    loads p (String.ofList (render st v)) = some v := by
  have hall : ∀ w : Json, node (fun _ => True) w := by
    intro w
    cases w <;> simp [node]
  have htoken := render_token (fun v hleaf hv => leaf v hleaf hv) v hv
  exact (htoken.loads v).mpr ⟨every_of_all hall v, rfl⟩

/-- `json.loads(json.dumps(v)) == v`. -/
theorem loads_dumps {v : Json} (hv : v.Decoded p) : loads p (dumps v) = some v :=
  loads_render dumps_leaf hv

/-- `json.loads(json.dumps(v, ensure_ascii=False)) == v`. -/
theorem loads_dumpsPlain {v : Json} (hv : v.Decoded p) : loads p (dumpsPlain v) = some v :=
  loads_render plain_leaf hv

/-- What `json.loads` makes of a `repr` is the value, or it raises. -/
theorem loads_repr {v : Json} (hv : v.Decoded p) (w : Json) :
    loads p (String.ofList (render (reprStyle p) v)) = some w ↔ v.Every (node (reprGood p)) ∧ w = v :=
  (render_token (fun v hleaf hv => repr_leaf v hleaf hv) v hv).loads w

section Decoding

theorem putField_mem {fields : List (String × Json)} {f g : String × Json} (h : g ∈ putField fields f) :
    g ∈ fields ∨ g = f := by
  unfold putField at h
  split at h
  · obtain ⟨x, hx, he⟩ := List.mem_map.mp h
    split at he
    · exact Or.inr he.symm
    · exact Or.inl (he ▸ hx)
  · simpa using h

theorem putField_nodup {fields : List (String × Json)} (h : (fields.map Prod.fst).Nodup)
    (f : String × Json) : ((putField fields f).map Prod.fst).Nodup := by
  by_cases hf : f.1 ∈ fields.map Prod.fst
  · have hany : fields.any (fun g => g.1 == f.1) = true := by
      obtain ⟨g, hg, he⟩ := List.mem_map.mp hf
      exact List.any_eq_true.mpr ⟨g, hg, beq_iff_eq.mpr he⟩
    have hkeys : (putField fields f).map Prod.fst = fields.map Prod.fst := by
      rw [putField, if_pos hany, List.map_map]
      refine List.map_congr_left fun g _ => ?_
      simp only [Function.comp_apply]
      split
      · rename_i he
        exact (beq_iff_eq.mp he).symm
      · rfl
    rw [hkeys]
    exact h
  · rw [putField_new hf, List.map_append, List.nodup_append]
    refine ⟨h, by simp, fun a ha b hb => ?_⟩
    rintro rfl
    simp only [List.map_cons, List.map_nil, List.mem_singleton] at hb
    exact hf (hb ▸ ha)

/-- `dict.get` after an assignment. -/
theorem find_putField (fields : List (String × Json)) (f : String × Json) (key : String) :
    ((putField fields f).find? (fun g => g.1 == key)).map Prod.snd =
      if key = f.1 then some f.2 else (fields.find? (fun g => g.1 == key)).map Prod.snd := by
  unfold putField
  split
  · rename_i hany
    rw [List.find?_map, Option.map_map]
    by_cases hkey : key = f.1
    · subst hkey
      have hsame : ((fun g : String × Json => g.1 == f.1) ∘ fun g => if g.1 == f.1 then f else g) =
          fun g => g.1 == f.1 := by
        funext g
        by_cases hg : g.1 = f.1 <;> simp [hg]
      obtain ⟨g, hg, hgf⟩ := List.any_eq_true.mp hany
      obtain ⟨g', hfind⟩ := Option.isSome_iff_exists.mp
        (List.find?_isSome.mpr (⟨g, hg, hgf⟩ : ∃ g ∈ fields, (g.1 == f.1) = true))
      have hfound : (g'.1 == f.1) = true := by simpa using List.find?_some hfind
      rw [hsame, hfind, if_pos rfl, Option.map_some, Function.comp_apply, if_pos hfound]
    · have hsame : ((fun g : String × Json => g.1 == key) ∘ fun g => if g.1 == f.1 then f else g) =
          fun g => g.1 == key := by
        funext g
        by_cases hg : g.1 = f.1
        · simp [hg]
        · simp [hg]
      rw [hsame, if_neg hkey]
      cases hfind : fields.find? (fun g => g.1 == key) with
      | none => rfl
      | some g =>
        have hg : g.1 = key := by simpa using List.find?_some hfind
        simp [hg, hkey]
  · rename_i hany
    have hnone : fields.find? (fun g => g.1 == f.1) = none := by
      refine List.find?_eq_none.mpr fun g hg hgf => hany ?_
      exact List.any_eq_true.mpr ⟨g, hg, hgf⟩
    rw [List.find?_append]
    by_cases hkey : key = f.1
    · subst hkey
      simp [hnone]
    · have hother : (f.1 == key) = false := beq_false_of_ne (Ne.symm hkey)
      simp [hkey, hother]

theorem dict_spec (pairs : List (String × Json)) :
    ((dict pairs).map Prod.fst).Nodup ∧ ∀ f ∈ dict pairs, f ∈ pairs := by
  have hfold : ∀ todo done : List (String × Json), (done.map Prod.fst).Nodup →
      (((todo.foldl putField done).map Prod.fst).Nodup ∧
        ∀ f ∈ todo.foldl putField done, f ∈ done ∨ f ∈ todo) := by
    intro todo
    induction todo with
    | nil => exact fun done hd => ⟨hd, fun f hf => Or.inl hf⟩
    | cons g todo ih =>
      intro done hd
      obtain ⟨hnodup, hmem⟩ := ih (putField done g) (putField_nodup hd g)
      refine ⟨hnodup, fun f hf => ?_⟩
      rcases hmem f hf with hf | hf
      · rcases putField_mem hf with hf | rfl
        · exact Or.inl hf
        · exact Or.inr List.mem_cons_self
      · exact Or.inr (List.mem_cons_of_mem g hf)
  obtain ⟨hnodup, hmem⟩ := hfold pairs [] (by simp)
  exact ⟨hnodup, fun f hf => by simpa using hmem f hf⟩

section

variable {α : Type} {close : Char} {elements : List Char → Option (List α × List Char)} {P : α → Prop}

theorem scanInside_all (h : ∀ cs r, elements cs = some r → ∀ a ∈ r.1, P a) {cs : List Char}
    {r : List α × List Char} (hr : scanInside close elements cs = some r) : ∀ a ∈ r.1, P a := by
  unfold scanInside at hr
  split at hr
  · cases hr
  · split at hr
    · cases hr
      simp
    · exact h _ r hr

theorem scanRest_all (h : ∀ cs r, elements cs = some r → ∀ a ∈ r.1, P a) {a : α} (ha : P a)
    {cs : List Char} {r : List α × List Char} (hr : scanRest close elements a cs = some r) :
    ∀ b ∈ r.1, P b := by
  unfold scanRest at hr
  split at hr
  · cases hr
  · split at hr
    · cases hr
      simpa using ha
    · split at hr
      · obtain ⟨t, ht, rfl⟩ := Option.map_eq_some_iff.mp hr
        exact List.forall_mem_cons.mpr ⟨ha, h _ t ht⟩
      · cases hr

end

theorem scanWord_decoded (hfloat : ∀ s, IsFloat p (p.floatOf s)) {cs : List Char}
    {r : Json × List Char} (h : scanWord p cs = some r) : r.1.Decoded p := by
  unfold scanWord at h
  split at h
  · rename_i word value hfind
    have hmem := List.mem_of_find?_eq_some hfind
    cases h
    simp only [constants, List.mem_cons, Prod.mk.injEq, List.not_mem_nil, or_false] at hmem
    rcases hmem with ⟨_, rfl⟩ | ⟨_, rfl⟩ | ⟨_, rfl⟩ | ⟨_, rfl⟩ | ⟨_, rfl⟩ | ⟨_, rfl⟩
    all_goals simp [Decoded, Every, decodedNode, IsFloat]
  · simp only [scanNumber, Option.bind_eq_bind, Option.bind_eq_some_iff] at h
    obtain ⟨w, _, h⟩ := h
    simp only [Option.pure_def, Option.some.injEq] at h
    rw [← h, numberValue]
    split
    · exact (every_leaf rfl).mpr trivial
    · exact (every_leaf rfl).mpr (hfloat _)

/-- `json.loads` makes no other values. -/
theorem scan_decoded (hfloat : ∀ s, IsFloat p (p.floatOf s)) (n : Nat) :
    (∀ cs r, scan p n cs = some r → r.1.Decoded p) ∧
    (∀ cs r, scanItems p n cs = some r → ∀ v ∈ r.1, v.Decoded p) ∧
    ∀ cs r, scanFields p n cs = some r → ∀ f ∈ r.1, f.2.Decoded p := by
  induction n with
  | zero =>
    refine ⟨?_, ?_, ?_⟩ <;>
    · intro cs r h
      cases h
  | succ n ih =>
    obtain ⟨hv, hi, hf⟩ := ih
    refine ⟨fun cs r h => ?_, fun cs r h => ?_, fun cs r h => ?_⟩
    · rcases head_cases cs with ⟨rest, rfl⟩ | ⟨rest, rfl⟩ | ⟨rest, rfl⟩ | hw
      · obtain ⟨t, _, rfl⟩ := Option.map_eq_some_iff.mp h
        exact (every_leaf rfl).mpr trivial
      · obtain ⟨t, ht, rfl⟩ := Option.map_eq_some_iff.mp h
        exact every_arr.mpr ⟨trivial, scanInside_all hi ht⟩
      · obtain ⟨t, ht, rfl⟩ := Option.map_eq_some_iff.mp h
        obtain ⟨hnodup, hmem⟩ := dict_spec t.1
        have hvalues := scanInside_all (P := fun f => f.2.Decoded p) hf ht
        exact every_obj.mpr ⟨hnodup, fun f hin => hvalues f (hmem f hin)⟩
      · rw [scan_word p n hw] at h
        exact scanWord_decoded hfloat h
    · obtain ⟨t, ht, h⟩ := Option.bind_eq_some_iff.mp h
      exact scanRest_all hi (hv cs t ht) h
    · obtain ⟨t, ht, h⟩ := Option.bind_eq_some_iff.mp h
      obtain ⟨key, _, ht⟩ := Option.bind_eq_some_iff.mp ht
      obtain ⟨more, _, ht⟩ := Option.bind_eq_some_iff.mp ht
      obtain ⟨u, hu, rfl⟩ := Option.map_eq_some_iff.mp ht
      exact scanRest_all (P := fun f => f.2.Decoded p) hf (hv more u hu) h

theorem loads_decoded (hfloat : ∀ s, IsFloat p (p.floatOf s)) {text : String} {v : Json}
    (h : loads p text = some v) : v.Decoded p := by
  unfold loads at h
  split at h
  · rename_i value rest hscan
    split at h
    · cases h
      exact (scan_decoded hfloat _).1 _ _ hscan
    · cases h
  · cases h

end Decoding

mutual

/-- The text of `json.dumps` with `separators=(",", ":")`. -/
def compactChars : Json → List Char
  | .arr items => '[' :: (compactItems items ++ [']'])
  | .obj fields => '{' :: (compactFields fields ++ ['}'])
  | v => render dumpsStyle v

def compactItems : List Json → List Char
  | [] => []
  | [v] => compactChars v
  | v :: vs => compactChars v ++ ',' :: compactItems vs

def compactFields : List (String × Json) → List Char
  | [] => []
  | [(k, v)] => dumpsStyle.text k.toList ++ ':' :: compactChars v
  | (k, v) :: fs => dumpsStyle.text k.toList ++ ':' :: compactChars v ++ ',' :: compactFields fs

end

/-- `json.dumps(value, separators=(",", ":"))`. -/
def compact (v : Json) : String := String.ofList (compactChars v)

theorem compact_leaf {v : Json} (h : v.isLeaf = true) : compactChars v = render dumpsStyle v := by
  cases v with
  | arr | obj => cases h
  | _ => rfl

theorem compactItems_join (items : List Json) : compactItems items = join [] (items.map compactChars) := by
  induction items with
  | nil => rfl
  | cons v vs ih =>
    cases vs with
    | nil => rfl
    | cons w ws =>
      rw [compactItems, ih]
      · rfl
      · simp

/-- A field as it is written. -/
def compactField (f : String × Json) : List Char := dumpsStyle.text f.1.toList ++ ':' :: compactChars f.2

theorem compactFields_join (fields : List (String × Json)) :
    compactFields fields = join [] (fields.map compactField) := by
  induction fields with
  | nil => rfl
  | cons f fs ih =>
    cases fs with
    | nil => rfl
    | cons g gs =>
      rw [compactFields, ih]
      · simp only [List.map_cons, join, compactField, List.append_assoc, List.cons_append, List.nil_append]
      · simp

/-- A decoded value is read back from its compact text. -/
theorem compact_token (v : Json) (hv : v.Decoded p) : Token (scan p) True v (compactChars v) := by
  induction v using nested with
  | leaf v hleaf =>
    rw [compact_leaf hleaf]
    exact dumps_leaf v hleaf hv
  | arr items ih =>
    have hitems : ∀ v ∈ items, Token (scan p) True v (compactChars v) := fun v hmem =>
      ih v hmem ((every_arr.mp hv).2 v hmem)
    rw [compactChars, compactItems_join]
    exact (Token.of_items gap_nil hitems).congr (by simp)
  | obj fields ih =>
    obtain ⟨hkeys, hvalues⟩ := every_obj.mp hv
    have hfields : ∀ f ∈ fields, Token (fun n => scanField n (scan p n)) (True ∧ True) f (compactField f) := by
      intro f hmem
      have hkey : Token (scan p) True (.str f.1) (render dumpsStyle (.str f.1)) :=
        dumps_leaf (.str f.1) rfl ((every_leaf rfl).mpr trivial)
      exact Token.of_field gap_nil hkey.of_key (ih f hmem (hvalues f hmem))
    rw [compactChars, compactFields_join]
    exact (Token.of_fields gap_nil hkeys hfields).congr (by simp)

/-- `json.loads(json.dumps(v, separators=(",", ":"))) == v`. -/
theorem loads_compact {v : Json} (hv : v.Decoded p) : loads p (compact v) = some v :=
  ((compact_token v hv).loads v).mpr ⟨trivial, rfl⟩

end A2ARegistry.Base.Json
