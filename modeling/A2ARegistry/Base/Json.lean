namespace A2ARegistry.Base

/-- JSON values as Python holds them. A float is kept as its `repr`. -/
inductive Json
  | null
  | bool (b : Bool)
  | int (n : Int)
  | float (repr : String)
  | str (s : String)
  | arr (items : List Json)
  | obj (fields : List (String × Json))
deriving Repr, Inhabited

namespace Json

/-- Python's `bool(value)`. -/
def truthy : Json → Bool
  | null => false
  | bool b => b
  | int n => n != 0
  | float r => r != "0.0" && r != "-0.0"
  | str s => s != ""
  | arr items => !items.isEmpty
  | obj fields => !fields.isEmpty

/-- A nullable text value, as Python reads it from a column. -/
def ofText : Option String → Json
  | none => null
  | some s => str s

/-- Python's `column == value` for a nullable text column. -/
def eqText (column : Option String) : Json → Bool
  | null => column.isNone
  | str s => column == some s
  | _ => false

/-- `fields[name]` of an object, `null` when it is absent: `dict.get(name)`. -/
def field (fields : List (String × Json)) (name : String) : Json :=
  ((fields.find? (fun f => f.1 == name)).map Prod.snd).getD null

/-- `fields.get(name, default)`. -/
def get (fields : List (String × Json)) (name : String) (default : Json) : Json :=
  ((fields.find? (fun f => f.1 == name)).map Prod.snd).getD default

/-- `value in words`, for a tuple of texts. -/
def isWord (words : List String) : Json → Bool
  | .str s => words.contains s
  | _ => false

/-- The items of a `for` loop over a JSON value; `none` when it is not iterable. -/
def iterate : Json → Option (List Json)
  | .str s => some (s.toList.map (fun c => .str (String.singleton c)))
  | .arr items => some items
  | .obj fields => some (fields.map (fun f => .str f.1))
  | _ => none

/-- The text items of a list, `none` when one is not a text. -/
def texts : List Json → Option (List String)
  | [] => some []
  | .str s :: items => (texts items).map (s :: ·)
  | _ :: _ => none

mutual

/-- `q` holds of the value and of every value inside it. -/
def Every (q : Json → Prop) : Json → Prop
  | .arr items => q (.arr items) ∧ EveryItem q items
  | .obj fields => q (.obj fields) ∧ EveryField q fields
  | v => q v

def EveryItem (q : Json → Prop) : List Json → Prop
  | [] => True
  | v :: vs => Every q v ∧ EveryItem q vs

def EveryField (q : Json → Prop) : List (String × Json) → Prop
  | [] => True
  | (_, v) :: fs => Every q v ∧ EveryField q fs

end

/-- A value that holds no others. -/
def isLeaf : Json → Bool
  | .arr _ | .obj _ => false
  | _ => true

theorem every_leaf {q : Json → Prop} {v : Json} (h : v.isLeaf = true) : v.Every q ↔ q v := by
  cases v <;> simp_all [isLeaf, Every]

theorem everyItem_iff {q : Json → Prop} (items : List Json) : EveryItem q items ↔ ∀ v ∈ items, v.Every q := by
  induction items with
  | nil => simp [EveryItem]
  | cons v vs ih => simp [EveryItem, ih]

theorem everyField_iff {q : Json → Prop} (fields : List (String × Json)) :
    EveryField q fields ↔ ∀ f ∈ fields, f.2.Every q := by
  induction fields with
  | nil => simp [EveryField]
  | cons f fs ih => simp [EveryField, ih]

@[simp] theorem every_arr {q : Json → Prop} {items : List Json} :
    (Json.arr items).Every q ↔ q (.arr items) ∧ ∀ v ∈ items, v.Every q := by
  rw [Every, everyItem_iff]

@[simp] theorem every_obj {q : Json → Prop} {fields : List (String × Json)} :
    (Json.obj fields).Every q ↔ q (.obj fields) ∧ ∀ f ∈ fields, f.2.Every q := by
  rw [Every, everyField_iff]

/-- What holds of the leaves, and of a list or an object when it holds of what is in it, holds
of every value. -/
theorem nested {P : Json → Prop} (leaf : ∀ v, v.isLeaf = true → P v)
    (arr : ∀ items, (∀ v ∈ items, P v) → P (.arr items))
    (obj : ∀ fields : List (String × Json), (∀ f ∈ fields, P f.2) → P (.obj fields)) (v : Json) : P v := by
  refine @Json.rec P (fun items => ∀ v ∈ items, P v) (fun fields => ∀ f ∈ fields, P f.2) (fun f => P f.2)
    (leaf _ rfl) (fun _ => leaf _ rfl) (fun _ => leaf _ rfl) (fun _ => leaf _ rfl) (fun _ => leaf _ rfl)
    arr obj (by simp) (fun v vs hv hvs => ?_) (by simp) (fun f fs hf hfs => ?_) (fun _ _ hv => hv) v
  · exact List.forall_mem_cons.mpr ⟨hv, hvs⟩
  · exact List.forall_mem_cons.mpr ⟨hf, hfs⟩

theorem every_of_all {q : Json → Prop} (h : ∀ v, q v) (v : Json) : v.Every q := by
  induction v using nested with
  | leaf v hleaf => exact (every_leaf hleaf).mpr (h v)
  | arr items ih => exact every_arr.mpr ⟨h _, ih⟩
  | obj fields ih => exact every_obj.mpr ⟨h _, ih⟩

theorem isWord_iff {words : List String} {j : Json} :
    j.isWord words = true ↔ ∃ s ∈ words, j = .str s := by
  cases j with
  | str s => simp [isWord]
  | _ => simp [isWord]

theorem eqText_iff {column : Option String} {j : Json} :
    j.eqText column = true ↔ j = ofText column := by
  cases column with
  | none => cases j <;> simp [eqText, ofText]
  | some s =>
    cases j with
    | str t => simpa [eqText, ofText] using eq_comm
    | _ => simp [eqText, ofText]

end Json

/-- Python's truth value of an optional string. -/
def truthy (s : Option String) : Bool :=
  match s with
  | none => false
  | some s => s != ""

end A2ARegistry.Base
