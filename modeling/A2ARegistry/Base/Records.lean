import Mathlib.Data.List.Forall2
import A2ARegistry.Base.Json

namespace A2ARegistry.Base
open Json

/-- The type of a field. A value of type `anything` is not looked at. -/
inductive FieldType
  | text | flag | integer | anything
  | list (item : FieldType)
  | dict (item : FieldType)
  | optional (value : FieldType)

namespace FieldType

/-- The value is of the type. -/
def Holds : FieldType → Json → Prop
  | .text, v => ∃ s, v = .str s
  | .flag, v => ∃ b, v = .bool b
  | .integer, v => ∃ n, v = .int n
  | .anything, _ => True
  | .list item, v => ∃ items, v = .arr items ∧ ∀ i ∈ items, item.Holds i
  | .dict item, v => ∃ fields, v = .obj fields ∧ ∀ f ∈ fields, item.Holds f.2
  | .optional value, v => v = .null ∨ value.Holds v

/-- A value of the type may be null. -/
def nullable : FieldType → Bool
  | .anything | .optional _ => true
  | _ => false

theorem nullable_of_holds {t : FieldType} (h : t.Holds .null) : t.nullable = true := by
  cases t with
  | anything | optional => rfl
  | text | flag | integer =>
    obtain ⟨_, hv⟩ := h
    cases hv
  | list | dict =>
    obtain ⟨_, hv, _⟩ := h
    cases hv

theorem ne_null {t : FieldType} {v : Json} (h : t.Holds v) (ht : t.nullable = false) : v ≠ .null := by
  rintro rfl
  rw [nullable_of_holds h] at ht
  cases ht

end FieldType

section Written

/-- The fields that are not null. -/
def written (fields : List (String × Json)) : List (String × Json) :=
  fields.filter (fun f => match f.2 with
    | .null => false
    | _ => true)

variable {fields : List (String × Json)} {name : String} {v : Json}

/-- A value, or what stands for one that was not written. -/
def orDefault (v default : Json) : Json :=
  match v with
  | .null => default
  | v => v

@[simp] theorem orDefault_null (v : Json) : orDefault v .null = v := by
  cases v <;> rfl

theorem orDefault_of_ne (h : v ≠ .null) (default : Json) : orDefault v default = v := by
  cases v with
  | null => exact absurd rfl h
  | _ => rfl

theorem orDefault_holds {t : FieldType} (h : t.Holds v) (ht : t.nullable = false) (default : Json) :
    orDefault v default = v :=
  orDefault_of_ne (FieldType.ne_null h ht) default

@[simp] theorem get_written_nil (default : Json) : Json.get (written []) name default = default := rfl

@[simp] theorem get_written_self (default : Json) :
    Json.get (written ((name, v) :: fields)) name default = orDefault v (Json.get (written fields) name default) := by
  cases v with
  | null => rfl
  | _ => simp [written, Json.get, orDefault]

@[simp] theorem get_written_ne {other : String} (h : other ≠ name) (default : Json) :
    Json.get (written ((other, v) :: fields)) name default = Json.get (written fields) name default := by
  cases v with
  | null => rfl
  | _ => simp [written, Json.get, h]

/-- A field that is not there is null. -/
theorem field_eq_get (fields : List (String × Json)) (name : String) :
    Json.field fields name = Json.get fields name .null := rfl

/-- A name that no field has is not written. -/
theorem get_written_not_mem (h : name ∉ fields.map Prod.fst) (default : Json) :
    Json.get (written fields) name default = default := by
  induction fields with
  | nil => rfl
  | cons f fields ih =>
    have hne : f.1 ≠ name := fun he => h (he ▸ List.mem_cons_self)
    rw [get_written_ne hne, ih (fun hmem => h (List.mem_cons_of_mem _ hmem))]

/-- Of fields with different names each is read back. -/
theorem get_written_mem (hnodup : (fields.map Prod.fst).Nodup) (hmem : (name, v) ∈ fields) (default : Json) :
    Json.get (written fields) name default = orDefault v default := by
  induction fields with
  | nil => cases hmem
  | cons f fields ih =>
    obtain ⟨hf, hrest⟩ := List.nodup_cons.mp hnodup
    rcases List.mem_cons.mp hmem with rfl | hmem
    · rw [get_written_self, get_written_not_mem hf]
    · have hne : f.1 ≠ name := fun he => hf (he ▸ List.mem_map_of_mem hmem)
      rw [get_written_ne hne, ih hrest hmem]

end Written

/-- A class of records: its fields with their defaults, and their types. Different fields have different names, and
only a field whose default is null may be null. -/
structure RecordClass where
  fields : List (String × Json)
  types : List FieldType
  distinct : (fields.map Prod.fst).Nodup := by decide
  defaults : List.Forall₂ (fun (t : FieldType) (f : String × Json) => t.nullable = true → f.2 = .null) types fields

/-- A record of a class, each field with its name. -/
structure Record (cls : RecordClass) where
  values : List (String × Json)
  names : values.map Prod.fst = cls.fields.map Prod.fst

namespace Record

variable {cls : RecordClass}

@[ext] theorem ext {r s : Record cls} (h : r.values = s.values) : r = s := by
  cases r
  cases s
  cases h
  rfl

/-- Each value has the type of its field. -/
def WellTyped (r : Record cls) : Prop :=
  List.Forall₂ (fun (t : FieldType) (f : String × Json) => t.Holds f.2) cls.types r.values

/-- The record as an object. -/
def toJson (r : Record cls) : Json := .obj (written r.values)

/-- A record out of an object: a field that is not there has its default. -/
def read (cls : RecordClass) (data : List (String × Json)) : Record cls where
  values := cls.fields.map (fun f => (f.1, Json.get data f.1 f.2))
  names := by simp [Function.comp_def]

/-- A field of the right type is null only if that is its default. -/
theorem fits {types : List FieldType} {fields values : List (String × Json)}
    (hdefaults : List.Forall₂ (fun (t : FieldType) (f : String × Json) => t.nullable = true → f.2 = .null) types fields)
    (hnames : values.map Prod.fst = fields.map Prod.fst)
    (htyped : List.Forall₂ (fun (t : FieldType) (f : String × Json) => t.Holds f.2) types values) :
    List.Forall₂ (fun (f v : String × Json) => f.1 = v.1 ∧ orDefault v.2 f.2 = v.2) fields values := by
  induction hdefaults generalizing values with
  | nil =>
    cases htyped
    exact List.Forall₂.nil
  | cons hdefault _ ih =>
    cases htyped with
    | cons hvalue htyped =>
      obtain ⟨hname, hnames⟩ := List.cons.inj hnames
      refine List.Forall₂.cons ⟨hname.symm, ?_⟩ (ih hnames htyped)
      rename_i v rest _
      cases hnull : v.2 with
      | null => exact hdefault (FieldType.nullable_of_holds (hnull ▸ hvalue))
      | _ => rfl

/-- What a record of the right types is written as is read as that record. -/
theorem read_written {r : Record cls} (h : r.WellTyped) : read cls (written r.values) = r := by
  have hnodup : (r.values.map Prod.fst).Nodup := r.names ▸ cls.distinct
  have hread : ∀ {fields values : List (String × Json)},
      List.Forall₂ (fun (f v : String × Json) => f.1 = v.1 ∧ orDefault v.2 f.2 = v.2) fields values →
      (∀ v ∈ values, v ∈ r.values) →
      fields.map (fun f => (f.1, Json.get (written r.values) f.1 f.2)) = values := by
    intro fields values hfits hmem
    induction hfits with
    | nil => rfl
    | cons hfirst _ ih =>
      obtain ⟨hin, hmem⟩ := List.forall_mem_cons.mp hmem
      obtain ⟨hname, hvalue⟩ := hfirst
      rw [List.map_cons, ih hmem, hname, get_written_mem hnodup hin, hvalue]
  exact ext (hread (fits cls.defaults r.names h) fun _ hv => hv)

/-- It is written with no other keys than its fields. -/
theorem written_known (r : Record cls) : ∀ f ∈ written r.values, f.1 ∈ cls.fields.map Prod.fst := fun _ hf =>
  r.names ▸ List.mem_map_of_mem (List.mem_filter.mp hf).1

end Record

end A2ARegistry.Base
