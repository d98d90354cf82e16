import Mathlib.Data.List.DropRight
import A2ARegistry.Base.Dumps
import A2ARegistry.Base.Text

namespace A2ARegistry.Base

/-- What a YAML document is loaded as. A float is the text of its `repr`, a set is the list of its members, and a pair
is an entry of an ordered mapping. -/
inductive Yaml
  | null
  | bool (b : Bool)
  | int (n : Int)
  | float (r : String)
  | str (s : String)
  | bytes (b : List UInt8)
  | date (text : String)
  | datetime (text : String)
  | set (members : List Yaml)
  | pair (first second : Yaml)
  | seq (items : List Yaml)
  | map (items : List (Yaml × Yaml))

namespace Yaml

/-- `bool(value)`. -/
def truthy : Yaml → Bool
  | .null => false
  | .bool b => b
  | .int n => n != 0
  | .float r => (Json.float r).truthy
  | .str s => s != ""
  | .bytes b => !b.isEmpty
  | .date _ | .datetime _ | .pair _ _ => true
  | .set members => !members.isEmpty
  | .seq items => !items.isEmpty
  | .map items => !items.isEmpty

/-- `type(value).__name__`. -/
def typeName : Yaml → String
  | .null => "NoneType"
  | .bool _ => "bool"
  | .int _ => "int"
  | .float _ => "float"
  | .str _ => "str"
  | .bytes _ => "bytes"
  | .date _ => "date"
  | .datetime _ => "datetime"
  | .set _ => "set"
  | .pair _ _ => "tuple"
  | .seq _ => "list"
  | .map _ => "dict"

/-- The key is this text. -/
def isKey (name : String) : Yaml → Bool
  | .str s => s == name
  | _ => false

/-- `items.get(name, default)`. -/
def get (items : List (Yaml × Yaml)) (name : String) (default : Yaml) : Yaml :=
  ((items.find? (fun item => item.1.isKey name)).map Prod.snd).getD default

/-- A mapping with texts as keys. -/
def record (fields : List (String × Yaml)) : List (Yaml × Yaml) := fields.map (fun f => (.str f.1, f.2))

section Record

variable {fields : List (String × Yaml)} {name : String} {value : Yaml}

@[simp] theorem get_record_self (default : Yaml) : get (record ((name, value) :: fields)) name default = value := by
  simp [get, record, isKey]

@[simp] theorem get_record_ne {other : String} (h : other ≠ name) (default : Yaml) :
    get (record ((other, value) :: fields)) name default = get (record fields) name default := by
  simp [get, record, isKey, h]

end Record

end Yaml

section Trim

variable {α : Type} {p : α → Bool}

/-- What is dropped at both ends is not there to be dropped again. -/
theorem trim_trim (l : List α) : (((l.dropWhile p).rdropWhile p).dropWhile p).rdropWhile p =
    (l.dropWhile p).rdropWhile p := by
  have hfirst : ((l.dropWhile p).rdropWhile p).dropWhile p = (l.dropWhile p).rdropWhile p := by
    cases hl : (l.dropWhile p).rdropWhile p with
    | nil => rfl
    | cons a rest =>
      obtain ⟨tail, htail⟩ := List.rdropWhile_prefix p (l.dropWhile p)
      rw [hl, List.cons_append] at htail
      have ha : p a = false := by
        have hhead := List.head_dropWhile_not p (l := l) (by rw [← htail]; exact List.cons_ne_nil _ _)
        simpa [← htail] using hhead
      rw [List.dropWhile_cons_of_neg (by simp [ha])]
  rw [hfirst, List.rdropWhile_idempotent]

theorem strip_strip (s : String) : strip (strip s) = strip s := by
  have h := trim_trim (p := isSpace) s.toList
  simp only [List.rdropWhile] at h
  simp only [strip, String.toList_ofList, h]

end Trim

/-- `bytes.isspace`, of one byte. -/
def isByteSpace (b : UInt8) : Bool := b == 0x20 || (0x09 ≤ b && b ≤ 0x0D)

/-- `bytes.strip()`. -/
def stripBytes (bytes : List UInt8) : List UInt8 := (bytes.dropWhile isByteSpace).rdropWhile isByteSpace

theorem stripBytes_strip (bytes : List UInt8) : stripBytes (stripBytes bytes) = stripBytes bytes := trim_trim bytes

/-- `repr` of bytes. -/
def bytesRepr (bytes : List UInt8) : String :=
  let ascii : Python := ⟨id, fun _ => false⟩
  "b" ++ String.ofList (Json.reprText ascii (bytes.map (fun b => Char.ofNat b.toNat)))

end A2ARegistry.Base
