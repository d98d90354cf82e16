import A2ARegistry.Base.Dumps
import A2ARegistry.Base.Json
import A2ARegistry.Base.Text

namespace A2ARegistry.Registry
open Base

/-- What reading a value raises that is not of the type it is taken for. -/
inductive Raised
  | attributeError
  | typeError
deriving DecidableEq, Repr

structure ValidationError where
  field : String
  detail : String
deriving DecidableEq, Repr

/-- The types that a value is checked for. -/
inductive JsonType
  | str
  | dict
  | list

/-- `expected_type.__name__`. -/
def JsonType.name : JsonType → String
  | .str => "str"
  | .dict => "dict"
  | .list => "list"

/-- `isinstance(value, expected_type)`. -/
def JsonType.has : JsonType → Json → Bool
  | .str, .str _ => true
  | .dict, .obj _ => true
  | .list, .arr _ => true
  | _, _ => false

/-- `type(value).__name__`. -/
def typeName : Json → String
  | .null => "NoneType"
  | .bool _ => "bool"
  | .int _ => "int"
  | .float _ => "float"
  | .str _ => "str"
  | .arr _ => "list"
  | .obj _ => "dict"

def maxNameLength : Nat := 255
def maxDescriptionLength : Nat := 2000
def maxUrlLength : Nat := 2048
def maxSkillIdLength : Nat := 128
def maxSkillNameLength : Nat := 128
def maxProtocolVersionLength : Nat := 32
def maxSchemeTypeLength : Nat := 32
def maxTenantLength : Nat := 128
def maxOrganizationLength : Nat := 255
def maxTagLength : Nat := 64
def maxSkillTags : Nat := 50
def maxSkillExamples : Nat := 50
def maxSkillInputModes : Nat := 20
def maxSkillOutputModes : Nat := 20
def maxSecuritySchemes : Nat := 20
def maxSkillsCount : Nat := 200
def maxInterfacesCount : Nat := 10

section Checks

variable (data : List (String × Json))

def checkRequiredField (field label : String) : Option ValidationError :=
  let error : ValidationError := ⟨field, label ++ " is required and cannot be empty"⟩
  match Json.field data field with
  | .null => some error
  | .str s => if strip s = "" then some error else none
  | _ => none

def checkStringLength (field : String) (maxLen : Nat) : Option ValidationError :=
  match Json.field data field with
  | .str s =>
    if s.length > maxLen then
      some ⟨field, "Must not exceed " ++ toString maxLen ++ " characters (got " ++ toString s.length ++ ")"⟩
    else none
  | _ => none

def checkType (field : String) (expected : JsonType) (label : String) : Option ValidationError :=
  match Json.field data field with
  | .null => none
  | value =>
    if expected.has value then none
    else some ⟨field, label ++ " must be " ++ expected.name ++ ", got " ++ typeName value⟩

/-- The first item that is not of the type. -/
def checkItems (field : String) (itemType : JsonType) (label : String) (i : Nat) : List Json → Option ValidationError
  | [] => none
  | item :: items =>
    if itemType.has item then checkItems field itemType label (i + 1) items
    else some ⟨field, label ++ "[" ++ toString i ++ "] must be " ++ itemType.name ++ ", got " ++ typeName item⟩

def checkListType (field : String) (itemType : JsonType) (maxItems : Nat) (label : String) : Option ValidationError :=
  match Json.field data field with
  | .null => none
  | .arr items =>
    if items.length > maxItems then
      some ⟨field, label ++ " must not exceed " ++ toString maxItems ++ " items (got " ++
        toString items.length ++ ")"⟩
    else checkItems field itemType label 0 items
  | value => some ⟨field, label ++ " must be a list, got " ++ typeName value⟩

end Checks

/-- The texts of the top level, and how long they may be. -/
def strChecks : List (String × Nat) :=
  [("name", maxNameLength), ("description", maxDescriptionLength), ("version", maxNameLength),
    ("documentation_url", maxUrlLength), ("icon_url", maxUrlLength)]

def typeChecks : List (String × JsonType × String) :=
  [("description", .str, "Description"), ("version", .str, "Version"),
    ("documentation_url", .str, "Documentation URL"), ("icon_url", .str, "Icon URL"),
    ("security_schemes", .dict, "security_schemes"), ("security_requirements", .list, "security_requirements"),
    ("signatures", .list, "Signatures"), ("default_input_modes", .list, "default_input_modes"),
    ("default_output_modes", .list, "default_output_modes")]

def listChecks : List (String × JsonType × Nat × String) :=
  [("skills", .dict, maxSkillsCount, "skills"),
    ("supported_interfaces", .dict, maxInterfacesCount, "supported_interfaces")]

def validateProvider : Json → List ValidationError
  | .null => []
  | .obj provider =>
    [("url", maxUrlLength), ("organization", maxOrganizationLength)].filterMap
      (fun (field, maxLen) => checkStringLength provider field maxLen)
  | _ => [⟨"provider", "Provider must be a dict"⟩]

def validateTags (i : Nat) (tags : Json) : List ValidationError :=
  match tags with
  | .arr tags => (tags.zipIdx).filterMap (fun (tag, j) => match tag with
    | .str tag =>
      if tag.length > maxTagLength then
        some ⟨"skills[" ++ toString i ++ "].tags[" ++ toString j ++ "]",
          "Tag must not exceed " ++ toString maxTagLength ++ " characters (got " ++ toString tag.length ++ ")"⟩
      else none
    | _ => none)
  | _ => []

def validateSkill (i : Nat) : Json → List ValidationError
  | .obj skill =>
    let path := "Skill[" ++ toString i ++ "]."
    ["id", "name", "description"].filterMap (fun field => checkRequiredField skill field (path ++ field)) ++
    [("id", maxSkillIdLength), ("name", maxSkillNameLength), ("description", maxDescriptionLength)].filterMap
      (fun (field, maxLen) => checkStringLength skill field maxLen) ++
    [("tags", maxSkillTags), ("examples", maxSkillExamples), ("input_modes", maxSkillInputModes),
      ("output_modes", maxSkillOutputModes), ("uri_schemes", maxSkillTags)].filterMap
      (fun (field, maxItems) => checkListType skill field .str maxItems (path ++ field)) ++
    validateTags i (Json.get skill "tags" (.arr []))
  | _ => []

def validateInterface (i : Nat) : Json → List ValidationError
  | .obj iface =>
    ["url", "protocol_binding", "protocol_version"].filterMap
      (fun field => checkRequiredField iface field ("Interface[" ++ toString i ++ "]." ++ field)) ++
    [("url", maxUrlLength), ("protocol_binding", maxSchemeTypeLength), ("protocol_version", maxProtocolVersionLength),
      ("tenant", maxTenantLength)].filterMap (fun (field, maxLen) => checkStringLength iface field maxLen)
  | _ => []

/-- The check of each item of a list; of anything else, none. -/
def validateEach (check : Nat → Json → List ValidationError) : Json → List ValidationError
  | .arr items => (items.zipIdx).flatMap (fun (item, i) => check i item)
  | _ => []

/-- `valid_scheme_types`, sorted. -/
def validSchemeTypes : List String := ["apiKey", "http", "mutualTls", "oauth2", "openIdConnect"]

/-- A list and an object have no hash, so a set cannot be asked for one. -/
def validateScheme (p : Python) (schemeName : String) : Json → Except Raised (Option ValidationError)
  | .obj scheme =>
    let schemeType := Json.get scheme "scheme_type" (.str "")
    if schemeType.truthy then
      match schemeType with
      | .arr _ | .obj _ => .error .typeError
      | schemeType =>
        if schemeType.isWord validSchemeTypes then .ok none
        else .ok (some ⟨"security_schemes." ++ schemeName ++ ".scheme_type",
          "Unknown scheme type '" ++ Json.strOf p schemeType ++ "'. Valid: " ++ joinBy ", " validSchemeTypes⟩)
    else .ok none
  | _ => .ok none

def validateSchemes (p : Python) : Json → Except Raised (List ValidationError)
  | .obj schemes => do
    let tooMany : List ValidationError :=
      if schemes.length > maxSecuritySchemes then
        [⟨"security_schemes", "Must not exceed " ++ toString maxSecuritySchemes ++ " schemes (got " ++
          toString schemes.length ++ ")"⟩]
      else []
    let unknown ← schemes.mapM (fun (schemeName, scheme) => validateScheme p schemeName scheme)
    return tooMany ++ unknown.reduceOption
  | _ => .ok []

/-- The errors of a body, in the order they are found. -/
def validateAgentCard (p : Python) : Json → Except Raised (List ValidationError)
  | .obj data => do
    let schemes ← validateSchemes p (Json.get data "security_schemes" (.obj []))
    return (checkRequiredField data "name" "Agent name").toList ++
      strChecks.filterMap (fun (field, maxLen) => checkStringLength data field maxLen) ++
      typeChecks.filterMap (fun (field, expected, label) => checkType data field expected label) ++
      listChecks.filterMap (fun (field, itemType, maxItems, label) =>
        checkListType data field itemType maxItems label) ++
      validateProvider (Json.field data "provider") ++
      validateEach validateSkill (Json.get data "skills" (.arr [])) ++
      validateEach validateInterface (Json.get data "supported_interfaces" (.arr [])) ++ schemes
  | _ => .error .attributeError

/-- What `html.escape(…, quote=True)` writes for a character. -/
def escapeChar : Char → List Char
  | '&' => "&amp;".toList
  | '<' => "&lt;".toList
  | '>' => "&gt;".toList
  | '"' => "&quot;".toList
  | '\'' => "&#x27;".toList
  | c => [c]

/-- `html.escape(s, quote=True)`: the ampersands are written first, so no character is written twice. -/
def escape (s : String) : String := String.ofList (s.toList.flatMap escapeChar)

def sanitizeHtml : Json → Json
  | .str s => .str (escape s)
  | value => value

/-- The double-encoding guard. -/
def encodedMarks : List String := ["&amp;", "&#x", "&lt;", "&gt;"]

/-- A text with one of the marks is taken to be encoded already. -/
def looksEncoded (s : String) : Bool := encodedMarks.any (contains s)

/-- The recursion goes no deeper. -/
def maxDepth : Nat := 20

mutual

/-- The keys of an object are kept as they are. -/
def sanitizeCardOutput (data : Json) (depth : Nat) : Json :=
  if depth > maxDepth then data
  else
    match data with
    | .obj fields => .obj (sanitizeFields fields (depth + 1))
    | .arr items => .arr (sanitizeItems items (depth + 1))
    | .str s => if looksEncoded s then .str s else sanitizeHtml (.str s)
    | value => value

def sanitizeItems (items : List Json) (depth : Nat) : List Json :=
  match items with
  | [] => []
  | v :: vs => sanitizeCardOutput v depth :: sanitizeItems vs depth

def sanitizeFields (fields : List (String × Json)) (depth : Nat) : List (String × Json) :=
  match fields with
  | [] => []
  | (k, v) :: fs => (k, sanitizeCardOutput v depth) :: sanitizeFields fs depth

end

theorem sanitizeItems_eq (items : List Json) (depth : Nat) :
    sanitizeItems items depth = items.map (fun v => sanitizeCardOutput v depth) := by
  induction items with
  | nil => rfl
  | cons v vs ih => rw [sanitizeItems, ih, List.map_cons]

theorem sanitizeFields_eq (fields : List (String × Json)) (depth : Nat) :
    sanitizeFields fields depth = fields.map (fun f => (f.1, sanitizeCardOutput f.2 depth)) := by
  induction fields with
  | nil => rfl
  | cons f fs ih => rw [sanitizeFields, ih, List.map_cons]

end A2ARegistry.Registry
