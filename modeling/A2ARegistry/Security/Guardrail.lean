import A2ARegistry.Base.Dumps
import A2ARegistry.Base.Text

namespace A2ARegistry.Security
open Base

/-- A compiled pattern for outbound data. Where it finds nothing there is nothing to substitute. -/
structure SensitivePattern where
  search : String → Bool
  sub : String → String
  unmatched : ∀ s, search s = false → sub s = s

/-- A compiled pattern for inbound data, with the text its match is. A match survives text that is joined on by
a space, on either side. -/
structure InjectionPattern where
  search : String → Option String
  before : ∀ s t, (search s).isSome → (search (t ++ " " ++ s)).isSome
  after : ∀ s t, (search s).isSome → (search (s ++ " " ++ t)).isSome

/-- `GuardrailEngine`, with the patterns of the module. -/
structure Guardrail where
  mode : String := "warn"
  sensitivePatterns : List SensitivePattern
  sensitiveKey : String → Bool
  injectionPatterns : List InjectionPattern
  toPython : Python

/-- `text[:n]`. -/
def firstChars (n : Nat) (text : String) : String := String.ofList (text.toList.take n)

section Outbound

/-- `SanitizeReport`. -/
structure SanitizeReport where
  sanitised : Bool := false
  fieldPaths : List String := []
  count : Nat := 0
deriving DecidableEq, Repr

/-- A path is reported once. -/
def SanitizeReport.addPath (report : SanitizeReport) (path : String) : SanitizeReport :=
  { report with
    sanitised := true
    fieldPaths := if report.fieldPaths.contains path then report.fieldPaths else report.fieldPaths ++ [path]
    count := report.count + 1 }

/-- What a part of a value reports goes into the report of the whole. -/
def SanitizeReport.join (report child : SanitizeReport) : SanitizeReport :=
  if child.sanitised then {
    sanitised := true
    fieldPaths := report.fieldPaths ++ child.fieldPaths
    count := report.count + child.count }
  else report

/-- `s.count(needle)`, on characters; the number says how many to pass over after a match. -/
def countChars (needle : List Char) : Nat → List Char → Nat
  | _, [] => 0
  | 0, c :: cs =>
    if needle.isPrefixOf (c :: cs) then countChars needle (needle.length - 1) cs + 1 else countChars needle 0 cs
  | skip + 1, _ :: cs => countChars needle skip cs

variable (g : Guardrail)

/-- The patterns applied to a text, in order, each where it finds something. -/
def substitute : List SensitivePattern → String → String
  | [], s => s
  | pattern :: patterns, s => substitute patterns (if pattern.search s then pattern.sub s else s)

/-- How many of them find something. -/
def matching : List SensitivePattern → String → Nat
  | [], _ => 0
  | pattern :: patterns, s =>
    if pattern.search s then matching patterns (pattern.sub s) + 1 else matching patterns s

/-- `_redact_tree` of a text. -/
def redactText (path s : String) : SanitizeReport × Json :=
  let redacted := substitute g.sensitivePatterns s
  if matching g.sensitivePatterns s = 0 then ({}, .str redacted)
  else ({ sanitised := true, fieldPaths := [path], count := countChars "***".toList 0 redacted.toList }, .str redacted)

def isText : Json → Bool
  | .str _ => true
  | _ => false

/-- The depth up to which `_redact_tree` goes. -/
def redactDepth : Nat := 16

mutual

/-- `_redact_tree`. -/
def redactTree (path : String) (depth : Nat) : Json → SanitizeReport × Json
  | .str s => if redactDepth < depth then ({}, .str s) else redactText g path s
  | .obj fields =>
    if redactDepth < depth then ({}, .obj fields)
    else
      let (report, redacted) := redactFields path depth {} fields
      (report, .obj redacted)
  | .arr items =>
    if redactDepth < depth then ({}, .arr items)
    else
      let (report, redacted) := redactItems path depth 0 {} items
      (report, .arr redacted)
  | value => ({}, value)

/-- The loop over the items of a dict. A text under a sensitive key is masked as a whole. -/
def redactFields (path : String) (depth : Nat) (report : SanitizeReport) :
    List (String × Json) → SanitizeReport × List (String × Json)
  | [] => (report, [])
  | (key, value) :: fields =>
    let childPath := path ++ "." ++ key
    let (report, child) :=
      if isText value && g.sensitiveKey key then (report.addPath childPath, .str "***")
      else
        let (childReport, childValue) := redactTree childPath (depth + 1) value
        (report.join childReport, childValue)
    let (report, redacted) := redactFields path depth report fields
    (report, (key, child) :: redacted)

/-- The loop over a list. -/
def redactItems (path : String) (depth idx : Nat) (report : SanitizeReport) :
    List Json → SanitizeReport × List Json
  | [] => (report, [])
  | item :: items =>
    let childPath := s!"{path}[{idx}]"
    let (childReport, childItem) := redactTree childPath (depth + 1) item
    let (report, redacted) := redactItems path depth (idx + 1) (report.join childReport) items
    (report, childItem :: redacted)

end

/-- `sanitize_output`. -/
def sanitizeOutput (output : Json) : Json := (redactTree g "$" 0 output).2

/-- The reason of the event it records when it has redacted something. -/
def sanitizeEvent (output : Json) : Option String :=
  let report := (redactTree g "$" 0 output).1
  let paths := joinBy ", " report.fieldPaths
  if report.sanitised then some s!"Sanitised {report.count} sensitive pattern(s) in output fields: {paths}"
  else none

end Outbound

section Inbound

/-- `GuardrailResult`. -/
structure GuardrailResult where
  allowed : Bool := true
  reason : Option String := none
  severity : Option String := none
  matchedPattern : Option String := none
  responseHeaders : List (String × String) := []
deriving DecidableEq, Repr

/-- The depth up to which `_flatten_to_text` goes. -/
def flattenDepth : Nat := 8

mutual

/-- `_flatten_to_text`. -/
def flattenToText (p : Python) (depth : Nat) : Json → String
  | .obj fields => if flattenDepth < depth then "" else joinBy " " (flattenFields p depth fields)
  | .arr items => if flattenDepth < depth then "" else joinBy " " (flattenItems p depth items)
  | .null => ""
  | value => if flattenDepth < depth then "" else Json.strOf p value

def flattenFields (p : Python) (depth : Nat) : List (String × Json) → List String
  | [] => []
  | (key, value) :: fields => key :: flattenToText p (depth + 1) value :: flattenFields p depth fields

def flattenItems (p : Python) (depth : Nat) : List Json → List String
  | [] => []
  | item :: items => flattenToText p (depth + 1) item :: flattenItems p depth items

end

/-- `_apply_mode`. -/
def applyMode (mode reason matchedPattern actor : String) : GuardrailResult :=
  if mode = "audit" then
    { allowed := true, reason := some reason, severity := some "info", matchedPattern := some matchedPattern }
  else if mode = "warn" then
    let shown := if matchedPattern = "" then "unknown" else matchedPattern
    { allowed := true
      reason := some reason
      severity := some "warn"
      matchedPattern := some matchedPattern
      responseHeaders := [("X-Security-Warning",
        s!"type=INJECTION_DETECTED; actor={actor}; pattern={shown}; reason={reason}")] }
  else { allowed := false, reason := some reason, severity := some "block", matchedPattern := some matchedPattern }

/-- `mode or self.mode`. -/
def Guardrail.effectiveMode (g : Guardrail) (mode : Option String) : String :=
  if truthy mode then mode.getD "" else g.mode

/-- `check_inbound`, with the mode it is called with, if any. -/
def checkInbound (g : Guardrail) (inputData : Json) (mode : Option String) (actor : String) : GuardrailResult :=
  let textBlob := flattenToText g.toPython 0 inputData
  if textBlob = "" then { allowed := true }
  else match g.injectionPatterns.findSome? (fun pattern => pattern.search textBlob) with
    | none => { allowed := true }
    | some found =>
      let matchedText := strip found
      let shown := firstChars 60 matchedText
      applyMode (g.effectiveMode mode) s!"Injection pattern detected: '{shown}'" (firstChars 80 matchedText)
        actor

end Inbound

end A2ARegistry.Security
