import A2ARegistry.Orchestration.Models
import A2ARegistry.Orchestration.Handlers
import A2ARegistry.Security.Guardrail
import A2ARegistry.Server.Inbox

namespace A2ARegistry.Server
open Base Orchestration Security

/-- `InteractionMode`. -/
inductive InteractionMode
  | syncCall | task | job
deriving DecidableEq, Repr

def InteractionMode.value : InteractionMode → String
  | .syncCall => "sync_call"
  | .task => "task"
  | .job => "job"

/-- `SecurityContext`. The fields are kept as the request gave them. -/
structure SecurityContext where
  effectiveScope : Json := .str ""
  delegationDepth : Json := .int 0
  deadlineMs : Json := .int 0
  provenanceChainId : Json := .str ""

/-- `SecurityContext.from_dict`: other keys are dropped. -/
def SecurityContext.fromDict (data : List (String × Json)) : SecurityContext where
  effectiveScope := Json.get data "effective_scope" (.str "")
  delegationDepth := Json.get data "delegation_depth" (.int 0)
  deadlineMs := Json.get data "deadline_ms" (.int 0)
  provenanceChainId := Json.get data "provenance_chain_id" (.str "")

/-- `TaskEnvelope`. -/
structure TaskEnvelope where
  taskId : String := ""
  interactionMode : InteractionMode := .task
  skill : String := ""
  inputSchema : Json := .null
  input : Json := .obj []
  outputContract : Option OutputContract := none
  securityContext : Option SecurityContext := none
  tenantId : Json := .str ""
  workspaceUri : Json := .null

/-- `to_dict`. -/
def TaskEnvelope.toDict (envelope : TaskEnvelope) : List (String × Json) :=
  Orchestration.toDict [("task_id", .str envelope.taskId),
    ("interaction_mode", .str envelope.interactionMode.value), ("skill", .str envelope.skill),
    ("input_schema", envelope.inputSchema), ("input", envelope.input),
    ("output_contract", match envelope.outputContract with
      | none => .null
      | some contract => .obj (Orchestration.toDict [("required_fields", contract.requiredFields)])),
    ("security_context", match envelope.securityContext with
      | none => .null
      | some context => .obj (Orchestration.toDict [("effective_scope", context.effectiveScope),
          ("delegation_depth", context.delegationDepth), ("deadline_ms", context.deadlineMs),
          ("provenance_chain_id", context.provenanceChainId)])),
    ("tenant_id", envelope.tenantId), ("workspace_uri", envelope.workspaceUri)]

/-- `InteractionMode(value)`; `none` when it raises. -/
def InteractionMode.ofValue (value : String) : Option InteractionMode :=
  [.syncCall, .task, .job].find? (fun mode => mode.value == value)

/-- What may stand for the mode of an envelope: a mode, or a value that is no text. -/
inductive ModeField
  | mode (mode : InteractionMode)
  | other (value : Json)

/-- An envelope as `from_dict` makes it: its fields are whatever the dict holds. -/
structure ReadEnvelope where
  taskId : Json
  interactionMode : ModeField
  skill : Json
  inputSchema : Json
  input : Json
  outputContract : Option OutputContract
  securityContext : Option SecurityContext
  tenantId : Json
  workspaceUri : Json

/-- The mode of a dict; `none` when it is an unknown text. -/
def readMode : Json → Option ModeField
  | .str value => (InteractionMode.ofValue value).map .mode
  | value => some (.other value)

/-- The contract of a dict, if it is an object. -/
def readContract : Json → Option OutputContract
  | .obj fields => some (OutputContract.fromDict fields)
  | _ => none

/-- The security context of a dict, if it is an object. -/
def readContext : Json → Option SecurityContext
  | .obj fields => some (SecurityContext.fromDict fields)
  | _ => none

/-- `from_dict`; `none` is the `ValueError` of an unknown mode. -/
def TaskEnvelope.fromDict (data : List (String × Json)) : Option ReadEnvelope :=
  (readMode (Json.get data "interaction_mode" (.str "task"))).map (fun mode => {
    taskId := Json.get data "task_id" (.str "")
    interactionMode := mode
    skill := Json.get data "skill" (.str "")
    inputSchema := Json.field data "input_schema"
    input := Json.get data "input" (.obj [])
    outputContract := readContract (Json.field data "output_contract")
    securityContext := readContext (Json.field data "security_context")
    tenantId := Json.get data "tenant_id" (.str "")
    workspaceUri := Json.field data "workspace_uri" })

/-- What the creation checkpoint reads of a dict. -/
def taskDataOf (fields : List (String × Json)) : TaskData where
  assignee := match Json.get fields "assignee" (.str "") with
    | .str s => some s
    | _ => none
  parentId := Json.field fields "parent_id"

/-- An exit barrier: what it makes of the response data, and the response it gives instead, if any. -/
abbrev ExitBarrier := Answer → Answer × Option Response

/-- `_run_exit_barriers`: in order, up to the first that gives a response. -/
def runExitBarriers : List ExitBarrier → Answer → Answer × Option Response
  | [], data => (data, none)
  | hook :: hooks, data =>
    match hook data with
    | (data, some response) => (data, some response)
    | (data, none) => runExitBarriers hooks data

/-- `_guardrail_sanitise_exit_barrier`. -/
def sanitiseBarrier (g : Guardrail) : ExitBarrier := fun data =>
  match data.result with
  | .obj fields =>
    if fields.isEmpty then (data, none) else ({ data with result := sanitizeOutput g (.obj fields) }, none)
  | _ => (data, none)

/-- `SyncCallHandler`, with what its checkpoint looks things up in. -/
structure SyncCallHandler where
  ape : Option PolicyEngine
  registry : AgentRegistry
  exitBarriers : List ExitBarrier
  toPython : Python

/-- What one call draws: the time, and what it takes of `uuid4` for its three ids. -/
structure SyncDraw where
  now : Rat
  taskHex : String
  chainHex : String
  requestHex : String
  requestId : String := ""
  timestamp : String := ""

/-- What comes of a call that passed the entry barrier: there is no open connection, the message cannot be
sent, the wait raises, or it is over, or the agent answers. -/
inductive Delivery
  | notConnected
  | sendFailed (error : String)
  | raised
  | timedOut
  | answered (answer : Answer)

section SyncCall

variable (h : SyncCallHandler) (db : Db) (draw : SyncDraw) (caller : CallerIdentity) (body : List (String × Json))

/-- `json_error` of the module of errors. -/
def apiError (status : Nat) (errorCode detail : String) (extra : List (String × Json) := []) : Response where
  status := status
  body := [("error", .str errorCode), ("detail", .str detail), ("request_id", .str draw.requestId),
    ("timestamp", .str draw.timestamp)] ++ if extra.isEmpty then [] else [("extra", .obj extra)]

/-- `(body.get(name) or "").strip()`; `none` where it raises. -/
def strippedField (name : String) : Option String :=
  let value := Json.field body name
  if !value.truthy then some ""
  else match value with
    | .str s => some (strip s)
    | _ => none

/-- The envelope of a call. -/
def envelopeOf (skill : String) : TaskEnvelope where
  taskId := "sync_" ++ draw.taskHex
  interactionMode := .syncCall
  skill := skill
  inputSchema := Json.field body "input_schema"
  input := Json.get body "input" (.obj [])
  outputContract := match Json.field body "output_contract" with
    | .obj fields => some (OutputContract.fromDict fields)
    | _ => none
  securityContext := match Json.field body "security_context" with
    | .obj fields => some (SecurityContext.fromDict fields)
    | _ => some { provenanceChainId := .str ("chain_" ++ draw.chainHex) }
  tenantId := Json.get body "tenant_id" (.str caller.tenant)

/-- `_run_entry_barriers`. -/
def runEntryBarriers (envelope : TaskEnvelope) : Option Response :=
  match h.ape with
  | none => none
  | some engine =>
    let checkpoint := checkTaskCreate engine h.registry db draw.now caller (taskDataOf envelope.toDict)
    if checkpoint.allowed then none else some (apiError draw 403 "security_denied" checkpoint.reason)

/-- `validate_output`; `none` where it raises. -/
def validateAnswer (contract : OutputContract) : Json → Option (Option String)
  | .obj output => validateOutput output contract
  | _ => some (some "output must be a dict")

/-- The violation of the output contract, if there is one: a contract is held against a result that is not
`None`, of a call that succeeds. -/
def contractViolation (envelope : TaskEnvelope) (answer : Answer) : Option (Option String) :=
  match envelope.outputContract, answer.result with
  | none, _ | _, .null => some none
  | some contract, result =>
    if answer.status.isWord ["success"] then validateAnswer contract result else some none

/-- The response to a call the agent answers. The barriers work on data of their own. -/
def respond (envelope : TaskEnvelope) (answer : Answer) : Response :=
  match contractViolation envelope answer with
  | none => serverError
  | some (some verr) => apiError draw 502 "output_validation_failed" s!"OutputContract validation failed: {verr}"
  | some none =>
    match (runExitBarriers h.exitBarriers answer).2 with
    | some response => response
    | none =>
      let responseBody := [("status", answer.status), ("result", answer.result), ("error", answer.error),
        ("request_id", .str ("sync_" ++ draw.requestHex))]
      if answer.status.isWord ["error"] then
        let detail := if answer.error.truthy then Json.strOf h.toPython answer.error else "Agent returned error"
        apiError draw 502 "sync_call_failed" detail responseBody
      else ⟨200, responseBody, []⟩

/-- The message sent to the agent. -/
def syncMessage (envelope : TaskEnvelope) : List (String × Json) :=
  [("type", .str "sync_call"), ("request_id", .str ("sync_" ++ draw.requestHex))] ++ envelope.toDict

/-- `POST /v2/sync-call`: the response, and the message to the agent, if one is sent. -/
def handleSyncCall (delivery : Delivery) : Response × Option (List (String × Json)) :=
  match strippedField body "agent_id" with
  | none => (serverError, none)
  | some agentId =>
    if agentId = "" then (apiError draw 400 "validation_error" "Missing required 'agent_id' field", none)
    else match strippedField body "skill" with
      | none => (serverError, none)
      | some skill =>
        if skill = "" then (apiError draw 400 "validation_error" "Missing required 'skill' field", none)
        else
          let envelope := envelopeOf draw caller body skill
          match runEntryBarriers h db draw caller envelope with
          | some response => (response, none)
          | none =>
            let timeout := Json.strOf h.toPython (Json.get body "timeout_seconds" (.float "3.0"))
            match delivery with
            | .notConnected => (apiError draw 503 "agent_not_connected"
                s!"Agent '{agentId}' is not connected via WebSocket", none)
            | .sendFailed error => (apiError draw 502 "dispatch_failed"
                s!"Failed to send sync_call to agent '{agentId}': {error}", none)
            | .raised => (serverError, some (syncMessage draw envelope))
            | .timedOut => (apiError draw 504 "sync_call_timeout"
                s!"Agent '{agentId}' did not respond within {timeout}s", some (syncMessage draw envelope))
            | .answered answer => (respond h draw envelope answer, some (syncMessage draw envelope))

end SyncCall

end A2ARegistry.Server
