import A2ARegistry.Base.Loads
import A2ARegistry.Server.SyncCall

namespace A2ARegistry.Server
open Base Orchestration Security

section Build

variable (p : Python)

/-- The fields of a task that `build_envelope` reads. A task of the store has none of its others. -/
structure EnvelopeTask where
  id : String
  body : Option String := none
  assignee : Option String := none
  tenant : Option String := none
  workspacePath : Option String := none
deriving DecidableEq, Repr

def EnvelopeTask.ofTask (task : Task) : EnvelopeTask where
  id := task.id
  body := task.body
  assignee := task.assignee
  tenant := task.tenant
  workspacePath := task.workspacePath

/-- The payload of a body: what it is as JSON, or its text. -/
def bodyPayload (body : Option String) : List (String × Json) :=
  let text := body.getD ""
  if text = "" then []
  else match Json.loads p text with
    | some (.obj fields) => fields
    | some value => [("body", value)]
    | none => [("body", .str text)]

/-- The fields of a V1 dispatch that are merged into the payload, with their names there. -/
def extraKeys : List (String × String) :=
  [("query", "query"), ("sessionId", "session_id"), ("session_id", "session_id"), ("title", "title")]

/-- The loop over the extra fields. -/
def mergeExtra (taskDict payload : List (String × Json)) : List (String × Json) :=
  extraKeys.foldl (fun payload (extraKey, targetKey) =>
    match taskDict.find? (fun f => f.1 == extraKey) with
    | some (_, value) => Json.putField payload (targetKey, value)
    | none => payload) payload

/-- The URI of the workspace, within its tenant if there is one. -/
def workspaceUri (tenantId : String) (workspacePath : Option String) : Json :=
  match workspacePath with
  | none => .null
  | some path =>
    if path = "" then .null
    else if tenantId = "" then .str path
    else
      let inTenant := String.ofList (path.toList.dropWhile (fun c => c == '/'))
      .str s!"workspace://{tenantId}/{inTenant}"

/-- `build_envelope`, with the context of `_synthesise_security_context`. -/
def buildEnvelope (task : EnvelopeTask) (taskDict : List (String × Json)) : TaskEnvelope where
  taskId := task.id
  interactionMode := .task
  skill := task.assignee.getD ""
  input := .obj (mergeExtra taskDict (bodyPayload p task.body))
  outputContract := some {}
  securityContext := some {}
  tenantId := .str (task.tenant.getD "")
  workspaceUri := workspaceUri (task.tenant.getD "") task.workspacePath

/-- `check_ingress_security_fence`. -/
def checkIngressSecurityFence (guardrail : Option Guardrail) (envelope : TaskEnvelope) : Bool :=
  match guardrail with
  | none => true
  | some engine =>
    let actor := match envelope.securityContext with
      | some context => Json.strOf p context.effectiveScope
      | none => "anonymous"
    (checkInbound engine envelope.input none actor).allowed

/-- An envelope that an agent is to be sent: for a task of the dispatcher with the workspace it has got, for the query
of a client, or for a task that waited for the agent to come back. -/
inductive EnvelopeDelivery
  | dispatchViaWs (task : Task) (wsPath : String)
  | handleDispatch (taskId agentId : String) (tenant : Option String) (query : String) (sessionId : Json)
  | dispatchPending (task : Task)

def EnvelopeDelivery.envelope : EnvelopeDelivery → TaskEnvelope
  | .dispatchViaWs task wsPath =>
    let envelope := buildEnvelope p (.ofTask task) []
    { envelope with workspaceUri := if wsPath = "" then envelope.workspaceUri else .str wsPath }
  | .handleDispatch taskId agentId tenant query sessionId =>
    buildEnvelope p { id := taskId, body := some query, assignee := some agentId, tenant := some (tenant.getD "") }
      [("query", .str query), ("sessionId", sessionId)]
  | .dispatchPending task => buildEnvelope p (.ofTask task) []

/-- The fence is asked about all but the tasks that waited. -/
def EnvelopeDelivery.fenced : EnvelopeDelivery → Bool
  | .dispatchPending _ => false
  | _ => true

/-- The text that `send_json` sends, unless the fence rejects the envelope. -/
def EnvelopeDelivery.frame (guardrail : Option Guardrail) (delivery : EnvelopeDelivery) : Option String :=
  if delivery.fenced && !checkIngressSecurityFence p guardrail (delivery.envelope p) then none
  else some (Json.dumps (.obj (delivery.envelope p).toDict))

/-- The envelope that an agent makes of a text. -/
def readFrame (text : String) : Option ReadEnvelope :=
  match Json.loads p text with
  | some (.obj data) => TaskEnvelope.fromDict data
  | _ => none

end Build

end A2ARegistry.Server
