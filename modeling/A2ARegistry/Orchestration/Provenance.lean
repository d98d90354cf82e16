import A2ARegistry.Orchestration.Handlers
import A2ARegistry.Security.Provenance

namespace A2ARegistry.Orchestration
open Base Security

/-- What the provenance helpers read of a request; there is no agent where the middleware has set none. -/
structure TokenRequest where
  agentId : Option String := none
  tokenScopes : String := ""
  jti : String := ""

section Create

variable (task : Task) (request : TokenRequest)

/-- `task.created_by or request.get("agent_id", "anonymous")`. -/
def provenanceCaller : String :=
  if truthy task.createdBy then task.createdBy.getD "" else request.agentId.getD "anonymous"

/-- The chain of a new task. `parents` are the ids of the parents that the task was loaded with. -/
def createChainArgs (parents : List (Option String)) : ChainArgs where
  chainId := task.id
  originAgent := provenanceCaller task request
  originTenant := task.tenant.getD ""
  rootTaskId := (parents.head?.map (fun id => id.getD task.id)).getD task.id
  parentTaskId := parents.head?.join
  taskId := task.id

/-- The hop to the assignee of a new task, if it has one. -/
def createHopArgs : Option HopArgs :=
  if truthy task.assignee then some {
    chainId := task.id
    fromAgent := provenanceCaller task request
    toAgent := task.assignee.getD ""
    scopeAt := request.tokenScopes
    tokenJti := request.jti }
  else none

end Create

/-- The hop of a claim, if the task is there. -/
def claimHopArgs (db : Db) (taskId : String) (request : TokenRequest) (workerId : String) : Option HopArgs :=
  (db.task? taskId).map (fun task => {
    chainId := taskId
    fromAgent := if truthy task.assignee then task.assignee.getD "" else "unknown"
    toAgent := workerId
    action := "claim"
    scopeAt := request.tokenScopes
    tokenJti := request.jti })

/-- A call of `record_hop`, if there is one to make, and the hop if it was recorded. -/
def recordHop? (pt : ProvenanceTracker) (now : Rat) (args : Option HopArgs) :
    Option ProvenanceHop × ProvenanceTracker :=
  match args.bind (pt.recordHop now) with
  | none => (none, pt)
  | some (hop, pt') => (some hop, pt')

/-- `_record_provenance_create`, with the readings of the clock by its two calls. -/
def recordProvenanceCreate (pt : ProvenanceTracker) (task : Task) (parents : List (Option String))
    (request : TokenRequest) (ensuredAt recordedAt : Rat) : Option ProvenanceHop × ProvenanceTracker :=
  recordHop? (pt.ensureChain ensuredAt (createChainArgs task request parents)) recordedAt (createHopArgs task request)

/-- `_record_provenance_claim`. -/
def recordProvenanceClaim (db : Db) (pt : ProvenanceTracker) (taskId : String) (request : TokenRequest)
    (workerId : String) (now : Rat) : Option ProvenanceHop × ProvenanceTracker :=
  recordHop? pt now (claimHopArgs db taskId request workerId)

/-- The task that `handle_create_task` has created, if it has. -/
def createdTask (h : OrchestrationHandler) (db : Db) (draw : Draw) (caller : CallerIdentity) (body : CreateBody) :
    Option Task :=
  if (db.task? (freshId draw.hex)).isSome then none
  else (handleCreateTask h db draw caller body).2.task? (freshId draw.hex)

/-- The provenance of a `handle_create_task`. `create_task` returns the task without its parents, which only the
database has. -/
def trackCreate (h : OrchestrationHandler) (db : Db) (pt : ProvenanceTracker) (draw : Draw) (caller : CallerIdentity)
    (body : CreateBody) (request : TokenRequest) (ensuredAt recordedAt : Rat) :
    Option ProvenanceHop × ProvenanceTracker :=
  match createdTask h db draw caller body with
  | none => (none, pt)
  | some task => recordProvenanceCreate pt task [] request ensuredAt recordedAt

/-- What a read of the tracker's tables depends on beside them: the choice that SQL leaves open, which is of rows that
are there, and the text of a timestamp. -/
structure TraceReader where
  choice : Choice
  fetched : ∀ rows row, choice.fetch rows = some row → row ∈ rows
  float : Rat → String

/-- The answer of `handle_get_task`, with the chain of the task, if there is one. -/
def attachProvenance (reader : TraceReader) (pt : ProvenanceTracker) (taskId : String) (response : Response) :
    Response :=
  if response.status = 200 then
    match pt.getChainByTask reader.choice taskId with
    | none => response
    | some chain => { response with
        body := response.body ++ [("provenance", .obj (chain.toDict reader.float))] }
  else response

/-- A request, with the id of its token and the readings of the clock by the tracker. -/
structure TracedRequest extends CallerRequest where
  jti : String := ""
  ensuredAt : Rat := 0
  recordedAt : Rat := 0

def TracedRequest.token (r : TracedRequest) : TokenRequest where
  agentId := some r.caller.agentId
  tokenScopes := r.caller.scope
  jti := r.jti

/-- The store, with the tables of the tracker if one is wired up. -/
structure TracedStore where
  db : Db
  pt : Option ProvenanceTracker

section Traced

variable (h : OrchestrationHandler) (reader : TraceReader)

/-- The tracker's part of `handle_claim`, behind the claim: a hop that cannot be recorded raises. -/
def traceClaim (pt : ProvenanceTracker) (taskId : String) (body : ClaimBody) (token : TokenRequest) (now : Rat)
    (claimed : Response × Db) : (Response × Db) × ProvenanceTracker :=
  let workerId := match body.workerId with
    | .str workerId => strip workerId
    | _ => ""
  match claimHopArgs claimed.2 taskId token workerId with
  | none => (afterBroadcast h taskId claimed, pt)
  | some args => match pt.recordHop now args with
    | none => ((serverError, claimed.2), pt)
    | some (_, pt') => (afterBroadcast h taskId claimed, pt')

/-- What the handler of a request answers where a tracker is wired up, with the tables after it. -/
def handleTraced (db : Db) (pt : ProvenanceTracker) (r : TracedRequest) : (Response × Db) × ProvenanceTracker :=
  match r.request with
  | .get taskId => ((attachProvenance reader pt taskId (handleGetTask db taskId h.engine.toCodec), db), pt)
  | .create draw body => (handleCreateTask h db draw r.caller body,
      (trackCreate h db pt draw r.caller body r.token r.ensuredAt r.recordedAt).2)
  | .claim now clock taskId body =>
    let claimed := handleClaim { h with broadcasts := false } db now clock r.caller taskId body
    if claimed.1.status = 200 then traceClaim h pt taskId body r.token r.recordedAt claimed else (claimed, pt)
  | request => (handle h db r.caller request, pt)

/-- The route of a request. -/
def serveTraced (s : TracedStore) (r : TracedRequest) : Response × TracedStore :=
  match s.pt with
  | none =>
    let answer := serve h s.db r.toCallerRequest
    (answer.1, ⟨answer.2, none⟩)
  | some pt =>
    if r.caller.scopes.contains r.request.scope then
      let (answer, pt') := handleTraced h reader s.db pt r
      (answer.1, ⟨answer.2, some pt'⟩)
    else (insufficientScope r.request.scope, s)

end Traced

end A2ARegistry.Orchestration
