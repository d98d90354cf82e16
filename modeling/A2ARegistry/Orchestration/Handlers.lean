import A2ARegistry.Orchestration.Detail
import A2ARegistry.Orchestration.Store.Listing
import A2ARegistry.Security.PolicyEngine

namespace A2ARegistry.Orchestration
open Base Security

/-- `OrchestrationHandler`: the policy engine, if one is wired up, with what it looks up outside the task
store. `intOfFloat` is `int()` of a float, and `none` where it raises. -/
structure OrchestrationHandler where
  engine : Engine
  intOfFloat : String → Option Int
  broadcasts : Bool := false
  ape : Option PolicyEngine
  registry : AgentRegistry
  tokens : DelegationTokens

/-- What one request draws: the readings of the clock, and of `uuid4`. -/
structure Draw where
  now : Rat
  clock : Clock
  hex : String

/-- The words a priority may be given by. -/
def priorityMap : List (String × Int) := [("low", 1), ("normal", 0), ("high", 10), ("critical", 20)]

/-- The priority of a body; `none` where `int()` raises an error that is not caught. -/
def readPriority (intOfFloat : String → Option Int) : Json → Option Int
  | .str s => some ((priorityMap.lookup s.toLower).getD 0)
  | .bool b => some (if b then 1 else 0)
  | .int n => some n
  | .float r => intOfFloat r
  | .null | .arr _ | .obj _ => some 0

/-- The decoded body of a creation. What only goes into a column is given by the value of the column. -/
structure CreateBody where
  title : Json := .null
  body : Option String := none
  assignee : Option String := none
  priority : Json := .int 0
  parents : Json := .null
  parentId : Json := .null
  workspaceKind : Option String := none
  workspacePath : Option String := none
  maxRuntimeSeconds : Option Int := none
  maxRetries : Option Int := none
  tenant : Option String := none
  createdBy : Option String := none
  parallelGroup : Option String := none

/-- `(body.get("title") or "").strip()`; `none` where it raises. -/
def CreateBody.strippedTitle (body : CreateBody) : Option String :=
  if !body.title.truthy then some ""
  else match body.title with
    | .str s => some (strip s)
    | _ => none

/-- An element of `parents`, as `create_task` reads it. -/
structure ParentArg where
  parentId : Json
  condition : Json

/-- The elements of `parents`; `none` where it cannot be iterated over. -/
def parentArgs (codec : Codec) (parents : Json) : Option (List ParentArg) :=
  if !parents.truthy then some []
  else parents.iterate.map (fun items => items.map (fun item => match item with
    | .obj fields => ⟨Json.get fields "parent_id" (.str ""), Json.field fields "condition"⟩
    | item => ⟨.str (codec.str item), .null⟩))

/-- The text of the id of a parent. -/
def ParentArg.id (codec : Codec) (parent : ParentArg) : String :=
  if !parent.parentId.truthy then ""
  else match parent.parentId with
    | .str s => s
    | value => codec.str value

def ParentArg.item (engine : Engine) (parent : ParentArg) : ParentItem :=
  .conditional (some (parent.id engine.toCodec)) (engine.bind parent.condition).join

/-- The lookups of the parents, in order: one raises, if its id cannot be bound, before one finds nothing. -/
def lookupRaises (engine : Engine) (db : Db) : List ParentArg → Bool
  | [] => false
  | parent :: parents =>
    if (engine.bind parent.parentId).isNone then true
    else if (db.task? (parent.id engine.toCodec)).isNone then false
    else lookupRaises engine db parents

/-- The arguments `handle_create_task` calls `create_task` with. -/
def CreateBody.args (engine : Engine) (body : CreateBody) (title : String) (priority : Int)
    (parents : List ParentArg) : CreateArgs where
  title := title
  body := body.body
  assignee := body.assignee
  priority := priority
  parents := parents.map (ParentArg.item engine)
  workspaceKind := body.workspaceKind
  workspacePath := body.workspacePath
  maxRuntimeSeconds := body.maxRuntimeSeconds
  maxRetries := body.maxRetries
  tenant := body.tenant
  createdBy := body.createdBy
  parallelGroup := body.parallelGroup

/-- Every value of the new rows can be bound. -/
def CreateArgs.bindable (engine : Engine) (args : CreateArgs) (parents : List ParentArg) : Bool :=
  fitsInteger args.priority && args.maxRuntimeSeconds.all fitsInteger && args.maxRetries.all fitsInteger &&
    parents.all (fun parent => (engine.bind parent.condition).isSome)

/-- How `handle_create_task` answers a `ValueError`. -/
def createErrorResponse (message : String) : Response :=
  if contains message.toLower "cycle" then jsonError 400 "cycle_detected" message
  else if contains message.toLower "not found" then jsonError 400 "parent_not_found" message
  else jsonError 400 "validation_error" message

section Create

variable (h : OrchestrationHandler) (db : Db) (draw : Draw) (caller : CallerIdentity) (body : CreateBody)

/-- The checkpoint of `handle_create_task`; without an engine every request passes. -/
def createCheckpoint : CheckpointResult :=
  match h.ape with
  | none => { allowed := true, reason := "" }
  | some engine => checkTaskCreate engine h.registry db draw.now caller ⟨body.assignee, body.parentId⟩

/-- The store call of `handle_create_task`. -/
def createAndAnswer (args : CreateArgs) (parents : List ParentArg) (headers : List (String × String)) :
    Response × Db :=
  if parents.all (fun parent => parent.id h.engine.toCodec != "") && lookupRaises h.engine db parents then (serverError, db)
  else match createTask db draw.clock draw.hex args with
    | .error (.valueError message) => (createErrorResponse message, db)
    | .error _ => (serverError, db)
    | .ok (task, db') =>
      if !args.bindable h.engine parents then (serverError, db)
      else match taskToDetail h.engine.toCodec task with
        | none => (serverError, db')
        | some detail => (⟨201, [("task", .obj detail)], headers⟩, db')

/-- `POST /v2/tasks`. -/
def handleCreateTask : Response × Db :=
  match body.strippedTitle with
  | none => (serverError, db)
  | some title =>
    if title = "" then (jsonError 400 "validation_error" "Missing required 'title' field", db)
    else match readPriority h.intOfFloat body.priority with
      | none => (serverError, db)
      | some priority =>
        let checkpoint := createCheckpoint h db draw caller body
        if !checkpoint.allowed then (jsonError 403 "security_denied" checkpoint.reason, db)
        else match parentArgs h.engine.toCodec body.parents with
          | none => (serverError, db)
          | some parents => createAndAnswer h db draw (body.args h.engine title priority parents) parents
              checkpoint.responseHeaders

end Create

/-- The decoded body of a `PATCH`: an absent key is `none`, and a `null` is `some none`. -/
structure PatchBody where
  title : Option (Option String) := none
  body : Option (Option String) := none
  assignee : Option (Option String) := none
  priority : Option Json := none
  status : Option Json := none

def PatchBody.isEmpty (body : PatchBody) : Bool :=
  body.title.isNone && body.body.isNone && body.assignee.isNone && body.priority.isNone && body.status.isNone

/-- The priority of a `PATCH`, if it has one; `none` outside where `int()` raises. -/
def PatchBody.readPriority (intOfFloat : String → Option Int) (body : PatchBody) : Option (Option Int) :=
  match body.priority with
  | none | some .null => some none
  | some value => (Orchestration.readPriority intOfFloat value).map some

def PatchBody.args (body : PatchBody) (priority : Option Int) : EditArgs where
  title := body.title.join
  body := body.body.join
  assignee := body.assignee.join
  priority := priority

section Update

variable (h : OrchestrationHandler) (db : Db) (clock : Clock) (taskId : String) (body : PatchBody)

/-- What is written once a task is edited: a root task in `todo` that is given an assignee becomes ready. -/
def promoteAssigned (task : Task) (db : Db) : Except StoreError (Option Task × Db) :=
  if body.assignee.isSome && truthy task.assignee && task.status == .todo &&
      (getTask db taskId).any (fun view => view.parents.isEmpty) then
    (updateTaskStatus db clock taskId TaskStatus.ready.value {}).map (fun (view, db') => (view.map TaskView.task, db'))
  else .ok (some task, db)

/-- The branch of `handle_update_task` for a body without a `status`. An edit that cannot be bound is rolled
back; one that is committed stays when the promotion after it raises. -/
def editTask (codec : Codec) (priority : Option Int) : Except Response (Option Task) × Db :=
  match updateTask db clock taskId (body.args priority) with
  | .error e => (.error (patchErrorResponse codec e), db)
  | .ok (task, db') =>
    if !priority.all fitsInteger then
      (.error (jsonError 400 "status_error" "Python int too large to convert to SQLite INTEGER"), db)
    else match promoteAssigned clock taskId body task db' with
      | .error e => (.error (patchErrorResponse codec e), db')
      | .ok (task, db'') => (.ok task, db'')

/-- The answer with a task; rendering one whose result cannot be decoded raises. -/
def taskResponse (codec : Codec) (task : Option Task) : Response :=
  match task.bind (taskToDetail codec) with
  | none => serverError
  | some detail => ⟨200, [("task", .obj detail)], []⟩

/-- `PATCH /v2/tasks/{id}`. -/
def handleUpdateTask : Response × Db :=
  if body.isEmpty then
    (jsonError 400 "validation_error" "Must provide at least one of: title, body, assignee, priority, status", db)
  else match body.readPriority h.intOfFloat with
    | none => (jsonError 400 "status_error" "cannot convert float infinity to integer", db)
    | some priority =>
      match body.status with
      | some status => match handleUpdateStatus h.engine.toCodec db clock taskId status with
        | (.error response, db') => (response, db')
        | (.task view, db') => (taskResponse h.engine.toCodec (view.map TaskView.task), db')
      | none => match editTask db clock taskId body h.engine.toCodec priority with
        | (.error response, db') => (response, db')
        | (.ok task, db') => (taskResponse h.engine.toCodec task, db')

end Update

/-- The query of `GET /v2/tasks`. -/
structure ListQuery where
  limit : Option String := none
  offset : Option String := none
  status : Option String := none
  assignee : Option String := none
  tenant : Option String := none
  parentId : Option String := none
  q : Option String := none
  sort : Option String := none
deriving DecidableEq, Repr

/-- The arguments `handle_list_tasks` calls `list_tasks` with. -/
def ListQuery.args (query : ListQuery) : ListArgs where
  status := query.status
  assignee := query.assignee
  tenant := query.tenant
  parentId := query.parentId
  q := query.q
  limit := match parseInt (query.limit.getD "50") with
    | some n => min n 200
    | none => 50
  offset := match parseInt (query.offset.getD "0") with
    | some n => max n 0
    | none => 0
  sort := query.sort.getD "-created_at"

/-- `GET /v2/tasks`. -/
def handleListTasks (db : Db) (query : ListQuery) : Response :=
  let args := query.args
  if fitsInteger args.limit && fitsInteger args.offset then
    let (tasks, total) := listTasks db args
    ⟨200, [("total", .int total), ("limit", .int args.limit), ("offset", .int args.offset),
      ("tasks", .arr (tasks.map (fun t => .obj (taskToBrief t))))], []⟩
  else serverError

/-- The decoded body of a claim; `ttl` is `none` when it is absent or `null`. -/
structure ClaimBody where
  workerId : Json := .str "unknown"
  pid : Int := 0
  ttl : Option Int := none
  delegationToken : Option String := none

/-- What a claim answers with. -/
def ClaimResult.toJson (result : ClaimResult) : List (String × Json) :=
  [("task_id", .str result.taskId), ("claim_lock", .str result.claimLock), ("claim_expires", .int result.claimExpires),
    ("workspace_path", .ofText result.workspacePath)]

section Requests

variable (h : OrchestrationHandler) (db : Db)

/-- The checkpoint of `handle_claim`; `none` when it raises. -/
def claimCheckpoint (now : Rat) (caller : CallerIdentity) (taskId : String) (token : Option String) :
    Option CheckpointResult :=
  match h.ape with
  | none => some { allowed := true, reason := "" }
  | some engine => Security.checkTaskClaim engine db h.tokens now caller taskId token

/-- The store call of `handle_claim`. -/
def claimAndAnswer (clock : Clock) (taskId workerId : String) (body : ClaimBody) (headers : List (String × String)) :
    Response × Db :=
  match claimTask db clock taskId workerId body.pid (body.ttl.getD defaultClaimTtl) with
  | (some result, db') => (⟨200, result.toJson, headers⟩, db')
  | (none, db') => match getTask db' taskId with
    | none => (jsonError 404 "task_not_found" s!"Task '{taskId}' not found", db')
    | some _ => (jsonError 409 "claim_conflict" s!"Task '{taskId}' is not ready or already claimed", db')

/-- An answer, after the task is rendered for the broadcast if there is one. -/
def afterBroadcast (taskId : String) (answer : Response × Db) : Response × Db :=
  if h.broadcasts then broadcastAnswer h.engine.toCodec taskId answer else answer

/-- `POST /v2/tasks/{id}/claim`. -/
def handleClaim (now : Rat) (clock : Clock) (caller : CallerIdentity) (taskId : String) (body : ClaimBody) :
    Response × Db :=
  match body.workerId with
  | .str workerId => match claimCheckpoint h db now caller taskId body.delegationToken with
    | none => (serverError, db)
    | some checkpoint =>
      if !checkpoint.allowed then (jsonError 403 "security_denied" checkpoint.reason, db)
      else afterBroadcast h taskId
        (claimAndAnswer db clock taskId (strip workerId) body checkpoint.responseHeaders)
  | _ => (serverError, db)

/-- The comment an unblock leaves, if its reason is truthy. Failing to store it is ignored. -/
def unblockComment (codec : Codec) (db : Db) (clock : Clock) (taskId : String) (reason : Json) : Db :=
  if reason.truthy then
    (db.tx (addComment db clock taskId "system" s!"Unblock reason: {codec.str reason}")).2
  else db

/-- `POST /v2/tasks/{id}/unblock`; `reason` is `none` when the key is absent. -/
def handleUnblock (clock commentClock : Clock) (taskId : String) (reason : Option Json) : Response × Db :=
  match updateTaskStatus db clock taskId TaskStatus.running.value {} with
  | .error e => (statusErrorResponse h.engine.toCodec e, db)
  | .ok (_, db') => afterBroadcast h taskId
      (⟨200, [("task_id", .str taskId), ("status", .str TaskStatus.running.value)], []⟩,
        unblockComment h.engine.toCodec db' commentClock taskId (reason.getD (.str "Unblocked")))

/-- `DELETE /v2/tasks/{id}`. -/
def handleDeleteTask (clock : Clock) (taskId : String) : Response × Db :=
  match getTask db taskId with
  | none => (jsonError 404 "task_not_found" s!"Task '{taskId}' not found", db)
  | some view =>
    if view.task.status ≠ .completed ∧ view.task.status ≠ .failed ∧ view.task.status ≠ .cancelled then
      (jsonError 400 "invalid_status" (s!"Task '{taskId}' is '{view.task.status.value}'; only completed, failed, " ++
        "or cancelled tasks can be archived"), db)
    else match updateTaskStatus db clock taskId TaskStatus.archived.value {} with
      | .error e => match e with
        | .invalidTransition .. => (jsonError 400 "invalid_status" (e.message h.engine.toCodec), db)
        | _ => (serverError, db)
      | .ok (_, db') => (⟨200, [("task_id", .str taskId), ("status", .str TaskStatus.archived.value)], []⟩, db')

end Requests

/-- A request to the task API. -/
inductive TaskRequest
  | list (query : ListQuery)
  | get (taskId : String)
  | create (draw : Draw) (body : CreateBody)
  | update (clock : Clock) (taskId : String) (body : PatchBody)
  | claim (now : Rat) (clock : Clock) (taskId : String) (body : ClaimBody)
  | complete (clock : Clock) (taskId : String) (body : CompleteBody)
  | unblock (clock commentClock : Clock) (taskId : String) (reason : Option Json)
  | delete (clock : Clock) (taskId : String)

/-- The scope that `register_v2_routes` asks for. -/
def TaskRequest.scope : TaskRequest → String
  | .list _ | .get _ => "task:read"
  | .create .. | .update .. | .claim .. | .complete .. | .unblock .. | .delete .. => "task:write"

/-- A request, with the identity that the token it bears has given it. -/
structure CallerRequest where
  caller : CallerIdentity
  request : TaskRequest

/-- What the handler of a request answers, with the database after it. -/
def handle (h : OrchestrationHandler) (db : Db) (caller : CallerIdentity) : TaskRequest → Response × Db
  | .list query => (handleListTasks db query, db)
  | .get taskId => (handleGetTask db taskId h.engine.toCodec, db)
  | .create draw body => handleCreateTask h db draw caller body
  | .update clock taskId body => handleUpdateTask h db clock taskId body
  | .claim now clock taskId body => handleClaim h db now clock caller taskId body
  | .complete clock taskId body => postComplete h.engine.toCodec h.broadcasts
      (h.ape.map PolicyEngine.toApe) db clock caller.agentId taskId body
  | .unblock clock commentClock taskId reason => handleUnblock h db clock commentClock taskId reason
  | .delete clock taskId => handleDeleteTask h db clock taskId

def insufficientScope (scope : String) : Response where
  status := 403
  body := [("error", .str "insufficient_scope"), ("detail", .str s!"Missing required scope(s): {scope}")]
  headers := [("WWW-Authenticate",
    "Bearer realm=\"simple-a2a-registry\", error=\"insufficient_scope\", scope=\"" ++ scope ++ "\"")]

/-- The route of a request: `require_scope`, and the handler. -/
def serve (h : OrchestrationHandler) (db : Db) (r : CallerRequest) : Response × Db :=
  if r.caller.scopes.contains r.request.scope then handle h db r.caller r.request
  else (insufficientScope r.request.scope, db)

/-- `(value or default).strip()`; `none` where it raises. -/
def strippedOr (default : String) (value : Json) : Option String :=
  if !value.truthy then some (strip default)
  else match value with
    | .str s => some (strip s)
    | _ => none

/-- The decoded body of a comment; an absent key reads like `null`. -/
structure CommentBody where
  author : Json := .null
  body : Json := .null

/-- The decoded body of a new dependency; `parentId` is `none` when the key is absent. -/
structure DependBody where
  parentId : Option Json := none
  condition : Json := .null

/-- `body.get("parent_id", "").strip()`; `none` where it raises. -/
def DependBody.strippedParent (body : DependBody) : Option String :=
  match body.parentId with
  | none => some ""
  | some (.str s) => some (strip s)
  | some _ => none

/-- The condition that is stored. -/
def DependBody.storedCondition (codec : Codec) (body : DependBody) : Option String :=
  match body.condition with
  | .null => none
  | value =>
    let condition := strip (codec.str value)
    if condition = "" then none else some condition

/-- How `handle_add_dependency` answers a `ValueError`. -/
def dependErrorResponse (parentId message : String) : Response :=
  if contains message.toLower "cycle" then jsonError 400 "cycle_detected" message
  else if contains message.toLower "not found" then
    if contains message parentId then jsonError 400 "parent_not_found" message
    else jsonError 404 "task_not_found" message
  else jsonError 400 "validation_error" message

/-- A task of a batch, with the clocks that its update and the comment on it read. -/
structure BatchItem where
  clock : Clock
  commentClock : Clock
  taskId : String

/-- The decoded body of a batch; `items` is `none` when `task_ids` is no array. -/
structure BatchBody where
  items : Option (List BatchItem) := some []
  status : Json := .null
  reason : Json := .null

/-- The answer of a batch, under the name it counts its updates by. -/
def BatchResult.toJson (codec : Codec) (key : String) (result : BatchResult) : List (String × Json) :=
  [(key, .int result.updated), ("failed", .arr (result.failed.map (fun failure =>
    .obj [("task_id", .str failure.1), ("error", .str (failure.2.message codec))])))]

/-- The comments a batch leaves on the tasks that have its status. Failing to store one is ignored. -/
def batchComments (status text : String) (items : List BatchItem) (db : Db) : Db :=
  items.foldl (fun db item => match getTask db item.taskId with
    | some view =>
      if view.task.status.value = status then
        (db.tx (addComment db item.commentClock item.taskId "system" text)).2
      else db
    | none => db) db

section Rest

variable (h : OrchestrationHandler) (db : Db)

/-- `POST /v2/tasks/{id}/heartbeat`; `claimLock` is `none` when the key is absent. -/
def handleHeartbeat (clock : Clock) (taskId : String) (claimLock : Option Json) : Response × Db :=
  let lock := claimLock.getD (.str "")
  match heartbeat db clock taskId lock with
  | (false, db') => match getTask db' taskId with
    | none => (jsonError 404 "task_not_found" s!"Task '{taskId}' not found", db')
    | some _ => (jsonError 403 "claim_mismatch"
        s!"Heartbeat rejected: claim_lock '{h.engine.str lock}' does not match", db')
  | (true, db') => (⟨200, [("task_id", .str taskId), ("claim_expires", match getTask db' taskId with
      | some view => ofInt view.task.claimExpires
      | none => .int 0)], []⟩, db')

/-- An answer, after the task is rendered for the broadcast if it is there and there is one. -/
def afterRendering (taskId : String) (answer : Response × Db) : Response × Db :=
  if h.broadcasts && (getTask answer.2 taskId).any (fun view => (taskToDetail h.engine.toCodec view.task).isNone)
  then (serverError, answer.2) else answer

/-- `POST /v2/tasks/{id}/comment`. -/
def handleAddComment (clock : Clock) (taskId : String) (body : CommentBody) : Response × Db :=
  match strippedOr "anonymous" body.author, strippedOr "" body.body with
  | some author, some text =>
    if text = "" then (jsonError 400 "validation_error" "Missing required 'body' field", db)
    else match addComment db clock taskId author text with
      | .error (.valueError message) =>
        if contains message.toLower "not found" then (jsonError 404 "task_not_found" message, db)
        else (jsonError 400 "validation_error" message, db)
      | .error _ => (serverError, db)
      | .ok (comment, db') => afterRendering h taskId
          (⟨201, [("comment_id", .int comment.id), ("created_at", .int comment.createdAt)], []⟩, db')
  | _, _ => (serverError, db)

/-- `POST /v2/tasks/{id}/depend`. -/
def handleAddDependency (clock : Clock) (taskId : String) (body : DependBody) : Response × Db :=
  match body.strippedParent with
  | none => (serverError, db)
  | some parentId =>
    if parentId = "" then (jsonError 400 "validation_error" "Missing required 'parent_id' field", db)
    else
      let condition := body.storedCondition h.engine.toCodec
      match addDependency db clock taskId parentId condition with
      | .error (.valueError message) => (dependErrorResponse parentId message, db)
      | .error _ => (serverError, db)
      | .ok (_, db') => afterRendering h taskId (⟨200, [("task_id", .str taskId), ("parent_id", .str parentId),
          ("condition", .ofText condition), ("status", .str "dependency_added")], []⟩, db')

/-- `DELETE /v2/tasks/{id}/depend/{parent_id}`. -/
def handleRemoveDependency (clock : Clock) (taskId parentId : String) : Response × Db :=
  match removeDependency db clock taskId parentId with
  | (false, db') => (jsonError 404 "dependency_not_found"
      s!"Dependency parent='{parentId}' → child='{taskId}' not found", db')
  | (true, db') => afterRendering h taskId
      (⟨200, [("task_id", .str taskId), ("parent_id", .str parentId), ("status", .str "dependency_removed")], []⟩, db')

/-- What the two batches do once their bodies are read: `text` is the comment for a reason. -/
def runBatch (key status : String) (text : String → String) (items : List BatchItem) (reason : Json) : Response × Db :=
  match batchUpdateStatus db (items.map (fun item => (item.clock, item.taskId))) status with
  | (.error _, db') => (serverError, db')
  | (.ok result, db') => (⟨200, result.toJson h.engine.toCodec key, []⟩,
      if reason.truthy && result.updated > 0 then
        batchComments status (text (h.engine.str reason)) items db'
      else db')

def emptyBatch : Response := jsonError 400 "validation_error" "'task_ids' must be a non-empty array"

/-- `POST /v2/tasks/batch/status`. -/
def handleBatchStatus (body : BatchBody) : Response × Db :=
  match body.items with
  | none | some [] => (emptyBatch, db)
  | some items => match strippedOr "" body.status with
    | none => (serverError, db)
    | some status =>
      if status = "" then (jsonError 400 "validation_error" "Missing required 'status' field", db)
      else runBatch h db "updated" status (fun reason => s!"Batch status update → {status}: {reason}") items body.reason

/-- `POST /v2/tasks/batch/delete`. -/
def handleBatchDelete (body : BatchBody) : Response × Db :=
  match body.items with
  | none | some [] => (emptyBatch, db)
  | some items => runBatch h db "deleted" TaskStatus.archived.value (fun reason => s!"Batch archived: {reason}") items
      body.reason

end Rest

/-- A request to the whole task API. -/
inductive ApiRequest
  | task (request : TaskRequest)
  | block (clock commentClock : Clock) (taskId : String) (body : BlockBody)
  | heartbeat (clock : Clock) (taskId : String) (claimLock : Option Json)
  | comment (clock : Clock) (taskId : String) (body : CommentBody)
  | depend (clock : Clock) (taskId : String) (body : DependBody)
  | undepend (clock : Clock) (taskId parentId : String)
  | batchStatus (body : BatchBody)
  | batchDelete (body : BatchBody)

/-- The scope that `register_v2_routes` asks for. -/
def ApiRequest.scope : ApiRequest → String
  | .task request => request.scope
  | .block .. | .heartbeat .. | .comment .. | .depend .. | .undepend .. => "task:write"
  | .batchStatus _ | .batchDelete _ => "registry:admin"

/-- What the handler of a request answers, with the database after it. -/
def handleApi (h : OrchestrationHandler) (db : Db) (caller : CallerIdentity) : ApiRequest → Response × Db
  | .task request => handle h db caller request
  | .block clock commentClock taskId body =>
    afterBroadcast h taskId (handleBlock h.engine.toCodec db clock commentClock taskId body)
  | .heartbeat clock taskId claimLock => handleHeartbeat h db clock taskId claimLock
  | .comment clock taskId body => handleAddComment h db clock taskId body
  | .depend clock taskId body => handleAddDependency h db clock taskId body
  | .undepend clock taskId parentId => handleRemoveDependency h db clock taskId parentId
  | .batchStatus body => handleBatchStatus h db body
  | .batchDelete body => handleBatchDelete h db body

/-- The route of a request, for a caller with its identity. -/
def serveApi (h : OrchestrationHandler) (db : Db) (r : CallerIdentity × ApiRequest) : Response × Db :=
  if r.1.scopes.contains r.2.scope then handleApi h db r.1 r.2
  else (insufficientScope r.2.scope, db)

end A2ARegistry.Orchestration
