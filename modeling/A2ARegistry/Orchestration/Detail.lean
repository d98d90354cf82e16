import A2ARegistry.Base.RoundTrip
import A2ARegistry.Orchestration.Store.Listing

namespace A2ARegistry.Orchestration
open Base

/-- The conversions of Python. -/
def python (p : Python) (realText : String → Option String) : Engine where
  dumps := Json.dumps
  str := Json.strOf p
  loads := Json.loads p
  realText := realText
  dumps_ne := fun fields h => by
    have hlist := congrArg String.toList h
    simp [Json.dumps, Json.render] at hlist

/-- A nullable integer value. -/
def ofInt : Option Int → Json
  | none => .null
  | some n => .int n

/-- `to_dict`: the fields that are not `None`. -/
def toDict (fields : List (String × Json)) : List (String × Json) :=
  fields.filter (fun f => match f.2 with
    | .null => false
    | _ => true)

/-- `_task_to_brief`. -/
def taskToBrief (t : Task) : List (String × Json) :=
  [("id", .str t.id), ("title", .str t.title), ("status", .str t.status.value),
    ("assignee", .ofText t.assignee), ("priority", .int t.priority), ("created_at", .int t.createdAt),
    ("started_at", ofInt t.startedAt), ("completed_at", ofInt t.completedAt), ("tenant", .ofText t.tenant)]

/-- `json.loads(column) if column else None`; `none` when it raises. -/
def loadColumn (codec : Codec) (column : Option String) : Option Json :=
  if truthy column then codec.loads (column.getD "") else some .null

/-- `_task_to_detail`. Nothing writes the columns of the last four fields. -/
def taskToDetail (codec : Codec) (t : Task) : Option (List (String × Json)) :=
  (loadColumn codec t.result).map (fun result => taskToBrief t ++
    [("body", .ofText t.body), ("created_by", .ofText t.createdBy),
      ("workspace_kind", .ofText t.workspaceKind), ("workspace_path", .ofText t.workspacePath),
      ("claim_lock", .ofText t.claimLock), ("claim_expires", ofInt t.claimExpires),
      ("max_runtime_seconds", ofInt t.maxRuntimeSeconds), ("max_retries", ofInt t.maxRetries),
      ("consecutive_failures", .int t.consecutiveFailures),
      ("current_run_id", ofInt (t.currentRunId.map Int.ofNat)), ("parallel_group", .ofText t.parallelGroup),
      ("result", result), ("summary", .null), ("metadata", .null), ("tags", .null), ("circuit_state", .null)])

/-- `_run_to_dict`: metadata that cannot be decoded stays text. -/
def runToDict (codec : Codec) (r : TaskRun) : Json :=
  let metadata := match r.metadata with
    | none => .null
    | some value => (codec.loads (codec.dumps value)).getD (.str (codec.dumps value))
  .obj (toDict [("id", .int r.id), ("task_id", .str r.taskId), ("profile", .ofText r.profile),
    ("status", .str r.status.value), ("claim_lock", .ofText r.claimLock),
    ("claim_expires", ofInt r.claimExpires), ("worker_pid", ofInt r.workerPid),
    ("max_runtime_seconds", ofInt r.maxRuntimeSeconds), ("last_heartbeat_at", ofInt r.lastHeartbeatAt),
    ("started_at", .int r.startedAt), ("ended_at", ofInt r.endedAt), ("outcome", .ofText r.outcome),
    ("summary", .ofText r.summary), ("metadata", metadata), ("error", .ofText r.error)])

def commentToDict (c : TaskComment) : Json :=
  .obj [("id", .int c.id), ("task_id", .str c.taskId), ("author", .str c.author), ("body", .str c.body),
    ("created_at", .int c.createdAt)]

def eventToDict (codec : Codec) (e : TaskEvent) : Json :=
  .obj (toDict [("id", .int e.id), ("task_id", .str e.taskId), ("run_id", ofInt (e.runId.map Int.ofNat)),
    ("kind", .str e.kind), ("payload", .ofText (e.payload.map (fun fields => codec.dumps (.obj fields)))),
    ("created_at", .int e.createdAt)])

section
variable (db : Db) (taskId : String)

/-- A row of `get_parents` or `get_children`. -/
def linkedTask (link : TaskLink) (linkedId : String) : Option Json :=
  (db.task? linkedId).map (fun t => .obj [("id", .str t.id), ("title", .str t.title),
    ("status", .str t.status.value), ("condition", .ofText link.condition)])

def getParents : List Json :=
  (db.links.select (fun l => l.childId == taskId)).filterMap (fun l => linkedTask db l l.parentId)

def getChildren : List Json :=
  (db.links.select (fun l => l.parentId == taskId)).filterMap (fun l => linkedTask db l l.childId)

/-- `ORDER BY id DESC`: the rows stand in the order of their ids. -/
def getRuns : List TaskRun := (db.runs.select (fun r => r.taskId == taskId)).reverse

/-- `ORDER BY created_at`. -/
def getComments : List TaskComment :=
  (db.comments.select (fun c => c.taskId == taskId)).mergeSort (fun c d => c.createdAt ≤ d.createdAt)

/-- `ORDER BY id DESC LIMIT 50`. -/
def getEvents : List TaskEvent := ((db.events.select (fun e => e.taskId == taskId)).reverse).take 50

/-- `GET /v2/tasks/{id}`. -/
def handleGetTask (codec : Codec) : Response :=
  match getTask db taskId with
  | none => jsonError 404 "task_not_found" s!"Task '{taskId}' not found"
  | some view =>
    match taskToDetail codec view.task with
    | none => serverError
    | some detail => ⟨200, [("task", .obj detail), ("parents", .arr (getParents db taskId)),
        ("children", .arr (getChildren db taskId)),
        ("runs", .arr ((getRuns db taskId).map (runToDict codec))),
        ("comments", .arr ((getComments db taskId).map commentToDict)),
        ("events", .arr ((getEvents db taskId).map (eventToDict codec)))], []⟩

end

/-- The answer of `handle_complete` where a broadcast function is wired up: the stored task is
rendered for the broadcast before the request is answered. -/
def broadcastAnswer (codec : Codec) (taskId : String) (answer : Response × Db) : Response × Db :=
  if answer.1.status = 200 then
    match getTask answer.2 taskId with
    | none => answer
    | some view =>
      match taskToDetail codec view.task with
      | none => (serverError, answer.2)
      | some _ => answer
  else answer

/-- `POST /v2/tasks/{id}/complete`, with a broadcast function or without. -/
def postComplete (codec : Codec) (broadcasts : Bool) (ape : Option Security.Ape) (db : Db) (clock : Clock)
    (agentId taskId : String) (body : CompleteBody) : Response × Db :=
  let answer := handleComplete codec ape db clock agentId taskId body
  if broadcasts then broadcastAnswer codec taskId answer else answer

end A2ARegistry.Orchestration
