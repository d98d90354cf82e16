import A2ARegistry.Orchestration.Models
import A2ARegistry.Orchestration.Store.Ops
import A2ARegistry.Security.Ape

namespace A2ARegistry.Orchestration
open Base Security

/-- The conversions between JSON values and text that the handlers use: `json.dumps`,
`str`, and `json.loads`, which is `none` when it raises. -/
structure Codec where
  dumps : Json → String
  str : Json → String
  loads : String → Option Json

structure Response where
  status : Nat
  body : List (String × Json)
  headers : List (String × String) := []

/-- `_json_error`. -/
def jsonError (status : Nat) (errorCode detail : String) : Response where
  status := status
  body := [("error", .str errorCode), ("detail", .str detail)]

/-- The answer to a request whose handler raises. -/
def serverError : Response := ⟨500, [], []⟩

/-- `str(e)`. -/
def StoreError.message (codec : Codec) : StoreError → String
  | .valueError message => message
  | .invalidTransition fromStatus toStatus => s!"Invalid transition: '{fromStatus}' → '{toStatus}'"
  | .permissionError expected got =>
    s!"Claim lock mismatch: expected '{codec.str (.ofText expected)}', got '{codec.str got}'"
  | .integrityError table => s!"UNIQUE constraint failed: {table}"
  | .attributeError owner name => s!"type object '{owner}' has no attribute '{name}'"
  | .overflowError => "int too large to convert to float"

/-- How `handle_complete` and `handle_block` answer a store call that raised. -/
def statusErrorResponse (codec : Codec) (e : StoreError) : Response :=
  let message := e.message codec
  match e with
  | .invalidTransition .. => jsonError 400 "invalid_status" message
  | .permissionError .. => jsonError 403 "claim_mismatch" message
  | .valueError _ =>
    if contains message.toLower "not found" then jsonError 404 "task_not_found" message
    else jsonError 400 "validation_error" message
  | _ => serverError

/-- The decoded body of a completion; an absent key reads like `null`. -/
structure CompleteBody where
  claimLock : Json := .null
  summary : Option String := none
  result : Json := .null
  metadata : Json := .null
  outputContract : Json := .null

/-- The text stored for a result. -/
def resultText (codec : Codec) : Json → Option String
  | .null => none
  | .obj fields => some (codec.dumps (.obj fields))
  | value => some (codec.str value)

/-- The output contract check of `handle_complete`: the validation error, if there is one;
`none` outside when the check raises. -/
def checkContract (codec : Codec) (body : CompleteBody) : Option (Option String) :=
  let contract : OutputContract := match body.outputContract with
    | .obj data => .fromDict data
    | _ => {}
  match body.outputContract, body.result with
  | .null, _ => some none
  | _, .obj output => validateOutput output contract
  | _, result =>
    if truthy (resultText codec result) then
      match codec.loads ((resultText codec result).getD "") with
      | none => none
      | some (.obj output) => validateOutput output contract
      | some _ => some none
    else some none

/-- The update arguments for a result that broke its contract. -/
def CompleteBody.failArgs (body : CompleteBody) (error : String) : StatusArgs where
  claimLock := body.claimLock
  result := some error
  summary := if truthy body.summary then body.summary else some error
  metadata := body.metadata

/-- The update arguments for a result that is accepted. -/
def CompleteBody.args (codec : Codec) (body : CompleteBody) : StatusArgs where
  claimLock := body.claimLock
  result := resultText codec body.result
  summary := body.summary
  metadata := body.metadata

/-- The store call of `handle_complete` on a result that broke its contract. -/
def failOnContract (codec : Codec) (db : Db) (clock : Clock) (taskId : String) (body : CompleteBody)
    (headers : List (String × String)) (error : String) : Response × Db :=
  match updateTaskStatus db clock taskId TaskStatus.failed.value (body.failArgs error) with
  | .ok (_, db') => (⟨200, [("task_id", .str taskId), ("status", .str TaskStatus.failed.value),
      ("failure_reason", .str error)], headers⟩, db')
  | .error e => match e with
    | .invalidTransition .. | .permissionError .. | .valueError _ =>
      (jsonError 400 "status_error" (e.message codec), db)
    | _ => (serverError, db)

/-- The store call of `handle_complete` on a result that is accepted. -/
def completeTask (codec : Codec) (db : Db) (clock : Clock) (taskId : String) (body : CompleteBody)
    (headers : List (String × String)) : Response × Db :=
  match updateTaskStatus db clock taskId TaskStatus.completed.value (body.args codec) with
  | .ok (_, db') => (⟨200, [("task_id", .str taskId),
      ("status", .str TaskStatus.completed.value)], headers⟩, db')
  | .error e => (statusErrorResponse codec e, db)

/-- The checkpoint of `handle_complete`; without an engine every request passes. -/
def completeCheckpoint (ape : Option Ape) (db : Db) (agentId taskId : String) (body : CompleteBody) :
    CheckpointResult :=
  match ape with
  | none => { allowed := true, reason := "" }
  | some ape => ape.checkTaskComplete db agentId taskId body.claimLock

/-- `POST /v2/tasks/{id}/complete`. -/
def handleComplete (codec : Codec) (ape : Option Ape) (db : Db) (clock : Clock) (agentId taskId : String)
    (body : CompleteBody) : Response × Db :=
  let checkpoint := completeCheckpoint ape db agentId taskId body
  if !checkpoint.allowed then (jsonError 403 "security_denied" checkpoint.reason, db)
  else match checkContract codec body with
    | none => (serverError, db)
    | some (some error) => failOnContract codec db clock taskId body checkpoint.responseHeaders error
    | some none => completeTask codec db clock taskId body checkpoint.responseHeaders

/-- The decoded body of a block request; `reason` is `none` when the key is absent. -/
structure BlockBody where
  claimLock : Json := .null
  reason : Option Json := none

/-- The comment a block leaves, if its reason is truthy. Failing to store it is ignored. -/
def blockComment (codec : Codec) (db : Db) (clock : Clock) (taskId : String) (reason : Json) : Db :=
  if reason.truthy then
    (db.tx (addComment db clock taskId "system" s!"Block reason: {codec.str reason}")).2
  else db

/-- `POST /v2/tasks/{id}/block`. `clock` is read by the update, `commentClock` by the comment. -/
def handleBlock (codec : Codec) (db : Db) (clock commentClock : Clock) (taskId : String)
    (body : BlockBody) : Response × Db :=
  let reason := body.reason.getD (.str "Blocked by human-in-the-loop")
  match updateTaskStatus db clock taskId TaskStatus.blocked.value { claimLock := body.claimLock } with
  | .error e => (statusErrorResponse codec e, db)
  | .ok (_, db') => (⟨200, [("task_id", .str taskId), ("status", .str TaskStatus.blocked.value),
      ("block_reason", reason)], []⟩, blockComment codec db' commentClock taskId reason)

/-- What `PATCH /v2/tasks/{id}` answers: an error, or the task it then renders. -/
inductive PatchReply
  | error (response : Response)
  | task (view : Option TaskView)

/-- How `handle_update_task` answers a store call that raised. -/
def patchErrorResponse (codec : Codec) (e : StoreError) : Response :=
  let message := e.message codec
  match e with
  | .valueError _ | .invalidTransition .. =>
    if contains message.toLower "not found" then jsonError 404 "task_not_found" message
    else jsonError 400 "validation_error" message
  | _ => jsonError 400 "status_error" message

/-- The transition check on a status that is no text: no pair of the table matches it,
and a list or an object cannot even be looked up. -/
def refuseStatus (codec : Codec) (task : Task) (status : Json) : Response :=
  match status with
  | .arr _ => jsonError 400 "status_error" "unhashable type: 'list'"
  | .obj _ => jsonError 400 "status_error" "unhashable type: 'dict'"
  | value => patchErrorResponse codec (.invalidTransition task.status.value (codec.str value))

/-- The branch of `handle_update_task` for a body with a `status`: the update is made
without a lock. -/
def handleUpdateStatus (codec : Codec) (db : Db) (clock : Clock) (taskId : String) (status : Json) :
    PatchReply × Db :=
  match status with
  | .str newStatus =>
    match updateTaskStatus db clock taskId newStatus {} with
    | .ok (view, db') => (.task view, db')
    | .error e => (.error (patchErrorResponse codec e), db)
  | value =>
    match db.task? taskId with
    | none => (.error (patchErrorResponse codec (.valueError s!"Task '{taskId}' not found")), db)
    | some task => (.error (refuseStatus codec task value), db)

end A2ARegistry.Orchestration
