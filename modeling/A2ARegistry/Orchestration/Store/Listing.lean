import A2ARegistry.Base.Like
import A2ARegistry.Base.Text
import A2ARegistry.Orchestration.Routes
import A2ARegistry.Orchestration.Store.Claims

namespace A2ARegistry.Orchestration
open Base

/-- The filters, the page and the order of `list_tasks`. A filter that is `none` or empty selects all. -/
structure ListArgs where
  status : Option String := none
  assignee : Option String := none
  tenant : Option String := none
  parentId : Option String := none
  q : Option String := none
  limit : Int := 50
  offset : Int := 0
  sort : String := "-created_at"
deriving DecidableEq, Repr

/-- `column LIKE '%q%'`, on a column that may be NULL. -/
def columnLike (q : String) (column : Option String) : Bool := column.any (likeText ("%" ++ q ++ "%"))

/-- A filter that is given and not empty. -/
def given (filter : Option String) : Option String := if truthy filter then filter else none

/-- The `WHERE` clauses of `list_tasks`. -/
def ListArgs.selects (args : ListArgs) (db : Db) (t : Task) : Bool :=
  (given args.status).all (fun status => ((splitAt status ',').map strip).contains t.status.value) &&
    (given args.assignee).all (fun assignee => t.assignee == some assignee) &&
    t.inTenant (given args.tenant) &&
    (given args.parentId).all (fun parentId => (childIds db parentId).contains t.id) &&
    (given args.q).all (fun q => columnLike q (some t.title) || columnLike q t.body)

/-- The columns a list may be sorted by. -/
inductive SortColumn
  | createdAt | priority | startedAt | title
deriving DecidableEq, Repr

/-- The column of a `sort` argument. The order is descending with a minus sign or without. -/
def sortColumn (sort : String) : SortColumn :=
  let name := if "-".toList.isPrefixOf sort.toList then String.ofList (sort.toList.drop 1)
    else if sort = "" then "created_at" else sort
  if name = "priority" then .priority
  else if name = "started_at" then .startedAt
  else if name = "title" then .title
  else .createdAt

/-- The order of one column, NULL before everything. -/
def SortColumn.compare (column : SortColumn) (a b : Task) : Ordering :=
  match column with
  | .createdAt => Ord.compare a.createdAt b.createdAt
  | .priority => Ord.compare a.priority b.priority
  | .startedAt => Ord.compare a.startedAt b.startedAt
  | .title => Ord.compare a.title b.title

/-- `ORDER BY column DESC, id`. -/
def SortColumn.before (column : SortColumn) (a b : Task) : Bool :=
  ((column.compare b a).then (Ord.compare a.id b.id)).isLE

/-- `LIMIT ? OFFSET ?`; a negative limit is no limit. -/
def page (limit offset : Int) (rows : List Task) : List Task :=
  let rest := rows.drop offset.toNat
  if limit < 0 then rest else rest.take limit.toNat

/-- `TaskStore.list_tasks`. -/
def listTasks (db : Db) (args : ListArgs) : List Task × Nat :=
  let rows := db.tasks.select (args.selects db)
  (page args.limit args.offset (rows.mergeSort (sortColumn args.sort).before), rows.length)

/-- The conversions, and the text SQLite keeps of a REAL in a TEXT column: NULL for a NaN.
The text of an object is never empty. -/
structure Engine extends Codec where
  realText : String → Option String
  dumps_ne : ∀ fields, dumps (.obj fields) ≠ ""

/-- SQLite integers have 64 bits. -/
def fitsInteger (n : Int) : Bool := -9223372036854775808 ≤ n && n ≤ 9223372036854775807

/-- What a TEXT column holds after a value is bound to it; `none` when binding it raises. -/
def Engine.bind (e : Engine) : Json → Option (Option String)
  | .null => some none
  | .bool b => some (some (if b then "1" else "0"))
  | .int n => if fitsInteger n then some (some (toString n)) else none
  | .float r => some (e.realText r)
  | .str s => some (some s)
  | .arr _ | .obj _ => none

/-- Some statement of `update_task_status` has `result` as a parameter. -/
def Task.binds (t : Task) (new : TaskStatus) (value : Json) : Bool :=
  match new with
  | .completed => t.currentRunId.isSome || value.truthy
  | .failed => true
  | _ => false

/-- What the statements that have `result` as a parameter bind it to. -/
def Engine.bindFor (e : Engine) (t : Task) (new : TaskStatus) (value : Json) : Option (Option String) :=
  if t.binds new value then e.bind value else some none

/-- The `UPDATE tasks` of `update_task_status` for a `result` that need not be a text. -/
def Task.report (t : Task) (now : Int) (new : TaskStatus) (value : Json) (bound : Option String)
    (retryAt : Option Int) : Task :=
  { t with
    status := new
    completedAt := if new = .completed ∨ new = .failed then some now else t.completedAt
    consecutiveFailures :=
      if new = .failed then t.consecutiveFailures + 1
      else if new = .completed then 0 else t.consecutiveFailures
    lastFailureError := if new = .failed then bound else t.lastFailureError
    nextRetryAt := if retryAt.isSome then retryAt else t.nextRetryAt
    result := if new = .completed ∧ value.truthy = true then bound else t.result }

@[simp] theorem Task.report_id (t : Task) (now : Int) (new : TaskStatus) (value : Json)
    (bound : Option String) (retryAt : Option Int) :
    (t.report now new value bound retryAt).id = t.id := rfl

/-- The writes of `update_task_status` up to its event. -/
def reportMove (db : Db) (clock : Clock) (task : Task) (new : TaskStatus) (value : Json)
    (bound : Option String) (retryAt : Option Int) (kind : String) : Db :=
  let moved := (finishRun db clock.now task new { result := bound }).setTask task.id
    (fun t => t.report clock.now new value bound retryAt)
    (fun t => t.report_id clock.now new value bound retryAt)
  emitEvent moved clock task.id kind task.currentRunId
    [("from", .str task.status.value), ("to", .str new.value), ("result", value)]

def writeReport (db : Db) (clock : Clock) (task : Task) (new : TaskStatus) (value : Json)
    (bound : Option String) (retryAt : Option Int) (kind : String) : Db :=
  let moved := reportMove db clock task new value bound retryAt kind
  if new = .completed then resolveChildren moved clock task.id else moved

/-- `update_task_status(task_id, new, result=value)` for a value of any type; `none` when
the call raises, and its transaction is rolled back. -/
def reportStatus (e : Engine) (db : Db) (clock : Clock) (taskId : String) (new : TaskStatus)
    (value : Json) : Option Db := do
  let task ← db.task? taskId
  (validateTransition task.status.value new.value).toOption
  let bound ← e.bindFor task new value
  let retryAt ← (nextRetry clock.now task new).toOption
  let kind ← (eventKind task.status new).toOption
  return writeReport db clock task new value bound retryAt kind

end A2ARegistry.Orchestration
