import Mathlib.Data.List.Sort
import A2ARegistry.Base.Loads
import A2ARegistry.Base.Run
import A2ARegistry.Orchestration.Store.Tasks

namespace A2ARegistry.Orchestration.Cron
open Base

/-- A row of `cron_tasks`. The template is the JSON text of its column. -/
structure CronTask where
  id : String
  name : String
  assignee : String
  cronExpression : String
  taskTemplate : String
  enabled : Bool
  lastRun : Option Int
  nextRun : Option Int
  createdBy : String
  createdAt : Int
  tenant : Option String
deriving DecidableEq, Repr

inductive ExecutionStatus
  | running
  | completed
deriving DecidableEq, Repr

/-- A row of `cron_executions`. -/
structure CronExecution where
  id : Nat
  cronTaskId : String
  taskId : String
  scheduledAt : Int
  startedAt : Option Int
  completedAt : Option Int
  status : ExecutionStatus
deriving DecidableEq, Repr

instance : Keyed String CronTask := ⟨CronTask.id⟩

instance : Keyed Nat CronExecution := ⟨CronExecution.id⟩

/-- The tables of the cron store, and the task store the scheduler dispatches to. -/
structure State where
  crons : Table CronTask
  executions : AutoTable CronExecution
  tasks : Db

def State.init (tasks : Db) : State := ⟨Table.empty, AutoTable.empty, tasks⟩

/-- What the scheduler asks of `create_task`. The first three are whatever the template holds. -/
structure TaskRequest where
  title : Json
  body : Json
  priority : Json
  assignee : String
  tenant : Option String
  createdBy : String

/-- The packages the scheduler rests on. `croniter` is `int(croniter(expression, base).get_next())`, `none` where that
raises; `bind` is what the columns of `tasks` make of the values of a request. -/
structure Libraries where
  python : Python
  croniter : String → Int → Option Int
  bind : TaskRequest → Except StoreError CreateArgs

section CronTaskStore

/-- `CronTask.ensure_id`. -/
def CronTask.ensureId (cron : CronTask) (hex : String) : String := if cron.id = "" then "cron_" ++ hex else cron.id

/-- `create_cron_task`. -/
def createCronTask (lib : Libraries) (now : Int) (hex : String) (cron : CronTask) (s : State) :
    Except StoreError (String × State) :=
  let cron := { cron with
    id := cron.ensureId hex
    createdAt := now
    nextRun := some ((lib.croniter cron.cronExpression (now - 1)).getD (now + 3600)) }
  match s.crons.insert? cron with
  | none => .error (.integrityError "cron_tasks")
  | some crons => .ok (cron.id, { s with crons := crons })

/-- `list_cron_tasks`, newest first. -/
def listCronTasks (enabledOnly : Bool) (s : State) : List CronTask :=
  (s.crons.select (fun c => !enabledOnly || c.enabled)).insertionSort (fun c d => d.createdAt ≤ c.createdAt)

/-- `delete_cron_task`. -/
def deleteCronTask (cronId : String) (s : State) : State :=
  { s with
    crons := s.crons.delete (fun c => c.id == cronId)
    executions := s.executions.keep (fun x => x.cronTaskId != cronId) }

/-- `update_next_run`. -/
def updateNextRun (cronId : String) (lastRun nextRun : Int) (s : State) : State :=
  { s with
    crons := s.crons.modify (fun c => c.id == cronId)
      (fun c => { c with lastRun := some lastRun, nextRun := some nextRun }) }

/-- `set_enabled`. -/
def setEnabled (cronId : String) (enabled : Bool) (s : State) : State :=
  { s with crons := s.crons.modify (fun c => c.id == cronId) (fun c => { c with enabled := enabled }) }

/-- `create_execution`, which gives the record the id of its row. -/
def createExecution (record : CronExecution) (s : State) : Nat × State :=
  (s.executions.next, { s with executions := s.executions.insert (fun id => { record with id := id }) })

/-- `update_execution_status`, with a time of completion. -/
def updateExecutionStatus (execId : Nat) (status : ExecutionStatus) (completedAt : Int) (s : State) : State :=
  { s with
    executions := s.executions.modify (fun x => x.id == execId)
      (fun x => { x with status := status, completedAt := some completedAt }) }

end CronTaskStore

/-- `compute_next_run`. -/
def computeNextRun (lib : Libraries) (cronExpression : String) (after : Int) : Option Int :=
  lib.croniter cronExpression after

section CronScheduler

/-- The author the scheduler puts on its tasks. -/
def defaultCreatedBy : String := "cron-scheduler"

/-- `_parse_template`. Text that is not JSON counts as no template. -/
def parseTemplate (p : Python) (raw : String) : Json :=
  if raw = "" then .obj [] else (Json.loads p raw).getD (.obj [])

def CronTask.request (cron : CronTask) (template : List (String × Json)) : TaskRequest where
  title := Json.get template "title" (.str cron.name)
  body := Json.get template "body" (.str "")
  priority := Json.get template "priority" (.int 0)
  assignee := cron.assignee
  tenant := cron.tenant
  createdBy := defaultCreatedBy

/-- What one call of `_fire_cron_task` takes from the clock and from `uuid4`. -/
structure Draw where
  clock : Clock
  hex : String
  completedAt : Int

/-- What `_fire_cron_task` raises: `template.get` where that is no method, or what the task store raises. -/
inductive FireError
  | attributeError
  | taskStore (e : StoreError)

/-- The task that `_fire_cron_task` creates. -/
def dispatch (lib : Libraries) (draw : Draw) (cron : CronTask) (tasks : Db) : Except FireError (Task × Db) :=
  match parseTemplate lib.python cron.taskTemplate with
  | .obj template => match lib.bind (cron.request template) with
    | .error e => .error (.taskStore e)
    | .ok args => match createTask tasks draw.clock draw.hex args with
      | .error e => .error (.taskStore e)
      | .ok created => .ok created
  | _ => .error .attributeError

/-- `_fire_cron_task`. -/
def fireCronTask (lib : Libraries) (now : Int) (draw : Draw) (cron : CronTask) (s : State) : Except FireError State :=
  match dispatch lib draw cron s.tasks with
  | .error e => .error e
  | .ok (task, tasks) =>
    let (execId, s) := createExecution ⟨0, cron.id, task.id, now, some now, none, .running⟩ { s with tasks := tasks }
    let s := updateExecutionStatus execId .completed draw.completedAt s
    .ok (match computeNextRun lib cron.cronExpression (now - 1) with
      | some nextRun => updateNextRun cron.id now nextRun s
      | none => setEnabled cron.id false s)

/-- The test of `_load_due_cron_tasks`. -/
def CronTask.due (cron : CronTask) (now : Int) : Bool := cron.nextRun.any (fun nextRun => nextRun ≤ now)

/-- `_load_due_cron_tasks`. -/
def loadDueCronTasks (now : Int) (s : State) : List CronTask := (listCronTasks true s).filter (fun c => c.due now)

/-- The loop of `_tick` over the tasks that are due. What is raised is logged. -/
def fireOrLog (lib : Libraries) (now : Int) (draws : String → Draw) (s : State) (cron : CronTask) : State :=
  match fireCronTask lib now (draws cron.id) cron s with
  | .error _ => s
  | .ok s => s

def fires (lib : Libraries) (now : Int) (draws : String → Draw) (s : State) (cron : CronTask) : Bool :=
  (fireCronTask lib now (draws cron.id) cron s).isOk

/-- `_tick`. The calls of the loop draw what they need under the id of their task. -/
def tick (lib : Libraries) (now : Int) (draws : String → Draw) (s : State) : Nat × State :=
  let due := loadDueCronTasks now s
  (tally (fireOrLog lib now draws) (fires lib now draws) s due, exec (fireOrLog lib now draws) s due)

end CronScheduler

/-- A call of the cron store that changes a task, or a tick of the scheduler. -/
inductive Event
  | create (now : Int) (hex : String) (cron : CronTask)
  | delete (cronId : String)
  | setEnabled (cronId : String) (enabled : Bool)
  | tick (now : Int) (draws : String → Draw)

/-- The tables after a call, whether it returns or raises. -/
def step (lib : Libraries) (s : State) : Event → State
  | .create now hex cron => match createCronTask lib now hex cron s with
    | .error _ => s
    | .ok (_, s) => s
  | .delete cronId => deleteCronTask cronId s
  | .setEnabled cronId enabled => Cron.setEnabled cronId enabled s
  | .tick now draws => (Cron.tick lib now draws s).2

end A2ARegistry.Orchestration.Cron
