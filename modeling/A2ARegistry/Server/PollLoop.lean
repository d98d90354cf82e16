import A2ARegistry.Base.Paging
import A2ARegistry.Orchestration.Store.Listing
import A2ARegistry.Server.Dispatcher

namespace A2ARegistry.Server
open Base Orchestration

/-- How `_claim_and_spawn` asks `list_tasks` for the ready tasks. -/
def readyArgs (tenant : Option String) : ListArgs where
  status := some TaskStatus.ready.value
  tenant := tenant
  limit := 200
  sort := "-priority"

/-- The key a task is grouped under; `none` stands for `_NO_GROUP`. -/
def groupKey (task : Task) : Option String := given task.parallelGroup

/-- The tasks of one group that are dispatched, in their order. New tasks come before the retried ones where there is
no group, and tasks without an assignee are passed there. -/
def groupWork : Option String × List Task → List Task
  | (none, tasks) =>
    (tasks.mergeSort (fun a b => a.consecutiveFailures ≤ b.consecutiveFailures)).filter (fun t => truthy t.assignee)
  | (some _, tasks) => tasks

/-- The tasks the loop of `_claim_and_spawn` comes to. -/
def agenda (db : Db) (tenant : Option String) : List Task :=
  (groupRows groupKey (listTasks db (readyArgs tenant)).1).flatMap groupWork

/-- `_claim_and_spawn` at work: the tasks `_dispatch_single_task` was run for, `claimed_count`, `dispatched_ids`,
and whether an exception has ended the loop. -/
structure Spawning (σ : Type) where
  state : σ
  calls : List Task := []
  claimedCount : Nat := 0
  dispatchedIds : List String := []
  raised : Bool := false

section
variable {σ : Type} (dispatch : σ → Task → σ × DispatchResult)

/-- The loop, where `dispatch` is `_dispatch_single_task`. -/
def spawnEach : List Task → Spawning σ → Spawning σ
  | [], s => s
  | task :: tasks, s =>
    if task.id ∈ s.dispatchedIds then spawnEach tasks s
    else
      match dispatch s.state task with
      | (state, .raised) => { s with state := state, calls := s.calls ++ [task], raised := true }
      | (state, .counted sent) => spawnEach tasks
        { s with
          state := state
          calls := s.calls ++ [task]
          claimedCount := s.claimedCount + sent.toNat
          dispatchedIds := if sent then task.id :: s.dispatchedIds else s.dispatchedIds }

/-- `_claim_and_spawn`. -/
def claimAndSpawn (db : Db) (tenant : Option String) (state : σ) : Spawning σ :=
  spawnEach dispatch (agenda db tenant) { state := state }

end

/-- What the poll loop meets while it dispatches a task: the clocks, the way the task goes, what the server does while
the dispatch waits, and how a send or the start of a process ends. -/
structure Turn where
  times : PollClock
  route : Route
  inputs : ClaimInputs
  meanwhile : List Event
  ended : PollClock
  sendError : Option DispatchError
  process : Except String Int

/-- The channel of a route that sends the task. -/
def Route.channel? : Route → Option Channel
  | .ws => some .ws
  | .callback => some .callback
  | _ => none

section
variable (e : Engine) (d : Dispatcher)

/-- The result of a dispatch that ends without waiting. -/
def Dispatcher.earlyResult (turn : Turn) (task : Task) : DispatchResult :=
  match turn.route.channel?, turn.inputs.workspace, task.assignee with
  | some channel, .error error, some assignee =>
    if assignee = "" || !(d.flowControl.canDispatch assignee turn.times.gate).1 then .counted false
    else
      match claimTask d.taskStore turn.times.store task.id (channel.workerId assignee) turn.inputs.pid
        turn.inputs.ttl with
      | (none, _) => .counted false
      | (some _, db) => failResult e db turn.times.store task.id error
  | _, _, _ => .counted false

/-- The steps of the server while the poll loop waits. -/
def Dispatcher.waits (meanwhile : List Event) : Dispatcher :=
  exec (DispatcherEvent.step e) d (meanwhile.map .server)

/-- The result of a send. -/
def Dispatcher.sendResult (turn : Turn) (sent : Sending) : DispatchResult :=
  match turn.sendError with
  | none => .counted true
  | some error => failResult e d.taskStore turn.ended.store sent.taskId error.kanbanText

/-- `_dispatch_single_task` from its call to its end. -/
def Dispatcher.dispatchTask (turns : String → Turn) (task : Task) : Dispatcher × DispatchResult :=
  let turn := turns task.id
  let begun := d.dispatchSingleTask e turn.times ⟨task.id, task.assignee⟩ turn.route turn.inputs
  match begun.attempt with
  | none => (begun, d.earlyResult e turn task)
  | some (.send sent) =>
    let waited := begun.waits e turn.meanwhile
    (waited.endSend e turn.ended sent turn.sendError, waited.sendResult e turn sent)
  | some (.spawn taskId assignee) =>
    let waited := begun.waits e turn.meanwhile
    (waited.endSpawn e turn.ended taskId assignee turn.process, .counted turn.process.isOk)

/-- `_claim_and_spawn` of the dispatcher. -/
def Dispatcher.claimAndSpawn (tenant : Option String) (turns : String → Turn) : Spawning Dispatcher :=
  A2ARegistry.Server.claimAndSpawn (fun d task => d.dispatchTask e turns task) d.taskStore tenant d

end

end A2ARegistry.Server
