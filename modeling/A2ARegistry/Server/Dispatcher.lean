import A2ARegistry.Orchestration.FlowControl
import A2ARegistry.Server.Dispatch

namespace A2ARegistry.Server
open Base Orchestration

/-- What the poll loop waits for: the end of a send, or a worker process that starts. -/
inductive Attempt
  | send (sent : Sending)
  | spawn (taskId assignee : String)
deriving DecidableEq, Repr

/-- The server and its dispatcher. The poll loop makes one attempt after the other. -/
structure Dispatcher extends RegistryHandler where
  flowControl : FlowController
  attempt : Option Attempt

/-- The way a task is dispatched, which `_dispatch_single_task` reads off the connections, the
agent's card and the configuration. -/
inductive Route
  | ws
  | callback
  /-- the assignee is not connected while others are -/
  | block
  /-- no `worker_command` -/
  | skip
  | workerCommand (dispatcherId : String)
deriving DecidableEq, Repr

/-- The clocks of one call: of the store, of the comment it may leave, and of the flow controller
before and after. -/
structure PollClock where
  store : Clock
  comment : Clock
  gate : Int
  notify : Int

/-- Clocks that stand still. -/
def PollClock.still : PollClock := ⟨.fixed 0, .fixed 0, 0, 0⟩

/-- A task as the poll loop listed it. -/
structure Listed where
  taskId : String
  assignee : Option String

/-- What a claim is made with, and the workspace or the error of its allocation. -/
structure ClaimInputs where
  pid : Int
  ttl : Int
  workspace : Except String String

/-- The end of an attempt: a result that is counted, or an exception that leaves
`_dispatch_single_task` before it is. -/
inductive DispatchResult
  | counted (sent : Bool)
  | raised
deriving DecidableEq, Repr

/-- The worker id of a claim for a channel. -/
def Channel.workerId (channel : Channel) (assignee : String) : String :=
  let prefixWord := match channel with
    | .callback => "callback"
    | _ => "ws"
  s!"{prefixWord}-{assignee}"

section
variable (e : Engine) (d : Dispatcher)

/-- The end of `_dispatch_single_task`. -/
def Dispatcher.finish (assignee : String) (now : Int) : DispatchResult → Dispatcher
  | .counted sent => { d with flowControl := d.flowControl.notify assignee now sent, attempt := none }
  | .raised => { d with attempt := none }

@[simp] theorem Dispatcher.finish_handler (assignee : String) (now : Int) (result : DispatchResult) :
    (d.finish assignee now result).toRegistryHandler = d.toRegistryHandler := by
  cases result <;> rfl

/-- A task whose assignee is not connected is blocked, with a comment. -/
def blockUnconnected (db : Db) (times : PollClock) (taskId assignee : String) : Db :=
  match updateTaskStatus db times.store taskId TaskStatus.blocked.value {} with
  | .error _ => db
  | .ok (_, db') => (db'.tx (addComment db' times.comment taskId "dispatcher"
      s!"assignee '{assignee}' is not connected via WebSocket and no callback_url configured")).2

/-- The result of `update_task_status` to `failed` where no `try` is around it. -/
def failResult (db : Db) (clock : Clock) (taskId error : String) : DispatchResult :=
  if (reportStatus e db clock taskId .failed (.str error)).isSome then .counted false else .raised

/-- The way from the claim of a task to the `await` of its dispatch. `caught` says that a failure of
the workspace is recorded under a `try`. -/
def Dispatcher.claimFor (times : PollClock) (workerId taskId assignee : String) (inputs : ClaimInputs)
    (caught : Bool) (attempt : Attempt) : Dispatcher :=
  match claimTask d.taskStore times.store taskId workerId inputs.pid inputs.ttl, inputs.workspace with
  | (none, _), _ => d.finish assignee times.notify (.counted false)
  | (some _, db), .ok path =>
    { d with taskStore := updateWorkspacePath db taskId path, attempt := some attempt }
  | (some _, db), .error error =>
    let failed := { d.toRegistryHandler with taskStore := db }.updateStore e times.store taskId .failed
      (.str error)
    { d with toRegistryHandler := failed }.finish assignee times.notify
      (if caught then .counted false else failResult e db times.store taskId error)

/-- `_dispatch_via_ws` and `_dispatch_via_callback` up to their `await`. -/
def Dispatcher.dispatchVia (times : PollClock) (taskId assignee : String) (channel : Channel)
    (inputs : ClaimInputs) : Dispatcher :=
  d.claimFor e times (channel.workerId assignee) taskId assignee inputs false
    (.send ⟨taskId, assignee, channel⟩)

/-- `_dispatch_via_worker_command` up to the `await` of the process. -/
def Dispatcher.dispatchViaWorkerCommand (times : PollClock) (dispatcherId taskId assignee : String)
    (inputs : ClaimInputs) : Dispatcher :=
  d.claimFor e times dispatcherId taskId assignee inputs true (.spawn taskId assignee)

/-- `_dispatch_single_task` up to its `await`, when the poll loop gets to a task. -/
def Dispatcher.dispatchSingleTask (times : PollClock) (listed : Listed) (route : Route)
    (inputs : ClaimInputs) : Dispatcher :=
  match d.attempt, listed.assignee with
  | none, some assignee =>
    if assignee = "" then d
    else
      let (allowed, flowControl) := d.flowControl.canDispatch assignee times.gate
      let gated := { d with flowControl := flowControl }
      if !allowed then gated
      else match route with
        | .ws => gated.dispatchVia e times listed.taskId assignee .ws inputs
        | .callback => gated.dispatchVia e times listed.taskId assignee .callback inputs
        | .block =>
          { gated with taskStore := blockUnconnected d.taskStore times listed.taskId assignee }
        | .skip => gated
        | .workerCommand dispatcherId =>
          gated.dispatchViaWorkerCommand e times dispatcherId listed.taskId assignee inputs
  | _, _ => d

/-- The rest of `_dispatch_via_ws` and `_dispatch_via_callback`, once the task is sent or is not.
An error that cannot be recorded is raised again. -/
def Dispatcher.endSend (times : PollClock) (sent : Sending) (error : Option DispatchError) : Dispatcher :=
  match error with
  | none => { d with toRegistryHandler := d.toRegistryHandler.track sent.taskId sent.assignee }
      |>.finish sent.assignee times.notify (.counted true)
  | some error =>
    let failed := d.toRegistryHandler.updateStore e times.store sent.taskId .failed (.str error.kanbanText)
    { d with toRegistryHandler := failed }.finish sent.assignee times.notify
      (failResult e d.taskStore times.store sent.taskId error.kanbanText)

/-- The rest of `_dispatch_via_worker_command`: the process has a pid, or did not start. -/
def Dispatcher.endSpawn (times : PollClock) (taskId assignee : String) (process : Except String Int) :
    Dispatcher :=
  match process with
  | .ok pid =>
    { d with taskStore := setWorkerPid d.taskStore taskId pid }.finish assignee times.notify (.counted true)
  | .error error =>
    { d with toRegistryHandler := d.toRegistryHandler.updateStore e times.store taskId .failed (.str error) }
      |>.finish assignee times.notify (.counted false)

end

/-- A step of the server with its dispatcher. No handler of the server is given the flow
controller. -/
inductive DispatcherEvent
  | server (ev : Event)
  | dispatches (times : PollClock) (listed : Listed) (route : Route) (inputs : ClaimInputs)
  | sendEnds (times : PollClock) (error : Option DispatchError)
  | spawnEnds (times : PollClock) (process : Except String Int)

/-- The steps of the server that are the dispatcher's own. -/
def Event.ofDispatcher : Event → Bool
  | .sendBegins .. => true
  | .sendEnds _ sent _ => sent.channel != .reconnect
  | _ => false

/-- Who waits for the end of a send is nothing to the kanban board. -/
theorem Dispatcher.dispatchVia_store (e : Engine) (d : Dispatcher) (times : PollClock)
    (taskId assignee : String) (channel : Channel) (inputs : ClaimInputs) :
    (d.dispatchVia e times taskId assignee channel inputs).taskStore =
      (beginSend e d.toRegistryHandler times.store taskId assignee channel inputs.pid inputs.ttl
        inputs.workspace).taskStore := by
  unfold dispatchVia claimFor beginSend
  dsimp only [Channel.workerId]
  generalize claimTask _ _ _ _ _ _ = claimed
  obtain ⟨res, db⟩ := claimed
  cases res with
  | none => exact congrArg _ (Dispatcher.finish_handler ..)
  | some res =>
    cases inputs.workspace with
    | ok path => rfl
    | error error => exact congrArg _ (Dispatcher.finish_handler ..)

def DispatcherEvent.step (e : Engine) (d : Dispatcher) : DispatcherEvent → Dispatcher
  | .server ev =>
    if ev.ofDispatcher then d else { d with toRegistryHandler := ev.step e d.toRegistryHandler }
  | .dispatches times listed route inputs => d.dispatchSingleTask e times listed route inputs
  | .sendEnds times error =>
    match d.attempt with
    | some (.send sent) => d.endSend e times sent error
    | _ => d
  | .spawnEnds times process =>
    match d.attempt with
    | some (.spawn taskId assignee) => d.endSpawn e times taskId assignee process
    | _ => d

/-- The server and its dispatcher as they are started. -/
def Dispatcher.start (taskStore : Db) (config : FlowControlConfig) : Dispatcher where
  toRegistryHandler := .start taskStore true
  flowControl := .start config
  attempt := none

/-- A task is created, and sent to its agent. -/
def firstDispatch : List DispatcherEvent :=
  [.server (.storeCall (.createTask (.fixed 0) "a" { title := "a", assignee := some "a" })),
    .dispatches .still ⟨"t_a", some "a"⟩ .ws ⟨1, 900, .ok "/tmp"⟩,
    .sendEnds .still none]

end A2ARegistry.Server
