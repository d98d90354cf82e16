import Mathlib.Logic.Function.Basic
import A2ARegistry.Orchestration.Store.Listing

namespace A2ARegistry.Server
open Base Orchestration

/-- An entry of `_tasks`. A status word is whatever JSON value was reported; `dispatchedAt`
is set on the entries the server made itself, for a dispatch. -/
structure Record where
  id : String
  agentId : String
  state : Json
  result : Json
  error : Json
  dispatchedAt : Option Int

/-- An entry of `_dispatched_ws_tasks`: a kanban task that was sent, and its assignee. -/
structure Dispatched where
  taskId : String
  assignee : String
deriving DecidableEq, Repr

instance : Keyed String Record := ⟨Record.id⟩
instance : Keyed String Dispatched := ⟨Dispatched.taskId⟩

/-- The entry an agent's message creates for a task the server does not know. -/
def Record.blank (id agentId : String) : Record := ⟨id, agentId, .null, .null, .null, none⟩

/-- What a handler assigns to the entry of a task; a value that is `none` is left alone. -/
structure Change where
  state : Json
  result : Option Json := none
  error : Option Json := none

def Change.apply (c : Change) (t : Record) : Record :=
  { t with state := c.state, result := c.result.getD t.result, error := c.error.getD t.error }

@[simp] theorem Change.apply_id (c : Change) (t : Record) : (c.apply t).id = t.id := rfl

@[simp] theorem Change.apply_state (c : Change) (t : Record) : (c.apply t).state = c.state := rfl

@[simp] theorem Change.apply_agentId (c : Change) (t : Record) : (c.apply t).agentId = t.agentId := rfl

@[simp] theorem Change.apply_dispatchedAt (c : Change) (t : Record) :
    (c.apply t).dispatchedAt = t.dispatchedAt := rfl

@[simp] theorem key_record (t : Record) : key t = t.id := rfl
@[simp] theorem key_dispatched (d : Dispatched) : key d = d.taskId := rfl

/-- A worker of `_schedule_task_timeout`: asleep, or past its sleep and sending `task_cancel`. -/
inductive Worker
  | sleeping | cancelling
deriving DecidableEq, Repr

/-- How a kanban task travels: dispatched, or re-dispatched to an agent that reconnects. -/
inductive Channel
  | ws | callback | reconnect
deriving DecidableEq, Repr

/-- A kanban task that is being sent. -/
structure Sending where
  taskId : String
  assignee : String
  channel : Channel
deriving DecidableEq, Repr

/-- What the server keeps in memory: the state of `RegistryHandler`, of the rate limiter, and of
the requests that are suspended at an `await`. Timers are kept by what is live: an entry of
`_task_timers` or `_dangling_timers` is there as long as its worker is. -/
structure Memory where
  tasks : Table Record
  dispatchedWsTasks : Option (Table Dispatched)
  taskTimers : String → Option Worker
  danglingTimers : String → Bool
  stateSyncLast : String → Int
  /-- V1 tasks whose dispatch waits for its channel -/
  dispatching : String → Bool
  /-- callback results whose body is being read -/
  callbacks : List String
  /-- blocked tasks listed for an agent that reconnected -/
  pending : List (String × String)
  sending : List Sending

structure RegistryHandler extends Memory where
  taskStore : Db

namespace Memory

variable (m : Memory)

/-- `_tasks.get(task_id)`. -/
def record? (taskId : String) : Option Record := m.tasks.find? taskId

/-- The assignee `_dispatched_ws_tasks` has for a task. -/
def assignee? (taskId : String) : Option String :=
  m.dispatchedWsTasks.bind (fun tasks => (tasks.find? taskId).map Dispatched.assignee)

/-- `task_id in _dispatched_ws_tasks`. -/
def isDispatched (taskId : String) : Bool := (m.assignee? taskId).isSome

variable {m} in
theorem record_id {k : String} {t : Record} (h : m.record? k = some t) : t.id = k :=
  Table.find_key h

end Memory

namespace RegistryHandler

/-- The handler as `create_app` wires it up, with a dispatcher or without. -/
def start (taskStore : Db) (dispatcher : Bool) : RegistryHandler where
  taskStore := taskStore
  tasks := Table.empty
  dispatchedWsTasks := if dispatcher then some Table.empty else none
  taskTimers := fun _ => none
  danglingTimers := fun _ => false
  stateSyncLast := fun _ => 0
  dispatching := fun _ => false
  callbacks := []
  pending := []
  sending := []

variable (s : RegistryHandler)

/-- `_dispatched_ws_tasks[task_id] = assignee`. -/
def track (taskId assignee : String) : RegistryHandler :=
  { s with dispatchedWsTasks := s.dispatchedWsTasks.map (fun tasks => tasks.put ⟨taskId, assignee⟩) }

/-- The assignments to the entry of a task. -/
def setRecord (taskId : String) (c : Change) : RegistryHandler :=
  { s with tasks := s.tasks.modify (fun t => t.id == taskId) c.apply c.apply_id }

/-- The assignments to the entry of a task, which is created when there is none. -/
def writeRecord (agentId taskId : String) (c : Change) : RegistryHandler :=
  { s with
    tasks := if (s.record? taskId).isSome then (s.setRecord taskId c).tasks
      else s.tasks.put (c.apply (.blank taskId agentId)) }

/-- `update_task_status` under `try … except Exception`. -/
def updateStore (e : Engine) (clock : Clock) (taskId : String) (new : TaskStatus) (value : Json) :
    RegistryHandler :=
  match reportStatus e s.taskStore clock taskId new value with
  | some db => { s with taskStore := db }
  | none => s

/-- The update of a task that was dispatched from the kanban board. -/
def updateDispatched (e : Engine) (clock : Clock) (taskId : String) (new : TaskStatus) (value : Json) :
    RegistryHandler :=
  if s.isDispatched taskId then s.updateStore e clock taskId new value else s

/-- `_cancel_task_timeout`. -/
def cancelTaskTimeout (taskId : String) : RegistryHandler :=
  { s with taskTimers := Function.update s.taskTimers taskId none }

/-- `_schedule_task_timeout`, which `_reset_task_timeout` calls. -/
def scheduleTaskTimeout (taskId : String) : RegistryHandler :=
  let cancelled := s.cancelTaskTimeout taskId
  if (s.record? taskId).isSome then
    { cancelled with taskTimers := Function.update cancelled.taskTimers taskId (some .sleeping) }
  else cancelled

/-- `_cancel_dangling_timer`. -/
def cancelDanglingTimer (agentId : String) : RegistryHandler :=
  { s with danglingTimers := Function.update s.danglingTimers agentId false }

@[simp] theorem memory_updateStore (e : Engine) (clock : Clock) (taskId : String) (new : TaskStatus)
    (value : Json) : (s.updateStore e clock taskId new value).toMemory = s.toMemory := by
  unfold updateStore
  split <;> rfl

@[simp] theorem memory_updateDispatched (e : Engine) (clock : Clock) (taskId : String)
    (new : TaskStatus) (value : Json) :
    (s.updateDispatched e clock taskId new value).toMemory = s.toMemory := by
  unfold updateDispatched
  split
  · exact s.memory_updateStore e clock taskId new value
  · rfl

@[simp] theorem record_setRecord (taskId : String) (c : Change) (k : String) :
    (s.setRecord taskId c).record? k =
      (s.record? k).map (fun t => if k = taskId then c.apply t else t) := by
  have he : (s.setRecord taskId c).record? k =
      (s.record? k).map (fun t => if t.id == taskId then c.apply t else t) :=
    Table.find_modify s.tasks (fun t => t.id == taskId) c.apply c.apply_id k
  rw [he]
  cases h : s.record? k with
  | none => rfl
  | some t =>
    have ht : t.id = k := Table.find_key h
    simp [ht]

@[simp] theorem record_writeRecord (agentId taskId : String) (c : Change) (k : String) :
    (s.writeRecord agentId taskId c).record? k =
      if k = taskId then some (c.apply ((s.record? taskId).getD (.blank taskId agentId)))
      else s.record? k := by
  cases h : s.record? taskId with
  | none =>
    have he : (s.writeRecord agentId taskId c).tasks = s.tasks.put (c.apply (.blank taskId agentId)) := by
      simp only [writeRecord, h, Option.isSome_none, Bool.false_eq_true, if_false]
    rw [Memory.record?, he, Table.find_put]
    rfl
  | some t =>
    have he : (s.writeRecord agentId taskId c).tasks = (s.setRecord taskId c).tasks := by
      simp only [writeRecord, h, Option.isSome_some, if_true]
    rw [Memory.record?, he]
    refine (s.record_setRecord taskId c k).trans ?_
    by_cases hk : k = taskId
    · simp [hk, h]
    · simp [hk]

theorem memory_cancelTaskTimeout (taskId : String) : (s.cancelTaskTimeout taskId).toMemory =
    { s.toMemory with taskTimers := Function.update s.taskTimers taskId none } := rfl

theorem memory_scheduleTaskTimeout {taskId : String} (h : (s.record? taskId).isSome) :
    (s.scheduleTaskTimeout taskId).toMemory =
      { s.toMemory with taskTimers := Function.update s.taskTimers taskId (some .sleeping) } := by
  simp [scheduleTaskTimeout, h, cancelTaskTimeout]

end RegistryHandler

end A2ARegistry.Server
