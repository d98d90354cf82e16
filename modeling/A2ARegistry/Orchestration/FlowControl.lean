import Mathlib.Logic.Function.Basic

namespace A2ARegistry.Orchestration

/-- Runtime state of one agent. A circuit that is not tripped has the time 0; times are in
microseconds. -/
structure AgentFlowState where
  concurrentCount : Nat := 0
  consecutiveFailures : Nat := 0
  circuitTrippedUntil : Int := 0
deriving DecidableEq, Repr

/-- `FlowControlConfig`, its retry backoff apart. The cooldown is in seconds. -/
structure FlowControlConfig where
  maxConcurrentTasks : Int := 5
  circuitBreakerThreshold : Int := 3
  circuitBreakerCooldown : Int := 300
deriving DecidableEq, Repr

/-- The retry backoff of `FlowControlConfig`, in seconds. -/
structure RetryBackoffConfig where
  retryBackoffBase : Int := 30
  retryBackoffMax : Int := 3600
deriving DecidableEq, Repr

/-- The loop of `get_retry_backoff`, on the delay it starts with. -/
def doubled : Nat → Int → Int
  | 0, delay => delay
  | rounds + 1, delay => doubled rounds (delay * 2)

/-- `get_retry_backoff`, in exact arithmetic. -/
def RetryBackoffConfig.getRetryBackoff (config : RetryBackoffConfig) (failureCount : Nat) : Int :=
  min (doubled (failureCount - 1) config.retryBackoffBase) config.retryBackoffMax

structure FlowController where
  config : FlowControlConfig
  agents : String → Option AgentFlowState

/-- `_is_circuit_tripped`, which resets a circuit whose cooldown is over. -/
def AgentFlowState.isCircuitTripped (state : AgentFlowState) (now : Int) : Bool × AgentFlowState :=
  if state.circuitTrippedUntil = 0 then (false, state)
  else if state.circuitTrippedUntil ≤ now then
    (false, { state with circuitTrippedUntil := 0, consecutiveFailures := 0 })
  else (true, state)

/-- The calls the dispatcher makes for one task, and the question before them. -/
inductive FlowCall
  | canDispatch | onTaskDispatched | onTaskArrived | onTaskCompleted | onTaskFailed | onTaskDeparted
deriving DecidableEq, Repr

/-- A call for an agent at a time. -/
structure FlowEvent where
  now : Int
  agentId : String
  call : FlowCall
deriving DecidableEq, Repr

namespace FlowController

def start (config : FlowControlConfig) : FlowController := ⟨config, fun _ => none⟩

variable (fc : FlowController) (agentId : String)

def set (state : AgentFlowState) : FlowController :=
  { fc with agents := Function.update fc.agents agentId (some state) }

/-- `concurrent_count` of an agent; an agent without a state has none. -/
def concurrent : Nat := ((fc.agents agentId).map AgentFlowState.concurrentCount).getD 0

/-- `can_dispatch`, and the state it leaves. -/
def canDispatch (now : Int) : Bool × FlowController :=
  match fc.agents agentId with
  | none => (true, fc)
  | some state =>
    let checked := state.isCircuitTripped now
    let full := 0 < fc.config.maxConcurrentTasks &&
      fc.config.maxConcurrentTasks ≤ checked.2.concurrentCount
    (!checked.1 && !full, fc.set agentId checked.2)

/-- `on_task_dispatched`. -/
def onTaskDispatched : FlowController :=
  let state := (fc.agents agentId).getD {}
  fc.set agentId { state with concurrentCount := state.concurrentCount + 1 }

/-- `on_task_arrived`. -/
def onTaskArrived : FlowController :=
  match fc.agents agentId with
  | none => fc
  | some state => fc.set agentId { state with consecutiveFailures := 0 }

/-- `on_task_completed`. -/
def onTaskCompleted : FlowController :=
  match fc.agents agentId with
  | none => fc
  | some state => fc.set agentId { state with consecutiveFailures := 0 }

/-- `on_task_failed`; the circuit trips at the threshold. -/
def onTaskFailed (now : Int) : FlowController :=
  let state := (fc.agents agentId).getD {}
  let failed := { state with consecutiveFailures := state.consecutiveFailures + 1 }
  fc.set agentId (if fc.config.circuitBreakerThreshold ≤ failed.consecutiveFailures then
    { failed with circuitTrippedUntil := now + fc.config.circuitBreakerCooldown * 1000000 } else failed)

/-- `on_task_departed`. -/
def onTaskDeparted : FlowController :=
  match fc.agents agentId with
  | none => fc
  | some state => fc.set agentId { state with concurrentCount := state.concurrentCount - 1 }

/-- The state a call leaves. -/
def handle (e : FlowEvent) : FlowController :=
  match e.call with
  | .canDispatch => (fc.canDispatch e.agentId e.now).2
  | .onTaskDispatched => fc.onTaskDispatched e.agentId
  | .onTaskArrived => fc.onTaskArrived e.agentId
  | .onTaskCompleted => fc.onTaskCompleted e.agentId
  | .onTaskFailed => fc.onTaskFailed e.agentId e.now
  | .onTaskDeparted => fc.onTaskDeparted e.agentId

/-- The state of an agent; one that is not known has the state it would start with. -/
def state : AgentFlowState := (fc.agents agentId).getD {}

/-- What `_dispatch_single_task` makes of the result of a dispatch. -/
def notify (now : Int) (result : Bool) : FlowController :=
  if result then (fc.onTaskDispatched agentId).onTaskArrived agentId
  else (fc.onTaskFailed agentId now).onTaskDeparted agentId

@[simp] theorem set_config (state : AgentFlowState) : (fc.set agentId state).config = fc.config := rfl

@[simp] theorem concurrent_set (state : AgentFlowState) (a : String) :
    (fc.set agentId state).concurrent a =
      if a = agentId then state.concurrentCount else fc.concurrent a := by
  by_cases ha : a = agentId <;> simp [concurrent, set, ha, Function.update]

@[simp] theorem concurrent_start (config : FlowControlConfig) : (start config).concurrent agentId = 0 := rfl

theorem isCircuitTripped_concurrent (state : AgentFlowState) (now : Int) :
    (state.isCircuitTripped now).2.concurrentCount = state.concurrentCount := by
  unfold AgentFlowState.isCircuitTripped
  split
  · rfl
  · split <;> rfl

/-- The gate leaves every count as it is. -/
@[simp] theorem concurrent_canDispatch (now : Int) (a : String) :
    (fc.canDispatch agentId now).2.concurrent a = fc.concurrent a := by
  unfold canDispatch
  cases h : fc.agents agentId with
  | none => rfl
  | some state =>
    by_cases ha : a = agentId
    · subst ha
      simp [concurrent, h, set, isCircuitTripped_concurrent]
    · simp [ha]

@[simp] theorem config_canDispatch (now : Int) : (fc.canDispatch agentId now).2.config = fc.config := by
  unfold canDispatch
  cases fc.agents agentId <;> rfl

/-- The gate lets nothing through to an agent whose slots are taken. -/
theorem canDispatch_lt {now : Int} (h : (fc.canDispatch agentId now).1 = true)
    (hm : 0 < fc.config.maxConcurrentTasks) :
    (fc.concurrent agentId : Int) < fc.config.maxConcurrentTasks := by
  unfold canDispatch at h
  cases hs : fc.agents agentId with
  | none => simpa [concurrent, hs] using hm
  | some state =>
    simp only [hs, isCircuitTripped_concurrent, Bool.and_eq_true, Bool.not_eq_true',
      Bool.and_eq_false_iff, decide_eq_false_iff_not, hm, not_true_eq_false, false_or] at h
    simpa [concurrent, hs] using h.2

/-- A dispatch that arrived takes a slot. -/
theorem concurrent_notify_true (now : Int) (a : String) :
    (fc.notify agentId now true).concurrent a = fc.concurrent a + if a = agentId then 1 else 0 := by
  have hset : (fc.onTaskDispatched agentId).agents agentId =
      some { (fc.agents agentId).getD {} with
        concurrentCount := ((fc.agents agentId).getD {}).concurrentCount + 1 } := by
    simp [onTaskDispatched, set]
  have hcount : ((fc.agents agentId).getD {}).concurrentCount = fc.concurrent agentId := by
    cases h : fc.agents agentId <;> simp [concurrent, h]
  simp only [notify, if_true, onTaskArrived, hset, concurrent_set]
  by_cases ha : a = agentId
  · simp [ha, hcount]
  · simp [ha, onTaskDispatched]

/-- A dispatch that failed gives one back, whether it took one or not. -/
theorem concurrent_notify_false (now : Int) (a : String) :
    (fc.notify agentId now false).concurrent a = fc.concurrent a - if a = agentId then 1 else 0 := by
  have hcount : ((fc.agents agentId).getD {}).concurrentCount = fc.concurrent agentId := by
    cases h : fc.agents agentId <;> simp [concurrent, h]
  obtain ⟨state, hs, hstate⟩ : ∃ state, fc.onTaskFailed agentId now = fc.set agentId state ∧
      state.concurrentCount = fc.concurrent agentId := by
    refine ⟨_, rfl, ?_⟩
    split <;> exact hcount
  have hset : (fc.set agentId state).agents agentId = some state := by simp [set]
  rw [notify, if_neg Bool.false_ne_true, hs]
  simp only [onTaskDeparted, hset, concurrent_set]
  by_cases ha : a = agentId
  · simp [ha, hstate]
  · simp [ha]

@[simp] theorem config_notify (now : Int) (result : Bool) :
    (fc.notify agentId now result).config = fc.config := by
  cases result with
  | true =>
    simp only [notify, if_true, onTaskArrived]
    split <;> rfl
  | false =>
    simp only [notify, Bool.false_eq_true, if_false, onTaskDeparted]
    split <;> rfl

end FlowController

end A2ARegistry.Orchestration
