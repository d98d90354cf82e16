import A2ARegistry.Base.Breaker
import A2ARegistry.Base.Run
import A2ARegistry.Orchestration.FlowControl

namespace A2ARegistry.Orchestration
open Base

namespace FlowControlConfig

/-- The cooldown in microseconds. -/
def cooldown (config : FlowControlConfig) : Int := config.circuitBreakerCooldown * 1000000

def limit (config : FlowControlConfig) (failures : Nat) : Bool := config.circuitBreakerThreshold ≤ failures

/-- What a trip at `now` sets. The time 0 stands for a circuit that is not tripped. -/
def arm (config : FlowControlConfig) (now : Int) : Option Int :=
  if now + config.cooldown = 0 then none else some (now + config.cooldown)

end FlowControlConfig

/-- The breaker that is kept in the state of an agent. -/
def AgentFlowState.breaker (state : AgentFlowState) : Breaker Int where
  failures := state.consecutiveFailures
  deadline := if state.circuitTrippedUntil = 0 then none else some state.circuitTrippedUntil

/-- What a call tells the breaker of an agent. -/
def FlowEvent.signal? (agentId : String) (e : FlowEvent) : Option (Signal Int) :=
  if e.agentId = agentId then
    match e.call with
    | .canDispatch => some (.query e.now)
    | .onTaskArrived | .onTaskCompleted => some .success
    | .onTaskFailed => some (.failure e.now)
    | .onTaskDispatched | .onTaskDeparted => none
  else none

/-- The call asks whether the agent can be dispatched to. -/
def FlowEvent.Asks (agentId : String) (e : FlowEvent) : Prop := e.agentId = agentId ∧ e.call = .canDispatch

/-- The call is one of `on_task_failed` for the agent. -/
def FlowEvent.fails (agentId : String) (e : FlowEvent) : Bool := e.agentId = agentId ∧ e.call = .onTaskFailed

namespace FlowController

def breaker (agentId : String) (fc : FlowController) : Breaker Int := (fc.state agentId).breaker

def Configured (config : FlowControlConfig) (fc : FlowController) : Prop := fc.config = config

/-- The call trips the circuit of the agent. -/
def Trips (agentId : String) (fc : FlowController) (e : FlowEvent) : Prop :=
  e.fails agentId = true ∧ fc.config.circuitBreakerThreshold ≤ ((fc.state agentId).consecutiveFailures + 1 : Nat)

/-- The call is an arrival or a completion, or the question that resets the circuit. -/
def ResetsCount (agentId : String) (fc : FlowController) (e : FlowEvent) : Prop :=
  e.agentId = agentId ∧ (e.call = .onTaskArrived ∨ e.call = .onTaskCompleted ∨
    e.call = .canDispatch ∧ (fc.state agentId).circuitTrippedUntil ≠ 0 ∧
      (fc.state agentId).circuitTrippedUntil ≤ e.now)

/-- The state after these calls. -/
def run (config : FlowControlConfig) (events : List FlowEvent) : FlowController :=
  exec handle (start config) events

section
variable (fc : FlowController) (agentId : String)

@[simp] theorem state_set (state : AgentFlowState) (a : String) :
    (fc.set agentId state).state a = if a = agentId then state else fc.state a := by
  by_cases ha : a = agentId <;> simp [FlowController.state, set, ha, Function.update]

theorem state_set_self (state : AgentFlowState) : (fc.set agentId state).state agentId = state := by
  rw [state_set, if_pos rfl]

theorem state_of_none (h : fc.agents agentId = none) : fc.state agentId = {} := by
  rw [FlowController.state, h]
  rfl

theorem state_of_some {s : AgentFlowState} (h : fc.agents agentId = some s) : fc.state agentId = s := by
  rw [FlowController.state, h]
  rfl

/-- The question to the circuit is the question to the breaker. -/
theorem isCircuitTripped_breaker (limit : Nat → Bool) (arm : Int → Option Int) (s : AgentFlowState) (now : Int) :
    (s.isCircuitTripped now).1 = s.breaker.tripped now ∧
      (s.isCircuitTripped now).2.breaker = s.breaker.step limit arm (.query now) := by
  unfold AgentFlowState.isCircuitTripped
  split
  · rename_i h0
    simp [AgentFlowState.breaker, Breaker.tripped, Breaker.step, Breaker.lapsed, h0]
  · rename_i h0
    split
    · rename_i hle
      simp [AgentFlowState.breaker, Breaker.tripped, Breaker.step, Breaker.lapsed, h0, hle]
    · rename_i hlt
      simp [AgentFlowState.breaker, Breaker.tripped, Breaker.step, Breaker.lapsed, h0, hlt]
      omega

theorem onTaskDispatched_state : (fc.onTaskDispatched agentId).state agentId =
    { fc.state agentId with concurrentCount := (fc.state agentId).concurrentCount + 1 } :=
  state_set_self fc agentId _

/-- A failure of the agent is a failure to the breaker. -/
theorem onTaskFailed_breaker (now : Int) : ((fc.onTaskFailed agentId now).state agentId).breaker =
    (fc.state agentId).breaker.step fc.config.limit fc.config.arm (.failure now) := by
  unfold onTaskFailed
  rw [state_set_self, Breaker.step]
  by_cases h : fc.config.circuitBreakerThreshold ≤ ((fc.state agentId).consecutiveFailures + 1 : Nat)
  · have hlimit : fc.config.limit ((fc.state agentId).breaker.failures + 1) = true := decide_eq_true h
    rw [if_pos hlimit]
    exact congrArg AgentFlowState.breaker (if_pos h)
  · have hlimit : ¬ fc.config.limit ((fc.state agentId).breaker.failures + 1) = true :=
      fun hl => h (of_decide_eq_true hl)
    rw [if_neg hlimit]
    exact congrArg AgentFlowState.breaker (if_neg h)

/-- What a question leaves, and when it is answered `False` by the circuit. -/
theorem canDispatch_state (now : Int) (a : String) : (fc.canDispatch agentId now).2.state a =
    if a = agentId then ((fc.state agentId).isCircuitTripped now).2 else fc.state a := by
  unfold canDispatch
  cases h : fc.agents agentId with
  | none =>
    have hempty : ((fc.state agentId).isCircuitTripped now).2 = fc.state agentId := by
      rw [state_of_none fc agentId h]
      rfl
    by_cases ha : a = agentId
    · rw [if_pos ha, hempty, ha]
    · rw [if_neg ha]
  | some s => rw [state_set, state_of_some fc agentId h]

theorem canDispatch_tripped {now : Int} (h : ((fc.state agentId).isCircuitTripped now).1 = true) :
    (fc.canDispatch agentId now).1 = false := by
  unfold canDispatch
  cases hs : fc.agents agentId with
  | none =>
    rw [state_of_none fc agentId hs] at h
    cases h
  | some s =>
    rw [state_of_some fc agentId hs] at h
    simp [h]

theorem handle_config (e : FlowEvent) : (fc.handle e).config = fc.config := by
  unfold handle
  cases e.call with
  | canDispatch => exact config_canDispatch fc e.agentId e.now
  | onTaskDispatched | onTaskFailed => rfl
  | onTaskArrived =>
    simp only [onTaskArrived]
    split <;> rfl
  | onTaskCompleted =>
    simp only [onTaskCompleted]
    split <;> rfl
  | onTaskDeparted =>
    simp only [onTaskDeparted]
    split <;> rfl

/-- A call for another agent leaves the state of this one as it is. -/
theorem handle_other {e : FlowEvent} (he : e.agentId ≠ agentId) : (fc.handle e).state agentId = fc.state agentId := by
  have hne : agentId ≠ e.agentId := Ne.symm he
  unfold handle
  cases e.call with
  | canDispatch => rw [canDispatch_state, if_neg hne]
  | onTaskDispatched | onTaskFailed => exact (state_set fc e.agentId _ agentId).trans (if_neg hne)
  | onTaskArrived =>
    simp only [onTaskArrived]
    split
    · rfl
    · rw [state_set, if_neg hne]
  | onTaskCompleted =>
    simp only [onTaskCompleted]
    split
    · rfl
    · rw [state_set, if_neg hne]
  | onTaskDeparted =>
    simp only [onTaskDeparted]
    split
    · rfl
    · rw [state_set, if_neg hne]

end

/-- One call moves the breaker of an agent by what it tells it. -/
theorem handle_breaker (config : FlowControlConfig) (agentId : String) (fc : FlowController) (e : FlowEvent)
    (hc : Configured config fc) : breaker agentId (fc.handle e) =
      ((e.signal? agentId).map ((breaker agentId fc).step config.limit config.arm)).getD (breaker agentId fc) := by
  subst hc
  unfold breaker
  by_cases he : e.agentId = agentId
  · subst he
    have hsuccess : ∀ s : AgentFlowState, ({ s with consecutiveFailures := 0 } : AgentFlowState).breaker =
        s.breaker.step fc.config.limit fc.config.arm .success := fun _ => rfl
    unfold handle FlowEvent.signal?
    rw [if_pos rfl]
    cases e.call with
    | canDispatch =>
      rw [canDispatch_state, if_pos rfl]
      exact (isCircuitTripped_breaker fc.config.limit fc.config.arm _ e.now).2
    | onTaskDispatched =>
      change ((fc.onTaskDispatched e.agentId).state e.agentId).breaker = _
      rw [onTaskDispatched_state]
      rfl
    | onTaskFailed => exact onTaskFailed_breaker fc e.agentId e.now
    | onTaskArrived =>
      cases hs : fc.agents e.agentId with
      | none => simp [onTaskArrived, hs, state_of_none fc _ hs, AgentFlowState.breaker, Breaker.step]
      | some s => simp [onTaskArrived, hs, state_of_some fc _ hs, hsuccess]
    | onTaskCompleted =>
      cases hs : fc.agents e.agentId with
      | none => simp [onTaskCompleted, hs, state_of_none fc _ hs, AgentFlowState.breaker, Breaker.step]
      | some s => simp [onTaskCompleted, hs, state_of_some fc _ hs, hsuccess]
    | onTaskDeparted =>
      cases hs : fc.agents e.agentId with
      | none => simp [onTaskDeparted, hs]
      | some s => simp [onTaskDeparted, hs, state_of_some fc _ hs, AgentFlowState.breaker]
  · rw [handle_other fc agentId he, FlowEvent.signal?, if_neg he]
    rfl

section
variable {config : FlowControlConfig} {agentId : String} {fc : FlowController} {e : FlowEvent}

theorem trips_iff (hc : Configured config fc) : Trips agentId fc e ↔
    ∃ s, e.signal? agentId = some s ∧ Breaker.Trips config.limit (breaker agentId fc) s := by
  subst hc
  unfold Trips FlowEvent.fails FlowEvent.signal?
  by_cases he : e.agentId = agentId
  · cases hcall : e.call with
    | onTaskFailed =>
      simp only [he, and_self, decide_true, if_true, true_and, Option.some.injEq, exists_eq_left', Breaker.Trips]
      exact decide_eq_true_iff.symm
    | _ => simp [he, Breaker.Trips]
  · simp [he]

theorem lapsed_iff (s : AgentFlowState) (now : Int) :
    s.breaker.lapsed now = true ↔ s.circuitTrippedUntil ≠ 0 ∧ s.circuitTrippedUntil ≤ now := by
  unfold Breaker.lapsed AgentFlowState.breaker
  by_cases h0 : s.circuitTrippedUntil = 0 <;> simp [h0]

theorem resetsCount_iff : ResetsCount agentId fc e ↔
    ∃ s, e.signal? agentId = some s ∧ Breaker.Resets (breaker agentId fc) s := by
  unfold ResetsCount FlowEvent.signal?
  by_cases he : e.agentId = agentId
  · cases hcall : e.call <;> simp [he, Breaker.Resets, breaker, lapsed_iff]
  · simp [he]

theorem handle_configured (fc : FlowController) (e : FlowEvent) (h : Configured config fc) :
    Configured config (fc.handle e) :=
  (handle_config fc e).trans h

theorem run_configured (config : FlowControlConfig) (events : List FlowEvent) :
    Configured config (run config events) :=
  exec_invariant handle_configured rfl events

/-- The breaker of an agent goes through the signals the calls for it give, whatever calls there are for
others in between. -/
theorem exec_breaker (hc : Configured config fc) (events : List FlowEvent) :
    breaker agentId (exec handle fc events) = exec (Breaker.step config.limit config.arm) (breaker agentId fc)
      (events.filterMap (FlowEvent.signal? agentId)) :=
  exec_part (breaker agentId) handle_configured (handle_breaker config agentId) hc events

theorem quiet_breaker (hc : Configured config fc) {events : List FlowEvent}
    (h : EachStep handle (fun fc e => ¬ Trips agentId fc e) fc events) :
    EachStep (Breaker.step config.limit config.arm) (fun b s => ¬ Breaker.Trips config.limit b s)
      (breaker agentId fc) (events.filterMap (FlowEvent.signal? agentId)) := by
  apply (eachStep_part (breaker agentId) handle_configured (handle_breaker config agentId) hc events).mp
  apply h.imp_invariant (fun fc e hi _ => handle_configured fc e hi) _ hc
  intro fc e hi hnot s hs htrips
  exact hnot ((trips_iff hi).mpr ⟨s, hs, htrips⟩)

theorem failuresIn_signals (events : List FlowEvent) :
    Breaker.failuresIn (events.filterMap (FlowEvent.signal? agentId)) =
      events.countP (FlowEvent.fails agentId) := by
  rw [Breaker.failuresIn, List.countP_filterMap]
  apply List.countP_congr
  intro e _
  unfold FlowEvent.fails FlowEvent.signal?
  by_cases he : e.agentId = agentId
  · cases hcall : e.call <;> simp [he]
  · simp [he]

/-- Since the last arrival, completion or reset there were as many failures as the state says. -/
theorem failures_counted (config : FlowControlConfig) (agentId : String) (events : List FlowEvent) :
    ∃ before since, events = before ++ since ∧
      EachStep handle (fun fc e => ¬ ResetsCount agentId fc e) (run config before) since ∧
      ((run config events).state agentId).consecutiveFailures = since.countP (FlowEvent.fails agentId) := by
  obtain ⟨before', since', hsplit, hquiet, hcount⟩ := Breaker.failures_since_reset config.limit
    config.arm (events.filterMap (FlowEvent.signal? agentId))
  obtain ⟨before, since, rfl, rfl, rfl⟩ := List.filterMap_eq_append_iff.mp hsplit
  have hstart : Configured config (start config) := rfl
  refine ⟨before, since, rfl, ?_, ?_⟩
  · have hempty : ({} : Breaker Int) = breaker agentId (start config) := rfl
    rw [hempty, ← exec_breaker hstart] at hquiet
    apply EachStep.imp _ ((eachStep_part (breaker agentId) handle_configured (handle_breaker config agentId)
      (run_configured config before) since).mpr hquiet)
    intro fc e h hr
    obtain ⟨s, hs, hreset⟩ := resetsCount_iff.mp hr
    exact h s hs hreset
  · rw [← failuresIn_signals, ← hcount]
    exact congrArg Breaker.failures (exec_breaker hstart (before ++ since))

/-- What a trip sets, as long as nothing trips the circuit again and nobody asks after the cooldown. -/
theorem deadline_after_trip {pre mid : List FlowEvent} {trip : FlowEvent}
    (htrip : Trips agentId (run config pre) trip)
    (hquiet : EachStep handle (fun fc e => ¬ Trips agentId fc e) ((run config pre).handle trip) mid)
    (hasks : ∀ e ∈ mid, e.Asks agentId → e.now < trip.now + config.cooldown) :
    (breaker agentId (run config (pre ++ trip :: mid))).deadline = config.arm trip.now := by
  have hpre := run_configured config pre
  have hafter := handle_configured (run config pre) trip hpre
  obtain ⟨s, hs, hsTrips⟩ := (trips_iff hpre).mp htrip
  have hnow : s = .failure trip.now := by
    unfold FlowEvent.signal? at hs
    split at hs
    · cases hcall : trip.call <;> rw [hcall] at hs <;> cases hs
      · cases hsTrips
      · cases hsTrips
      · cases hsTrips
      · rfl
    · cases hs
  subst hnow
  have hset : (breaker agentId ((run config pre).handle trip)).deadline = config.arm trip.now := by
    rw [handle_breaker config agentId _ trip hpre, hs]
    exact Breaker.step_trips hsTrips
  have hrun : run config (pre ++ trip :: mid) = exec handle ((run config pre).handle trip) mid := by
    rw [run, exec_append]
    rfl
  rw [hrun, exec_breaker hafter]
  apply Breaker.deadline_kept hset (quiet_breaker hafter hquiet)
  intro signal hmem d hd hask
  obtain ⟨e, he, hes⟩ := List.mem_filterMap.mp hmem
  have hd' : d = trip.now + config.cooldown := by
    unfold FlowControlConfig.arm at hd
    split at hd <;> cases hd
    rfl
  unfold FlowEvent.signal? at hes
  split at hes
  · rename_i hagent
    cases hcall : e.call <;> rw [hcall] at hes <;> cases hes
    · have := hasks e he ⟨hagent, hcall⟩
      have hle : d ≤ e.now := hask
      omega
    all_goals exact hask
  · cases hes

end

/-- What a question at the time `now` finds after a trip at the time `t`: the answer no within the cooldown;
after it, when it is the first one, a closed circuit and no failure counted. -/
structure AfterTrip (config : FlowControlConfig) (agentId : String) (fc : FlowController) (t now : Int)
    (first : Prop) : Prop where
  refused : now < t + config.cooldown → (fc.canDispatch agentId now).1 = false
  closed : t + config.cooldown ≤ now → first →
    ((fc.canDispatch agentId now).2.state agentId).circuitTrippedUntil = 0
  forgotten : t + config.cooldown ≤ now → first → t + config.cooldown ≠ 0 →
    ((fc.canDispatch agentId now).2.state agentId).consecutiveFailures = 0

section
variable {config : FlowControlConfig} {agentId : String} {fc : FlowController} {t now : Int}

theorem canDispatch_breaker (config : FlowControlConfig) : breaker agentId (fc.canDispatch agentId now).2 =
    (breaker agentId fc).step config.limit config.arm (.query now) := by
  unfold breaker
  rw [canDispatch_state, if_pos rfl]
  exact (isCircuitTripped_breaker config.limit config.arm (fc.state agentId) now).2

theorem closed_of_breaker (h : (breaker agentId fc).deadline = none) : (fc.state agentId).circuitTrippedUntil = 0 := by
  by_contra hne
  have hsome : (breaker agentId fc).deadline = some (fc.state agentId).circuitTrippedUntil := if_neg hne
  rw [hsome] at h
  cases h

/-- A question after a trip whose deadline still stands. -/
theorem asked_after_trip {first : Prop} (hpos : 0 < t) (hle : t ≤ now)
    (hset : (now < t + config.cooldown ∨ first) → (breaker agentId fc).deadline = config.arm t) :
    AfterTrip config agentId fc t now first := by
  refine ⟨?_, ?_, ?_⟩
  · intro hlt
    apply canDispatch_tripped
    rw [(isCircuitTripped_breaker config.limit config.arm (fc.state agentId) now).1]
    have h0 : t + config.cooldown ≠ 0 := by omega
    have hdeadline := hset (Or.inl hlt)
    rw [FlowControlConfig.arm, if_neg h0] at hdeadline
    exact Breaker.tripped_of_deadline hdeadline hlt
  · intro hle hfirst
    apply closed_of_breaker
    have hdeadline := hset (Or.inr hfirst)
    rw [canDispatch_breaker config]
    by_cases h0 : t + config.cooldown = 0
    · rw [FlowControlConfig.arm, if_pos h0] at hdeadline
      rw [Breaker.query_closed hdeadline, hdeadline]
    · rw [FlowControlConfig.arm, if_neg h0] at hdeadline
      rw [Breaker.query_resets hdeadline hle]
  · intro hle hfirst h0
    have hdeadline := hset (Or.inr hfirst)
    rw [FlowControlConfig.arm, if_neg h0] at hdeadline
    have hreset : breaker agentId (fc.canDispatch agentId now).2 =
        (breaker agentId fc).step config.limit config.arm (.query now) := canDispatch_breaker config
    rw [Breaker.query_resets hdeadline hle] at hreset
    exact congrArg Breaker.failures hreset

end

/-- The history of a breaker. After its last trip it refuses through the cooldown and is closed, with no
failure counted, by the first question after it; and it trips only when at least as many failures as the
threshold came since the last arrival, completion or reset. A trip whose cooldown ends at the time 0 is
the one that the state cannot tell from no trip. -/
theorem circuit_breaker_history (config : FlowControlConfig) (agentId : String) (events : List FlowEvent)
    (hpos : ∀ e ∈ events, 0 < e.now) (hclock : (events.map FlowEvent.now).Pairwise (· ≤ ·)) :
    (∀ pre trip mid query post, events = pre ++ trip :: (mid ++ query :: post) →
      Trips agentId (run config pre) trip →
      EachStep handle (fun fc e => ¬ Trips agentId fc e) (run config (pre ++ [trip])) mid →
      query.Asks agentId →
      AfterTrip config agentId (run config (pre ++ trip :: mid)) trip.now query.now
        (∀ e ∈ mid, e.Asks agentId → e.now < trip.now + config.cooldown)) ∧
    (∀ pre trip post, events = pre ++ trip :: post → Trips agentId (run config pre) trip →
      ∃ before since, pre = before ++ since ∧
        EachStep handle (fun fc e => ¬ ResetsCount agentId fc e) (run config before) since ∧
        config.circuitBreakerThreshold ≤ ((since ++ [trip]).countP (FlowEvent.fails agentId))) := by
  constructor
  · rintro pre trip mid query post rfl htrip hquiet _
    have hlater : ∀ e ∈ mid ++ query :: post, trip.now ≤ e.now := by
      intro e he
      rw [List.map_append, List.map_cons, List.pairwise_append, List.pairwise_cons] at hclock
      exact hclock.2.1.1 e.now (List.mem_map_of_mem he)
    have hbefore : ∀ e ∈ mid, e.now ≤ query.now := by
      intro e he
      rw [List.map_append, List.map_cons, List.pairwise_append, List.pairwise_cons, List.map_append,
        List.pairwise_append] at hclock
      exact hclock.2.1.2.2.2 e.now (List.mem_map_of_mem he) query.now (by simp)
    apply asked_after_trip (hpos trip (by simp)) (hlater query (by simp))
    intro hwhen
    apply deadline_after_trip htrip _ _
    · rw [run, exec_append] at hquiet
      exact hquiet
    · intro e he hasks
      rcases hwhen with hlt | hfirst
      · exact lt_of_le_of_lt (hbefore e he) hlt
      · exact hfirst e he hasks
  · rintro pre trip post rfl ⟨hfails, hthreshold⟩
    obtain ⟨before, since, he, hquiet, hcount⟩ := failures_counted config agentId pre
    refine ⟨before, since, he, hquiet, ?_⟩
    have hconfig : (run config pre).config = config := run_configured config pre
    rw [hconfig, hcount] at hthreshold
    rw [List.countP_append, List.countP_singleton, if_pos hfails]
    exact hthreshold

/-- Three failures at one second, a question at a hundred seconds, and one when the default cooldown of five minutes is
over. -/
def failedThrice : List FlowEvent :=
  [⟨1000000, "a", .onTaskFailed⟩, ⟨1000000, "a", .onTaskFailed⟩, ⟨1000000, "a", .onTaskFailed⟩,
    ⟨100000000, "a", .canDispatch⟩, ⟨301000000, "a", .canDispatch⟩]

theorem circuit_breaker_sample :
    ((run {} (failedThrice.take 3)).canDispatch "a" 100000000).1 = false ∧
      (((run {} (failedThrice.take 4)).canDispatch "a" 301000000).2.state "a").circuitTrippedUntil = 0 ∧
      (((run {} (failedThrice.take 4)).canDispatch "a" 301000000).2.state "a").consecutiveFailures = 0 := by
  obtain ⟨hafter, _⟩ := circuit_breaker_history {} "a" failedThrice (by decide) (by decide)
  have htrip : Trips "a" (run {} (failedThrice.take 2)) ⟨1000000, "a", .onTaskFailed⟩ := ⟨rfl, by decide⟩
  have hinside := hafter (failedThrice.take 2) _ [] _ [_] rfl htrip trivial ⟨rfl, rfl⟩
  have hquiet : ∀ fc, ¬ Trips "a" fc ⟨100000000, "a", .canDispatch⟩ := fun _ htrips => by cases htrips.1
  have hbehind := hafter (failedThrice.take 2) _ [_] _ [] rfl htrip ⟨hquiet _, trivial⟩ ⟨rfl, rfl⟩
  have hfirst : ∀ e ∈ [(⟨100000000, "a", .canDispatch⟩ : FlowEvent)], e.Asks "a" →
      e.now < 1000000 + FlowControlConfig.cooldown {} := by
    intro e he _
    rw [List.mem_singleton.mp he]
    decide
  exact ⟨hinside.refused (by decide), hbehind.closed (by decide) hfirst, hbehind.forgotten (by decide) hfirst (by decide)⟩

/-- A threshold of one failure and a cooldown of minus one second: a failure at one second, and a question. -/
def backwardCooldown : FlowControlConfig := { circuitBreakerThreshold := 1, circuitBreakerCooldown := -1 }

def failedOnce : List FlowEvent :=
  [⟨1000000, "a", .onTaskFailed⟩, ⟨1000000, "a", .canDispatch⟩]

/-- The failure is still counted after the first question behind the cooldown. -/
theorem failure_remembered : Trips "a" (start backwardCooldown) ⟨1000000, "a", .onTaskFailed⟩ ∧
    1000000 + backwardCooldown.cooldown ≤ 1000000 ∧
    (((run backwardCooldown (failedOnce.take 1)).canDispatch "a" 1000000).2.state "a").consecutiveFailures = 1 :=
  ⟨⟨rfl, by decide⟩, by decide, by decide⟩

end FlowController

end A2ARegistry.Orchestration
