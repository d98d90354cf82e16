import A2ARegistry.Server.Dispatcher
import A2ARegistry.Server.Proofs.Rows

namespace A2ARegistry.Server
open Base Orchestration

/-- The report a step makes on a kanban task, the ones of a dispatch on its own claim left out. -/
def DispatcherEvent.report (e : Engine) (d : Dispatcher) (k : String) :
    DispatcherEvent → Option BoardReport
  | .server ev => if ev.ofDispatcher then none else ev.report e d.toRegistryHandler k
  | .sendEnds times (some error) =>
    match d.attempt with
    | some (.send sent) =>
      if sent.taskId = k then some ⟨times.store, .failed, .str error.kanbanText⟩ else none
    | _ => none
  | .spawnEnds times (.error error) =>
    match d.attempt with
    | some (.spawn taskId _) => if taskId = k then some ⟨times.store, .failed, .str error⟩ else none
    | _ => none
  | _ => none

/-- A route that claims the task. -/
def Route.claims : Route → Bool
  | .block | .skip => false
  | _ => true

/-- The task the poll loop goes on to claim, and the agent it is for: no attempt is under way, and
the gate lets the agent through. -/
def Dispatcher.claims (d : Dispatcher) (times : PollClock) (listed : Listed) (route : Route) :
    Option (String × String) :=
  match d.attempt, listed.assignee with
  | none, some assignee =>
    if assignee ≠ "" ∧ (d.flowControl.canDispatch assignee times.gate).1 ∧ route.claims then
      some (listed.taskId, assignee)
    else none
  | _, _ => none

/-- What a claim for a dispatch, and the allocation of its workspace, make of the row. -/
inductive ClaimRow (clock : Clock) (workspace : Except String String) (row : Task) : Task → Prop
  | refused (taken : row.claimable clock.now = false) : ClaimRow clock workspace row row
  | placed (free : row.claimable clock.now = true) (path : workspace = .ok path)
      (status : row'.status = .running) : ClaimRow clock workspace row row'
  | unplaced (free : row.claimable clock.now = true) (error : workspace = .error text)
      (backoff : ¬ Overflows row) (status : row'.status = .failed) : ClaimRow clock workspace row row'
  | stuck (free : row.claimable clock.now = true) (backoff : Overflows row)
      (status : row'.status = .running) : ClaimRow clock workspace row row'

/-- What a step of the server and its dispatcher makes of a kanban row. -/
inductive RowMove (e : Engine) (k : String) (d d' : Dispatcher) (row : Task) :
    DispatcherEvent → Task → Prop
  | called (step : RowStep d.taskStore d'.taskStore op row row') :
      RowMove e k d d' row (.server (.storeCall op)) row'
  | reported (call : ∀ op, ev ≠ .server (.storeCall op))
      (dispatch : ∀ times listed route inputs, ev ≠ .dispatches times listed route inputs)
      (after : RowAfter e d'.taskStore (ev.report e d k) row row') : RowMove e k d d' row ev row'
  | manned (status : row'.status = row.status) : RowMove e k d d' row (.spawnEnds times (.ok pid)) row'
  | claimed (claims : d.claims times listed route = some (k, agentId))
      (claim : ClaimRow times.store inputs.workspace row row') :
      RowMove e k d d' row (.dispatches times listed route inputs) row'
  | parked (claims : ∀ agentId, d.claims times listed route ≠ some (k, agentId))
      (parked : row' = row ∨ row'.status = .blocked ∧ .blocked ∈ transitions row.status) :
      RowMove e k d d' row (.dispatches times listed route inputs) row'

section
variable {e : Engine} {k : String} {row : Task}

/-- Every report starts, completes or fails its task. -/
theorem Event.report_new {s : RegistryHandler} {ev : Event} {report : BoardReport}
    (h : ev.report e s k = some report) :
    report.new = .running ∨ report.new = .completed ∨ report.new = .failed := by
  cases ev with
  | message agentId data around =>
    simp only [Event.report, Option.bind_eq_some_iff] at h
    obtain ⟨named, hm, h⟩ := h
    split at h
    · cases h
      exact messageUpdate_new hm
    · cases h
  | callbackEnds taskId clock body =>
    cases body with
    | none => cases h
    | some body =>
      simp only [Event.report] at h
      split at h
      · obtain ⟨update, hu, rfl⟩ := Option.map_eq_some_iff.mp h
        exact update_new hu
      · cases h
  | sendEnds clock sent error =>
    cases error with
    | none => cases h
    | some error =>
      simp only [Event.report] at h
      split at h
      · cases h
        exact Or.inr (Or.inr rfl)
      · cases h
  | danglingExpires | timeoutExpires | timeoutSent =>
    simp only [Event.report] at h
    split at h
    · cases h
      exact Or.inr (Or.inr rfl)
    · cases h
  | redispatches clock agentId taskId =>
    simp only [Event.report] at h
    split at h
    · cases h
      exact Or.inl rfl
    · cases h
  | _ => cases h

theorem DispatcherEvent.report_new {d : Dispatcher} {ev : DispatcherEvent} {report : BoardReport}
    (h : ev.report e d k = some report) :
    report.new = .running ∨ report.new = .completed ∨ report.new = .failed := by
  have hfail : ∀ {taskId : String} {clock : Clock} {text : String},
      (if taskId = k then some (BoardReport.mk clock .failed (.str text)) else none) = some report →
      report.new = .running ∨ report.new = .completed ∨ report.new = .failed := by
    intro taskId clock text h
    split at h
    · cases h
      exact Or.inr (Or.inr rfl)
    · cases h
  cases ev with
  | server ev =>
    simp only [DispatcherEvent.report] at h
    split at h
    · cases h
    · exact Event.report_new h
  | dispatches => cases h
  | sendEnds times error =>
    cases error with
    | none => cases h
    | some error =>
      simp only [DispatcherEvent.report] at h
      split at h
      · exact hfail h
      · cases h
  | spawnEnds times process =>
    cases process with
    | ok pid => cases h
    | error error =>
      simp only [DispatcherEvent.report] at h
      split at h
      · exact hfail h
      · cases h

/-- A dispatch that cannot claim the row, or is of another task, is nothing to it. -/
theorem claimFor_row {d : Dispatcher} (times : PollClock) (workerId taskId assignee : String)
    (inputs : ClaimInputs) (caught : Bool) (attempt : Attempt) (hrow : d.taskStore.task? k = some row)
    (hother : taskId = k → row.claimable times.store.now = false) :
    (d.claimFor e times workerId taskId assignee inputs caught attempt).taskStore.task? k = some row := by
  unfold Dispatcher.claimFor
  split
  · rw [Dispatcher.finish_handler]
    exact hrow
  · rename_i hclaim _
    obtain ⟨hdb, hne⟩ := claim_row hrow hother hclaim
    exact placed_row _ hdb (hne rfl)
  · rename_i hclaim _
    obtain ⟨hdb, hne⟩ := claim_row hrow hother hclaim
    rw [Dispatcher.finish_handler]
    dsimp only
    rw [updateStore_store]
    exact failed_other hdb times.store (hne rfl) _ _

/-- A task that was just claimed can be failed, unless its backoff overflows. -/
theorem claimed_takes_failed {now pid ttl : Int} {workerId text : String} {runId : Nat} {clock : Clock} :
    BoardReport.Takes e (claimedRow row now workerId pid ttl runId) ⟨clock, .failed, .str text⟩ ↔
      ¬ Overflows row := by
  have hretry : (∃ retryAt, nextRetry clock.now (claimedRow row now workerId pid ttl runId) .failed =
      .ok retryAt) ↔ ¬ Overflows row := nextRetry_failed_iff clock.now
  rw [← hretry]
  constructor
  · rintro ⟨bound, retryAt, hr⟩
    exact ⟨retryAt, hr.retry⟩
  · rintro ⟨retryAt, hr⟩
    exact ⟨some text, retryAt, (reportable_failed_iff rfl).mpr ⟨rfl, hr⟩⟩

/-- A claim for a dispatch. -/
theorem claimFor_claim {d : Dispatcher} (times : PollClock) (workerId assignee : String)
    (inputs : ClaimInputs) (caught : Bool) (attempt : Attempt) (hrow : d.taskStore.task? k = some row) :
    ∃ row', (d.claimFor e times workerId k assignee inputs caught attempt).taskStore.task? k = some row' ∧
      ClaimRow times.store inputs.workspace row row' := by
  cases hc : row.claimable times.store.now with
  | false => exact ⟨row, claimFor_row times workerId k assignee inputs caught attempt hrow fun _ => hc,
      .refused hc⟩
  | true =>
    have hclaimed := (writeClaim_task workerId inputs.pid inputs.ttl hrow hc k).trans (if_pos rfl)
    unfold Dispatcher.claimFor
    rw [claimTask_claims hrow hc]
    cases hw : inputs.workspace with
    | ok path =>
      refine ⟨{ claimedRow row times.store.now workerId inputs.pid inputs.ttl d.taskStore.runs.next with
        workspacePath := some path }, ?_, .placed hc rfl rfl⟩
      dsimp only
      rw [updateWorkspacePath, Db.task_setTask, hclaimed]
      simp
    | error error =>
      dsimp only
      rw [Dispatcher.finish_handler, updateStore_store]
      obtain ⟨row', hrow', hafter⟩ := boardAfter_row (e := e) hclaimed ⟨times.store, .failed, .str error⟩
      refine ⟨row', hrow', ?_⟩
      cases hafter with
      | @reported report bound retryAt made ok =>
        cases made
        exact .unplaced hc rfl (claimed_takes_failed.mp ⟨bound, retryAt, ok⟩) rfl
      | kept refused =>
        exact .stuck hc (by_contra fun hb => refused _ rfl (claimed_takes_failed.mpr hb)) rfl
      | settled none => cases none

/-- The dispatcher's own block of a task whose assignee is away. -/
theorem blockUnconnected_row {db : Db} (times : PollClock) (taskId assignee : String)
    (hrow : db.task? k = some row) :
    ∃ row', (blockUnconnected db times taskId assignee).task? k = some row' ∧
      (row' = row ∨ row'.status = .blocked ∧ .blocked ∈ transitions row.status) := by
  unfold blockUnconnected
  cases h : updateTaskStatus db times.store taskId TaskStatus.blocked.value {} with
  | error _ => exact ⟨row, hrow, Or.inl rfl⟩
  | ok r =>
    obtain ⟨view, db'⟩ := r
    obtain ⟨t, new, retryAt, kind, ht, hnew, ha, rfl⟩ := updateTaskStatus_ok h
    have hblocked := TaskStatus.value_injective hnew
    subst hblocked
    have hid := Db.task_id ht
    subst hid
    have hmoved := writeStatus_task db times.store t .blocked {} retryAt kind ht k
    dsimp only
    rw [Db.task?, commented_tasks]
    by_cases hk : k = t.id
    · subst hk
      rw [ht] at hrow
      cases hrow
      exact ⟨_, hmoved.trans (if_pos rfl), Or.inr ⟨rfl, ha.edge⟩⟩
    · rw [if_neg hk, hrow] at hmoved
      exact ⟨row, hmoved.trans (by simp), Or.inl rfl⟩

/-- The poll loop waits for an attempt, passes over a task without an assignee, or is stopped at
the gate; or it goes the way of the task. -/
theorem dispatchSingleTask_cases (e : Engine) (d : Dispatcher) (times : PollClock) (listed : Listed)
    (route : Route) (inputs : ClaimInputs) :
    (d.claims times listed route = none ∧ ∃ flowControl, (flowControl = d.flowControl ∨
      ∃ assignee, flowControl = (d.flowControl.canDispatch assignee times.gate).2) ∧
        d.dispatchSingleTask e times listed route inputs = { d with flowControl := flowControl }) ∨
    ∃ assignee gated, d.attempt = none ∧ listed.assignee = some assignee ∧ assignee ≠ "" ∧
      (d.flowControl.canDispatch assignee times.gate).1 = true ∧
      gated = { d with flowControl := (d.flowControl.canDispatch assignee times.gate).2 } ∧
      d.claims times listed route = (if route.claims then some (listed.taskId, assignee) else none) ∧
      d.dispatchSingleTask e times listed route inputs = match route with
        | .ws => gated.dispatchVia e times listed.taskId assignee .ws inputs
        | .callback => gated.dispatchVia e times listed.taskId assignee .callback inputs
        | .block => { gated with taskStore := blockUnconnected d.taskStore times listed.taskId assignee }
        | .skip => gated
        | .workerCommand dispatcherId =>
          gated.dispatchViaWorkerCommand e times dispatcherId listed.taskId assignee inputs := by
  cases ha : d.attempt with
  | some attempt =>
    have hsame : d.dispatchSingleTask e times listed route inputs = d := by
      simp [Dispatcher.dispatchSingleTask, ha]
    exact Or.inl ⟨by simp [Dispatcher.claims, ha], d.flowControl, Or.inl rfl, by rw [hsame, ← ha]⟩
  | none =>
    cases hl : listed.assignee with
    | none =>
      have hsame : d.dispatchSingleTask e times listed route inputs = d := by
        simp [Dispatcher.dispatchSingleTask, ha, hl]
      exact Or.inl ⟨by simp [Dispatcher.claims, ha, hl], d.flowControl, Or.inl rfl, by rw [hsame, ← ha]⟩
    | some assignee =>
      by_cases he : assignee = ""
      · have hsame : d.dispatchSingleTask e times listed route inputs = d := by
          simp [Dispatcher.dispatchSingleTask, ha, hl, he]
        exact Or.inl ⟨by simp [Dispatcher.claims, ha, hl, he], d.flowControl, Or.inl rfl, by rw [hsame, ← ha]⟩
      · cases hg : (d.flowControl.canDispatch assignee times.gate).1 with
        | false =>
          refine Or.inl ⟨by simp [Dispatcher.claims, ha, hl, hg],
            (d.flowControl.canDispatch assignee times.gate).2, Or.inr ⟨assignee, rfl⟩, ?_⟩
          simp [Dispatcher.dispatchSingleTask, ha, hl, he, hg]
        | true =>
          refine Or.inr ⟨assignee, _, rfl, rfl, he, hg, rfl, ?_, ?_⟩
          · simp [Dispatcher.claims, ha, hl, he, hg]
          · simp only [Dispatcher.dispatchSingleTask, ha, hl, he, hg]
            cases route <;> rfl

/-- What the poll loop makes of a row when it gets to a task. -/
theorem dispatches_move {d : Dispatcher} (times : PollClock) (listed : Listed) (route : Route)
    (inputs : ClaimInputs) (hrow : d.taskStore.task? k = some row) :
    ∃ row', (d.dispatchSingleTask e times listed route inputs).taskStore.task? k = some row' ∧
      RowMove e k d (d.dispatchSingleTask e times listed route inputs) row
        (.dispatches times listed route inputs) row' := by
  rcases dispatchSingleTask_cases e d times listed route inputs with
    ⟨hclaims, flowControl, _, he⟩ | ⟨assignee, gated, _, _, _, _, hgated, hclaims, he⟩
  · rw [he]
    exact ⟨row, hrow, .parked (by simp [hclaims]) (Or.inl rfl)⟩
  · have hgrow : gated.taskStore.task? k = some row := by rw [hgated]; exact hrow
    -- the three routes that claim differ in the worker id, the attempt and the `try`
    have hclaim : ∀ workerId caught attempt, route.claims = true →
        ∃ row', (gated.claimFor e times workerId listed.taskId assignee inputs caught attempt).taskStore.task?
            k = some row' ∧
          RowMove e k d (d.dispatchSingleTask e times listed route inputs) row
            (.dispatches times listed route inputs) row' := by
      intro workerId caught attempt hr
      rw [hr, if_pos rfl] at hclaims
      by_cases hk : listed.taskId = k
      · subst hk
        obtain ⟨row', hrow', hc⟩ := claimFor_claim (e := e) times workerId assignee inputs caught attempt
          hgrow
        exact ⟨row', hrow', .claimed hclaims hc⟩
      · refine ⟨row, claimFor_row times workerId _ assignee inputs caught attempt hgrow fun h => absurd h hk,
          .parked (fun agentId h => ?_) (Or.inl rfl)⟩
        rw [hclaims] at h
        cases h
        exact hk rfl
    cases route with
    | ws | callback | workerCommand =>
      have h := hclaim
      rw [he] at h ⊢
      exact h _ _ _ rfl
    | block =>
      rw [he]
      obtain ⟨row', hrow', hp⟩ := blockUnconnected_row times listed.taskId assignee hrow
      exact ⟨row', hrow', .parked (by simp [hclaims, Route.claims]) hp⟩
    | skip =>
      rw [he]
      exact ⟨row, hgrow, .parked (by simp [hclaims, Route.claims]) (Or.inl rfl)⟩

/-- The failure that an attempt records on its own task. -/
theorem failed_row {d : Dispatcher} (clock : Clock) (taskId error : String)
    (hrow : d.taskStore.task? k = some row) :
    ∃ row', (d.toRegistryHandler.updateStore e clock taskId .failed (.str error)).taskStore.task? k =
        some row' ∧
      RowAfter e (d.toRegistryHandler.updateStore e clock taskId .failed (.str error)).taskStore
        (if taskId = k then some ⟨clock, .failed, .str error⟩ else none) row row' := by
  rw [updateStore_store]
  by_cases hid : taskId = k
  · subst hid
    simpa using boardAfter_row (e := e) hrow ⟨clock, .failed, .str error⟩
  · simpa [hid] using row_unreported (e := e) (failed_other (e := e) hrow clock hid true (.str error)) rfl

/-- Every step finds the row of a task again, and moves it in one of these ways. -/
theorem step_move {d : Dispatcher} (ev : DispatcherEvent) (hrow : d.taskStore.task? k = some row) :
    ∃ row', (ev.step e d).taskStore.task? k = some row' ∧ RowMove e k d (ev.step e d) row ev row' := by
  cases ev with
  | server ev =>
    simp only [DispatcherEvent.step]
    cases hof : ev.ofDispatcher with
    | true =>
      refine ⟨row, hrow, .reported (fun op h => ?_) (fun _ _ _ _ h => nomatch h) ?_⟩
      · cases h
        cases hof
      · simpa [DispatcherEvent.report, hof] using RowAfter.unreported e d.taskStore row
    | false =>
      by_cases hcall : ∃ op, ev = .storeCall op
      · obtain ⟨op, rfl⟩ := hcall
        obtain ⟨row', hrow', hstep⟩ := step_row op hrow
        exact ⟨row', hrow', .called hstep⟩
      · have hsend : ∀ clock id assignee channel pid ttl workspace,
            ev ≠ .sendBegins clock id assignee channel pid ttl workspace := by
          rintro _ _ _ _ _ _ _ rfl
          cases hof
        obtain ⟨row', hrow', hafter⟩ := step_row_after (e := e) (s := d.toRegistryHandler) ev
          (fun op h => hcall ⟨op, h⟩) hsend hrow
        refine ⟨row', hrow', .reported (fun op h => hcall ⟨op, ?_⟩) (fun _ _ _ _ h => nomatch h) ?_⟩
        · cases h
          rfl
        · simpa [DispatcherEvent.report, hof] using hafter
  | dispatches times listed route inputs => exact dispatches_move times listed route inputs hrow
  | sendEnds times error =>
    suffices h : ∃ row', ((DispatcherEvent.sendEnds times error).step e d).taskStore.task? k = some row' ∧
        RowAfter e ((DispatcherEvent.sendEnds times error).step e d).taskStore
          ((DispatcherEvent.sendEnds times error).report e d k) row row' by
      obtain ⟨row', hrow', hafter⟩ := h
      exact ⟨row', hrow', .reported (fun _ h => nomatch h) (fun _ _ _ _ h => nomatch h) hafter⟩
    simp only [DispatcherEvent.step]
    cases error with
    | none =>
      cases d.attempt with
      | none => exact row_unreported hrow rfl
      | some attempt => cases attempt <;> exact row_unreported hrow rfl
    | some error =>
      simp only [DispatcherEvent.report]
      cases d.attempt with
      | none => exact row_unreported hrow rfl
      | some attempt =>
        cases attempt with
        | spawn taskId assignee => exact row_unreported hrow rfl
        | send sent =>
          dsimp only [Dispatcher.endSend]
          rw [Dispatcher.finish_handler]
          exact failed_row times.store sent.taskId error.kanbanText hrow
  | spawnEnds times process =>
    simp only [DispatcherEvent.step]
    cases process with
    | ok pid =>
      cases d.attempt with
      | none => exact ⟨row, hrow, .manned rfl⟩
      | some attempt =>
        cases attempt with
        | send sent => exact ⟨row, hrow, .manned rfl⟩
        | spawn taskId assignee =>
          refine ⟨if k = taskId then { row with workerPid := some pid } else row, ?_, .manned ?_⟩
          · dsimp only [Dispatcher.endSpawn]
            rw [Dispatcher.finish_handler, setWorkerPid, Db.task_setTask, hrow]
            rfl
          · split <;> rfl
    | error error =>
      suffices h : ∃ row', ((DispatcherEvent.spawnEnds times (.error error)).step e d).taskStore.task? k =
            some row' ∧
          RowAfter e ((DispatcherEvent.spawnEnds times (.error error)).step e d).taskStore
            ((DispatcherEvent.spawnEnds times (.error error)).report e d k) row row' by
        obtain ⟨row', hrow', hafter⟩ := h
        exact ⟨row', hrow', .reported (fun _ h => nomatch h) (fun _ _ _ _ h => nomatch h) hafter⟩
      simp only [DispatcherEvent.step, DispatcherEvent.report]
      cases d.attempt with
      | none => exact row_unreported hrow rfl
      | some attempt =>
        cases attempt with
        | send sent => exact row_unreported hrow rfl
        | spawn taskId assignee =>
          dsimp only [Dispatcher.endSpawn]
          rw [Dispatcher.finish_handler]
          exact failed_row times.store taskId error hrow

end

end A2ARegistry.Server
