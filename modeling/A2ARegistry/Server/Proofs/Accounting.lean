import Mathlib.Data.Finset.Card
import Mathlib.Data.Finset.Option
import A2ARegistry.Server.Proofs.Moves

namespace A2ARegistry.Server
open Base Orchestration

/-- The agent an attempt is for. -/
def Attempt.assignee : Attempt → String
  | .send sent => sent.assignee
  | .spawn _ assignee => assignee

/-- The dispatcher and the tasks that were dispatched and are not over: pairs of a task and the
agent it was sent to. -/
structure Observed extends Dispatcher where
  outstanding : Finset (String × String)

/-- The change of a status to completed or failed. -/
def Finishes (old new : TaskStatus) : Prop := new ≠ old ∧ (new = .completed ∨ new = .failed)

instance (old new : TaskStatus) : Decidable (Finishes old new) :=
  inferInstanceAs (Decidable (_ ∧ _))

/-- The task is completed or failed between the two, or its claim is released. -/
def isOver (db db' : Db) (k : String) : Bool :=
  match db.task? k, db'.task? k with
  | some row, some row' => Finishes row.status row'.status
  | _, _ => false

/-- The task that reaches an agent in a step. -/
def DispatcherEvent.delivers (d : Dispatcher) : DispatcherEvent → Option (String × String)
  | .server (.sendEnds _ sent none) =>
    if sent.channel = .reconnect ∧ sent ∈ d.sending then some (sent.taskId, sent.assignee) else none
  | .sendEnds _ none =>
    match d.attempt with
    | some (.send sent) => some (sent.taskId, sent.assignee)
    | _ => none
  | .spawnEnds _ (.ok _) =>
    match d.attempt with
    | some (.spawn taskId assignee) => some (taskId, assignee)
    | _ => none
  | _ => none

def Observed.step (e : Engine) (o : Observed) (ev : DispatcherEvent) : Observed where
  toDispatcher := ev.step e o.toDispatcher
  outstanding := (o.outstanding.filter
      (fun p => ¬ isOver o.taskStore (ev.step e o.toDispatcher).taskStore p.1)) ∪
    (ev.delivers o.toDispatcher).toFinset

def Observed.start (taskStore : Db) (config : FlowControlConfig) : Observed where
  toDispatcher := .start taskStore config
  outstanding := ∅

/-- The tasks that are outstanding at an agent. -/
def Observed.outstandingAt (o : Observed) (agentId : String) : Nat :=
  (o.outstanding.filter (fun p => p.2 = agentId)).card

/-- Every count is the number of tasks outstanding, and within the limit. -/
def Accounts (limit : Int) (o : Observed) : Prop :=
  ∀ agentId, o.flowControl.concurrent agentId = o.outstandingAt agentId ∧
    (o.flowControl.concurrent agentId : Int) ≤ limit

/-- The ways a task is over: it is asked for, its claim expires, it is reported, or it is failed
for want of a workspace. -/
inductive Ends (e : Engine) (d : Dispatcher) (k : String) (row : Task) : DispatcherEvent → Prop
  | asked {clock : Clock} {new : TaskStatus} {args : StatusArgs} {retryAt : Option Int}
      (ended : new = .completed ∨ new = .failed)
      (accepted : Accepted row clock.now new args.claimLock retryAt) :
      Ends e d k row (.server (.storeCall (.updateTaskStatus clock k new.value args)))
  | released {clock : Clock} (expired : row.expired clock.now tenant = true) :
      Ends e d k row (.server (.storeCall (.releaseExpiredClaims clock tenant)))
  | reported {ev : DispatcherEvent} {report : BoardReport} (made : ev.report e d k = some report)
      (ended : report.new ≠ .running) (takes : report.Takes e row) : Ends e d k row ev
  | unplaced {times : PollClock} {inputs : ClaimInputs}
      (claims : d.claims times listed route = some (k, agentId))
      (free : row.claimable times.store.now = true) (error : inputs.workspace = .error text)
      (backoff : ¬ Overflows row) : Ends e d k row (.dispatches times listed route inputs)

/-- A worker process is started under a `try` that covers its workspace. -/
def Route.caught : Route → Bool
  | .workerCommand _ => true
  | _ => false

/-- The dispatches that `_dispatch_single_task` counts as failed. -/
inductive Fails (e : Engine) (d : Dispatcher) : DispatcherEvent → String → String → Prop
  | lost {times : PollClock} (claims : d.claims times listed route = some (k, agentId))
      (taken : ∀ row, d.taskStore.task? k = some row → row.claimable times.store.now = false) :
      Fails e d (.dispatches times listed route inputs) k agentId
  | unplaced {times : PollClock} {inputs : ClaimInputs}
      (claims : d.claims times listed route = some (k, agentId))
      (task : d.taskStore.task? k = some row) (free : row.claimable times.store.now = true)
      (error : inputs.workspace = .error text) (counted : route.caught = true ∨ ¬ Overflows row) :
      Fails e d (.dispatches times listed route inputs) k agentId
  | unsent {times : PollClock} {error : DispatchError} (attempt : d.attempt = some (.send sent))
      (task : d.taskStore.task? sent.taskId = some row)
      (takes : BoardReport.Takes e row ⟨times.store, .failed, .str error.kanbanText⟩) :
      Fails e d (.sendEnds times (some error)) sent.taskId sent.assignee
  | unspawned (attempt : d.attempt = some (.spawn k agentId)) :
      Fails e d (.spawnEnds times (.error error)) k agentId

/-- What keeps the counts right: no outstanding task is over in a step that is not the failure of
its own dispatch, no dispatch fails to an agent that has a count and not this task, the dispatcher
delivers no task that is outstanding, and a reconnect only such. -/
structure Accounted (e : Engine) (o : Observed) (ev : DispatcherEvent) : Prop where
  ends : ∀ k agentId row, (k, agentId) ∈ o.outstanding → o.taskStore.task? k = some row →
    Ends e o.toDispatcher k row ev → Fails e o.toDispatcher ev k agentId
  fails : ∀ k agentId, Fails e o.toDispatcher ev k agentId →
    o.flowControl.concurrent agentId = 0 ∨
      (k, agentId) ∈ o.outstanding ∧
        ∃ row, o.taskStore.task? k = some row ∧ Ends e o.toDispatcher k row ev
  delivers : ∀ p, ev.delivers o.toDispatcher = some p →
    (p ∈ o.outstanding ↔ ∃ server, ev = .server server)

section
variable {e : Engine} {d : Dispatcher} {k : String} {row row' : Task}

theorem over_iff {db db' : Db} (hrow : db.task? k = some row) (hrow' : db'.task? k = some row') :
    isOver db db' k = true ↔ Finishes row.status row'.status := by
  simp [isOver, hrow, hrow']

theorem settle_unfinished (db : Db) (row : Task) : ¬ Finishes row.status (settle db row).status := by
  rintro ⟨hne, hend⟩
  rcases settle_cases db row with ⟨_, _, he⟩ | ⟨_, _, he⟩ | ⟨_, _, he⟩
  · simp [he] at hend
  · simp [he] at hend
  · exact hne (by rw [he])

/-- A store call that a task is over with. -/
theorem called_ends {op : Op} {db' : Db} (h : RowStep d.taskStore db' op row row') (hid : row.id = k)
    (hf : Finishes row.status row'.status) : Ends e d k row (.server (.storeCall op)) := by
  subst hid
  cases h with
  | same | edited | placed | manned | beat => exact absurd rfl hf.1
  | claimed => exact absurd hf.2 (by simp [claimedRow, Task.claim])
  | moved accepted => exact .asked hf.2 accepted
  | settled resolves => exact absurd hf (settle_unfinished db' row)
  | released expired => exact .released expired
  | promoted => exact absurd hf.2 (by simp [Task.promote])

theorem edge_ne {old new : TaskStatus} (h : new ∈ transitions old) : new ≠ old := by
  rintro rfl
  cases new <;> simp [transitions] at h

/-- What an event leaves of a row it finishes. -/
theorem RowAfter.finishes_iff {db' : Db} {r : Option BoardReport} (h : RowAfter e db' r row row')
    (hn : ∀ report, r = some report →
      report.new = .running ∨ report.new = .completed ∨ report.new = .failed) :
    Finishes row.status row'.status ↔
      ∃ report, r = some report ∧ report.new ≠ .running ∧ report.Takes e row := by
  cases h with
  | @reported report bound retryAt made ok =>
    have hne : report.new ≠ row.status := edge_ne ok.edge
    constructor
    · rintro ⟨_, hend⟩
      refine ⟨report, made, ?_, bound, retryAt, ok⟩
      rintro hrun
      simp [Task.report, hrun] at hend
    · rintro ⟨report', hr, hrun, _⟩
      rw [made] at hr
      cases hr
      exact ⟨hne, (hn report made).resolve_left hrun⟩
  | kept refused =>
    refine iff_of_false (fun h => h.1 rfl) ?_
    rintro ⟨report, hr, _, ht⟩
    exact refused report hr ht
  | settled none =>
    refine iff_of_false (settle_unfinished db' row) ?_
    rintro ⟨report, hr, _⟩
    rw [none] at hr
    cases hr

/-- A task is over with a step exactly in these ways. -/
theorem over_iff_ends (ev : DispatcherEvent) (hrow : d.taskStore.task? k = some row) :
    isOver d.taskStore (ev.step e d).taskStore k = true ↔ Ends e d k row ev := by
  have hid := Db.task_id hrow
  obtain ⟨row', hrow', hmove⟩ := step_move (e := e) ev hrow
  rw [over_iff hrow hrow']
  constructor
  · intro hf
    cases hmove with
    | called step => exact called_ends step hid hf
    | reported call dispatch after =>
      obtain ⟨report, made, hrun, takes⟩ :=
        (after.finishes_iff fun _ h => DispatcherEvent.report_new h).mp hf
      exact .reported made hrun takes
    | manned status => exact absurd status hf.1
    | claimed claims claim =>
      cases claim with
      | refused taken => exact absurd rfl hf.1
      | placed free path status | stuck free backoff status =>
        have hend := hf.2
        simp [status] at hend
      | unplaced free error backoff status => exact .unplaced claims free error backoff
    | parked claims parked =>
      rcases parked with rfl | ⟨hb, _⟩
      · exact absurd rfl hf.1
      · have hend := hf.2
        simp [hb] at hend
  · intro h
    cases h with
    | @asked clock new args retryAt ended accepted =>
      subst hid
      obtain ⟨view, kind, hu⟩ := updateTaskStatus_accepted hrow accepted
      have hstep : ((DispatcherEvent.server (.storeCall
          (.updateTaskStatus clock row.id new.value args))).step e d).taskStore =
            writeStatus d.taskStore clock row new args retryAt kind := by
        change (d.taskStore.tx (updateTaskStatus d.taskStore clock row.id new.value args)).2 = _
        rw [hu]
        rfl
      rw [hstep, writeStatus_task d.taskStore clock row new args retryAt kind hrow, if_pos rfl] at hrow'
      cases hrow'
      exact ⟨edge_ne accepted.edge, ended⟩
    | @released tenant clock expired =>
      have hstep : ((DispatcherEvent.server (.storeCall (.releaseExpiredClaims clock tenant))).step e
          d).taskStore = (releaseExpiredClaims d.taskStore clock tenant).2 := rfl
      rw [hstep, release_task, hrow, Option.map_some, if_pos expired] at hrow'
      cases hrow'
      have hrun : row.status ≠ .failed := by
        intro hs
        simp [Task.expired, hs] at expired
      exact ⟨fun h => hrun h.symm, Or.inr rfl⟩
    | reported made ended takes =>
      cases hmove with
      | called step => cases made
      | reported call dispatch after =>
        exact (after.finishes_iff fun _ h => DispatcherEvent.report_new h).mpr ⟨_, made, ended, takes⟩
      | manned | claimed | parked => cases made
    | unplaced claims free error backoff =>
      cases hmove with
      | reported call dispatch after => exact absurd rfl (dispatch _ _ _ _)
      | parked notClaims => exact absurd claims (notClaims _)
      | claimed _ claim =>
        cases claim with
        | refused taken => simp [taken] at free
        | placed _ path => simp [path] at error
        | stuck _ overflows => exact absurd overflows backoff
        | unplaced _ _ _ status =>
          refine ⟨fun h => ?_, Or.inr status⟩
          rw [status] at h
          simp [Task.claimable, ← h] at free

theorem failResult_iff (db : Db) (clock : Clock) (k text : String) :
    failResult e db clock k text = .counted false ↔
      ∃ row, db.task? k = some row ∧ BoardReport.Takes e row ⟨clock, .failed, .str text⟩ := by
  unfold failResult
  constructor
  · intro h
    split at h
    · rename_i hs
      obtain ⟨db', hr⟩ := Option.isSome_iff_exists.mp hs
      obtain ⟨t, bound, retryAt, _, ht, hrep, _⟩ := reportStatus_some hr
      exact ⟨t, ht, bound, retryAt, hrep⟩
    · cases h
  · rintro ⟨row, hrow, bound, retryAt, hrep⟩
    obtain ⟨kind, hr⟩ := reportStatus_ok hrow hrep
    simp [hr]

theorem failResult_cases (db : Db) (clock : Clock) (k text : String) :
    failResult e db clock k text = .counted false ∨ failResult e db clock k text = .raised := by
  unfold failResult
  split
  · exact Or.inl rfl
  · exact Or.inr rfl

/-- The failure of a task that was just claimed can be recorded, unless its backoff overflows. -/
theorem failResult_claimed (times : PollClock) (workerId text : String) (inputs : ClaimInputs)
    (hrow : d.taskStore.task? k = some row) (free : row.claimable times.store.now = true) :
    let result := failResult e (writeClaim d.taskStore times.store k workerId inputs.pid inputs.ttl)
      times.store k text
    ¬ Overflows row ∧ result = .counted false ∨ Overflows row ∧ result = .raised := by
  have hclaimed := (writeClaim_task workerId inputs.pid inputs.ttl hrow free k).trans (if_pos rfl)
  intro result
  have hcounted : result = .counted false ↔ ¬ Overflows row := by
    rw [failResult_iff]
    constructor
    · rintro ⟨row', hrow', takes⟩
      rw [hclaimed] at hrow'
      cases hrow'
      exact claimed_takes_failed.mp takes
    · intro ho
      exact ⟨_, hclaimed, claimed_takes_failed.mpr ho⟩
  rcases failResult_cases (e := e) (writeClaim d.taskStore times.store k workerId inputs.pid inputs.ttl)
    times.store k text with hr | hr
  · exact Or.inl ⟨hcounted.mp hr, hr⟩
  · refine Or.inr ⟨by_contra fun ho => ?_, hr⟩
    have hc : DispatchResult.raised = .counted false := hr.symm.trans (hcounted.mpr ho)
    cases hc

/-- What the way to the `await` of a dispatch does to the flow controller, and what it waits for. -/
inductive ClaimEnd (d : Dispatcher) (times : PollClock) (k agentId : String) (inputs : ClaimInputs)
    (caught : Bool) (attempt : Attempt) (d' : Dispatcher) : Prop
  | lost (taken : ∀ row, d.taskStore.task? k = some row → row.claimable times.store.now = false)
      (flow : d'.flowControl = d.flowControl.notify agentId times.notify false) (idle : d'.attempt = none)
  | placed {row : Task} (task : d.taskStore.task? k = some row)
      (free : row.claimable times.store.now = true) (path : inputs.workspace = .ok path)
      (flow : d'.flowControl = d.flowControl) (waits : d'.attempt = some attempt)
  | unplaced {row : Task} (task : d.taskStore.task? k = some row)
      (free : row.claimable times.store.now = true) (error : inputs.workspace = .error text)
      (counted : caught = true ∨ ¬ Overflows row)
      (flow : d'.flowControl = d.flowControl.notify agentId times.notify false) (idle : d'.attempt = none)
  | raised {row : Task} (task : d.taskStore.task? k = some row)
      (free : row.claimable times.store.now = true) (error : inputs.workspace = .error text)
      (uncaught : caught = false) (overflows : Overflows row)
      (flow : d'.flowControl = d.flowControl) (idle : d'.attempt = none)

theorem claimFor_end (times : PollClock) (workerId agentId : String) (inputs : ClaimInputs) (caught : Bool)
    (attempt : Attempt) : ClaimEnd d times k agentId inputs caught attempt
      (d.claimFor e times workerId k agentId inputs caught attempt) := by
  unfold Dispatcher.claimFor
  by_cases hfree : ∃ row, d.taskStore.task? k = some row ∧ row.claimable times.store.now = true
  · obtain ⟨row, hrow, free⟩ := hfree
    rw [claimTask_claims hrow free]
    cases hw : inputs.workspace with
    | ok path => exact .placed hrow free hw rfl rfl
    | error error =>
      cases caught with
      | true => exact .unplaced hrow free hw (Or.inl rfl) rfl rfl
      | false =>
        rcases failResult_claimed (e := e) times workerId error inputs hrow free with ⟨ho, hr⟩ | ⟨ho, hr⟩
        · simp only [Bool.false_eq_true, if_false, hr]
          exact .unplaced hrow free hw (Or.inr ho) rfl rfl
        · simp only [Bool.false_eq_true, if_false, hr]
          exact .raised hrow free hw rfl ho rfl rfl
  · have taken : ∀ row, d.taskStore.task? k = some row → row.claimable times.store.now = false :=
      fun row hrow => Bool.eq_false_iff.mpr fun free => hfree ⟨row, hrow, free⟩
    rw [claimTask_refused taken]
    exact .lost taken rfl rfl

theorem Fails.claims {times : PollClock} {listed : Listed} {route : Route} {inputs : ClaimInputs}
    {agentId : String} (h : Fails e d (.dispatches times listed route inputs) k agentId) :
    d.claims times listed route = some (k, agentId) := by
  cases h with
  | lost claims => exact claims
  | unplaced claims => exact claims

/-- What a step does to the counts. -/
inductive CountStep (e : Engine) (d d' : Dispatcher) (ev : DispatcherEvent) : Prop
  | kept (delivers : ∀ p, ev.delivers d = some p → ∃ server, ev = .server server)
      (fails : ∀ k agentId, ¬ Fails e d ev k agentId)
      (count : ∀ a, d'.flowControl.concurrent a = d.flowControl.concurrent a)
      (waits : ∀ attempt, d'.attempt = some attempt → d.attempt = some attempt ∨
        (0 < d.flowControl.config.maxConcurrentTasks →
          (d.flowControl.concurrent attempt.assignee : Int) < d.flowControl.config.maxConcurrentTasks))
  | delivered {k : String} {attempt : Attempt} (ends : d.attempt = some attempt)
      (delivers : ev.delivers d = some (k, attempt.assignee)) (dispatcher : ∀ server, ev ≠ .server server)
      (fails : ∀ k agentId, ¬ Fails e d ev k agentId)
      (count : ∀ a, d'.flowControl.concurrent a =
        d.flowControl.concurrent a + if a = attempt.assignee then 1 else 0)
      (idle : d'.attempt = none)
  | failed {k agentId : String} (delivers : ev.delivers d = none)
      (fails : ∀ k' a, Fails e d ev k' a ↔ k' = k ∧ a = agentId)
      (count : ∀ a, d'.flowControl.concurrent a =
        d.flowControl.concurrent a - if a = agentId then 1 else 0)
      (idle : d'.attempt = none)

/-- The fallible claim of a task that the gate has let through, on one of the routes that claim. -/
theorem claimFor_count {gated : Dispatcher} {times : PollClock} {listed : Listed} {route : Route}
    (inputs : ClaimInputs) {assignee workerId : String} {caught : Bool} {attempt : Attempt}
    (hstore : gated.taskStore = d.taskStore)
    (hcount : ∀ a, gated.flowControl.concurrent a = d.flowControl.concurrent a)
    (hlt : 0 < d.flowControl.config.maxConcurrentTasks →
      (d.flowControl.concurrent assignee : Int) < d.flowControl.config.maxConcurrentTasks)
    (hclaims : d.claims times listed route = some (listed.taskId, assignee)) (hcaught : caught = route.caught)
    (hagent : attempt.assignee = assignee) :
    CountStep e d (gated.claimFor e times workerId listed.taskId assignee inputs caught attempt)
      (.dispatches times listed route inputs) := by
  have undelivered : ∀ p, (DispatcherEvent.dispatches times listed route inputs).delivers d = some p →
      ∃ server, DispatcherEvent.dispatches times listed route inputs = .server server :=
    fun _ h => nomatch h
  have honly : ∀ k' a, Fails e d (.dispatches times listed route inputs) k' a →
      k' = listed.taskId ∧ a = assignee := by
    intro k' a h
    have hk := h.claims
    rw [hclaims] at hk
    cases hk
    exact ⟨rfl, rfl⟩
  have hnotify : ∀ a, (gated.flowControl.notify assignee times.notify false).concurrent a =
      d.flowControl.concurrent a - if a = assignee then 1 else 0 := by
    intro a
    rw [FlowController.concurrent_notify_false, hcount]
  cases claimFor_end (e := e) (d := gated) (k := listed.taskId) times workerId assignee inputs caught attempt with
  | lost taken flow idle =>
    rw [hstore] at taken
    refine .failed rfl (fun k' a => ⟨honly k' a, ?_⟩) (fun a => by rw [flow, hnotify]) idle
    rintro ⟨rfl, rfl⟩
    exact .lost hclaims taken
  | unplaced task free error counted flow idle =>
    rw [hstore] at task
    refine .failed rfl (fun k' a => ⟨honly k' a, ?_⟩) (fun a => by rw [flow, hnotify]) idle
    rintro ⟨rfl, rfl⟩
    exact .unplaced hclaims task free error (hcaught ▸ counted)
  | placed task free path flow waits =>
    rw [hstore] at task
    refine .kept undelivered (fun k' a h => ?_) (fun a => by rw [flow, hcount]) (fun attempt' h => ?_)
    · cases h with
      | lost claims taken =>
        rw [hclaims] at claims
        cases claims
        simp [taken _ task] at free
      | unplaced _ _ _ error => simp [path] at error
    · rw [waits] at h
      cases h
      exact Or.inr (hagent ▸ hlt)
  | raised task free error uncaught overflows flow idle =>
    rw [hstore] at task
    refine .kept undelivered (fun k' a h => ?_) (fun a => by rw [flow, hcount]) (fun attempt' h => ?_)
    · cases h with
      | lost claims taken =>
        rw [hclaims] at claims
        cases claims
        simp [taken _ task] at free
      | unplaced claims task' _ _ counted =>
        rw [hclaims] at claims
        cases claims
        rw [task] at task'
        cases task'
        rw [← hcaught, uncaught] at counted
        exact counted.elim Bool.false_ne_true (fun h => h overflows)
    · rw [idle] at h
      cases h

/-- The step of the poll loop that takes up a task. -/
theorem dispatches_count (times : PollClock) (listed : Listed) (route : Route) (inputs : ClaimInputs) :
    CountStep e d (d.dispatchSingleTask e times listed route inputs)
      (.dispatches times listed route inputs) := by
  have undelivered : ∀ p, (DispatcherEvent.dispatches times listed route inputs).delivers d = some p →
      ∃ server, DispatcherEvent.dispatches times listed route inputs = .server server :=
    fun _ h => nomatch h
  rcases dispatchSingleTask_cases e d times listed route inputs with
    ⟨hclaims, flowControl, hflow, he⟩ |
      ⟨assignee, gated, hidle, hassignee, hne, hgate, hgated, hclaims, he⟩
  · rw [he]
    refine .kept undelivered (fun k a h => ?_) (fun a => ?_) (fun attempt h => Or.inl h)
    · have hk := h.claims
      rw [hclaims] at hk
      cases hk
    · rcases hflow with rfl | ⟨assignee, rfl⟩
      · rfl
      · exact FlowController.concurrent_canDispatch ..
  · have hcount : ∀ a, gated.flowControl.concurrent a = d.flowControl.concurrent a := by
      intro a
      rw [hgated]
      exact FlowController.concurrent_canDispatch ..
    have hstore : gated.taskStore = d.taskStore := by rw [hgated]
    have hlt := d.flowControl.canDispatch_lt assignee hgate
    rw [he]
    cases route with
    | ws | callback | workerCommand => exact claimFor_count inputs hstore hcount hlt hclaims rfl rfl
    | block | skip =>
      refine .kept undelivered (fun k' a h => ?_) hcount (fun attempt h => ?_)
      · have hk := h.claims
        rw [hclaims] at hk
        cases hk
      · rw [hgated] at h
        exact Or.inl h

theorem endSend_count {sent : Sending} (ha : d.attempt = some (.send sent)) (times : PollClock)
    (error : Option DispatchError) :
    CountStep e d (d.endSend e times sent error) (.sendEnds times error) := by
  cases error with
  | none =>
    have hd : (DispatcherEvent.sendEnds times none).delivers d = some (sent.taskId, sent.assignee) := by
      simp [DispatcherEvent.delivers, ha]
    exact .delivered ha hd (fun _ h => nomatch h) (fun _ _ h => nomatch h)
      (d.flowControl.concurrent_notify_true sent.assignee times.notify) rfl
  | some error =>
    have hcounted := failResult_iff (e := e) d.taskStore times.store sent.taskId error.kanbanText
    dsimp only [Dispatcher.endSend]
    rcases failResult_cases (e := e) d.taskStore times.store sent.taskId error.kanbanText with hr | hr
    · obtain ⟨row, task, takes⟩ := hcounted.mp hr
      have hfails : ∀ k a, Fails e d (.sendEnds times (some error)) k a ↔
          k = sent.taskId ∧ a = sent.assignee := by
        intro k a
        constructor
        · intro h
          cases h with
          | unsent attempt =>
            rw [ha] at attempt
            cases attempt
            exact ⟨rfl, rfl⟩
        · rintro ⟨rfl, rfl⟩
          exact .unsent ha task takes
      rw [hr]
      exact .failed rfl hfails (d.flowControl.concurrent_notify_false sent.assignee times.notify) rfl
    · rw [hr] at hcounted ⊢
      refine .kept (fun _ h => nomatch h) (fun k' a h => ?_) (fun _ => rfl) (fun _ h => nomatch h)
      cases h with
      | unsent attempt task takes =>
        rw [ha] at attempt
        cases attempt
        exact nomatch hcounted.mpr ⟨_, task, takes⟩

theorem endSpawn_count {assignee : String} (ha : d.attempt = some (.spawn k assignee)) (times : PollClock)
    (process : Except String Int) :
    CountStep e d (d.endSpawn e times k assignee process) (.spawnEnds times process) := by
  cases process with
  | ok pid =>
    have hd : (DispatcherEvent.spawnEnds times (.ok pid)).delivers d = some (k, assignee) := by
      simp [DispatcherEvent.delivers, ha]
    exact .delivered ha hd (fun _ h => nomatch h) (fun _ _ h => nomatch h)
      (d.flowControl.concurrent_notify_true assignee times.notify) rfl
  | error error =>
    have hfails : ∀ k' a, Fails e d (.spawnEnds times (.error error)) k' a ↔ k' = k ∧ a = assignee := by
      intro k' a
      constructor
      · intro h
        cases h with
        | unspawned attempt =>
          rw [ha] at attempt
          cases attempt
          exact ⟨rfl, rfl⟩
      · rintro ⟨rfl, rfl⟩
        exact .unspawned ha
    exact .failed rfl hfails (d.flowControl.concurrent_notify_false assignee times.notify) rfl

/-- An end without an attempt is nothing. -/
theorem idle_count {ev : DispatcherEvent} (hstep : ev.step e d = d) (hd : ev.delivers d = none)
    (hf : ∀ k a, ¬ Fails e d ev k a) : CountStep e d (ev.step e d) ev := by
  rw [hstep]
  refine .kept (fun p hp => ?_) hf (fun _ => rfl) (fun _ h => Or.inl h)
  rw [hd] at hp
  cases hp

/-- Every step is counted in one of these ways. -/
theorem step_count (ev : DispatcherEvent) : CountStep e d (ev.step e d) ev := by
  cases ev with
  | server ev =>
    refine .kept (fun _ _ => ⟨ev, rfl⟩) (fun _ _ h => nomatch h) (fun a => ?_) (fun attempt h => Or.inl ?_)
    · simp only [DispatcherEvent.step]
      split <;> rfl
    · simp only [DispatcherEvent.step] at h
      split at h <;> exact h
  | dispatches times listed route inputs => exact dispatches_count times listed route inputs
  | sendEnds times error =>
    by_cases hs : ∃ sent, d.attempt = some (.send sent)
    · obtain ⟨sent, ha⟩ := hs
      have hd : (DispatcherEvent.sendEnds times error).step e d = d.endSend e times sent error := by
        simp [DispatcherEvent.step, ha]
      rw [hd]
      exact endSend_count ha times error
    · refine idle_count ?_ ?_ fun k a h => ?_
      · simp only [DispatcherEvent.step]
        split
        · exact absurd ⟨_, ‹_›⟩ hs
        · rfl
      · cases error with
        | some error => rfl
        | none =>
          simp only [DispatcherEvent.delivers]
          split
          · exact absurd ⟨_, ‹_›⟩ hs
          · rfl
      · cases h with
        | unsent attempt => exact hs ⟨_, attempt⟩
  | spawnEnds times process =>
    by_cases hs : ∃ taskId assignee, d.attempt = some (.spawn taskId assignee)
    · obtain ⟨taskId, assignee, ha⟩ := hs
      have hd : (DispatcherEvent.spawnEnds times process).step e d =
          d.endSpawn e times taskId assignee process := by
        simp [DispatcherEvent.step, ha]
      rw [hd]
      exact endSpawn_count ha times process
    · refine idle_count ?_ ?_ fun k a h => ?_
      · simp only [DispatcherEvent.step]
        split
        · exact absurd ⟨_, _, ‹_›⟩ hs
        · rfl
      · cases process with
        | error error => rfl
        | ok pid =>
          simp only [DispatcherEvent.delivers]
          split
          · exact absurd ⟨_, _, ‹_›⟩ hs
          · rfl
      · cases h with
        | unspawned attempt => exact hs ⟨_, _, attempt⟩

/-- In a step that fails a dispatch no other task is over. -/
theorem Fails.only {ev : DispatcherEvent} {k' agentId : String} (h : Fails e d ev k' agentId)
    (hends : Ends e d k row ev) : k = k' := by
  cases hends with
  | asked | released => cases h
  | unplaced claims =>
    have hk := h.claims
    rw [claims] at hk
    cases hk
    rfl
  | reported made =>
    cases h with
    | lost | unplaced => cases made
    | unsent attempt =>
      simp only [DispatcherEvent.report, attempt] at made
      split at made
      · exact Eq.symm ‹_›
      · cases made
    | unspawned attempt =>
      simp only [DispatcherEvent.report, attempt] at made
      split at made
      · exact Eq.symm ‹_›
      · cases made

/-- In a step that delivers a task none is over. -/
theorem delivers_not_ends {ev : DispatcherEvent} {p : String × String} (h : ev.delivers d = some p) :
    ¬ Ends e d k row ev := by
  intro hends
  cases hends with
  | asked | released | unplaced => cases h
  | reported made =>
    cases ev with
    | dispatches => cases h
    | server ev =>
      cases ev with
      | sendEnds clock sent error =>
        cases error with
        | some error => cases h
        | none =>
          simp only [DispatcherEvent.report] at made
          split at made <;> cases made
      | _ => cases h
    | sendEnds times error =>
      cases error with
      | some error => cases h
      | none => cases made
    | spawnEnds times process =>
      cases process with
      | error error => cases h
      | ok pid => cases made

end

section
variable {e : Engine} {o : Observed} {ev : DispatcherEvent} {limit : Int}

/-- The outstanding tasks of an agent that are over with a step. -/
def Observed.ending (e : Engine) (o : Observed) (ev : DispatcherEvent) (agentId : String) :
    Finset (String × String) :=
  (o.outstanding.filter (fun p => p.2 = agentId)).filter
    (fun p => isOver o.taskStore (ev.step e o.toDispatcher).taskStore p.1)

theorem mem_ending {k agentId a : String} : (k, agentId) ∈ o.ending e ev a ↔
    (k, agentId) ∈ o.outstanding ∧ agentId = a ∧
      ∃ row, o.taskStore.task? k = some row ∧ Ends e o.toDispatcher k row ev := by
  have hover : isOver o.taskStore (ev.step e o.toDispatcher).taskStore k = true ↔
      ∃ row, o.taskStore.task? k = some row ∧ Ends e o.toDispatcher k row ev := by
    cases hrow : o.taskStore.task? k with
    | none => simp [isOver, hrow]
    | some row => simp [over_iff_ends ev hrow]
  simp only [Observed.ending, Finset.mem_filter, hover, and_assoc]

/-- A step that delivers nothing leaves what is not over outstanding. -/
theorem outstandingAt_ending (hd : ev.delivers o.toDispatcher = none) (a : String) :
    (o.step e ev).outstandingAt a + (o.ending e ev a).card = o.outstandingAt a := by
  have hsplit := Finset.card_filter_add_card_filter_not (s := o.outstanding.filter (fun p => p.2 = a))
    (fun p => isOver o.taskStore (ev.step e o.toDispatcher).taskStore p.1 = true)
  have hstep : (o.step e ev).outstanding = o.outstanding.filter
      (fun p => ¬ isOver o.taskStore (ev.step e o.toDispatcher).taskStore p.1) := by
    simp [Observed.step, hd]
  rw [Observed.outstandingAt, hstep, Finset.filter_comm]
  simp only [Observed.ending, Observed.outstandingAt]
  omega

/-- A step that delivers a task adds it to the outstanding ones. -/
theorem outstandingAt_delivered {p : String × String} (hd : ev.delivers o.toDispatcher = some p)
    (a : String) : (o.step e ev).outstandingAt a =
      o.outstandingAt a + if a = p.2 ∧ p ∉ o.outstanding then 1 else 0 := by
  have hkept : o.outstanding.filter
      (fun p => ¬ isOver o.taskStore (ev.step e o.toDispatcher).taskStore p.1) = o.outstanding := by
    refine Finset.filter_true_of_mem fun q _ hover => ?_
    cases hrow : o.taskStore.task? q.1 with
    | none => simp [isOver, hrow] at hover
    | some row => exact delivers_not_ends hd ((over_iff_ends ev hrow).mp hover)
  have hstep : (o.step e ev).outstanding = insert p o.outstanding := by
    simp only [Observed.step, hkept, hd, Option.toFinset_some, Finset.union_singleton]
  simp only [Observed.outstandingAt, hstep, Finset.filter_insert]
  by_cases ha : a = p.2
  · subst ha
    rw [if_pos rfl, Finset.card_insert_eq_ite]
    by_cases hp : p ∈ o.outstanding
    · simp [hp]
    · simp [hp]
  · rw [if_neg (Ne.symm ha)]
    simp [ha]

/-- The agent of an attempt has a slot left. -/
def Gated (d : Dispatcher) : Prop :=
  ∀ attempt, d.attempt = some attempt →
    (d.flowControl.concurrent attempt.assignee : Int) < d.flowControl.config.maxConcurrentTasks

theorem finish_config (d : Dispatcher) (assignee : String) (now : Int) (result : DispatchResult) :
    (d.finish assignee now result).flowControl.config = d.flowControl.config := by
  cases result with
  | counted sent => exact d.flowControl.config_notify assignee now sent
  | raised => rfl

theorem claimFor_config (d : Dispatcher) (times : PollClock) (workerId k assignee : String)
    (inputs : ClaimInputs) (caught : Bool) (attempt : Attempt) :
    (d.claimFor e times workerId k assignee inputs caught attempt).flowControl.config =
      d.flowControl.config := by
  unfold Dispatcher.claimFor
  split
  · exact finish_config ..
  · rfl
  · exact finish_config ..

/-- No step changes the configuration. -/
theorem step_config (d : Dispatcher) (ev : DispatcherEvent) :
    (ev.step e d).flowControl.config = d.flowControl.config := by
  cases ev with
  | server ev =>
    simp only [DispatcherEvent.step]
    split <;> rfl
  | dispatches times listed route inputs =>
    simp only [DispatcherEvent.step]
    rcases dispatchSingleTask_cases e d times listed route inputs with
      ⟨_, flowControl, hflow, he⟩ | ⟨assignee, gated, _, _, _, _, hgated, _, he⟩
    · rw [he]
      rcases hflow with rfl | ⟨assignee, rfl⟩
      · rfl
      · exact d.flowControl.config_canDispatch assignee times.gate
    · have hconfig : gated.flowControl.config = d.flowControl.config := by
        rw [hgated]
        exact d.flowControl.config_canDispatch assignee times.gate
      rw [he, ← hconfig]
      cases route with
      | ws | callback | workerCommand => exact claimFor_config ..
      | block | skip => rfl
  | sendEnds times error =>
    simp only [DispatcherEvent.step]
    split
    · cases error <;> exact finish_config ..
    · rfl
  | spawnEnds times process =>
    simp only [DispatcherEvent.step]
    split
    · cases process <;> exact finish_config ..
    · rfl

/-- A step that keeps the counts. -/
theorem kept_accounts_iff (hp : Accounts limit o)
    (hdel : ∀ p, ev.delivers o.toDispatcher = some p → ∃ server, ev = .server server)
    (hf : ∀ k agentId, ¬ Fails e o.toDispatcher ev k agentId)
    (hcount : ∀ a, (o.step e ev).flowControl.concurrent a = o.flowControl.concurrent a) :
    Accounts limit (o.step e ev) ↔ Accounted e o ev := by
  cases hd : ev.delivers o.toDispatcher with
  | none =>
    have hiff : Accounts limit (o.step e ev) ↔ ∀ a, o.ending e ev a = ∅ := by
      refine forall_congr' fun a => ?_
      have hsplit := outstandingAt_ending (e := e) hd a
      rw [hcount, ← Finset.card_eq_zero]
      have := hp a
      constructor
      · intro h
        omega
      · intro h
        exact ⟨by omega, this.2⟩
    rw [hiff]
    constructor
    · intro h
      refine ⟨fun k agentId row hmem hrow hends => ?_, fun k a h => absurd h (hf k a), fun p hp => ?_⟩
      · have hk := mem_ending.mpr ⟨hmem, rfl, row, hrow, hends⟩
        rw [h] at hk
        cases hk
      · rw [hd] at hp
        cases hp
    · intro h a
      refine Finset.eq_empty_of_forall_notMem fun p hmem => ?_
      obtain ⟨hmem, -, row, hrow, hends⟩ := mem_ending.mp hmem
      exact hf _ _ (h.ends _ _ row hmem hrow hends)
  | some p =>
    have hiff : Accounts limit (o.step e ev) ↔ p ∈ o.outstanding := by
      constructor
      · intro h
        have hp2 := (h p.2).1
        rw [hcount, outstandingAt_delivered hd, (hp p.2).1] at hp2
        by_contra hn
        simp [hn] at hp2
      · intro h a
        rw [hcount, outstandingAt_delivered hd]
        simpa [h] using hp a
    rw [hiff]
    constructor
    · intro h
      refine ⟨fun k agentId row _ _ hends => absurd hends (delivers_not_ends hd),
        fun k a h => absurd h (hf k a), fun q hq => ?_⟩
      rw [hd] at hq
      cases hq
      exact iff_of_true h (hdel p hd)
    · intro h
      exact (h.delivers p hd).mpr (hdel p hd)

/-- The delivery of a task by the dispatcher. -/
theorem delivered_accounts_iff (hp : Accounts limit o) {k agentId : String}
    (hd : ev.delivers o.toDispatcher = some (k, agentId)) (hev : ∀ server, ev ≠ .server server)
    (hf : ∀ k agentId, ¬ Fails e o.toDispatcher ev k agentId)
    (hroom : (o.flowControl.concurrent agentId : Int) < limit)
    (hcount : ∀ a, (o.step e ev).flowControl.concurrent a =
      o.flowControl.concurrent a + if a = agentId then 1 else 0) :
    Accounts limit (o.step e ev) ↔ Accounted e o ev := by
  have hiff : Accounts limit (o.step e ev) ↔ (k, agentId) ∉ o.outstanding := by
    constructor
    · intro h hmem
      have ha := (h agentId).1
      rw [hcount, outstandingAt_delivered hd, (hp agentId).1] at ha
      simp [hmem] at ha
    · intro h a
      rw [hcount, outstandingAt_delivered hd, ← (hp a).1]
      by_cases ha : a = agentId
      · subst ha
        simp only [h, not_false_eq_true, and_self, if_true, true_and]
        omega
      · simpa [ha] using (hp a).2
  rw [hiff]
  constructor
  · intro h
    refine ⟨fun _ _ row _ _ hends => absurd hends (delivers_not_ends hd),
      fun k a h => absurd h (hf k a), fun q hq => ?_⟩
    rw [hd] at hq
    cases hq
    exact iff_of_false h fun ⟨server, he⟩ => hev server he
  · intro h hmem
    obtain ⟨server, he⟩ := (h.delivers _ hd).mp hmem
    exact hev server he

/-- The failure of a dispatch. -/
theorem failed_accounts_iff (hp : Accounts limit o) {k agentId : String}
    (hd : ev.delivers o.toDispatcher = none)
    (hf : ∀ k' a, Fails e o.toDispatcher ev k' a ↔ k' = k ∧ a = agentId)
    (hcount : ∀ a, (o.step e ev).flowControl.concurrent a =
      o.flowControl.concurrent a - if a = agentId then 1 else 0) :
    Accounts limit (o.step e ev) ↔ Accounted e o ev := by
  have hfails : Fails e o.toDispatcher ev k agentId := (hf k agentId).mpr ⟨rfl, rfl⟩
  have hiff : Accounts limit (o.step e ev) ↔ ∀ a, (o.ending e ev a).card =
      if a = agentId then min 1 (o.flowControl.concurrent agentId) else 0 := by
    refine forall_congr' fun a => ?_
    have hsplit := outstandingAt_ending (e := e) hd a
    have := hp a
    rw [hcount]
    by_cases ha : a = agentId
    · subst ha
      simp only [if_true]
      constructor
      · intro h
        omega
      · intro h
        exact ⟨by omega, by omega⟩
    · simp only [ha, if_false]
      constructor
      · intro h
        omega
      · intro h
        exact ⟨by omega, by omega⟩
  -- of the outstanding tasks only the one that failed can be over
  have hsub : ∀ a, o.ending e ev a ⊆ {(k, a)} := by
    rintro a ⟨k', a'⟩ hmem
    obtain ⟨_, rfl, row, _, hends⟩ := mem_ending.mp hmem
    rw [Finset.mem_singleton, hfails.only hends]
  rw [hiff]
  constructor
  · intro h
    refine ⟨fun k' a row hmem hrow hends => ?_, fun k' a hf' => ?_, fun q hq => ?_⟩
    · have hk := hfails.only hends
      have hmem' : (k', a) ∈ o.ending e ev a := mem_ending.mpr ⟨hmem, rfl, row, hrow, hends⟩
      have hpos := Finset.card_pos.mpr ⟨_, hmem'⟩
      rw [h] at hpos
      refine (hf k' a).mpr ⟨hk, by_contra fun hn => ?_⟩
      simp [hn] at hpos
    · obtain ⟨rfl, rfl⟩ := (hf k' a).mp hf'
      by_cases hz : o.flowControl.concurrent a = 0
      · exact Or.inl hz
      · right
        have hone := h a
        rw [if_pos rfl] at hone
        obtain ⟨p, hmem⟩ := Finset.card_pos.mp (by omega : 0 < (o.ending e ev a).card)
        have hpk := Finset.mem_singleton.mp (hsub a hmem)
        subst hpk
        obtain ⟨hmem, _, hends⟩ := mem_ending.mp hmem
        exact ⟨hmem, hends⟩
    · rw [hd] at hq
      cases hq
  · intro h a
    by_cases ha : a = agentId
    · subst ha
      rw [if_pos rfl]
      rcases h.fails k a hfails with hz | ⟨hmem, hends⟩
      · have hzero : o.outstandingAt a = 0 := by rw [← (hp a).1, hz]
        have hsplit := outstandingAt_ending (e := e) hd a
        omega
      · have hone : o.ending e ev a = {(k, a)} :=
          Finset.Subset.antisymm (hsub a) (Finset.singleton_subset_iff.mpr (mem_ending.mpr ⟨hmem, rfl, hends⟩))
        have hsplit := outstandingAt_ending (e := e) hd a
        have hcard : (o.ending e ev a).card = 1 := by rw [hone, Finset.card_singleton]
        have hcountA := (hp a).1
        omega
    · rw [if_neg ha, Finset.card_eq_zero]
      refine Finset.eq_empty_of_forall_notMem fun p hmem => ?_
      obtain ⟨hmem, hpa, row, hrow, hends⟩ := mem_ending.mp hmem
      exact ha (hpa ▸ ((hf _ _).mp (h.ends _ _ row hmem hrow hends)).2)

/-- A step from counts that are right keeps them so exactly when it is accounted for. -/
theorem step_accounts_iff (hg : Gated o.toDispatcher) (hl : o.flowControl.config.maxConcurrentTasks = limit)
    (hp : Accounts limit o) : Accounts limit (o.step e ev) ↔ Accounted e o ev := by
  cases step_count (e := e) (d := o.toDispatcher) ev with
  | kept delivers fails count => exact kept_accounts_iff hp delivers fails count
  | delivered ends delivers dispatcher fails count =>
    exact delivered_accounts_iff hp delivers dispatcher fails (hl ▸ hg _ ends) count
  | failed delivers fails count => exact failed_accounts_iff hp delivers fails count

theorem step_gated {d : Dispatcher} (hg : Gated d) (hm : 0 < d.flowControl.config.maxConcurrentTasks) :
    Gated (ev.step e d) := by
  intro attempt ha
  rw [step_config]
  cases step_count (e := e) (d := d) ev with
  | kept delivers fails count waits =>
    rw [count]
    rcases waits attempt ha with hwas | hroom
    · exact hg attempt hwas
    · exact hroom hm
  | delivered _ _ _ _ _ idle | failed _ _ _ idle =>
    rw [idle] at ha
    cases ha

end

/-- The counts are the tasks outstanding, and within the limit, through a run of the server and its
dispatcher exactly when every step of the run is accounted for. The count of an agent is never
lowered for a task that it completes or fails or that is released, but for a dispatch that is lost. -/
theorem flow_accounting_iff (e : Engine) (taskStore : Db) (config : FlowControlConfig)
    (hm : 0 < config.maxConcurrentTasks) (events : List DispatcherEvent) :
    Always (Observed.step e) (Accounts config.maxConcurrentTasks) (.start taskStore config) events ↔
      EachStep (Observed.step e) (Accounted e) (.start taskStore config) events := by
  refine always_iff_guarded
    (I := fun o => Gated o.toDispatcher ∧ o.flowControl.config.maxConcurrentTasks = config.maxConcurrentTasks)
    (fun o ev hI _ => ⟨step_gated hI.1 (hI.2 ▸ hm), ?_⟩)
    (fun o ev hI hp => step_accounts_iff hI.1 hI.2 hp) ⟨(fun _ h => nomatch (h : none = some _)), rfl⟩ (fun a => ⟨rfl, ?_⟩) events
  · exact (congrArg FlowControlConfig.maxConcurrentTasks (step_config o.toDispatcher ev)).trans hI.2
  · exact Int.le_of_lt hm

/-- The task is done, and its agent still has a count of one. -/
theorem count_outlives_task : ¬ Always (Observed.step idleEngine) (Accounts 5) (.start Db.empty {})
    (firstDispatch ++ [.server completesWithText]) := by
  intro h
  have hcount := (h.last "a").1
  exact absurd hcount (by decide)

/-- Up to the end of the dispatch the count is right. -/
theorem first_dispatch_accounts :
    Always (Observed.step idleEngine) (Accounts 5) (.start Db.empty {}) firstDispatch := by
  have hsteps : ∀ (o : Observed) (ev : DispatcherEvent), o.outstanding = ∅ →
      (∀ a, o.flowControl.concurrent a = 0) → (∀ p, ev.delivers o.toDispatcher = some p →
        ∀ server, ev ≠ .server server) → Accounted idleEngine o ev := by
    intro o ev hnone hcount hd
    refine ⟨fun k a row hmem => ?_, fun _ a _ => Or.inl (hcount a), fun p hp => ?_⟩
    · rw [hnone] at hmem
      cases hmem
    · rw [hnone]
      exact iff_of_false (Finset.notMem_empty p) fun ⟨server, he⟩ => hd p hp server he
  refine (flow_accounting_iff idleEngine Db.empty {} (by decide) firstDispatch).mpr ⟨?_, ?_, ?_, trivial⟩
  · exact hsteps _ _ rfl (fun _ => rfl) fun _ h => nomatch h
  · exact hsteps _ _ rfl (fun _ => rfl) fun _ h => nomatch h
  · exact hsteps _ _ rfl (fun _ => rfl) fun _ _ _ h => nomatch h

end A2ARegistry.Server
