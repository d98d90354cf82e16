import A2ARegistry.Orchestration.Proofs.Ownership
import A2ARegistry.Server.Proofs.Moves

namespace A2ARegistry.Server
open Base Orchestration

/-- A request for another status of the task: an unblock, a cancel or a `PATCH`. -/
def DispatcherEvent.asks (k : String) : DispatcherEvent → Prop
  | .server (.storeCall (.updateTaskStatus _ taskId newStatus _)) =>
    taskId = k ∧ newStatus ≠ TaskStatus.blocked.value
  | _ => False

/-- The claim of the task is expired, and the poll releases it. -/
def DispatcherEvent.expires (k : String) (d : Dispatcher) : DispatcherEvent → Prop
  | .server (.storeCall (.releaseExpiredClaims clock tenant)) =>
    ∃ row, d.taskStore.task? k = some row ∧ row.expired clock.now tenant = true
  | _ => False

/-- Nobody asks for another status of the task, and its claim does not expire. -/
def Unasked (k : String) (d : Dispatcher) (ev : DispatcherEvent) : Prop :=
  ¬ ev.asks k ∧ ¬ ev.expires k d

/-- The task is blocked. -/
def Blocked (k : String) (d : Dispatcher) : Prop := InStatus k .blocked d.taskStore

/-- What is reported about the task is no start of it, and no failure that its row takes. -/
def RespectsBlock (e : Engine) (k : String) (d : Dispatcher) (ev : DispatcherEvent) : Prop :=
  ∀ row report, d.taskStore.task? k = some row → ev.report e d k = some report →
    report.new ≠ .running ∧
      (report.new = .failed → e.bind report.value = none ∨ Overflows row)

section
variable {e : Engine} {k : String} {row : Task}

/-- A blocked task can be started, and can be failed with what can be bound; it cannot be
completed. -/
theorem blocked_takes_iff (hs : row.status = .blocked) {report : BoardReport}
    (hn : report.new = .running ∨ report.new = .completed ∨ report.new = .failed) :
    report.Takes e row ↔ ¬ (report.new ≠ .running ∧
      (report.new = .failed → e.bind report.value = none ∨ Overflows row)) := by
  obtain ⟨clock, new, value⟩ := report
  rcases hn with rfl | rfl | rfl
  · simp only [ne_eq, not_true_eq_false, false_and, not_false_eq_true, iff_true]
    exact ⟨none, none, by simp [hs, transitions], by simp [Engine.bindFor, Task.binds], rfl, by simp [hs]⟩
  · refine iff_of_false ?_ (by simp)
    rintro ⟨bound, retryAt, hr⟩
    simpa [hs, transitions] using hr.edge
  · have hiff : (∃ bound retryAt, Reportable e row clock.now .failed value bound retryAt) ↔
        (∃ bound, e.bind value = some bound) ∧ ∃ retryAt, nextRetry clock.now row .failed = .ok retryAt := by
      constructor
      · rintro ⟨bound, retryAt, hr⟩
        exact ⟨⟨bound, by simpa [Engine.bindFor, Task.binds] using hr.bind⟩, retryAt, hr.retry⟩
      · rintro ⟨⟨bound, hb⟩, retryAt, hr⟩
        exact ⟨bound, retryAt, by simp [hs, transitions], by simpa [Engine.bindFor, Task.binds] using hb,
          hr, by simp [hs]⟩
    have hbound : (∃ bound, e.bind value = some bound) ↔ ¬ e.bind value = none :=
      Option.ne_none_iff_exists'.symm
    rw [BoardReport.Takes, hiff, nextRetry_failed_iff, hbound]
    simp [not_or]

theorem settle_blocked (db : Db) (hs : row.status = .blocked) : settle db row = row := by
  rcases settle_cases db row with ⟨ht, _⟩ | ⟨ht, _⟩ | ⟨_, _, he⟩
  · rw [hs] at ht
    cases ht
  · rw [hs] at ht
    cases ht
  · exact he

/-- What an event leaves of a blocked row. -/
theorem RowAfter.blocked_iff {db' : Db} {r : Option BoardReport} {row' : Task}
    (h : RowAfter e db' r row row') (hs : row.status = .blocked) :
    row'.status = .blocked ↔ ∀ report, r = some report → ¬ report.Takes e row := by
  cases h with
  | @reported report bound retryAt made ok =>
    have hedge := ok.edge
    refine iff_of_false ?_ fun h => h report made ⟨bound, retryAt, ok⟩
    intro hb
    simp only [Task.report] at hb
    simp [hs, hb, transitions] at hedge
  | kept refused => exact iff_of_true hs refused
  | settled none =>
    rw [settle_blocked db' hs]
    exact iff_of_true hs fun report hr => by rw [none] at hr; cases hr

/-- A store call that is no request for another status, and no release, leaves a blocked row so. -/
theorem called_blocked {d : Dispatcher} {db' : Db} {op : Op} {row' : Task}
    (h : RowStep d.taskStore db' op row row') (hrow : d.taskStore.task? k = some row)
    (hs : row.status = .blocked) (hu : Unasked k d (.server (.storeCall op))) : row'.status = .blocked := by
  have hid := Db.task_id hrow
  cases h with
  | same | edited | placed | manned => exact hs
  | beat lock => exact hs
  | claimed free run => simp [Task.claimable, hs] at free
  | @moved clock _ new args retryAt accepted =>
    have hedge := accepted.edge
    have hne : new ≠ .blocked := by
      rintro rfl
      simp [hs, transitions] at hedge
    exact absurd ⟨hid, fun hv => hne (TaskStatus.value_injective hv)⟩ hu.1
  | settled resolves =>
    rw [settle_blocked _ hs]
    exact hs
  | released expired => exact absurd ⟨row, hrow, expired⟩ hu.2
  | promoted retryable fresh run => simp [Task.retryable, hs] at retryable

/-- A step nobody asked for leaves a blocked task blocked exactly when its row refuses the report. -/
theorem step_blocked_iff {d : Dispatcher} {ev : DispatcherEvent} (hrow : d.taskStore.task? k = some row)
    (hs : row.status = .blocked) (hu : Unasked k d ev) : Blocked k (ev.step e d) ↔
      ∀ report, ev.report e d k = some report → ¬ report.Takes e row := by
  obtain ⟨row', hrow', hmove⟩ := step_move (e := e) ev hrow
  have hblocked : Blocked k (ev.step e d) ↔ row'.status = .blocked := by
    rw [Blocked, inStatus_iff, hrow']
    simp
  rw [hblocked]
  cases hmove with
  | called step => exact iff_of_true (called_blocked step hrow hs hu) fun _ h => nomatch h
  | reported call dispatch after => exact after.blocked_iff hs
  | manned status => exact iff_of_true (status.trans hs) fun _ h => nomatch h
  | claimed claims claim =>
    refine iff_of_true ?_ fun _ h => nomatch h
    cases claim with
    | refused taken => exact hs
    | placed free | unplaced free | stuck free => simp [Task.claimable, hs] at free
  | parked claims parked =>
    refine iff_of_true ?_ fun _ h => nomatch h
    rcases parked with rfl | ⟨hb, _⟩
    · exact hs
    · exact hb

theorem step_respects_iff {d : Dispatcher} {ev : DispatcherEvent} (hb : Blocked k d)
    (hu : Unasked k d ev) : Blocked k (ev.step e d) ↔ RespectsBlock e k d ev := by
  obtain ⟨row, hrow, hs⟩ := inStatus_iff.mp hb
  rw [step_blocked_iff hrow hs hu]
  constructor
  · intro h row' report hrow' hr
    rw [hrow] at hrow'
    cases hrow'
    by_contra hn
    exact h report hr ((blocked_takes_iff hs (DispatcherEvent.report_new hr)).mpr hn)
  · intro h report hr ht
    exact (blocked_takes_iff hs (DispatcherEvent.report_new hr)).mp ht (h row report hrow hr)

/-- The server after `POST /v2/tasks/{id}/block`. -/
def Dispatcher.block (codec : Codec) (d : Dispatcher) (clock commentClock : Clock) (taskId : String)
    (body : BlockBody) : Dispatcher :=
  { d with taskStore := (handleBlock codec d.taskStore clock commentClock taskId body).2 }

/-- A store call that raised is not answered with success. -/
theorem statusErrorResponse_status (codec : Codec) (err : StoreError) :
    (statusErrorResponse codec err).status ≠ 200 := by
  unfold statusErrorResponse
  cases err with
  | valueError message =>
    dsimp only
    split <;> simp [jsonError]
  | _ => simp [jsonError, serverError]

theorem handleBlock_blocks {codec : Codec} {db : Db} {clock commentClock : Clock} {taskId : String}
    {body : BlockBody} (h : (handleBlock codec db clock commentClock taskId body).1.status = 200) :
    InStatus taskId .blocked (handleBlock codec db clock commentClock taskId body).2 := by
  unfold handleBlock at *
  dsimp only at *
  cases hu : updateTaskStatus db clock taskId TaskStatus.blocked.value { claimLock := body.claimLock } with
  | error err =>
    rw [hu] at h
    exact absurd h (statusErrorResponse_status codec err)
  | ok r =>
    obtain ⟨view, db'⟩ := r
    obtain ⟨t, new, retryAt, kind, ht, hnew, ha, rfl⟩ := updateTaskStatus_ok hu
    have hblocked := TaskStatus.value_injective hnew
    subst hblocked
    have hid := Db.task_id ht
    subst hid
    refine inStatus_iff.mpr ⟨t.move clock.now .blocked none retryAt, ?_, rfl⟩
    dsimp only
    rw [Db.task?, blockComment_tasks]
    exact (writeStatus_task db clock t .blocked _ retryAt kind ht t.id).trans (if_pos rfl)

end

/-- A task that a human has blocked stays blocked through a run, until somebody asks for another
status or its claim expires, exactly when every step of the run respects the block: the reconnect
of its agent does not, nor do the messages of the agent. -/
theorem human_block_iff (e : Engine) (codec : Codec) (d : Dispatcher) (clock commentClock : Clock)
    (k : String) (body : BlockBody)
    (hblock : (handleBlock codec d.taskStore clock commentClock k body).1.status = 200)
    {events : List DispatcherEvent}
    (hu : EachStep (DispatcherEvent.step e) (Unasked k) (d.block codec clock commentClock k body) events) :
    Always (DispatcherEvent.step e) (Blocked k) (d.block codec clock commentClock k body) events ↔
      EachStep (DispatcherEvent.step e) (RespectsBlock e k) (d.block codec clock commentClock k body)
        events := by
  have hb : Blocked k (d.block codec clock commentClock k body) := handleBlock_blocks hblock
  exact always_iff_eachStep (I := fun _ => True) (fun _ _ _ _ => trivial)
    (fun _ _ _ hb hu => step_respects_iff hb hu) trivial hb hu

/-- A task of agent `a` that the dispatcher has sent over its connection. -/
def dispatchedTask : Dispatcher :=
  exec (DispatcherEvent.step idleEngine) (.start Db.empty {}) firstDispatch

/-- The agent connects again, and what is blocked for it is sent to it. -/
def reconnects : List DispatcherEvent :=
  [.server (.reconnect "a" ["t_a"]), .server (.redispatches (.fixed 0) "a" "t_a")]

/-- A reconnect takes the task that a human has blocked back to running. -/
theorem reconnect_unblocks :
    (handleBlock nullCodec dispatchedTask.taskStore (.fixed 0) (.fixed 0) "t_a" {}).1.status = 200 ∧
    EachStep (DispatcherEvent.step idleEngine) (Unasked "t_a")
      (dispatchedTask.block nullCodec (.fixed 0) (.fixed 0) "t_a" {}) reconnects ∧
    ¬ Always (DispatcherEvent.step idleEngine) (Blocked "t_a")
      (dispatchedTask.block nullCodec (.fixed 0) (.fixed 0) "t_a" {}) reconnects := by
  refine ⟨rfl, ⟨⟨id, id⟩, ⟨id, id⟩, trivial⟩, fun h => ?_⟩
  have hrunning : some TaskStatus.running = some TaskStatus.blocked := h.2.2
  cases hrunning

/-- It stays blocked while its agent is away, whatever the poll promotes or tries to send. -/
theorem human_block_while_away : Always (DispatcherEvent.step idleEngine) (Blocked "t_a")
    (dispatchedTask.block nullCodec (.fixed 0) (.fixed 0) "t_a" {})
    [.server (.disconnect "a" (fun _ => .fixed 0)),
      .server (.storeCall (.promoteRetryableTasks (.fixed 0) none)),
      .dispatches .still ⟨"t_a", some "a"⟩ .ws ⟨1, 900, .ok "/tmp"⟩] := by
  refine (human_block_iff idleEngine nullCodec dispatchedTask (.fixed 0) (.fixed 0) "t_a" {} rfl ?_).mpr ?_
  · exact ⟨⟨id, id⟩, ⟨id, id⟩, ⟨id, id⟩, trivial⟩
  · refine ⟨?_, ?_, ?_, trivial⟩ <;> exact fun _ _ _ h => nomatch h

end A2ARegistry.Server
