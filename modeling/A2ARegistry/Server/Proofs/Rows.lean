import A2ARegistry.Orchestration.Proofs.Runs
import A2ARegistry.Server.Proofs.Attempts
import A2ARegistry.Server.Proofs.Writes

namespace A2ARegistry.Server
open Base Orchestration

/-- A report on a kanban task: the clock of the store call, the status and the value it passes. -/
structure BoardReport where
  clock : Clock
  new : TaskStatus
  value : Json

/-- The row takes the report: there is an edge to the status, the value can be bound, and no
backoff overflows. -/
def BoardReport.Takes (e : Engine) (row : Task) (r : BoardReport) : Prop :=
  ∃ bound retryAt, Reportable e row r.clock.now r.new r.value bound retryAt

/-- The report an event makes on a kanban task, read off the event and the state before it. The
one of a dispatch that gets no workspace is left out: it is made on the row of its own claim. -/
def Event.report (e : Engine) (s : RegistryHandler) (k : String) : Event → Option BoardReport
  | .message _ data around =>
    (messageUpdate e data).bind fun named =>
      if named.1 = k ∧ s.isDispatched k then some ⟨around.clocks k, named.2.1, named.2.2⟩ else none
  | .danglingExpires agentId clocks =>
    if s.danglingTimers agentId ∧ s.isDispatched k ∧ (s.record? k).any (fun t => t.dangles agentId) then
      some ⟨clocks k, .failed, .str "Dangling grace period expired"⟩
    else none
  | .timeoutExpires taskId clock connected =>
    if taskId = k ∧ s.taskTimers k = some .sleeping ∧ connected = false ∧ s.isDispatched k ∧
        (s.record? k).any (fun t => !t.state.isWord finalizedWords) then
      some ⟨clock, .failed, .str s!"Task timed out after {taskTimeout}s"⟩
    else none
  | .timeoutSent taskId clock =>
    if taskId = k ∧ s.taskTimers k = some .cancelling ∧ s.isDispatched k then
      some ⟨clock, .failed, .str s!"Task timed out after {taskTimeout}s"⟩
    else none
  | .callbackEnds taskId clock (some body) =>
    if taskId = k ∧ k ∈ s.callbacks ∧ s.isDispatched k then
      ((callbackOutcome body).update e).map fun update => ⟨clock, update.1, update.2⟩
    else none
  | .sendEnds clock sent (some error) =>
    if sent.taskId = k ∧ sent ∈ s.sending ∧ sent.channel ≠ .reconnect then
      some ⟨clock, .failed, .str error.kanbanText⟩
    else none
  | .redispatches clock agentId taskId =>
    if taskId = k ∧ s.pending.contains (agentId, k) then some ⟨clock, .running, .null⟩ else none
  | _ => none

/-- What a report makes of the row of its task; without one, or when the row does not take it,
the row is at most settled. -/
inductive RowAfter (e : Engine) (db' : Db) (r : Option BoardReport) (row : Task) : Task → Prop
  | reported {report : BoardReport} {bound : Option String} {retryAt : Option Int}
      (made : r = some report)
      (ok : Reportable e row report.clock.now report.new report.value bound retryAt) :
      RowAfter e db' r row (row.report report.clock.now report.new report.value bound retryAt)
  | kept (refused : ∀ report, r = some report → ¬ report.Takes e row) : RowAfter e db' r row row
  | settled (none : r = none) : RowAfter e db' r row (settle db' row)

section
variable {e : Engine} {s : RegistryHandler} {k : String} {row : Task}

theorem RowAfter.unreported (e : Engine) (db' : Db) (row : Task) : RowAfter e db' none row row :=
  .kept fun _ h => by cases h

theorem row_unreported {db : Db} (hrow : db.task? k = some row) {r : Option BoardReport} (hr : r = none) :
    ∃ row', db.task? k = some row' ∧ RowAfter e db r row row' :=
  ⟨row, hrow, hr ▸ RowAfter.unreported e db row⟩

/-- A report on the task itself. -/
theorem boardAfter_row {db : Db} (hrow : db.task? k = some row) (report : BoardReport) :
    ∃ row', (boardAfter e db report.clock k true (some (report.new, report.value))).task? k = some row' ∧
      RowAfter e (boardAfter e db report.clock k true (some (report.new, report.value))) (some report)
        row row' := by
  rcases boardAfter_own e report.clock hrow report.new report.value with
    ⟨bound, retryAt, hr, ht⟩ | ⟨hn, hsame⟩
  · exact ⟨_, ht, .reported rfl hr⟩
  · refine ⟨row, by rw [hsame, hrow], .kept fun r h => ?_⟩
    cases h
    exact hn

/-- A report on another task settles the row, if it is a completion. -/
theorem boardAfter_other {db : Db} (hrow : db.task? k = some row) (clock : Clock) {id : String}
    (hne : id ≠ k) (dispatched : Bool) (update : Option (TaskStatus × Json)) :
    ∃ row', (boardAfter e db clock id dispatched update).task? k = some row' ∧
      RowAfter e (boardAfter e db clock id dispatched update) none row row' := by
  cases update with
  | none => exact row_unreported hrow rfl
  | some update =>
    simp only [boardAfter]
    split
    · cases h : reportStatus e db clock id update.1 update.2 with
      | none => exact row_unreported hrow rfl
      | some db' =>
        obtain ⟨row', hrow', hstep⟩ := report_row h hrow
        cases hstep with
        | same => exact row_unreported hrow' rfl
        | settled => exact ⟨_, hrow', .settled rfl⟩
        | reported own => exact absurd (own.symm.trans (Db.task_id hrow)) hne
    · exact row_unreported hrow rfl

/-- A failure of another task is nothing to the row. -/
theorem failed_other {db : Db} (hrow : db.task? k = some row) (clock : Clock) {id : String}
    (hne : id ≠ k) (dispatched : Bool) (value : Json) :
    (boardAfter e db clock id dispatched (some (.failed, value))).task? k = some row := by
  simp only [boardAfter]
  split
  · cases h : reportStatus e db clock id .failed value with
    | none => exact hrow
    | some db' =>
      obtain ⟨t, bound, retryAt, kind, ht, _, _, rfl⟩ := reportStatus_some h
      have hid := Db.task_id ht
      subst hid
      rw [Option.getD_some, writeReport_task clock .failed value ht, if_neg (Ne.symm hne), hrow]
      simp
  · exact hrow

theorem updateStore_store (clock : Clock) (id : String) (new : TaskStatus) (value : Json) :
    (s.updateStore e clock id new value).taskStore =
      boardAfter e s.taskStore clock id true (some (new, value)) := by
  simp only [RegistryHandler.updateStore, boardAfter, if_true]
  cases reportStatus e s.taskStore clock id new value <;> rfl

theorem updateDispatched_isDispatched (clock : Clock) (id : String) (new : TaskStatus) (value : Json) :
    (s.updateDispatched e clock id new value).isDispatched k = s.isDispatched k := by
  rw [Memory.isDispatched, s.memory_updateDispatched]
  rfl

/-- Failing tasks that the row is none of, or one that was not dispatched. -/
theorem updateAll_failed_other (clocks : String → Clock) (value : Json) {records : List Record}
    (hn : s.isDispatched k = true → ∀ t ∈ records, t.id ≠ k) (hrow : s.taskStore.task? k = some row) :
    (s.updateAll e clocks .failed value records).taskStore.task? k = some row := by
  unfold RegistryHandler.updateAll
  induction records generalizing s with
  | nil => exact hrow
  | cons t ts ih =>
    rw [List.foldl_cons]
    refine ih (fun hd u hu => ?_) ?_
    · rw [updateDispatched_isDispatched] at hd
      exact hn hd u (List.mem_cons_of_mem _ hu)
    · rw [updateDispatched_store]
      by_cases ht : t.id = k
      · subst ht
        have hd : s.isDispatched t.id = false :=
          Bool.eq_false_iff.mpr fun hd => hn hd t (List.mem_cons_self ..) rfl
        simp only [hd, boardAfter, Bool.false_eq_true, if_false]
        exact hrow
      · exact failed_other hrow _ ht _ _

/-- Failing tasks of which the row is one, and no two are the same. -/
theorem updateAll_failed_own (clocks : String → Clock) (value : Json) {records : List Record}
    (hnd : (records.map Record.id).Nodup) (hk : k ∈ records.map Record.id)
    (hd : s.isDispatched k = true) (hrow : s.taskStore.task? k = some row) :
    ∃ row', (s.updateAll e clocks .failed value records).taskStore.task? k = some row' ∧
      RowAfter e (s.updateAll e clocks .failed value records).taskStore
        (some ⟨clocks k, .failed, value⟩) row row' := by
  unfold RegistryHandler.updateAll
  induction records generalizing s with
  | nil => cases hk
  | cons t ts ih =>
    simp only [List.map_cons, List.nodup_cons] at hnd
    rw [List.foldl_cons]
    by_cases ht : t.id = k
    · subst ht
      have hothers : ∀ u ∈ ts, u.id ≠ t.id := fun u hu he => hnd.1 (List.mem_map.mpr ⟨u, hu, he⟩)
      obtain ⟨row', hrow', hafter⟩ := boardAfter_row (e := e) hrow ⟨clocks t.id, .failed, value⟩
      have hone : (s.updateDispatched e (clocks t.id) t.id .failed value).taskStore.task? t.id =
          some row' := by
        rw [updateDispatched_store, hd]
        exact hrow'
      refine ⟨row', updateAll_failed_other clocks value (fun _ => hothers) hone, ?_⟩
      cases hafter with
      | reported made ok => exact .reported made ok
      | kept refused => exact .kept refused
      | settled none => cases none
    · have hks : k ∈ ts.map Record.id := by
        rcases List.mem_cons.mp hk with he | hks
        · exact absurd he.symm ht
        · exact hks
      refine ih hnd.2 hks ?_ ?_
      · rw [updateDispatched_isDispatched]
        exact hd
      · rw [updateDispatched_store]
        exact failed_other hrow _ ht _ _

/-- A dangling timeout fails the tasks of the agent that dangle. -/
theorem dangleTimeout_row (agentId : String) (clocks : String → Clock)
    (hrow : s.taskStore.task? k = some row) :
    ∃ row', (dangleTimeout e s agentId clocks).taskStore.task? k = some row' ∧
      RowAfter e (dangleTimeout e s agentId clocks).taskStore
        (if s.isDispatched k ∧ (s.record? k).any (fun t => t.dangles agentId) then
          some ⟨clocks k, .failed, .str "Dangling grace period expired"⟩ else none) row row' := by
  have hmem : k ∈ (s.tasks.select (fun t => t.dangles agentId)).map Record.id ↔
      (s.record? k).any (fun t => t.dangles agentId) = true := by
    rw [← select_any, List.any_eq_true, List.mem_map]
    simp only [beq_iff_eq]
  have hnd := Table.select_nodup s.tasks (fun t => t.dangles agentId)
  unfold dangleTimeout
  dsimp only [RegistryHandler.cancelDanglingTimer]
  generalize s.tasks.select (fun t => t.dangles agentId) = records at hmem hnd
  have hmarked : (s.setRecords (fun t => t.dangles agentId) graceExpiredChange).isDispatched k =
      s.isDispatched k := rfl
  replace hrow : (s.setRecords (fun t => t.dangles agentId) graceExpiredChange).taskStore.task? k =
      some row := hrow
  split
  · rename_i hcond
    exact updateAll_failed_own clocks _ hnd (hmem.mpr hcond.2) (hmarked.trans hcond.1) hrow
  · rename_i hcond
    refine row_unreported (updateAll_failed_other clocks _ (fun hd t ht he => hcond ⟨?_, ?_⟩) hrow) rfl
    · exact hmarked.symm.trans hd
    · exact hmem.mp (List.mem_map.mpr ⟨t, ht, he⟩)

theorem finishTimeout_row (taskId : String) (clock : Clock) (hrow : s.taskStore.task? k = some row) :
    ∃ row', (finishTimeout e s taskId clock).taskStore.task? k = some row' ∧
      RowAfter e (finishTimeout e s taskId clock).taskStore
        (if taskId = k ∧ s.isDispatched k then
          some ⟨clock, .failed, .str s!"Task timed out after {taskTimeout}s"⟩ else none) row row' := by
  have hstore : (finishTimeout e s taskId clock).taskStore = boardAfter e s.taskStore clock taskId
      (s.isDispatched taskId) (some (.failed, .str s!"Task timed out after {taskTimeout}s")) :=
    updateDispatched_store e s clock taskId _ _
  rw [hstore]
  by_cases hid : taskId = k
  · subst hid
    cases hd : s.isDispatched taskId with
    | true => simpa using boardAfter_row (e := e) hrow ⟨clock, .failed, _⟩
    | false => simpa [boardAfter] using row_unreported (e := e) hrow rfl
  · simpa [hid] using boardAfter_other (e := e) hrow clock hid _ _

theorem timeoutWorker_row (taskId : String) (clock : Clock) (connected : Bool)
    (hrow : s.taskStore.task? k = some row) :
    ∃ row', (timeoutWorker e s taskId clock connected).taskStore.task? k = some row' ∧
      RowAfter e (timeoutWorker e s taskId clock connected).taskStore
        (if taskId = k ∧ connected = false ∧ s.isDispatched k ∧
            (s.record? k).any (fun t => !t.state.isWord finalizedWords) then
          some ⟨clock, .failed, .str s!"Task timed out after {taskTimeout}s"⟩ else none) row row' := by
  unfold timeoutWorker
  cases ht : s.record? taskId with
  | none => exact row_unreported hrow (if_neg fun h => by simp [← h.1, ht] at h)
  | some t =>
    dsimp only
    split
    · rename_i hf
      exact row_unreported hrow (if_neg fun h => by simp [← h.1, ht, hf] at h)
    · rename_i hf
      cases connected with
      | true => exact row_unreported hrow (if_neg fun h => by simp at h)
      | false =>
        have h := finishTimeout_row (e := e) (s := s.setRecord taskId timeoutChange) taskId clock hrow
        have hd : (s.setRecord taskId timeoutChange).isDispatched k = s.isDispatched k := rfl
        by_cases hid : taskId = k
        · subst hid
          simpa [hd, ht, hf] using h
        · simpa [hid] using h

theorem message_row (agentId : String) (data : List (String × Json)) (around : Surroundings)
    (hrow : s.taskStore.task? k = some row) :
    ∃ row', ((Event.message agentId data around).step e s).taskStore.task? k = some row' ∧
      RowAfter e ((Event.message agentId data around).step e s).taskStore
        ((Event.message agentId data around).report e s k) row row' := by
  rw [message_store]
  simp only [Event.report]
  cases messageUpdate e data with
  | none => exact row_unreported hrow rfl
  | some named =>
    obtain ⟨id, update⟩ := named
    dsimp only [Option.bind_some]
    by_cases hid : id = k
    · subst hid
      cases hd : s.isDispatched id with
      | true => simpa using boardAfter_row (e := e) hrow ⟨around.clocks id, update.1, update.2⟩
      | false => simpa [boardAfter] using row_unreported (e := e) hrow rfl
    · simpa [hid] using boardAfter_other (e := e) hrow (around.clocks id) hid _ _

theorem endCallback_row (taskId : String) (clock : Clock) (body : Option (List (String × Json)))
    (hrow : s.taskStore.task? k = some row) :
    ∃ row', (endCallback e s clock taskId body).taskStore.task? k = some row' ∧
      RowAfter e (endCallback e s clock taskId body).taskStore
        ((Event.callbackEnds taskId clock body).report e s k) row row' := by
  unfold endCallback
  cases body with
  | none =>
    split
    · exact row_unreported hrow rfl
    · exact row_unreported hrow rfl
  | some body =>
    simp only [Event.report]
    split
    · rename_i hmem
      rw [finishCallback_store]
      have hd : ∀ id, Memory.isDispatched { s.toMemory with callbacks := s.callbacks.erase taskId } id =
        s.isDispatched id := fun _ => rfl
      by_cases hid : taskId = k
      · subst hid
        cases hu : (callbackOutcome body).update e with
        | none => exact row_unreported hrow (by simp)
        | some update =>
          cases hdis : s.isDispatched taskId with
          | true =>
            simpa [hmem, hd, hdis] using boardAfter_row (e := e) hrow ⟨clock, update.1, update.2⟩
          | false => simpa [hmem, hd, hdis, boardAfter] using row_unreported (e := e) hrow rfl
      · simpa [hid] using boardAfter_other (e := e) hrow clock hid _ _
    · rename_i hmem
      refine row_unreported hrow (if_neg ?_)
      rintro ⟨rfl, h, _⟩
      exact hmem h

theorem endSend_row (clock : Clock) (sent : Sending) (error : Option DispatchError)
    (hrow : s.taskStore.task? k = some row) :
    ∃ row', (endSend e s clock sent error).taskStore.task? k = some row' ∧
      RowAfter e (endSend e s clock sent error).taskStore
        ((Event.sendEnds clock sent error).report e s k) row row' := by
  unfold endSend
  cases error with
  | none =>
    split
    · exact row_unreported hrow rfl
    · exact row_unreported hrow rfl
  | some error =>
    simp only [Event.report]
    split
    · rename_i hmem
      have hfail : ∃ row', (boardAfter e s.taskStore clock sent.taskId true
            (some (.failed, .str error.kanbanText))).task? k = some row' ∧
          RowAfter e (boardAfter e s.taskStore clock sent.taskId true
            (some (.failed, .str error.kanbanText)))
            (if sent.taskId = k then some ⟨clock, .failed, .str error.kanbanText⟩ else none) row row' := by
        by_cases hid : sent.taskId = k
        · subst hid
          simpa using boardAfter_row (e := e) hrow ⟨clock, .failed, .str error.kanbanText⟩
        · simpa [hid] using boardAfter_other (e := e) hrow clock hid _ _
      cases hch : sent.channel with
      | reconnect => exact row_unreported hrow (if_neg fun h => h.2.2 rfl)
      | ws | callback => simpa [hmem, hch, updateStore_store] using hfail
    · rename_i hmem
      exact row_unreported hrow (if_neg fun h => hmem h.2.1)

theorem redispatch_row (clock : Clock) (agentId taskId : String) (hrow : s.taskStore.task? k = some row) :
    ∃ row', (redispatch e s clock agentId taskId).taskStore.task? k = some row' ∧
      RowAfter e (redispatch e s clock agentId taskId).taskStore
        ((Event.redispatches clock agentId taskId).report e s k) row row' := by
  have hstore : (redispatch e s clock agentId taskId).taskStore =
      boardAfter e s.taskStore clock taskId (s.pending.contains (agentId, taskId))
        (some (.running, .null)) := by
    unfold redispatch boardAfter
    cases s.pending.contains (agentId, taskId) with
    | false => rfl
    | true => cases h : reportStatus e s.taskStore clock taskId .running .null <;> simp [h]
  rw [hstore]
  simp only [Event.report]
  by_cases hid : taskId = k
  · subst hid
    cases hp : s.pending.contains (agentId, taskId) with
    | true => simpa using boardAfter_row (e := e) hrow ⟨clock, .running, .null⟩
    | false => simpa [boardAfter] using row_unreported (e := e) hrow rfl
  · simpa [hid] using boardAfter_other (e := e) hrow clock hid _ _

/-- What an event of the server makes of a kanban row: the calls of the store and the claims of
the dispatcher apart, it makes its report. -/
theorem step_row_after (ev : Event) (hcall : ∀ op, ev ≠ .storeCall op)
    (hsend : ∀ clock id assignee channel pid ttl workspace,
      ev ≠ .sendBegins clock id assignee channel pid ttl workspace)
    (hrow : s.taskStore.task? k = some row) :
    ∃ row', (ev.step e s).taskStore.task? k = some row' ∧
      RowAfter e (ev.step e s).taskStore (ev.report e s k) row row' := by
  cases ev with
  | storeCall op => exact absurd rfl (hcall op)
  | message agentId data around => exact message_row agentId data around hrow
  | disconnect agentId clocks =>
    simp only [Event.step, dangle_store]
    exact row_unreported hrow rfl
  | danglingExpires agentId clocks =>
    simp only [Event.step, Event.report]
    split
    · rename_i hl
      simpa [hl] using dangleTimeout_row (e := e) agentId clocks hrow
    · rename_i hl
      exact row_unreported hrow (if_neg fun h => hl h.1)
  | timeoutExpires taskId clock connected =>
    simp only [Event.step, Event.report]
    split
    · rename_i hl
      by_cases hid : taskId = k
      · subst hid
        simpa [hl] using timeoutWorker_row (e := e) taskId clock connected hrow
      · simpa [hid] using timeoutWorker_row (e := e) taskId clock connected hrow
    · rename_i hl
      refine row_unreported hrow (if_neg ?_)
      rintro ⟨rfl, h, _⟩
      exact hl h
  | timeoutSent taskId clock =>
    simp only [Event.step, Event.report]
    split
    · rename_i hl
      by_cases hid : taskId = k
      · subst hid
        simpa [hl] using finishTimeout_row (e := e) taskId clock hrow
      · simpa [hid] using finishTimeout_row (e := e) taskId clock hrow
    · rename_i hl
      refine row_unreported hrow (if_neg ?_)
      rintro ⟨rfl, h, _⟩
      exact hl h
  | dispatchBegins agentId taskId now =>
    simp only [Event.step, beginDispatch]
    split <;> exact row_unreported hrow rfl
  | dispatchEnds taskId how =>
    simp only [Event.step]
    split
    · rw [endDispatch_store]
      exact row_unreported hrow rfl
    · exact row_unreported hrow rfl
  | callbackBegins taskId card authHeader =>
    simp only [Event.step, beginCallback]
    split
    · split <;> exact row_unreported hrow rfl
    · exact row_unreported hrow rfl
  | callbackEnds taskId clock body => exact endCallback_row taskId clock body hrow
  | sendBegins clock id assignee channel pid ttl workspace =>
    exact absurd rfl (hsend clock id assignee channel pid ttl workspace)
  | sendEnds clock sent error => exact endSend_row clock sent error hrow
  | reconnect agentId listed => exact row_unreported hrow rfl
  | redispatches clock agentId taskId => exact redispatch_row clock agentId taskId hrow

/-- A claim is nothing to a row that it is not on, or that is not free. -/
theorem claim_row {db db' : Db} {clock : Clock} {id workerId : String} {pid ttl : Int}
    {res : Option ClaimResult} (hrow : db.task? k = some row)
    (hother : id = k → row.claimable clock.now = false)
    (hclaim : claimTask db clock id workerId pid ttl = (res, db')) :
    db'.task? k = some row ∧ (res.isSome → id ≠ k) := by
  cases res with
  | none =>
    rw [claim_refused_unchanged hclaim]
    exact ⟨hrow, fun h => by cases h⟩
  | some res =>
    obtain ⟨t, ht, hc, _⟩ := claimTask_some (congrArg Prod.fst hclaim)
    have hne : id ≠ k := by
      rintro rfl
      rw [hrow] at ht
      cases ht
      rw [hother rfl] at hc
      cases hc
    rw [claimTask_claims ht hc] at hclaim
    cases hclaim
    rw [writeClaim_task workerId pid ttl ht hc, if_neg (Ne.symm hne)]
    exact ⟨hrow, fun _ => hne⟩

/-- Placing another task is nothing to the row. -/
theorem placed_row {db : Db} {id : String} (path : String) (hrow : db.task? k = some row) (hne : id ≠ k) :
    (updateWorkspacePath db id path).task? k = some row := by
  rw [updateWorkspacePath, Db.task_setTask, hrow]
  simp [Ne.symm hne]

end

end A2ARegistry.Server
