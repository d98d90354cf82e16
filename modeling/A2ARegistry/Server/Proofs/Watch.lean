import A2ARegistry.Server.Proofs.Terminal

namespace A2ARegistry.Server
open Base Orchestration

/-- Some live timer will end the task: its own, or that of its agent if it dangles. -/
def Record.watched (s : RegistryHandler) (t : Record) : Prop :=
  s.taskTimers t.id = some .sleeping ∨ (t.state = .str "dangling" ∧ s.danglingTimers t.agentId = true)

/-- An entry whose dispatch by the server is over. -/
def Record.dispatched (s : RegistryHandler) (t : Record) : Prop :=
  t.dispatchedAt.isSome ∧ s.dispatching t.id = false

/-- No immortal task: the dispatched tasks that are not finished are watched. -/
def Watched (s : RegistryHandler) : Prop :=
  ∀ k t, s.record? k = some t → t.dispatched s → t.terminal = false → t.watched s

/-- A legacy result with a status that is no final one finds the task dangling and says so. -/
def Event.keepsWatch (s : RegistryHandler) : Event → Prop
  | .message agentId data around =>
    match messageType data with
    | some .taskResult => ∀ id t, messageId data = some id → s.record? id = some t → t.dispatched s →
        (Json.get data "status" (.str "completed")).isWord terminalWords = false →
        Json.get data "status" (.str "completed") = .str "dangling" ∧ s.danglingTimers t.agentId = true
    | some .stateSync => ∀ items, syncedItems s agentId data around.now around.card = some items →
        ∀ k t, s.record? k = some t → t.dispatched s → ∀ status, lastListed k items = some status →
        status.isWord terminalWords = false →
        s.taskTimers k = some .sleeping ∨ (status = .str "dangling" ∧ s.danglingTimers t.agentId = true)
    | _ => True
  | .dispatchEnds taskId .cancelled => s.dispatching taskId → ∀ t, s.record? taskId = some t →
      t.dispatchedAt.isSome → t.terminal = false → t.watched s
  | _ => True

section
variable {e : Engine} {s s' : RegistryHandler}

/-- What `Watched` asks of a state is asked of the entries of the state before. -/
theorem watched_iff {c : Record → Option Change} (h : Writes c s s') : Watched s' ↔
    ∀ k t, s.record? k = some t → (t.after (c t)).dispatched s' → (t.after (c t)).terminal = false →
      (t.after (c t)).watched s' := by
  constructor
  · intro hw k t ht
    exact hw k _ (h.entry k t ht)
  · intro hall k t' ht' hd
    cases ht : s.record? k with
    | none =>
      have hid := Memory.record_id ht'
      obtain ⟨hat, hflight⟩ := hd
      rcases h.created k t' ht ht' with hc | hc
      · rw [hc] at hat
        cases hat
      · rw [← hid, hflight] at hc
        cases hc
    | some t =>
      have he := h.entry k t ht
      rw [ht'] at he
      cases he
      exact hall k t ht hd

/-- A step that leaves the timers alone, and writes no entry. -/
theorem Watched.same (hw : Watched s) (ht : s'.tasks = s.tasks) (hd : s'.dispatching = s.dispatching)
    (hl : s'.taskTimers = s.taskTimers) (hg : s'.danglingTimers = s.danglingTimers) : Watched s' := by
  refine (watched_iff (Writes.none ht)).mpr fun k t hk hdisp hterm => ?_
  have := hw k t hk (by simpa [Record.dispatched, hd] using hdisp) hterm
  simpa [Record.watched, hl, hg] using this

/-- What a step keeps of the timers of an entry keeps it watched. -/
theorem Record.watched.keep {t : Record} (h : t.watched s)
    (hl : s.taskTimers t.id = some .sleeping → s'.taskTimers t.id = some .sleeping)
    (hg : t.state = .str "dangling" → s.danglingTimers t.agentId = true →
      s'.danglingTimers t.agentId = true) : t.watched s' := by
  rcases h with h | ⟨hs, h⟩
  · exact Or.inl (hl h)
  · exact Or.inr ⟨hs, hg hs h⟩

/-- An entry that a step neither writes nor takes a timer from is watched as before. -/
theorem Watched.elsewhere (hw : Watched s) {k : String} {t : Record} (ht : s.record? k = some t)
    (hd : s'.dispatching t.id = s.dispatching t.id) (hl : s'.taskTimers t.id = s.taskTimers t.id)
    (hg : s'.danglingTimers = s.danglingTimers) (hdisp : t.dispatched s') (hn : t.terminal = false) :
    t.watched s' := by
  have h := hw k t ht ⟨hdisp.1, hd ▸ hdisp.2⟩ hn
  exact h.keep (fun h => hl ▸ h) (fun _ h => by rw [hg]; exact h)

theorem reportTask_watched (hw : Watched s) (agentId : String) (clock : Clock) (id : String) (change : Change)
    (outcome : Option Outcome) (resets : Bool) :
    Watched (reportTask e s agentId clock id change outcome resets) ↔
      (resets = true ∨ ∀ t, s.record? id = some t → t.dispatched s →
        change.state.isWord terminalWords = false →
        change.state = .str "dangling" ∧ s.danglingTimers t.agentId = true) := by
  have hm := memory_reportTask e s clock id agentId change outcome resets
  have hl : (reportTask e s agentId clock id change outcome resets).taskTimers =
      Function.update s.taskTimers id (if resets then some .sleeping else none) :=
    (congrArg Memory.taskTimers hm :)
  have hg : (reportTask e s agentId clock id change outcome resets).danglingTimers =
      s.danglingTimers := (congrArg Memory.danglingTimers hm :)
  have hd : (reportTask e s agentId clock id change outcome resets).dispatching = s.dispatching :=
    (congrArg Memory.dispatching hm :)
  rw [watched_iff (reportTask_writes e s agentId clock id change outcome resets)]
  constructor
  · intro h
    cases resets with
    | true => exact Or.inl rfl
    | false =>
      refine Or.inr fun t ht hdisp hn => ?_
      have hid := Memory.record_id ht
      have := h id t ht (by simpa [Record.dispatched, hd, hid] using hdisp)
        (by simpa [Record.terminal, hid] using hn)
      simpa [Record.watched, hl, hg, hid] using this
  · intro h k t ht hdisp hn
    by_cases hid : t.id = id
    · subst hid
      have hk := Memory.record_id ht
      subst hk
      simp only [if_true, Record.after_some] at hdisp hn ⊢
      rcases h with hr | h
      · exact Or.inl (by rw [hl, hr]; simp)
      · refine Or.inr ?_
        rw [hg]
        exact h t ht (by simpa [Record.dispatched, hd] using hdisp) hn
    · simp only [hid, if_false, Record.after_none] at hdisp hn ⊢
      exact hw.elsewhere ht (by rw [hd]) (by simp [hl, hid]) hg hdisp hn

theorem stateSync_watched (hw : Watched s) (agentId : String) (data : List (String × Json))
    (clocks : String → Clock) (now : Int) (card : Option Bool) :
    Watched (handleStateSync e s agentId data clocks now card) ↔
      ∀ items, syncedItems s agentId data now card = some items →
        ∀ k t, s.record? k = some t → t.dispatched s → ∀ status, lastListed k items = some status →
        status.isWord terminalWords = false →
        s.taskTimers k = some .sleeping ∨
          (status = .str "dangling" ∧ s.danglingTimers t.agentId = true) := by
  obtain ⟨hf, hwrites⟩ := stateSync_writes e s agentId clocks data now card
  have hl : (handleStateSync e s agentId data clocks now card).taskTimers = s.taskTimers := by rw [hf]
  have hg : (handleStateSync e s agentId data clocks now card).danglingTimers = s.danglingTimers := by
    rw [hf]
  have hd : (handleStateSync e s agentId data clocks now card).dispatching = s.dispatching := by rw [hf]
  rw [watched_iff hwrites]
  constructor
  · intro h items hi k t ht hdisp status hs hn
    have hk := Memory.record_id ht
    subst hk
    have hc : syncChange s agentId data now card t = some { state := status } := by
      simp [syncChange, mergeChange, hi, hs]
    have := h t.id t ht (by simpa [Record.dispatched, hd] using hdisp) (by rw [hc]; exact hn)
    simpa [Record.watched, hl, hg, hc] using this
  · intro h k t ht hdisp hn
    have hk := Memory.record_id ht
    subst hk
    replace hdisp : t.dispatched s := by simpa [Record.dispatched, hd] using hdisp
    cases hc : syncChange s agentId data now card t with
    | none =>
      rw [hc] at hn
      exact hw.elsewhere ht (by rw [hd]) (by rw [hl]) hg ⟨hdisp.1, hd ▸ hdisp.2⟩ hn
    | some c =>
      simp only [syncChange, mergeChange, Option.bind_eq_some_iff, Option.map_eq_some_iff] at hc
      obtain ⟨items, hi, status, hs, rfl⟩ := hc
      have hc : syncChange s agentId data now card t = some { state := status } := by
        simp [syncChange, mergeChange, hi, hs]
      rw [hc] at hn
      have := h items hi t.id t ht hdisp status hs hn
      simpa [Record.watched, hl, hg] using this

theorem message_watched (hw : Watched s) (agentId : String) (data : List (String × Json))
    (around : Surroundings) : Watched ((Event.message agentId data around).step e s) ↔
      (Event.message agentId data around).keepsWatch s := by
  simp only [Event.step, Event.keepsWatch]
  cases hty : messageType data with
  | none => simpa using hw
  | some type =>
    by_cases hs : type = .stateSync
    · subst hs
      exact stateSync_watched hw agentId data around.clocks around.now around.card
    · obtain ⟨change, hc⟩ := messageChange_isSome data hs
      simp only [handleMessage_task e s agentId around hc]
      cases hid : messageId data with
      | none =>
        cases type with
        | stateSync => exact absurd rfl hs
        | taskResult => simpa using hw
        | taskAck | taskProgress | taskComplete | taskFail => simpa using hw
      | some id =>
        simp only
        rw [reportTask_watched hw]
        cases type with
        | stateSync => exact absurd rfl hs
        | taskResult =>
          cases hc
          simp only [MessageType.resets, Bool.false_eq_true, false_or, resultChange, Option.some.injEq]
          constructor
          · rintro h _ t rfl ht
            exact h t ht
          · intro h t ht
            exact h id t rfl ht
        | taskAck | taskProgress => simp [MessageType.resets]
        | taskComplete =>
          cases hc
          simp [MessageType.resets, completeChange, Json.isWord, terminalWords]
        | taskFail =>
          cases hc
          simp [MessageType.resets, failChange, Json.isWord, terminalWords]

/-- A disconnect puts the tasks of the agent under the timer of the agent. -/
theorem dangle_watched (hw : Watched s) (agentId : String) (clocks : String → Clock) :
    Watched (dangleAgentTasks e s agentId clocks) := by
  rcases dangle_cases s agentId with h | ⟨k, t, ht, ha⟩
  · rw [dangle_idle e s clocks h]
    exact hw
  · have hm := memory_dangle e s clocks ht ha
    have hl : (dangleAgentTasks e s agentId clocks).taskTimers =
        fun k => if (s.record? k).any (fun t => t.active agentId) then none else s.taskTimers k :=
      (congrArg Memory.taskTimers hm :)
    have hg : (dangleAgentTasks e s agentId clocks).danglingTimers =
        Function.update s.danglingTimers agentId true := (congrArg Memory.danglingTimers hm :)
    have hd : (dangleAgentTasks e s agentId clocks).dispatching = s.dispatching :=
      (congrArg Memory.dispatching hm :)
    refine (watched_iff (dangle_writes e s agentId clocks)).mpr fun k t ht hdisp hn => ?_
    cases hact : t.active agentId with
    | true =>
      have hagent : t.agentId = agentId := by
        simp only [Record.active, Bool.and_eq_true, beq_iff_eq] at hact
        exact hact.1
      exact Or.inr ⟨rfl, by simp [hg, hagent]⟩
    | false =>
      simp only [hact, Bool.false_eq_true, if_false, Record.after_none] at hdisp hn ⊢
      refine (hw k t ht (by simpa [Record.dispatched, hd] using hdisp) hn).keep (fun h => ?_)
        (fun _ h => ?_)
      · have hid := Memory.record_id ht
        simpa [hl, hid, ht, hact] using h
      · rw [hg, Function.update_apply]
        split
        · rfl
        · exact h

theorem dangleTimeout_watched (hw : Watched s) (agentId : String) (clocks : String → Clock) :
    Watched (dangleTimeout e s agentId clocks) := by
  have hm := memory_dangleTimeout e s agentId clocks
  have hl : (dangleTimeout e s agentId clocks).taskTimers = s.taskTimers :=
    (congrArg Memory.taskTimers hm :)
  have hg : (dangleTimeout e s agentId clocks).danglingTimers =
      Function.update s.danglingTimers agentId false := (congrArg Memory.danglingTimers hm :)
  have hd : (dangleTimeout e s agentId clocks).dispatching = s.dispatching :=
    (congrArg Memory.dispatching hm :)
  refine (watched_iff (dangleTimeout_writes e s agentId clocks)).mpr fun k t ht hdisp hn => ?_
  cases hact : t.dangles agentId with
  | true =>
    rw [hact] at hn
    cases hn
  | false =>
    simp only [hact, Bool.false_eq_true, if_false, Record.after_none] at hdisp hn ⊢
    refine (hw k t ht (by simpa [Record.dispatched, hd] using hdisp) hn).keep (fun h => ?_)
      (fun hs h => ?_)
    · rw [hl]
      exact h
    · have hagent : t.agentId ≠ agentId := by
        rintro rfl
        simp [Record.dangles, hs, Json.isWord] at hact
      simpa [hg, hagent] using h

theorem finalized_terminal {j : Json} (h : j.isWord finalizedWords = true) :
    j.isWord terminalWords = true := by
  obtain ⟨w, hw, rfl⟩ := Json.isWord_iff.mp h
  apply Json.isWord_iff.mpr
  simp only [finalizedWords, List.mem_cons, List.not_mem_nil, or_false] at hw
  rcases hw with rfl | rfl | rfl <;> exact ⟨_, by simp [terminalWords], rfl⟩

theorem finishTimeout_watched (hw : Watched s) {taskId : String} (clock : Clock)
    (hl : s.taskTimers taskId ≠ some .sleeping) : Watched (finishTimeout e s taskId clock) := by
  have hm := memory_finishTimeout e s taskId clock
  have ht : (finishTimeout e s taskId clock).tasks = s.tasks := (congrArg Memory.tasks hm :)
  have hd : (finishTimeout e s taskId clock).dispatching = s.dispatching :=
    (congrArg Memory.dispatching hm :)
  have htimers : (finishTimeout e s taskId clock).taskTimers =
      Function.update s.taskTimers taskId none := (congrArg Memory.taskTimers hm :)
  have hg : (finishTimeout e s taskId clock).danglingTimers = s.danglingTimers :=
    (congrArg Memory.danglingTimers hm :)
  refine (watched_iff (Writes.none ht)).mpr fun k t hk hdisp hn => ?_
  refine (hw k t hk (by simpa [Record.dispatched, hd] using hdisp) hn).keep (fun h => ?_)
    (fun _ h => by rw [hg]; exact h)
  have hne : t.id ≠ taskId := by
    rintro rfl
    exact hl h
  simpa [htimers, hne] using h

/-- The worker of a task touches no other timer. -/
theorem timeoutWorker_timers (taskId : String) (clock : Clock) (connected : Bool) : ∃ worker,
    (timeoutWorker e s taskId clock connected).taskTimers = Function.update s.taskTimers taskId worker ∧
    (timeoutWorker e s taskId clock connected).danglingTimers = s.danglingTimers ∧
    (timeoutWorker e s taskId clock connected).dispatching = s.dispatching := by
  unfold timeoutWorker
  cases s.record? taskId with
  | none => exact ⟨none, rfl, rfl, rfl⟩
  | some t =>
    dsimp only
    split
    · exact ⟨none, rfl, rfl, rfl⟩
    · split
      · exact ⟨some .cancelling, rfl, rfl, rfl⟩
      · have hm := memory_finishTimeout e (s.setRecord taskId timeoutChange) taskId clock
        exact ⟨none, (congrArg Memory.taskTimers hm :), (congrArg Memory.danglingTimers hm :),
          (congrArg Memory.dispatching hm :)⟩

theorem timeoutWorker_watched (hw : Watched s) (taskId : String) (clock : Clock) (connected : Bool) :
    Watched (timeoutWorker e s taskId clock connected) := by
  obtain ⟨worker, hl, hg, hd⟩ := timeoutWorker_timers (e := e) (s := s) taskId clock connected
  refine (watched_iff (timeoutWorker_writes e s taskId clock connected)).mpr fun k t ht hdisp hn => ?_
  by_cases hid : t.id = taskId
  · by_cases hf : t.state.isWord finalizedWords = true
    · have hterm : t.terminal = true := finalized_terminal hf
      simp [hid, hf, hterm] at hn
    · rw [if_pos ⟨hid, hf⟩] at hn
      cases hn
  · simp only [hid, false_and, if_false, Record.after_none] at hdisp hn ⊢
    exact hw.elsewhere ht (by rw [hd]) (by simp [hl, hid]) hg hdisp hn

theorem beginDispatch_watched (hw : Watched s) (agentId taskId : String) (now : Int) :
    Watched (beginDispatch s agentId taskId now) := by
  refine (watched_iff (beginDispatch_writes s agentId taskId now)).mpr fun k t ht hdisp hn => ?_
  simp only [Record.after_none] at hdisp hn ⊢
  unfold beginDispatch at hdisp ⊢
  split at hdisp
  · rename_i hs
    rw [if_pos hs]
    exact hw k t ht hdisp hn
  · rename_i hs
    have hne : t.id ≠ taskId := by
      rintro rfl
      rw [Memory.record_id ht, ht] at hs
      exact hs rfl
    rw [if_neg hs]
    have := hw k t ht (by simpa [Record.dispatched, hne] using hdisp) hn
    exact this

theorem endDispatch_timers (taskId : String) (how : DispatchEnd) :
    (endDispatch s taskId how).dispatching = Function.update s.dispatching taskId false ∧
    (endDispatch s taskId how).danglingTimers = s.danglingTimers ∧
    ∀ k, k ≠ taskId → (endDispatch s taskId how).taskTimers k = s.taskTimers k := by
  cases how with
  | delivered =>
    simp only [endDispatch, RegistryHandler.scheduleTaskTimeout]
    split
    · refine ⟨rfl, rfl, fun k hk => ?_⟩
      simp [RegistryHandler.cancelTaskTimeout, RegistryHandler.setRecord, hk]
    · refine ⟨rfl, rfl, fun k hk => ?_⟩
      simp [RegistryHandler.cancelTaskTimeout, RegistryHandler.setRecord, hk]
  | failed error => exact ⟨rfl, rfl, fun _ _ => rfl⟩
  | cancelled => exact ⟨rfl, rfl, fun _ _ => rfl⟩

/-- A task that is delivered has its timer armed. -/
theorem endDispatch_armed {taskId : String} {t : Record} (ht : s.record? taskId = some t) :
    (endDispatch s taskId .delivered).taskTimers taskId = some .sleeping := by
  have he : ((RegistryHandler.setRecord { s with
      dispatching := Function.update s.dispatching taskId false } taskId
      { state := .str "forwarded" }).record? taskId).isSome := by
    rw [RegistryHandler.record_setRecord]
    have hr : Memory.record? { s.toMemory with
        dispatching := Function.update s.dispatching taskId false } taskId = some t := ht
    simp [hr]
  have hm := RegistryHandler.memory_scheduleTaskTimeout _ he
  have hl := (congrArg Memory.taskTimers hm :)
  exact (congrFun hl taskId).trans (Function.update_self ..)

theorem endDispatch_watched (hw : Watched s) {taskId : String} (hl : s.dispatching taskId = true)
    (how : DispatchEnd) : Watched (endDispatch s taskId how) ↔
      (Event.dispatchEnds taskId how).keepsWatch s := by
  obtain ⟨hd, hg, hk⟩ := endDispatch_timers (s := s) taskId how
  have hother : ∀ {k t}, s.record? k = some t → t.id ≠ taskId →
      t.dispatched (endDispatch s taskId how) → t.terminal = false →
      t.watched (endDispatch s taskId how) := by
    intro k t ht hne hdisp hn
    exact hw.elsewhere ht (by simp [hd, hne]) (hk t.id hne) hg hdisp hn
  rw [watched_iff (endDispatch_writes s taskId how)]
  cases how with
  | delivered =>
    simp only [Event.keepsWatch, iff_true]
    intro k t ht hdisp hn
    by_cases hid : t.id = taskId
    · subst hid
      have hid := Memory.record_id ht
      exact Or.inl (by simpa using endDispatch_armed (hid ▸ ht))
    · simp only [hid, if_false, Record.after_none] at hdisp hn ⊢
      exact hother ht hid hdisp hn
  | failed error =>
    simp only [Event.keepsWatch, iff_true]
    intro k t ht hdisp hn
    by_cases hid : t.id = taskId
    · simp [hid, DispatchEnd.change, Record.terminal, Json.isWord, terminalWords] at hn
    · simp only [hid, if_false, Record.after_none] at hdisp hn ⊢
      exact hother ht hid hdisp hn
  | cancelled =>
    simp only [Event.keepsWatch, DispatchEnd.change, ite_self, Record.after_none, hl, forall_const]
    constructor
    · intro h t ht hat hn
      have hid := Memory.record_id ht
      exact h taskId t ht ⟨hat, by simp [hd, hid]⟩ hn
    · intro h k t ht hdisp hn
      by_cases hid : t.id = taskId
      · have hk' := Memory.record_id ht
        exact h t (by rw [← hid, hk']; exact ht) hdisp.1 hn
      · exact hother ht hid hdisp hn

theorem endCallback_watched (hw : Watched s) (clock : Clock) (taskId : String)
    (body : Option (List (String × Json))) : Watched (endCallback e s clock taskId body) := by
  unfold endCallback
  split
  · cases body with
    | none => exact hw.same rfl rfl rfl rfl
    | some body =>
      have hm := finishCallback_memory e { s with callbacks := s.callbacks.erase taskId } clock taskId body
      have hc : ∀ t : Record, ((callbackChange body).apply t).terminal = true := by
        intro t
        unfold callbackChange
        split <;> rfl
      have hwrites := (setRecord_writes { s with callbacks := s.callbacks.erase taskId } taskId
        (callbackChange body)).congr (congrArg Memory.tasks hm :) (congrArg Memory.dispatching hm :)
      refine (watched_iff hwrites).mpr fun k t ht hdisp hn => ?_
      by_cases hid : t.id = taskId
      · simp [hid, hc] at hn
      · simp only [hid, if_false, Record.after_none] at hdisp hn ⊢
        have hl := congrFun (congrArg Memory.taskTimers hm :) t.id
        exact hw.elsewhere ht (congrFun (congrArg Memory.dispatching hm :) t.id)
          (hl.trans (Function.update_of_ne hid ..)) (congrArg Memory.danglingTimers hm :) hdisp hn
  · exact hw

end

/-- In a state where every task is watched, an event keeps it so exactly on its condition. -/
theorem step_watched_iff (e : Engine) {s : RegistryHandler} (hw : Watched s) (ev : Event) :
    Watched (ev.step e s) ↔ ev.keepsWatch s := by
  have hsame : ∀ {s' : RegistryHandler} {P : Prop}, Watched s' → P → (Watched s' ↔ P) :=
    fun h hp => ⟨fun _ => hp, fun _ => h⟩
  cases ev with
  | storeCall op => exact hsame (hw.same rfl rfl rfl rfl) trivial
  | message agentId data around => exact message_watched hw agentId data around
  | disconnect agentId clocks => exact hsame (dangle_watched hw agentId clocks) trivial
  | danglingExpires agentId clocks =>
    refine hsame ?_ trivial
    simp only [Event.step]
    split
    · exact dangleTimeout_watched hw agentId clocks
    · exact hw
  | timeoutExpires taskId clock connected =>
    refine hsame ?_ trivial
    simp only [Event.step]
    split
    · exact timeoutWorker_watched hw taskId clock connected
    · exact hw
  | timeoutSent taskId clock =>
    refine hsame ?_ trivial
    simp only [Event.step]
    split
    · rename_i hl
      exact finishTimeout_watched hw clock (by rw [hl]; simp)
    · exact hw
  | dispatchBegins agentId taskId now => exact hsame (beginDispatch_watched hw agentId taskId now) trivial
  | dispatchEnds taskId how =>
    cases hl : s.dispatching taskId with
    | true => simpa only [Event.step, hl, if_true] using endDispatch_watched hw hl how
    | false => cases how <;> simpa [Event.step, Event.keepsWatch, hl] using hw
  | callbackBegins taskId card authHeader =>
    refine hsame ?_ trivial
    simp only [Event.step, beginCallback]
    split
    · split
      · exact hw
      · exact hw.same rfl rfl rfl rfl
    · exact hw
  | callbackEnds taskId clock body => exact hsame (endCallback_watched hw clock taskId body) trivial
  | sendBegins clock taskId assignee channel pid ttl workspace =>
    refine hsame ?_ trivial
    simp only [Event.step]
    split
    · obtain ⟨_, hm⟩ := memory_beginSend e s clock taskId assignee channel pid ttl workspace
      exact hw.same (congrArg Memory.tasks hm :) (congrArg Memory.dispatching hm :)
        (congrArg Memory.taskTimers hm :) (congrArg Memory.danglingTimers hm :)
    · exact hw
  | sendEnds clock sent error =>
    obtain ⟨_, _, hm⟩ := memory_endSend e s clock sent error
    exact hsame (hw.same (congrArg Memory.tasks hm :) (congrArg Memory.dispatching hm :)
      (congrArg Memory.taskTimers hm :) (congrArg Memory.danglingTimers hm :)) trivial
  | reconnect agentId listed => exact hsame (hw.same rfl rfl rfl rfl) trivial
  | redispatches clock agentId taskId =>
    obtain ⟨_, _, hm⟩ := memory_redispatch e s clock agentId taskId
    exact hsame (hw.same (congrArg Memory.tasks hm :) (congrArg Memory.dispatching hm :)
      (congrArg Memory.taskTimers hm :) (congrArg Memory.danglingTimers hm :)) trivial

theorem start_watched (db : Db) (dispatcher : Bool) : Watched (.start db dispatcher) := by
  intro k t ht
  cases ht

/-- From a fresh server on, no dispatched task waits for ever in a run exactly when no message of
it takes a task off its timers, and no dispatch is given up between its task and its timer. -/
theorem no_immortal_iff (e : Engine) (db : Db) (dispatcher : Bool) (events : List Event) :
    Always (Event.step e) Watched (.start db dispatcher) events ↔
      EachStep (Event.step e) (fun s ev => ev.keepsWatch s) (.start db dispatcher) events :=
  always_iff_guarded (P := Watched) (I := fun _ => True) (fun _ _ _ _ => trivial)
    (fun _ ev _ hw => step_watched_iff e hw ev) trivial (start_watched db dispatcher) events

/-- A task whose agent disconnects and, on its return, reports it as working. -/
def healedTask : List Event :=
  [.dispatchBegins "a" "t" 0, .dispatchEnds "t" .delivered, .disconnect "a" (fun _ => .fixed 0),
    tells "a" "state_sync" [("active_tasks", .arr [.obj [("id", .str "t"), ("status", .str "working")]])]]

/-- The task is no longer dangling, and its own timer is not armed again. -/
theorem healedTask_immortal :
    ¬ Always (Event.step idleEngine) Watched (.start Db.empty true) healedTask := by
  intro h
  have hw := h.last "t" ⟨"t", "a", .str "working", .null, .str "agent_disconnected_grace", some 0⟩
    rfl ⟨rfl, rfl⟩ rfl
  rcases hw with hw | ⟨hw, _⟩
  · cases hw
  · simp at hw

end A2ARegistry.Server
