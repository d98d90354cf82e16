import A2ARegistry.Server.Proofs.Entries

namespace A2ARegistry.Server
open Base Orchestration

/-- What a message about one task assigns to its entry. -/
def messageChange (data : List (String × Json)) : MessageType → Option Change
  | .taskAck => some (ackChange data)
  | .taskProgress => some (progressChange data)
  | .taskComplete => some (completeChange data)
  | .taskFail => some (failChange data)
  | .taskResult => some (resultChange data)
  | .stateSync => none

/-- What it passes to the kanban task. -/
def messageOutcome (data : List (String × Json)) : MessageType → Option Outcome
  | .taskAck => some { status := .str TaskStatus.running.value }
  | .taskComplete => some {
      status := .str TaskStatus.completed.value
      result := Json.get data "result" .null }
  | .taskFail => some {
      status := .str TaskStatus.failed.value
      error := Json.get data "error" (.str "Unknown error") }
  | .taskResult => some {
      status := Json.get data "status" (.str "completed")
      result := Json.get data "result" .null
      error := Json.get data "error" .null }
  | .taskProgress | .stateSync => none

/-- Progress resets the timer of the task, an outcome cancels it. -/
def MessageType.resets : MessageType → Bool
  | .taskAck | .taskProgress => true
  | _ => false

/-- Every message about one task is a report on it. -/
theorem handleMessage_task (e : Engine) (s : RegistryHandler) (agentId : String)
    {data : List (String × Json)} (around : Surroundings) {type : MessageType} {change : Change}
    (h : messageChange data type = some change) : handleMessage e s agentId data around type =
      match messageId data with
      | none => s
      | some id => reportTask e s agentId (around.clocks id) id change (messageOutcome data type)
          type.resets := by
  cases type with
  | stateSync => cases h
  | taskAck | taskProgress | taskComplete | taskFail | taskResult =>
    cases h
    rfl

theorem messageChange_isSome (data : List (String × Json)) {type : MessageType}
    (h : type ≠ .stateSync) : ∃ change, messageChange data type = some change := by
  cases type with
  | stateSync => exact absurd rfl h
  | taskAck | taskProgress | taskComplete | taskFail | taskResult => exact ⟨_, rfl⟩

def DispatchEnd.change : DispatchEnd → Option Change
  | .delivered => some { state := .str "forwarded" }
  | .failed error => some { state := .str "failed", error := some (.str error.text) }
  | .cancelled => none

/-- What an event assigns to an entry, read off the event and the state before it. -/
def Event.assigns (s : RegistryHandler) (t : Record) : Event → Option Change
  | .message agentId data around =>
    match messageType data with
    | none => none
    | some type =>
      if type = .stateSync then syncChange s agentId data around.now around.card t
      else if messageId data = some t.id then messageChange data type else none
  | .disconnect agentId _ => if t.active agentId then some dangleChange else none
  | .danglingExpires agentId _ =>
    if s.danglingTimers agentId && t.dangles agentId then some graceExpiredChange else none
  | .timeoutExpires taskId _ _ =>
    if t.id = taskId ∧ s.taskTimers taskId = some .sleeping ∧ ¬ t.state.isWord finalizedWords then
      some timeoutChange
    else none
  | .dispatchEnds taskId how => if t.id = taskId ∧ s.dispatching taskId then how.change else none
  | .callbackEnds taskId _ body =>
    if t.id = taskId ∧ taskId ∈ s.callbacks then body.map callbackChange else none
  | _ => none

section
variable (e : Engine) (s : RegistryHandler)

theorem Writes.congr {c : Record → Option Change} {s s' s'' : RegistryHandler} (h : Writes c s s')
    (ht : s''.tasks = s'.tasks) (hd : s''.dispatching = s'.dispatching) : Writes c s s'' := by
  have hr : ∀ k, s''.record? k = s'.record? k := fun k => congrArg (Table.find? · k) ht
  refine ⟨fun k t hk => ?_, fun k t hn hk => ?_⟩
  · rw [hr]
    exact h.entry k t hk
  · rw [hr] at hk
    rw [hd]
    exact h.created k t hn hk

theorem scheduleTaskTimeout_tasks (taskId : String) :
    (s.scheduleTaskTimeout taskId).tasks = s.tasks := by
  unfold RegistryHandler.scheduleTaskTimeout
  dsimp only
  split <;> rfl

theorem scheduleTaskTimeout_dispatching (taskId : String) :
    (s.scheduleTaskTimeout taskId).dispatching = s.dispatching := by
  unfold RegistryHandler.scheduleTaskTimeout
  dsimp only
  split <;> rfl

theorem reportTask_writes (agentId : String) (clock : Clock) (taskId : String) (change : Change)
    (outcome : Option Outcome) (resets : Bool) :
    Writes (fun t => if t.id = taskId then some change else none) s
      (reportTask e s agentId clock taskId change outcome resets) := by
  have hm := memory_reportTask e s clock taskId agentId change outcome resets
  exact (writeRecord_writes s agentId taskId change).congr (congrArg Memory.tasks hm :)
    (congrArg Memory.dispatching hm :)

theorem message_writes (agentId : String) (data : List (String × Json)) (around : Surroundings) :
    Writes (fun t => (Event.message agentId data around).assigns s t) s
      ((Event.message agentId data around).step e s) := by
  simp only [Event.assigns, Event.step]
  cases hty : messageType data with
  | none => exact .none rfl
  | some type =>
    dsimp only
    by_cases hs : type = .stateSync
    · subst hs
      exact (stateSync_writes e s agentId around.clocks data around.now around.card).2
    · obtain ⟨change, hc⟩ := messageChange_isSome data hs
      rw [handleMessage_task e s agentId around hc]
      simp only [hs, if_false, hc]
      cases hid : messageId data with
      | none => simpa only [reduceCtorEq, if_false] using Writes.none rfl
      | some id =>
        simpa only [Option.some.injEq, eq_comm] using
          reportTask_writes e s agentId (around.clocks id) id change (messageOutcome data type) type.resets

theorem select_empty_iff (p : Record → Bool) :
    (s.tasks.select p).isEmpty = true ↔ ∀ k t, s.record? k = some t → p t = false := by
  rw [List.isEmpty_iff, Table.select, List.filter_eq_nil_iff]
  constructor
  · intro h k t ht
    simpa using h t (Table.find_some_iff.mp ht).1
  · intro h t ht
    simp [h t.id t (Table.find_mem ht)]

theorem select_any (p : Record → Bool) (k : String) :
    (s.tasks.select p).any (fun t => t.id == k) = (s.record? k).any p := by
  rw [Bool.eq_iff_iff, List.any_eq_true, Option.any_eq_true]
  constructor
  · rintro ⟨t, ht, hk⟩
    obtain ⟨hm, hp⟩ := Table.mem_select.mp ht
    exact ⟨t, Table.find_some_iff.mpr ⟨hm, by simpa using hk⟩, hp⟩
  · rintro ⟨t, ht, hp⟩
    obtain ⟨hm, hk⟩ := Table.find_some_iff.mp ht
    exact ⟨t, Table.mem_select.mpr ⟨hm, hp⟩, by simpa using hk⟩

/-- In memory a disconnect marks the active entries of the agent, cancels their timers, and arms
the timer of the agent. -/
theorem memory_dangle {agentId : String} (clocks : String → Clock) {k : String} {t : Record}
    (ht : s.record? k = some t) (ha : t.active agentId = true) :
    (dangleAgentTasks e s agentId clocks).toMemory =
      { (s.setRecords (fun t => t.active agentId) dangleChange).toMemory with
        taskTimers := fun k => if (s.record? k).any (fun t => t.active agentId) then none
          else s.taskTimers k
        danglingTimers := Function.update s.danglingTimers agentId true } := by
  have hne : ¬ (s.tasks.select (fun t => t.active agentId)).isEmpty = true := by
    rw [select_empty_iff]
    intro h
    rw [h k t ht] at ha
    cases ha
  simp only [dangleAgentTasks, if_neg hne, memory_updateAll, select_any]
  rfl

/-- A disconnect of an agent without active entries is nothing. -/
theorem dangle_idle {agentId : String} (clocks : String → Clock)
    (h : ∀ k t, s.record? k = some t → t.active agentId = false) :
    dangleAgentTasks e s agentId clocks = s := by
  have hempty := (select_empty_iff s (fun t => t.active agentId)).mpr h
  simp only [dangleAgentTasks, hempty, if_true]

theorem dangle_cases (agentId : String) : (∀ k t, s.record? k = some t → t.active agentId = false) ∨
    ∃ k t, s.record? k = some t ∧ t.active agentId = true := by
  by_cases h : ∃ k t, s.record? k = some t ∧ t.active agentId = true
  · exact Or.inr h
  · refine Or.inl fun k t ht => ?_
    simpa using fun ha => h ⟨k, t, ht, ha⟩

theorem dangle_writes (agentId : String) (clocks : String → Clock) :
    Writes (fun t => if t.active agentId then some dangleChange else none) s
      (dangleAgentTasks e s agentId clocks) := by
  rcases dangle_cases s agentId with h | ⟨k, t, ht, ha⟩
  · rw [dangle_idle e s clocks h]
    exact .same rfl fun k t ht => by simp [h k t ht]
  · have hm := memory_dangle e s clocks ht ha
    exact (setRecords_writes s (fun t => t.active agentId) dangleChange).congr
      (congrArg Memory.tasks hm :) (congrArg Memory.dispatching hm :)

theorem memory_dangleTimeout (agentId : String) (clocks : String → Clock) :
    (dangleTimeout e s agentId clocks).toMemory =
      { (s.setRecords (fun t => t.dangles agentId) graceExpiredChange).toMemory with
        danglingTimers := Function.update s.danglingTimers agentId false } := by
  simp only [dangleTimeout, RegistryHandler.cancelDanglingTimer, memory_updateAll]
  rfl

theorem dangleTimeout_writes (agentId : String) (clocks : String → Clock) :
    Writes (fun t => if t.dangles agentId then some graceExpiredChange else none) s
      (dangleTimeout e s agentId clocks) := by
  have hm := memory_dangleTimeout e s agentId clocks
  exact (setRecords_writes s (fun t => t.dangles agentId) graceExpiredChange).congr
    (congrArg Memory.tasks hm :) (congrArg Memory.dispatching hm :)

theorem memory_finishTimeout (taskId : String) (clock : Clock) :
    (finishTimeout e s taskId clock).toMemory =
      { s.toMemory with taskTimers := Function.update s.taskTimers taskId none } := by
  simp only [finishTimeout, RegistryHandler.memory_cancelTaskTimeout,
    RegistryHandler.memory_updateDispatched]

theorem timeoutWorker_writes (taskId : String) (clock : Clock) (connected : Bool) :
    Writes (fun t => if t.id = taskId ∧ ¬ t.state.isWord finalizedWords then some timeoutChange else none)
      s (timeoutWorker e s taskId clock connected) := by
  unfold timeoutWorker
  cases ht : s.record? taskId with
  | none =>
    refine .same rfl fun k t hk => if_neg ?_
    rintro ⟨rfl, _⟩
    rw [Memory.record_id hk, hk] at ht
    cases ht
  | some t =>
    have hsame : ∀ k u, s.record? k = some u → u.id = taskId → u = t := by
      rintro k u hk rfl
      rw [Memory.record_id hk, hk] at ht
      exact Option.some.inj ht
    dsimp only
    split
    · rename_i hf
      refine .same rfl fun k u hk => if_neg ?_
      rintro ⟨hu, hnf⟩
      exact hnf (hsame k u hk hu ▸ hf)
    · rename_i hf
      have hw : Writes (fun t => if t.id = taskId ∧ ¬ t.state.isWord finalizedWords then
          some timeoutChange else none) s (s.setRecord taskId timeoutChange) := by
        refine (setRecord_writes s taskId timeoutChange).of_eq fun k u hk => ?_
        by_cases hu : u.id = taskId
        · simp [hsame k u hk hu ▸ hu, hsame k u hk hu, hf]
        · simp [hu]
      split
      · exact hw.congr rfl rfl
      · have hm := memory_finishTimeout e (s.setRecord taskId timeoutChange) taskId clock
        exact hw.congr (congrArg Memory.tasks hm :) (congrArg Memory.dispatching hm :)

theorem beginDispatch_writes (agentId taskId : String) (now : Int) :
    Writes (fun _ => none) s (beginDispatch s agentId taskId now) := by
  unfold beginDispatch
  split
  · exact .none rfl
  · rename_i hn
    have hn : s.record? taskId = none := by simpa using hn
    have hput : ∀ k, (s.tasks.put ⟨taskId, agentId, .str "dispatched", .null, .null, some now⟩).find? k =
        if k = taskId then some ⟨taskId, agentId, .str "dispatched", .null, .null, some now⟩
        else s.tasks.find? k := Table.find_put s.tasks _
    refine ⟨fun k t ht => (hput k).trans ?_, fun k t hk ht => ?_⟩
    · have hne : k ≠ taskId := by
        rintro rfl
        rw [hn] at ht
        cases ht
      rw [if_neg hne]
      exact ht
    · replace ht := (hput k).symm.trans ht
      split at ht
      · rename_i hkt
        exact Or.inr (by rw [hkt]; exact Function.update_self ..)
      · exact absurd (hk.symm.trans ht) (by simp)

theorem endDispatch_writes (taskId : String) (how : DispatchEnd) :
    Writes (fun t => if t.id = taskId then how.change else none) s (endDispatch s taskId how) := by
  have hw := fun c => setRecord_writes
    { s with dispatching := Function.update s.dispatching taskId false } taskId c
  have hs : ∀ {c : Record → Option Change} {s' : RegistryHandler},
      Writes c { s with dispatching := Function.update s.dispatching taskId false } s' → Writes c s s' :=
    fun h => ⟨h.entry, h.created⟩
  cases how with
  | delivered =>
    exact hs ((hw _).congr (scheduleTaskTimeout_tasks ..) (scheduleTaskTimeout_dispatching ..))
  | failed error => exact hs (hw _)
  | cancelled => exact .same rfl fun k t ht => by simp [DispatchEnd.change]

theorem finishCallback_memory (clock : Clock) (taskId : String) (body : List (String × Json)) :
    (finishCallback e s clock taskId body).toMemory =
      { (s.setRecord taskId (callbackChange body)).toMemory with
        taskTimers := Function.update s.taskTimers taskId none } := by
  unfold finishCallback
  dsimp only
  split
  · rw [memory_kanban]
    rfl
  · rw [memory_kanban]
    rfl

theorem endCallback_writes (clock : Clock) (taskId : String) (body : Option (List (String × Json))) :
    Writes (fun t => if t.id = taskId ∧ taskId ∈ s.callbacks then body.map callbackChange else none) s
      (endCallback e s clock taskId body) := by
  unfold endCallback
  by_cases hc : taskId ∈ s.callbacks
  · simp only [hc, and_true]
    cases body with
    | none => exact .same rfl fun k t ht => by simp
    | some body =>
      have hm := finishCallback_memory e { s with callbacks := s.callbacks.erase taskId } clock taskId body
      have hw := setRecord_writes { s with callbacks := s.callbacks.erase taskId } taskId
        (callbackChange body)
      have hw' := hw.congr (congrArg Memory.tasks hm :) (congrArg Memory.dispatching hm :)
      exact ⟨hw'.entry, hw'.created⟩
  · exact .same (by rw [if_neg hc]) fun k t ht => by simp [hc]

theorem memory_beginSend (clock : Clock) (taskId assignee : String) (channel : Channel) (pid ttl : Int)
    (workspace : Except String String) : ∃ sending,
      (beginSend e s clock taskId assignee channel pid ttl workspace).toMemory =
        { s.toMemory with sending := sending } := by
  unfold beginSend
  dsimp only
  split
  · exact ⟨s.sending, rfl⟩
  · cases workspace with
    | ok path => exact ⟨_, rfl⟩
    | error error => exact ⟨s.sending, RegistryHandler.memory_updateStore ..⟩

theorem memory_endSend (clock : Clock) (sent : Sending) (error : Option DispatchError) :
    ∃ sending dispatched, (endSend e s clock sent error).toMemory =
      { s.toMemory with sending := sending, dispatchedWsTasks := dispatched } := by
  unfold endSend
  split
  · split
    · exact ⟨_, _, rfl⟩
    · exact ⟨_, s.dispatchedWsTasks, rfl⟩
    · exact ⟨_, s.dispatchedWsTasks, RegistryHandler.memory_updateStore ..⟩
  · exact ⟨s.sending, s.dispatchedWsTasks, rfl⟩

theorem memory_redispatch (clock : Clock) (agentId taskId : String) : ∃ pending sending,
    (redispatch e s clock agentId taskId).toMemory =
      { s.toMemory with pending := pending, sending := sending } := by
  unfold redispatch
  split
  · dsimp only
    cases reportStatus e s.taskStore clock taskId .running .null with
    | none => exact ⟨_, s.sending, rfl⟩
    | some db => exact ⟨_, _, rfl⟩
  · exact ⟨s.pending, s.sending, rfl⟩

/-- Every entry after an event is the entry before it with what the event assigns. -/
theorem step_writes (ev : Event) : Writes (fun t => ev.assigns s t) s (ev.step e s) := by
  cases ev with
  | storeCall op => exact .none rfl
  | message agentId data around => exact message_writes e s agentId data around
  | disconnect agentId clocks => exact dangle_writes e s agentId clocks
  | danglingExpires agentId clocks =>
    cases hl : s.danglingTimers agentId with
    | true => simpa [Event.step, Event.assigns, hl] using dangleTimeout_writes e s agentId clocks
    | false => exact .same (by simp [Event.step, hl]) fun k t ht => by simp [Event.assigns, hl]
  | timeoutExpires taskId clock connected =>
    by_cases hl : s.taskTimers taskId = some .sleeping
    · simpa [Event.step, Event.assigns, hl] using timeoutWorker_writes e s taskId clock connected
    · exact .same (by simp [Event.step, hl]) fun k t ht => by simp [Event.assigns, hl]
  | timeoutSent taskId clock =>
    refine .same ?_ fun _ _ _ => rfl
    simp only [Event.step]
    split
    · exact (congrArg Memory.tasks (memory_finishTimeout e s taskId clock) :)
    · rfl
  | dispatchBegins agentId taskId now => exact beginDispatch_writes s agentId taskId now
  | dispatchEnds taskId how =>
    cases hl : s.dispatching taskId with
    | true => simpa [Event.step, Event.assigns, hl] using endDispatch_writes s taskId how
    | false => exact .same (by simp [Event.step, hl]) fun k t ht => by simp [Event.assigns, hl]
  | callbackBegins taskId card authHeader =>
    refine .same ?_ fun _ _ _ => rfl
    simp only [Event.step, beginCallback]
    split
    · split <;> rfl
    · rfl
  | callbackEnds taskId clock body => exact endCallback_writes e s clock taskId body
  | sendBegins clock taskId assignee channel pid ttl workspace =>
    refine .same ?_ fun _ _ _ => rfl
    simp only [Event.step]
    split
    · obtain ⟨_, hm⟩ := memory_beginSend e s clock taskId assignee channel pid ttl workspace
      exact (congrArg Memory.tasks hm :)
    · rfl
  | sendEnds clock sent error =>
    obtain ⟨_, _, hm⟩ := memory_endSend e s clock sent error
    exact .same (congrArg Memory.tasks hm :) fun _ _ _ => rfl
  | reconnect agentId listed => exact .none rfl
  | redispatches clock agentId taskId =>
    obtain ⟨_, _, hm⟩ := memory_redispatch e s clock agentId taskId
    exact .same (congrArg Memory.tasks hm :) fun _ _ _ => rfl

end

end A2ARegistry.Server
