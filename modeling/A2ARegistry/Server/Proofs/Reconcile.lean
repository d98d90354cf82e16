import A2ARegistry.Server.Proofs.Watch

namespace A2ARegistry.Server
open Base Orchestration

/-- A V1 task that a disconnect of the agent marks, and whose kanban task is running. -/
structure Linked (s : RegistryHandler) (agentId : String) (k : String) : Prop where
  active : ∃ t, s.record? k = some t ∧ t.active agentId = true
  dispatched : s.isDispatched k = true
  running : ∃ row, s.taskStore.task? k = some row ∧ row.status = .running

/-- A return of the agent, whatever it lists, or the end of its grace period. -/
def Event.resumes (agentId : String) : Event → Prop
  | .message sender data _ => sender = agentId ∧ messageType data = some .stateSync
  | .danglingExpires sender _ => sender = agentId
  | _ => False

/-- The two levels agree on a task: both dangle, both run, or both have failed. -/
def Together (s : RegistryHandler) (k : String) : Prop :=
  ∃ t row, s.record? k = some t ∧ s.taskStore.task? k = some row ∧
    (t.state = .str "dangling" ∧ row.status = .dangling ∨
      t.state.isWord ["working", "running", "accepted"] = true ∧ row.status = .running ∨
      t.state = .str "failed" ∧ row.status = .failed)

/-- What a disconnect of the agent promises: its working tasks dangle on both levels, and move
together whatever comes next. -/
structure Agrees (e : Engine) (s : RegistryHandler) (agentId : String) (clocks : String → Clock) :
    Prop where
  record : ∀ k t, s.record? k = some t → t.active agentId = true →
    ∃ t', (dangleAgentTasks e s agentId clocks).record? k = some t' ∧ t'.state = .str "dangling"
  kanban : ∀ k, Linked s agentId k →
    ∃ row, (dangleAgentTasks e s agentId clocks).taskStore.task? k = some row ∧ row.status = .dangling
  later : ∀ k, Linked s agentId k → ∀ events : List Event, (∀ ev ∈ events, ev.resumes agentId) →
    Together (exec (Event.step e) (dangleAgentTasks e s agentId clocks) events) k

section
variable (e : Engine) (s : RegistryHandler)

/-- No status has an edge to `dangling`. -/
theorem reportStatus_dangling (db : Db) (clock : Clock) (k : String) (value : Json) :
    reportStatus e db clock k .dangling value = none := by
  cases hr : reportStatus e db clock k .dangling value with
  | none => rfl
  | some db' =>
    obtain ⟨t, bound, retryAt, kind, _, hrep, _⟩ := reportStatus_some hr
    have hedge := hrep.edge
    cases ht : t.status <;> simp [ht, transitions] at hedge

theorem updateDispatched_dangling (clock : Clock) (k : String) (value : Json) :
    s.updateDispatched e clock k .dangling value = s := by
  unfold RegistryHandler.updateDispatched RegistryHandler.updateStore
  rw [reportStatus_dangling]
  split <;> rfl

theorem updateAll_dangling (clocks : String → Clock) (value : Json) (records : List Record) :
    s.updateAll e clocks .dangling value records = s := by
  unfold RegistryHandler.updateAll
  induction records with
  | nil => rfl
  | cons t ts ih => rw [List.foldl_cons, updateDispatched_dangling, ih]

/-- A disconnect leaves the kanban board as it is. -/
theorem dangle_store (agentId : String) (clocks : String → Clock) :
    (dangleAgentTasks e s agentId clocks).taskStore = s.taskStore := by
  unfold dangleAgentTasks
  dsimp only
  split
  · rfl
  · rw [updateAll_dangling]
    rfl

theorem dangle_record {agentId : String} (clocks : String → Clock) {k : String} {t : Record}
    (ht : s.record? k = some t) (ha : t.active agentId = true) :
    (dangleAgentTasks e s agentId clocks).record? k = some (dangleChange.apply t) := by
  have h := (dangle_writes e s agentId clocks).entry k t ht
  rw [if_pos ha] at h
  exact h

/-- The levels agree after a disconnect exactly when no running kanban task is behind a task
that the disconnect marks. -/
theorem dangle_agrees_iff (agentId : String) (clocks : String → Clock) :
    Agrees e s agentId clocks ↔ ∀ k, ¬ Linked s agentId k := by
  constructor
  · intro h k hk
    obtain ⟨row, hrow, hs⟩ := h.kanban k hk
    obtain ⟨row', hrow', hs'⟩ := hk.running
    rw [dangle_store, hrow'] at hrow
    cases hrow
    rw [hs'] at hs
    cases hs
  · intro h
    refine ⟨fun k t ht ha => ⟨_, dangle_record e s clocks ht ha, rfl⟩, fun k hk => ?_, fun k hk => ?_⟩
    · exact absurd hk (h k)
    · exact absurd hk (h k)

end

/-- A kanban task that is dispatched to a connected agent and acknowledged. -/
def workingTask : RegistryHandler :=
  exec (Event.step idleEngine) (.start Db.empty true)
    [.storeCall (.createTask (.fixed 0) "a" { title := "a", assignee := some "a" }),
      .sendBegins (.fixed 0) "t_a" "a" .ws 1 900 (.ok "/tmp"),
      .sendEnds (.fixed 0) ⟨"t_a", "a", .ws⟩ none,
      tells "a" "task_ack" [("id", .str "t_a")]]

/-- Its V1 task dangles, and it is still running. -/
theorem workingTask_disagrees : ¬ Agrees idleEngine workingTask "a" (fun _ => .fixed 0) := by
  intro h
  have hrec : ∃ t, workingTask.record? "t_a" = some t ∧ t.active "a" = true := ⟨_, rfl, rfl⟩
  obtain ⟨row, hrow, hs⟩ : ∃ row, workingTask.taskStore.task? "t_a" = some row ∧ row.status = .running :=
    ⟨_, rfl, rfl⟩
  obtain ⟨row', hrow', hs'⟩ := h.kanban "t_a" ⟨hrec, rfl, row, hrow, hs⟩
  rw [dangle_store, hrow] at hrow'
  cases hrow'
  rw [hs] at hs'
  cases hs'

/-- The update `_reconcile_task_store` makes for an outcome, if it makes one. -/
def Outcome.update (e : Engine) (o : Outcome) : Option (TaskStatus × Json) :=
  if o.status.isWord ["running"] then some (.running, .null)
  else if o.status.isWord ["completed", "success"] then some (.completed, completionValue e o.result)
  else if o.status.isWord ["failed", "error"] then some (.failed, failureValue e o.result o.error)
  else none

/-- The kanban board after an update of a task that was dispatched. -/
def boardAfter (e : Engine) (db : Db) (clock : Clock) (k : String) (dispatched : Bool) :
    Option (TaskStatus × Json) → Db
  | none => db
  | some (new, value) => if dispatched then (reportStatus e db clock k new value).getD db else db

section
variable (e : Engine) (s : RegistryHandler) (clock : Clock) (k : String)

theorem updateDispatched_store (new : TaskStatus) (value : Json) :
    (s.updateDispatched e clock k new value).taskStore =
      boardAfter e s.taskStore clock k (s.isDispatched k) (some (new, value)) := by
  simp only [RegistryHandler.updateDispatched, RegistryHandler.updateStore, boardAfter]
  split
  · cases reportStatus e s.taskStore clock k new value <;> rfl
  · rfl

theorem reconcile_store (o : Outcome) :
    (reconcileTaskStore e s clock k o.status o.result o.error).taskStore =
      boardAfter e s.taskStore clock k (s.isDispatched k) (o.update e) := by
  unfold reconcileTaskStore Outcome.update
  split
  · exact updateDispatched_store ..
  · split
    · exact updateDispatched_store ..
    · split
      · exact updateDispatched_store ..
      · rfl

/-- `_maybe_update_kanban` mirrors `_reconcile_task_store`, the acknowledgement apart. -/
theorem kanban_store (o : Outcome) (h : o.status.isWord ["running"] = false) :
    (maybeUpdateKanban e s clock k o.status o.result o.error).taskStore =
      boardAfter e s.taskStore clock k (s.isDispatched k) (o.update e) := by
  have hn : ¬ o.status.isWord ["running"] = true := by simp [h]
  unfold maybeUpdateKanban Outcome.update
  rw [if_neg hn]
  split
  · exact updateDispatched_store ..
  · split
    · exact updateDispatched_store ..
    · rfl

theorem timer_store (resets : Bool) (r : RegistryHandler) :
    (if resets then r.scheduleTaskTimeout k else r.cancelTaskTimeout k).taskStore = r.taskStore := by
  cases resets with
  | true =>
    simp only [if_true, RegistryHandler.scheduleTaskTimeout]
    split <;> rfl
  | false => rfl

/-- What a report on a task does to the kanban board is its outcome. -/
theorem reportTask_store (agentId : String) (change : Change) (outcome : Option Outcome)
    (resets : Bool) : (reportTask e s agentId clock k change outcome resets).taskStore =
      boardAfter e s.taskStore clock k (s.isDispatched k) (outcome.bind (Outcome.update e)) := by
  unfold reportTask
  dsimp only
  rw [timer_store]
  cases outcome with
  | none => rfl
  | some o => exact reconcile_store e (s.writeRecord agentId k change) clock k o

end

/-- What the handler of a message passes to the kanban board, about which task. -/
def messageUpdate (e : Engine) (data : List (String × Json)) : Option (String × TaskStatus × Json) :=
  (messageType data).bind fun type => (messageId data).bind fun k =>
    ((messageOutcome data type).bind (Outcome.update e)).map fun update => (k, update)

/-- A message does to the kanban board what it passes on, and nothing else. -/
theorem message_store (e : Engine) (s : RegistryHandler) (agentId : String)
    (data : List (String × Json)) (around : Surroundings) :
    ((Event.message agentId data around).step e s).taskStore =
      match messageUpdate e data with
      | none => s.taskStore
      | some (k, update) =>
        boardAfter e s.taskStore (around.clocks k) k (s.isDispatched k) (some update) := by
  simp only [Event.step, messageUpdate]
  cases hty : messageType data with
  | none => rfl
  | some type =>
    by_cases hs : type = .stateSync
    · subst hs
      obtain ⟨hf, _⟩ := stateSync_writes e s agentId around.clocks data around.now around.card
      have hstore := congrArg RegistryHandler.taskStore hf
      cases hid : messageId data <;> exact hstore
    · obtain ⟨change, hc⟩ := messageChange_isSome data hs
      simp only [handleMessage_task e s agentId around hc]
      cases hid : messageId data with
      | none => rfl
      | some id =>
        simp only [Option.bind_some]
        rw [reportTask_store]
        cases (messageOutcome data type).bind (Outcome.update e) <;> rfl

end A2ARegistry.Server
