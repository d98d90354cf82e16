import A2ARegistry.Orchestration.Proofs.Reports
import A2ARegistry.Server.Dispatch

namespace A2ARegistry.Server
open Base Orchestration

section
variable (e : Engine) (s : RegistryHandler) (clock : Clock) (taskId : String)

@[simp] theorem memory_reconcile (status result error : Json) :
    (reconcileTaskStore e s clock taskId status result error).toMemory = s.toMemory := by
  unfold reconcileTaskStore
  split
  · exact s.memory_updateDispatched ..
  · split
    · exact s.memory_updateDispatched ..
    · split
      · exact s.memory_updateDispatched ..
      · rfl

@[simp] theorem memory_kanban (status result error : Json) :
    (maybeUpdateKanban e s clock taskId status result error).toMemory = s.toMemory := by
  unfold maybeUpdateKanban
  split
  · exact s.memory_updateDispatched ..
  · split
    · exact s.memory_updateDispatched ..
    · rfl

@[simp] theorem memory_updateAll (clocks : String → Clock) (new : TaskStatus) (value : Json)
    (records : List Record) : (s.updateAll e clocks new value records).toMemory = s.toMemory := by
  unfold RegistryHandler.updateAll
  induction records generalizing s with
  | nil => rfl
  | cons t ts ih => rw [List.foldl_cons, ih, s.memory_updateDispatched]

/-- In memory a task message writes its entry and sets its timer. -/
theorem memory_reportTask (agentId : String) (change : Change) (outcome : Option Outcome)
    (resets : Bool) : (reportTask e s agentId clock taskId change outcome resets).toMemory =
      { (s.writeRecord agentId taskId change).toMemory with
        taskTimers := Function.update s.taskTimers taskId (if resets then some .sleeping else none) } := by
  have hm : ∀ r : RegistryHandler, r.toMemory = (s.writeRecord agentId taskId change).toMemory →
      (if resets then r.scheduleTaskTimeout taskId else r.cancelTaskTimeout taskId).toMemory =
        { (s.writeRecord agentId taskId change).toMemory with
          taskTimers := Function.update s.taskTimers taskId
            (if resets then some .sleeping else none) } := by
    intro r hr
    cases resets with
    | true =>
      have he : (r.record? taskId).isSome := by simp [hr]
      rw [if_pos rfl, if_pos rfl, r.memory_scheduleTaskTimeout he, hr]
      rfl
    | false =>
      rw [if_neg Bool.false_ne_true, if_neg Bool.false_ne_true, r.memory_cancelTaskTimeout, hr]
      rfl
  unfold reportTask
  cases outcome with
  | none => exact hm _ rfl
  | some o => exact hm _ (memory_reconcile ..)

end

/-- A kanban task that is dangling has no way back to running, so nothing is ever healed. -/
theorem healTask_none (e : Engine) (s : RegistryHandler) (clock : Clock) (taskId : String)
    (status : Json) : healTask e s clock taskId status = none := by
  unfold healTask
  split
  · cases ht : s.taskStore.task? taskId with
    | none => rfl
    | some row =>
      by_cases hd : row.status = .dangling
      · have hr : reportStatus e s.taskStore clock taskId .running .null = none := by
          cases hr : reportStatus e s.taskStore clock taskId .running .null with
          | none => rfl
          | some db =>
            obtain ⟨t, bound, retryAt, kind, hu, hrep, _⟩ := reportStatus_some hr
            have hedge := hrep.edge
            rw [ht] at hu
            cases hu
            simp [hd, transitions] at hedge
        simp [hd, hr]
      · simp [hd]
  · rfl

/-- The last status the merge of these items gives a task: `.get` raises on an item that is no
object, and ends the merge. -/
def lastListed (taskId : String) : List Json → Option Json
  | .obj fields :: items =>
    (lastListed taskId items).or
      (((mergedItem fields).filter (fun item => item.1 == taskId)).map Prod.snd)
  | _ => none

/-- The entry after a handler that assigns to it, or does not. -/
def Record.after (t : Record) : Option Change → Record
  | none => t
  | some c => c.apply t

@[simp] theorem Record.after_none (t : Record) : t.after none = t := rfl

@[simp] theorem Record.after_some (t : Record) (c : Change) : t.after (some c) = c.apply t := rfl

@[simp] theorem Record.after_id (t : Record) (c : Option Change) : (t.after c).id = t.id := by
  cases c <;> rfl

@[simp] theorem Record.after_dispatchedAt (t : Record) (c : Option Change) :
    (t.after c).dispatchedAt = t.dispatchedAt := by
  cases c <;> rfl

/-- What an event makes of the entries there are, and what it creates: entries of no
dispatch, or of a dispatch under way. -/
structure Writes (c : Record → Option Change) (s s' : RegistryHandler) : Prop where
  entry : ∀ k t, s.record? k = some t → s'.record? k = some (t.after (c t))
  created : ∀ k t, s.record? k = none → s'.record? k = some t →
    t.dispatchedAt = none ∨ s'.dispatching k = true

theorem Writes.of_eq {c d : Record → Option Change} {s s' : RegistryHandler} (h : Writes c s s')
    (hd : ∀ k t, s.record? k = some t → d t = c t) : Writes d s s' where
  entry k t ht := by rw [hd k t ht]; exact h.entry k t ht
  created := h.created

theorem Writes.none {s s' : RegistryHandler} (h : s'.tasks = s.tasks) :
    Writes (fun _ => Option.none) s s' where
  entry k t ht := (congrArg (Table.find? · k) h).trans ht
  created k t hn ht := by
    have he : s'.record? k = s.record? k := congrArg (Table.find? · k) h
    rw [he, hn] at ht
    cases ht

/-- No entry there is is written. -/
theorem Writes.same {c : Record → Option Change} {s s' : RegistryHandler} (h : s'.tasks = s.tasks)
    (hc : ∀ k t, s.record? k = some t → c t = Option.none) : Writes c s s' :=
  (Writes.none h).of_eq hc

/-- One pass over the entries after another. -/
theorem Writes.trans {c c' d : Record → Option Change} {s s' s'' : RegistryHandler} (h : Writes c s s')
    (h' : Writes c' s' s'') (hd : ∀ t : Record, t.after (d t) = (t.after (c t)).after (c' (t.after (c t))))
    (hs : s''.dispatching = s'.dispatching) : Writes d s s'' where
  entry k t ht := by rw [hd]; exact h'.entry k _ (h.entry k t ht)
  created k t hn ht := by
    cases hr : s'.record? k with
    | none => exact h'.created k t hr ht
    | some t' =>
      have he := h'.entry k t' hr
      rw [ht] at he
      cases he
      rcases h.created k t' hn hr with hc | hc
      · left
        simpa using hc
      · right
        rw [hs]
        exact hc

/-- Nothing but the entries is written. -/
def OnlyTasks (s s' : RegistryHandler) : Prop := s' = { s with tasks := s'.tasks }

theorem OnlyTasks.refl (s : RegistryHandler) : OnlyTasks s s := rfl

theorem OnlyTasks.dispatching {s s' : RegistryHandler} (h : OnlyTasks s s') :
    s'.dispatching = s.dispatching := by
  rw [h]

theorem OnlyTasks.trans {s s' s'' : RegistryHandler} (h : OnlyTasks s s') (h' : OnlyTasks s' s'') :
    OnlyTasks s s'' := by
  unfold OnlyTasks at *
  rw [h']
  rw [h]

section
variable (e : Engine) (s : RegistryHandler) (agentId : String) (clocks : String → Clock)

theorem writeRecord_only (taskId : String) (c : Change) :
    OnlyTasks s (s.writeRecord agentId taskId c) := rfl

/-- The same assignments to all selected entries. -/
theorem setRecords_writes (p : Record → Bool) (c : Change) :
    Writes (fun t => if p t then some c else none) s (s.setRecords p c) where
  entry k t ht := by
    have hm : (s.setRecords p c).record? k =
        (s.record? k).map (fun t => if p t then c.apply t else t) :=
      Table.find_modify s.tasks p c.apply c.apply_id k
    rw [hm, ht]
    cases hp : p t <;> simp [hp]
  created k t hn ht := by
    have hm : (s.setRecords p c).record? k =
        (s.record? k).map (fun t => if p t then c.apply t else t) :=
      Table.find_modify s.tasks p c.apply c.apply_id k
    rw [hm, hn] at ht
    cases ht

theorem setRecord_writes (taskId : String) (c : Change) :
    Writes (fun t => if t.id = taskId then some c else none) s (s.setRecord taskId c) where
  entry k t ht := by
    have hid : t.id = k := Memory.record_id ht
    rw [RegistryHandler.record_setRecord, ht, hid]
    by_cases hk : k = taskId <;> simp [hk]
  created k t hn ht := by
    rw [RegistryHandler.record_setRecord, hn] at ht
    cases ht

theorem writeRecord_writes (taskId : String) (c : Change) :
    Writes (fun t => if t.id = taskId then some c else none) s (s.writeRecord agentId taskId c) where
  entry k t ht := by
    have hid : t.id = k := Memory.record_id ht
    by_cases hk : k = taskId
    · subst hk
      simp [ht, hid]
    · simp [ht, hid, hk]
  created k t hn ht := by
    rw [RegistryHandler.record_writeRecord] at ht
    split at ht
    · rename_i hk
      subst hk
      cases ht
      left
      simp [hn, Record.blank]
    · rw [hn] at ht
      cases ht

theorem restoreTask_restores (d : Dispatched) :
    OnlyTasks s (restoreTask agentId s d) ∧ Writes (fun _ => none) s (restoreTask agentId s d) := by
  unfold restoreTask
  split
  · exact ⟨.refl s, .none rfl⟩
  · rename_i hd
    cases s.taskStore.task? d.taskId with
    | none => exact ⟨.refl s, .none rfl⟩
    | some row =>
      dsimp only
      split
      · exact ⟨.refl s, .none rfl⟩
      · simp only [Bool.or_eq_true, not_or] at hd
        have hn : s.record? d.taskId = none := by simpa using hd.2
        refine ⟨writeRecord_only s agentId d.taskId _, fun k t ht => ?_, fun k t hk ht => ?_⟩
        · have hk : k ≠ d.taskId := by
            rintro rfl
            rw [hn] at ht
            cases ht
          simp [hk, ht]
        · rw [RegistryHandler.record_writeRecord] at ht
          split at ht
          · cases ht
            left
            simp [hn, Record.blank]
          · rw [hk] at ht
            cases ht

/-- Restoring entries is nothing to those there are, and to the rest of the server. -/
theorem restoreTasks_restores : OnlyTasks s (restoreTasks s agentId) ∧
    Writes (fun _ => none) s (restoreTasks s agentId) := by
  unfold restoreTasks
  cases s.dispatchedWsTasks with
  | none => exact ⟨.refl s, .none rfl⟩
  | some tasks =>
    dsimp only
    generalize tasks.rows = rows
    induction rows generalizing s with
    | nil => exact ⟨.refl s, .none rfl⟩
    | cons d rows ih =>
      obtain ⟨hd, hw⟩ := restoreTask_restores s agentId d
      obtain ⟨hr, hv⟩ := ih (restoreTask agentId s d)
      exact ⟨hd.trans hr, hw.trans hv (fun t => rfl) hr.dispatching⟩

theorem mergeRecord_merges (taskId : String) (status : Json) :
    OnlyTasks s (mergeRecord s agentId taskId status) ∧
      Writes (fun t => if t.id = taskId then some { state := status } else none) s
        (mergeRecord s agentId taskId status) := by
  unfold mergeRecord
  split
  · exact ⟨writeRecord_only s agentId taskId _, writeRecord_writes s agentId taskId _⟩
  · rename_i hc
    have hn : s.record? taskId = none := by
      simp only [Bool.or_eq_true, not_or] at hc
      simpa using hc.1
    refine ⟨.refl s, fun k t ht => ?_, fun k t hk ht => ?_⟩
    · have hid : t.id = k := Memory.record_id ht
      have hk : t.id ≠ taskId := by
        rintro rfl
        rw [hid, ht] at hn
        cases hn
      simpa [hk] using ht
    · rw [hk] at ht
      cases ht

/-- The change the merge of these items makes to an entry. -/
def mergeChange (items : List Json) (t : Record) : Option Change :=
  (lastListed t.id items).map (fun status => { state := status })

/-- The merge writes the last status that is listed for a task, and nothing but entries. -/
theorem mergeTasks_merges (items : List Json) : OnlyTasks s (mergeTasks e agentId clocks items s 0) ∧
    Writes (mergeChange items) s (mergeTasks e agentId clocks items s 0) := by
  induction items generalizing s with
  | nil => exact ⟨.refl s, .none rfl⟩
  | cons item items ih =>
    cases item with
    | obj fields =>
      cases hm : mergedItem fields with
      | none =>
        have he : mergeChange (.obj fields :: items) = mergeChange items := by
          funext t
          simp [mergeChange, lastListed, hm]
        rw [he]
        simpa only [mergeTasks, hm] using ih s
      | some listed =>
        obtain ⟨id, status⟩ := listed
        have hone := mergeRecord_merges s agentId id status
        obtain ⟨ho, hw⟩ := ih (mergeRecord s agentId id status)
        simp only [mergeTasks, hm, healTask_none]
        refine ⟨hone.1.trans ho, hone.2.trans hw (fun t => ?_) ho.dispatching⟩
        · have hid : (t.after (if t.id = id then some { state := status } else none)).id = t.id := by
            simp
          simp only [mergeChange, lastListed, hm, hid]
          by_cases ht : t.id = id
          · cases hl : lastListed t.id items with
            | none => simp [ht, Option.filter]
            | some st => simp [ht, Change.apply]
          · have hne : (id == t.id) = false := by simpa using Ne.symm ht
            simp [ht, hne, Option.filter]
    | _ => exact ⟨.refl s, .none rfl⟩

variable (data : List (String × Json)) (now : Int) (card : Option Bool)

/-- What a `state_sync` assigns to an entry. -/
def syncChange (t : Record) : Option Change :=
  (syncedItems s agentId data now card).bind (fun items => mergeChange items t)

/-- A `state_sync` writes entries and the rate limiter; it never heals a kanban task. -/
theorem stateSync_writes :
    handleStateSync e s agentId data clocks now card =
      { s with
        tasks := (handleStateSync e s agentId data clocks now card).tasks
        stateSyncLast := (recordSync s agentId data now).stateSyncLast } ∧
    Writes (syncChange s agentId data now card) s (handleStateSync e s agentId data clocks now card) := by
  have hr : recordSync s agentId data now =
      { s with stateSyncLast := (recordSync s agentId data now).stateSyncLast } := by
    unfold recordSync
    dsimp only
    split <;> rfl
  have ht : (recordSync s agentId data now).tasks = s.tasks := by rw [hr]
  unfold handleStateSync syncChange
  cases hi : syncedItems s agentId data now card with
  | none => exact ⟨by rw [ht]; exact hr, .none ht⟩
  | some items =>
    obtain ⟨ho, hw⟩ := restoreTasks_restores (recordSync s agentId data now) agentId
    obtain ⟨ho', hw'⟩ := mergeTasks_merges e (restoreTasks (recordSync s agentId data now) agentId)
      agentId clocks items
    refine ⟨?_, ((Writes.none ht).trans hw (fun _ => rfl) ho.dispatching).trans hw' (fun _ => rfl)
      ho'.dispatching⟩
    dsimp only
    rw [ho.trans ho']
    rw [hr]

end

end A2ARegistry.Server
