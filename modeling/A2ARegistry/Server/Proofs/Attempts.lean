import A2ARegistry.Server.Proofs.Outcomes

namespace A2ARegistry.Server
open Base Orchestration

/-- What an attempt decides about its task. -/
def progressOf (row : Task) : TaskStatus × Option String × Nat :=
  (row.status, row.result, row.consecutiveFailures)

/-- A run in which the dispatcher sends an attempt of the task, that attempt fails, and the task
runs again at the end: its row is of a later attempt. -/
structure Retried (e : Engine) (s₀ : RegistryHandler) (k : String) (events : List Event) (row : Task) :
    Prop where
  attempts : ∃ before clock agentId after,
    events = before ++ .sendEnds clock ⟨k, agentId, .ws⟩ none :: after ∧
    ⟨k, agentId, .ws⟩ ∈ (exec (Event.step e) s₀ before).sending ∧
    Visits (Event.step e) (fun s => InStatus k .failed s.taskStore)
      (exec (Event.step e) s₀ (before ++ [.sendEnds clock ⟨k, agentId, .ws⟩ none])) after
  stored : (exec (Event.step e) s₀ events).taskStore.task? k = some row
  running : row.status = .running

/-- The message does not reach the row: it is about another task, it passes nothing on, or the
call it makes raises. -/
def Harmless (e : Engine) (row : Task) (k : String) (data : List (String × Json)) : Prop :=
  match messageUpdate e data with
  | none => True
  | some (id, new, value) => id = k → match new with
    | .completed => e.bindFor row .completed value = none
    | .failed => e.bind value = none ∨ Overflows row
    | _ => True

section
variable (e : Engine) (s : RegistryHandler)

theorem message_tracked (agentId : String) (data : List (String × Json)) (around : Surroundings) :
    ((Event.message agentId data around).step e s).dispatchedWsTasks = s.dispatchedWsTasks := by
  simp only [Event.step]
  cases hty : messageType data with
  | none => rfl
  | some type =>
    by_cases hs : type = .stateSync
    · subst hs
      obtain ⟨hf, _⟩ := stateSync_writes e s agentId around.clocks data around.now around.card
      exact congrArg (fun r => r.dispatchedWsTasks) hf
    · obtain ⟨change, hc⟩ := messageChange_isSome data hs
      simp only [handleMessage_task e s agentId around hc]
      cases hid : messageId data with
      | none => rfl
      | some id => exact (congrArg Memory.dispatchedWsTasks (memory_reportTask e s ..) :)

theorem dangle_tracked (agentId : String) (clocks : String → Clock) :
    (dangleAgentTasks e s agentId clocks).dispatchedWsTasks = s.dispatchedWsTasks := by
  rcases dangle_cases s agentId with h | ⟨k, t, ht, ha⟩
  · exact congrArg (fun r => r.dispatchedWsTasks) (dangle_idle e s clocks h)
  · exact (congrArg Memory.dispatchedWsTasks (memory_dangle e s clocks ht ha) :)

theorem timeoutWorker_tracked (taskId : String) (clock : Clock) (connected : Bool) :
    (timeoutWorker e s taskId clock connected).dispatchedWsTasks = s.dispatchedWsTasks := by
  unfold timeoutWorker
  split
  · rfl
  · split
    · rfl
    · split
      · rfl
      · exact (congrArg Memory.dispatchedWsTasks (memory_finishTimeout e _ taskId clock) :)

theorem endDispatch_tracked (taskId : String) (how : DispatchEnd) :
    (endDispatch s taskId how).dispatchedWsTasks = s.dispatchedWsTasks := by
  cases how with
  | delivered =>
    simp only [endDispatch, RegistryHandler.scheduleTaskTimeout]
    split <;> rfl
  | failed | cancelled => rfl

theorem endCallback_tracked (clock : Clock) (taskId : String) (body : Option (List (String × Json))) :
    (endCallback e s clock taskId body).dispatchedWsTasks = s.dispatchedWsTasks := by
  unfold endCallback
  split
  · cases body with
    | none => rfl
    | some body => exact (congrArg Memory.dispatchedWsTasks (finishCallback_memory e _ clock taskId body) :)
  · rfl

theorem endSend_tracked (clock : Clock) (sent : Sending) (error : Option DispatchError) :
    (endSend e s clock sent error).dispatchedWsTasks = s.dispatchedWsTasks ∨
      (endSend e s clock sent error).dispatchedWsTasks =
        (s.track sent.taskId sent.assignee).dispatchedWsTasks := by
  unfold endSend
  split
  · split
    · exact Or.inr rfl
    · exact Or.inl rfl
    · exact Or.inl (congrArg Memory.dispatchedWsTasks (RegistryHandler.memory_updateStore ..) :)
  · exact Or.inl rfl

/-- An event tracks one task or none; no task is ever taken off `_dispatched_ws_tasks`. -/
theorem step_tracked (ev : Event) : (ev.step e s).dispatchedWsTasks = s.dispatchedWsTasks ∨
    ∃ k agentId, (ev.step e s).dispatchedWsTasks = (s.track k agentId).dispatchedWsTasks := by
  cases ev with
  | storeCall op => exact Or.inl rfl
  | message agentId data around => exact Or.inl (message_tracked e s agentId data around)
  | disconnect agentId clocks => exact Or.inl (dangle_tracked e s agentId clocks)
  | danglingExpires agentId clocks =>
    left
    simp only [Event.step]
    split
    · exact (congrArg Memory.dispatchedWsTasks (memory_dangleTimeout e s agentId clocks) :)
    · rfl
  | timeoutExpires taskId clock connected =>
    left
    simp only [Event.step]
    split
    · exact timeoutWorker_tracked e s taskId clock connected
    · rfl
  | timeoutSent taskId clock =>
    left
    simp only [Event.step]
    split
    · exact (congrArg Memory.dispatchedWsTasks (memory_finishTimeout e s taskId clock) :)
    · rfl
  | dispatchBegins agentId taskId now =>
    left
    simp only [Event.step, beginDispatch]
    split <;> rfl
  | dispatchEnds taskId how =>
    left
    simp only [Event.step]
    split
    · exact endDispatch_tracked s taskId how
    · rfl
  | callbackBegins taskId card authHeader =>
    left
    simp only [Event.step, beginCallback]
    split
    · split <;> rfl
    · rfl
  | callbackEnds taskId clock body => exact Or.inl (endCallback_tracked e s clock taskId body)
  | sendBegins clock taskId assignee channel pid ttl workspace =>
    left
    simp only [Event.step]
    split
    · obtain ⟨_, hm⟩ := memory_beginSend e s clock taskId assignee channel pid ttl workspace
      exact (congrArg Memory.dispatchedWsTasks hm :)
    · rfl
  | sendEnds clock sent error =>
    rcases endSend_tracked e s clock sent error with h | h
    · exact Or.inl h
    · exact Or.inr ⟨_, _, h⟩
  | reconnect agentId listed => exact Or.inl rfl
  | redispatches clock agentId taskId =>
    obtain ⟨_, _, hm⟩ := memory_redispatch e s clock agentId taskId
    exact Or.inl (congrArg Memory.dispatchedWsTasks hm :)

variable {s}

theorem assignee_track {tasks : Table Dispatched} (h : s.dispatchedWsTasks = some tasks)
    (id agentId k : String) : (s.track id agentId).assignee? k =
      if k = id then some agentId else s.assignee? k := by
  have hput : (tasks.put ⟨id, agentId⟩).find? k =
      if k = id then some ⟨id, agentId⟩ else tasks.find? k := Table.find_put tasks _ k
  simp only [Memory.assignee?, RegistryHandler.track, h, Option.map_some, Option.bind_some, hput]
  split <;> rfl

theorem step_dispatcher (ev : Event) (h : s.dispatchedWsTasks.isSome) :
    (ev.step e s).dispatchedWsTasks.isSome := by
  rcases step_tracked e s ev with hs | ⟨id, agentId, hs⟩
  · rw [hs]
    exact h
  · rw [hs]
    simpa [RegistryHandler.track] using h

/-- A task stays dispatched through every event, whatever became of the attempt. -/
theorem step_dispatched (ev : Event) {k : String} (h : s.isDispatched k = true) :
    (ev.step e s).isDispatched k = true := by
  cases htasks : s.dispatchedWsTasks with
  | none => simp [Memory.isDispatched, Memory.assignee?, htasks] at h
  | some tasks =>
    rcases step_tracked e s ev with hs | ⟨id, agentId, hs⟩
    · simpa [Memory.isDispatched, Memory.assignee?, hs] using h
    · have ha := assignee_track htasks id agentId k
      have he : (ev.step e s).assignee? k = (s.track id agentId).assignee? k := by
        simp only [Memory.assignee?, hs]
      rw [Memory.isDispatched, he, ha]
      split
      · rfl
      · exact h

theorem exec_dispatcher (events : List Event) (h : s.dispatchedWsTasks.isSome) :
    (exec (Event.step e) s events).dispatchedWsTasks.isSome :=
  exec_invariant (I := fun s : RegistryHandler => s.dispatchedWsTasks.isSome = true)
    (fun _ ev h => step_dispatcher e ev h) h events

theorem exec_dispatched (events : List Event) {k : String} (h : s.isDispatched k = true) :
    (exec (Event.step e) s events).isDispatched k = true :=
  exec_invariant (I := fun s : RegistryHandler => s.isDispatched k = true)
    (fun _ ev h => step_dispatched e ev h) h events

/-- A task that is sent is dispatched from then on. -/
theorem sent_dispatched {clock : Clock} {k agentId : String} {channel : Channel}
    (hd : s.dispatchedWsTasks.isSome) (hs : ⟨k, agentId, channel⟩ ∈ s.sending) :
    ((Event.sendEnds clock ⟨k, agentId, channel⟩ none).step e s).isDispatched k = true := by
  obtain ⟨tasks, htasks⟩ := Option.isSome_iff_exists.mp hd
  have ha := assignee_track htasks k agentId k
  rw [if_pos rfl] at ha
  have he : ((Event.sendEnds clock ⟨k, agentId, channel⟩ none).step e s).assignee? k =
      (s.track k agentId).assignee? k := by
    simp only [Event.step, endSend, hs, if_true]
    rfl
  rw [Memory.isDispatched, he, ha]
  rfl

theorem Retried.dispatched {db : Db} {k : String} {events : List Event} {row : Task}
    (h : Retried e (.start db true) k events row) :
    (exec (Event.step e) (.start db true) events).isDispatched k = true := by
  obtain ⟨before, clock, agentId, after, rfl, hs, _⟩ := h.attempts
  have hd := exec_dispatcher e (s := .start db true) before rfl
  rw [exec_append, exec_cons]
  exact exec_dispatched e after (sent_dispatched e hd hs)

end

/-- A report on another task is nothing to a running one. -/
theorem report_elsewhere {e : Engine} {db : Db} {clock : Clock} {id k : String} {row : Task}
    (hrow : db.task? k = some row) (hs : row.status = .running) (hne : id ≠ k) (dispatched : Bool)
    (update : TaskStatus × Json) :
    (boardAfter e db clock id dispatched (some update)).task? k = some row := by
  simp only [boardAfter]
  split
  · cases h : reportStatus e db clock id update.1 update.2 with
    | none => exact hrow
    | some db' =>
      obtain ⟨row', hrow', hstep⟩ := report_row h hrow
      have hid := Db.task_id hrow
      cases hstep with
      | same => exact hrow'
      | settled =>
        rcases settle_cases db' row with ⟨ht, _⟩ | ⟨ht, _⟩ | ⟨_, _, he⟩
        · rw [hs] at ht
          cases ht
        · rw [hs] at ht
          cases ht
        · rw [he] at hrow'
          exact hrow'
      | reported own => exact absurd (own.symm.trans hid) hne
  · exact hrow

/-- The outcomes `_reconcile_task_store` passes on are three. -/
theorem update_new {e : Engine} {o : Outcome} {new : TaskStatus} {value : Json}
    (h : o.update e = some (new, value)) : new = .running ∨ new = .completed ∨ new = .failed := by
  unfold Outcome.update at h
  split at h
  · cases h
    exact Or.inl rfl
  · split at h
    · cases h
      exact Or.inr (Or.inl rfl)
    · split at h
      · cases h
        exact Or.inr (Or.inr rfl)
      · cases h

theorem messageUpdate_new {e : Engine} {data : List (String × Json)} {id : String} {new : TaskStatus}
    {value : Json} (h : messageUpdate e data = some (id, new, value)) :
    new = .running ∨ new = .completed ∨ new = .failed := by
  simp only [messageUpdate, Option.bind_eq_some_iff, Option.map_eq_some_iff, Prod.mk.injEq] at h
  obtain ⟨type, _, k, _, update, ⟨o, _, ho⟩, _, rfl⟩ := h
  exact update_new ho

section
variable {e : Engine} {s : RegistryHandler} {k : String} {row : Task}

/-- A running task that is dispatched is open to every message about it. -/
theorem message_progress_iff (hd : s.isDispatched k = true) (hrow : s.taskStore.task? k = some row)
    (hs : row.status = .running) (agentId : String) (data : List (String × Json))
    (around : Surroundings) :
    (((Event.message agentId data around).step e s).taskStore.task? k).map progressOf =
      some (progressOf row) ↔ Harmless e row k data := by
  rw [message_store, Harmless]
  cases hm : messageUpdate e data with
  | none => simp [hrow]
  | some named =>
    obtain ⟨id, new, value⟩ := named
    dsimp only
    by_cases hid : id = k
    · subst hid
      rw [hd]
      rcases boardAfter_own e (around.clocks id) hrow new value with
        ⟨bound, retryAt, hr, ht⟩ | ⟨hn, hsame⟩
      · -- the report goes through, so the row is no longer running
        have hedge := hr.edge
        rw [ht]
        rcases messageUpdate_new hm with rfl | rfl | rfl
        · simp [hs, transitions] at hedge
        · have hb := ((reportable_completed_iff hs).mp hr).1
          simp [progressOf, Task.report, hs, hb]
        · obtain ⟨hb, hretry⟩ := (reportable_failed_iff hs).mp hr
          have ho := (nextRetry_failed_iff (around.clocks id).now).mp ⟨retryAt, hretry⟩
          simp [progressOf, Task.report, hs, hb, ho]
      · rw [hsame, hrow]
        refine ⟨fun _ _ => ?_, fun _ => rfl⟩
        rcases messageUpdate_new hm with rfl | rfl | rfl
        · trivial
        · by_contra hb
          obtain ⟨bound, hb⟩ := Option.ne_none_iff_exists'.mp hb
          exact hn ⟨bound, none, (reportable_completed_iff hs).mpr ⟨hb, rfl⟩⟩
        · by_contra hb
          obtain ⟨hbind, ho⟩ := not_or.mp hb
          obtain ⟨bound, hbind⟩ := Option.ne_none_iff_exists'.mp hbind
          obtain ⟨retryAt, hretry⟩ := (nextRetry_failed_iff (around.clocks id).now).mpr ho
          exact hn ⟨bound, retryAt, (reportable_failed_iff hs).mpr ⟨hbind, hretry⟩⟩
    · rw [report_elsewhere hrow hs hid]
      simp [hid]

end

/-- While a later attempt runs, a late message about an earlier one leaves the kanban task alone
exactly when it does not reach the row: no attempt is told from another. -/
theorem late_message_iff (e : Engine) {db : Db} {k : String} {events : List Event} {row : Task}
    (h : Retried e (.start db true) k events row) (agentId : String) (data : List (String × Json))
    (around : Surroundings) :
    (((exec (Event.step e) (.start db true) (events ++ [.message agentId data around])).taskStore.task?
      k).map progressOf = some (progressOf row)) ↔ Harmless e row k data := by
  rw [exec_append]
  exact message_progress_iff (h.dispatched e) h.stored h.running agentId data around

/-- The claim of a first attempt expires, and the task is promoted and sent again. -/
def retriedTask : List Event :=
  [.storeCall (.createTask (.fixed 0) "a" { title := "a", assignee := some "a" }),
    .sendBegins (.fixed 0) "t_a" "a" .ws 1 900 (.ok "/tmp"), .sendEnds (.fixed 0) ⟨"t_a", "a", .ws⟩ none,
    .storeCall (.releaseExpiredClaims (.fixed 900) none),
    .storeCall (.promoteRetryableTasks (.fixed 900) none),
    .sendBegins (.fixed 901) "t_a" "a" .ws 1 900 (.ok "/tmp"), .sendEnds (.fixed 901) ⟨"t_a", "a", .ws⟩ none]

theorem retriedTask_retried : ∃ row, Retried idleEngine (.start Db.empty true) "t_a" retriedTask row := by
  refine ⟨_, ⟨retriedTask.take 2, .fixed 0, "a", retriedTask.drop 3, rfl, ?_, ?_⟩, rfl, rfl⟩
  · exact List.mem_cons_self
  · exact Or.inr (Or.inl rfl)

/-- A late `task_complete` of the first attempt completes the second. -/
theorem retriedTask_completed_late : ∃ row, Retried idleEngine (.start Db.empty true) "t_a" retriedTask row ∧
    ((exec (Event.step idleEngine) (.start Db.empty true)
      (retriedTask ++ [tells "a" "task_complete" [("id", .str "t_a")]])).taskStore.task?
        "t_a").map progressOf ≠ some (progressOf row) := by
  obtain ⟨row, h⟩ := retriedTask_retried
  refine ⟨row, h, fun hp => ?_⟩
  have hlate : some (TaskStatus.completed, none, 0) = some (progressOf row) := hp
  simp [progressOf, h.running] at hlate

/-- A late result that says `done` does nothing. -/
theorem retriedTask_spared : ∃ row, Retried idleEngine (.start Db.empty true) "t_a" retriedTask row ∧
    ((exec (Event.step idleEngine) (.start Db.empty true)
      (retriedTask ++ [tells "a" "task_result" [("id", .str "t_a"), ("status", .str "done")]])).taskStore.task?
        "t_a").map progressOf = some (progressOf row) := by
  obtain ⟨row, h⟩ := retriedTask_retried
  exact ⟨row, h, (late_message_iff idleEngine h "a" _ _).mpr trivial⟩

end A2ARegistry.Server
