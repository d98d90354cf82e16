import A2ARegistry.Orchestration.Proofs.Rows

namespace A2ARegistry.Orchestration
open Base

def payloadField (payload : Option (List (String × Json))) (name : String) : Option Json :=
  payload.bind (fun fields => (fields.find? (fun f => f.1 == name)).map Prod.snd)

/-- The status an audit event of this kind records, if it records one. -/
def eventStatus (kind : String) (payload : Option (List (String × Json))) : Option Json :=
  if kind = TaskEventKind.created.value then some ((payloadField payload "status").getD .null)
  else if kind = TaskEventKind.claimed.value then some (.str TaskStatus.running.value)
  else if kind = "released" then some (.str TaskStatus.failed.value)
  else payloadField payload "to"

def replayEvent (k : String) (status : Json) (e : TaskEvent) : Json :=
  if e.taskId = k then (eventStatus e.kind e.payload).getD status else status

/-- The status of a task according to its audit events. -/
def replay (k : String) (events : List TaskEvent) : Json := events.foldl (replayEvent k) .null

/-- The audit log is in id order and tells the status of every task. -/
structure Audited (db : Db) : Prop where
  ordered : db.events.rows.Pairwise (fun a b => a.id < b.id)
  status : ∀ k t, db.task? k = some t → replay k db.events.rows = .str t.status.value

theorem replay_append (k : String) (events : List TaskEvent) (e : TaskEvent) :
    replay k (events ++ [e]) = replayEvent k (replay k events) e := by
  simp [replay]

theorem empty_audited : Audited Db.empty := by
  refine ⟨List.Pairwise.nil, ?_⟩
  intro k t ht
  cases ht

@[simp] theorem events_setTask (db : Db) (id : String) (f : Task → Task) (hf : ∀ t, (f t).id = t.id) :
    (db.setTask id f hf).events = db.events := rfl

@[simp] theorem events_setRun (db : Db) (id : Option Nat) (f : TaskRun → TaskRun)
    (hf : ∀ r, (f r).id = r.id) : (db.setRun id f hf).events = db.events := by
  cases id <;> rfl

/-- The log of `db'` is the log of `db` and one more event. -/
def Emits (db db' : Db) (taskId kind : String) (payload : Option (List (String × Json))) : Prop :=
  ∃ e : TaskEvent, db'.events.rows = db.events.rows ++ [e] ∧ e.id = db.events.next ∧
    e.taskId = taskId ∧ e.kind = kind ∧ e.payload = payload

theorem emitEvent_emits {db mid : Db} (h : mid.events = db.events) (clock : Clock)
    (taskId kind : String) (runId : Option Nat) (payload : List (String × Json)) :
    Emits db (emitEvent mid clock taskId kind runId payload) taskId kind
      (if payload.isEmpty then none else some payload) := by
  unfold Emits
  rw [← h]
  exact ⟨⟨mid.events.next, taskId, runId, kind, if payload.isEmpty then none else some payload,
    clock.eventNow mid.events.next⟩, rfl, rfl, rfl, rfl, rfl⟩

section
variable {db db' : Db}

/-- Where no status changes and nothing is logged, the log stays right. -/
theorem Audited.congr (h : Audited db) (he : db'.events = db.events)
    (ht : ∀ k t', db'.task? k = some t' → ∃ t, db.task? k = some t ∧ t'.status = t.status) :
    Audited db' := by
  refine ⟨he ▸ h.ordered, fun k t' ht' => ?_⟩
  obtain ⟨t, hb, hs⟩ := ht k t' ht'
  rw [he, hs]
  exact h.status k t hb

/-- An event logged together with a change of its task's row: the log stays right if
the event records the new status, or records none and the status has not changed. -/
theorem Audited.emits {id kind : String} {payload : Option (List (String × Json))} (h : Audited db)
    (he : Emits db db' id kind payload)
    (hother : ∀ k t', k ≠ id → db'.task? k = some t' →
      ∃ t, db.task? k = some t ∧ t'.status = t.status)
    (hself : ∀ t', db'.task? id = some t' → eventStatus kind payload = some (.str t'.status.value) ∨
      eventStatus kind payload = none ∧ ∃ t, db.task? id = some t ∧ t'.status = t.status) :
    Audited db' := by
  obtain ⟨e, hrows, hnext, htask, rfl, rfl⟩ := he
  refine ⟨?_, fun k t' ht' => ?_⟩
  · rw [hrows, List.pairwise_append]
    refine ⟨h.ordered, List.pairwise_singleton _ _, fun a ha b hb => ?_⟩
    rw [List.mem_singleton.mp hb, hnext]
    exact db.events.bound a ha
  · rw [hrows, replay_append, replayEvent, htask]
    by_cases hk : id = k
    · subst hk
      rw [if_pos rfl]
      rcases hself t' ht' with hset | ⟨hnone, t, hb, hs⟩
      · rw [hset]
        rfl
      · rw [hnone, hs]
        exact h.status id t hb
    · rw [if_neg hk]
      obtain ⟨t, hb, hs⟩ := hother k t' (Ne.symm hk) ht'
      rw [hs]
      exact h.status k t hb

/-- An event that records no status, logged where no status changes. -/
theorem Audited.notes {id kind : String} {payload : Option (List (String × Json))} (h : Audited db)
    (he : Emits db db' id kind payload) (hn : eventStatus kind payload = none)
    (ht : ∀ k t', db'.task? k = some t' → ∃ t, db.task? k = some t ∧ t'.status = t.status) :
    Audited db' :=
  h.emits he (fun k t' _ => ht k t') (fun t' ht' => Or.inr ⟨hn, ht id t' ht'⟩)

/-- A status set on one row, logged with an event that records it. -/
theorem Audited.sets {id kind : String} {payload : List (String × Json)} {status : TaskStatus}
    {runId : Option Nat} (h : Audited db) (mid : Db) (clock : Clock) (f : Task → Task)
    (hf : ∀ t, (f t).id = t.id) (hev : mid.events = db.events) (htask : ∀ k, mid.task? k = db.task? k)
    (hs : ∀ t, (f t).status = status) (hne : payload.isEmpty = false)
    (hp : eventStatus kind (some payload) = some (.str status.value)) :
    Audited (emitEvent (mid.setTask id f hf) clock id kind runId payload) := by
  have he : Emits db (emitEvent (mid.setTask id f hf) clock id kind runId payload) id kind
      (if payload.isEmpty then none else some payload) := emitEvent_emits hev clock id kind runId payload
  apply h.emits he
  · intro k t' hk ht'
    rw [task_emitEvent, Db.task_setTask, htask] at ht'
    simp only [hk, if_false, Option.map_id'] at ht'
    exact ⟨t', ht', rfl⟩
  · intro t' ht'
    rw [task_emitEvent, Db.task_setTask, htask] at ht'
    obtain ⟨t, _, rfl⟩ := Option.map_eq_some_iff.mp ht'
    left
    simp [hne, hp, hs]

end

section
variable {db : Db}

theorem moveByDependencies_audited (h : Audited db) (clock : Clock) (id : String) {status : TaskStatus}
    {payload : List (String × Json)} (hne : payload.isEmpty = false)
    (hp : payloadField (some payload) "to" = some (.str status.value)) :
    Audited (moveByDependencies db clock id status payload) :=
  h.sets db clock _ _ rfl (fun _ => rfl) (fun _ => rfl) hne hp

theorem resolve_audited (h : Audited db) (clock : Clock) (id : String) :
    Audited (resolveDependencies db clock id) := by
  unfold resolveDependencies
  dsimp only
  split
  · exact h
  split
  · split
    · exact moveByDependencies_audited h clock id rfl rfl
    · exact h
  split
  · split
    · exact moveByDependencies_audited h clock id rfl rfl
    · exact h
  split
  · exact moveByDependencies_audited h clock id rfl rfl
  · exact h

theorem relinked_audited (h : Audited db) (links : Table TaskLink) (clock : Clock) (id : String) :
    Audited (resolveDependencies { db with links := links } clock id) := by
  have hlinks : Audited { db with links := links } := h.congr rfl fun _ t ht => ⟨t, ht, rfl⟩
  exact resolve_audited hlinks clock id

theorem resolveChildren_audited (h : Audited db) (clock : Clock) (id : String) :
    Audited (resolveChildren db clock id) := by
  unfold resolveChildren
  generalize childIds db id = children
  induction children generalizing db with
  | nil => exact h
  | cons c cs ih => exact ih (resolve_audited h clock c)

theorem finishRun_events (db : Db) (now : Int) (t : Task) (new : TaskStatus) (args : StatusArgs) :
    (finishRun db now t new args).events = db.events := by
  unfold finishRun
  split
  · rw [events_setRun]
  · rfl

/-- The kinds of `update_task_status` are none of those that record a status by themselves. -/
theorem eventKind_status {old new : TaskStatus} {kind : String} (h : eventKind old new = .ok kind)
    (payload : Option (List (String × Json))) : eventStatus kind payload = payloadField payload "to" := by
  have hk : kind ≠ TaskEventKind.created.value ∧ kind ≠ TaskEventKind.claimed.value ∧
      kind ≠ "released" := by
    unfold eventKind at h
    split at h
    · cases h
      decide
    split at h
    · cases h
    · cases new <;> cases h <;> decide
  unfold eventStatus
  rw [if_neg hk.1, if_neg hk.2.1, if_neg hk.2.2]

theorem writeStatus_audited (h : Audited db) (clock : Clock) {task : Task} {new : TaskStatus}
    (args : StatusArgs) (retryAt : Option Int) {kind : String}
    (hk : eventKind task.status new = .ok kind) :
    Audited (writeStatus db clock task new args retryAt kind) := by
  have hmoved : Audited (moveStatus db clock task new args retryAt kind) := by
    unfold moveStatus
    apply h.sets (finishRun db clock.now task new args) clock
    · exact finishRun_events ..
    · exact fun k => finishRun_task _ _ _ _ _ k
    · exact fun _ => rfl
    · rfl
    · exact eventKind_status hk _
  unfold writeStatus
  split
  · exact resolveChildren_audited hmoved clock task.id
  · exact hmoved

theorem releaseOne_audited (h : Audited db) (clock : Clock) (row : Task) :
    Audited (releaseOne clock db row) := by
  have hlogged : Audited (emitEvent ((db.setRun row.currentRunId (fun r => r.timeOut clock.now)
      (fun r => r.timeOut_id clock.now)).setTask row.id
      (fun t => t.release clock.now (row.consecutiveFailures + 1))
      (fun t => t.release_id clock.now (row.consecutiveFailures + 1))) clock row.id "released"
      row.currentRunId [("reason", .str "claim_ttl_expired"),
        ("failures", .int (row.consecutiveFailures + 1 : Nat))]) := by
    apply h.sets _ clock
    · exact events_setRun ..
    · exact fun k => Db.task_setRun _ _ _ _ k
    · exact fun _ => rfl
    · rfl
    · rfl
  exact hlogged.notes (emitEvent_emits rfl ..) rfl (fun _ t ht => ⟨t, ht, rfl⟩)

theorem release_audited (h : Audited db) (clock : Clock) (tenant : Option String) :
    Audited (releaseExpiredClaims db clock tenant).2 := by
  unfold releaseExpiredClaims
  dsimp only
  generalize db.tasks.select (fun t => t.expired clock.now tenant) = rows
  induction rows generalizing db with
  | nil => exact h
  | cons row rows ih => exact ih (releaseOne_audited h clock row)

theorem promoteOne_audited (h : Audited db) (clock : Clock) (row : Task) :
    Audited (promoteOne clock db row) := by
  unfold promoteOne
  apply h.sets _ clock
  · rfl
  · exact fun _ => rfl
  · exact fun _ => rfl
  · rfl
  · rfl

theorem promote_audited (h : Audited db) (clock : Clock) (tenant : Option String) :
    Audited (promoteRetryableTasks db clock tenant).2 := by
  unfold promoteRetryableTasks
  dsimp only
  generalize db.tasks.select (fun t => t.retryable tenant) = rows
  induction rows generalizing db with
  | nil => exact h
  | cons row rows ih => exact ih (promoteOne_audited h clock row)

theorem heartbeat_audited (h : Audited db) (clock : Clock) {id : String} {lock : Json} {t : Task}
    (ht : db.task? id = some t) (hl : lock.eqText t.claimLock = true) :
    Audited (heartbeat db clock id lock).2 := by
  have hem : Emits db (heartbeat db clock id lock).2 id TaskEventKind.heartbeat.value none := by
    simp only [heartbeat, ht, hl, Bool.not_true, Bool.false_eq_true, if_false]
    exact emitEvent_emits (by rw [events_setRun, events_setTask]) ..
  apply h.notes hem rfl
  intro k t' ht'
  rw [heartbeat_task clock ht hl] at ht'
  split at ht'
  · rename_i hk
    cases ht'
    exact ⟨t, hk ▸ ht, rfl⟩
  · exact ⟨t', ht', rfl⟩

theorem writeClaim_audited (h : Audited db) {clock : Clock} {id : String} (workerId : String)
    (pid ttl : Int) {t : Task} (ht : db.task? id = some t) (hc : t.claimable clock.now = true) :
    Audited (writeClaim db clock id workerId pid ttl) := by
  have htask := writeClaim_task workerId pid ttl ht hc
  have hem : ∃ payload, Emits db (writeClaim db clock id workerId pid ttl) id
      TaskEventKind.claimed.value payload := by
    unfold writeClaim
    exact ⟨_, emitEvent_emits (by rfl) ..⟩
  obtain ⟨payload, hem⟩ := hem
  apply h.emits hem
  · intro k t' hk ht'
    rw [htask, if_neg hk] at ht'
    exact ⟨t', ht', rfl⟩
  · intro t' ht'
    rw [htask, if_pos rfl] at ht'
    cases ht'
    exact Or.inl rfl

theorem createTask_audited {db' : Db} {clock : Clock} {hex : String} {args : CreateArgs} {t : Task}
    (h : Audited db) (ok : createTask db clock hex args = .ok (t, db')) : Audited db' := by
  obtain ⟨rfl, _, htask, _⟩ := createTask_ok ok
  have hem : ∃ payload, Emits db db' (freshId hex) TaskEventKind.created.value (some payload) ∧
      payloadField (some payload) "status" = some (.str (args.row clock.now hex).status.value) := by
    unfold createTask at ok
    simp only [bind, pure, Except.bind, Except.pure, throw, throwThe, MonadExceptOf.throw] at ok
    split at ok
    · cases ok
    split at ok
    · cases ok
    split at ok
    · cases ok
    split at ok
    · cases ok
    split at ok
    · cases ok
    cases ok
    exact ⟨_, emitEvent_emits (by rfl) .., rfl⟩
  obtain ⟨payload, hem, hp⟩ := hem
  apply h.emits hem
  · intro k t' hk ht'
    rw [htask, if_neg hk] at ht'
    exact ⟨t', ht', rfl⟩
  · intro t' ht'
    rw [htask, if_pos rfl] at ht'
    cases ht'
    left
    simp [eventStatus, hp]

theorem updateTask_audited {db' : Db} {clock : Clock} {id : String} {args : EditArgs} {t : Task}
    (h : Audited db) (ok : updateTask db clock id args = .ok (t, db')) : Audited db' := by
  unfold updateTask at ok
  simp only [pure, Except.pure, throw, throwThe, MonadExceptOf.throw] at ok
  split at ok
  · cases ok
  split at ok
  · cases ok
    apply h.notes (emitEvent_emits (by rfl) ..) rfl
    intro k t' ht'
    rw [task_emitEvent, Db.task_setTask] at ht'
    obtain ⟨u, hu, rfl⟩ := Option.map_eq_some_iff.mp ht'
    refine ⟨u, hu, ?_⟩
    split <;> rfl
  · cases ok
    exact h

theorem addComment_audited {db' : Db} {clock : Clock} {id author body : String} {c : TaskComment}
    (h : Audited db) (ok : addComment db clock id author body = .ok (c, db')) : Audited db' := by
  unfold addComment at ok
  split at ok
  · cases ok
  · cases ok
    exact h.notes (emitEvent_emits (by rfl) ..) rfl fun _ t ht => ⟨t, ht, rfl⟩

/-- A column other than the status may be written without an event. -/
theorem setTask_audited (h : Audited db) (id : String) (f : Task → Task) (hf : ∀ t, (f t).id = t.id)
    (hs : ∀ t, (f t).status = t.status) : Audited (db.setTask id f hf) := by
  apply h.congr (events_setTask ..)
  intro k t' ht'
  rw [Db.task_setTask] at ht'
  obtain ⟨t, ht, rfl⟩ := Option.map_eq_some_iff.mp ht'
  refine ⟨t, ht, ?_⟩
  split
  · exact hs t
  · rfl

end

theorem updateTaskStatus_audited {db : Db} (h : Audited db) (clock : Clock) (id s : String)
    (args : StatusArgs) : Audited (step db (.updateTaskStatus clock id s args)) := by
  rcases tx_cases db (updateTaskStatus db clock id s args) with ⟨view, db', hok, he⟩ | ⟨_, _, he⟩
  · obtain ⟨t, new, retryAt, kind, _, _, _, hk, rfl⟩ := updateTaskStatus_wrote hok
    rw [step, he]
    exact writeStatus_audited h clock args retryAt hk
  · rw [step, he]
    exact h

theorem step_audited (db : Db) (op : Op) (h : Audited db) : Audited (step db op) := by
  rcases step_wrote db op with he | hw
  · rw [he]
    exact h
  generalize hs : step db op = db' at hw ⊢
  cases hw with
  | created ok => exact createTask_audited h ok
  | edited ok => exact updateTask_audited h ok
  | moved => exact hs ▸ updateTaskStatus_audited h _ _ _ _
  | claimed task free => exact writeClaim_audited h _ _ _ task free
  | beat task lock => exact heartbeat_audited h _ task lock
  | released => exact release_audited h _ _
  | promoted => exact promote_audited h _ _
  | linked ok =>
    obtain ⟨_, _, links, rfl, _⟩ := addDependency_ok ok
    exact relinked_audited h links _ _
  | unlinked ok =>
    obtain ⟨links, rfl, _⟩ := removeDependency_ok ok
    exact relinked_audited h links _ _
  | commented ok => exact addComment_audited h ok
  | placed => exact setTask_audited h _ _ _ fun _ => rfl
  | manned => exact setTask_audited h _ _ _ fun _ => rfl

/-- In every reachable state the audit log, read in id order, ends in the status of each task. -/
theorem status_replays (ops : List Op) :
    (exec step Db.empty ops).events.rows.Pairwise (fun a b => a.id < b.id) ∧
    ∀ k t, (exec step Db.empty ops).task? k = some t →
      replay k (exec step Db.empty ops).events.rows = .str t.status.value := by
  have h : Audited (exec step Db.empty ops) := exec_invariant step_audited empty_audited ops
  exact ⟨h.ordered, h.status⟩

end A2ARegistry.Orchestration
