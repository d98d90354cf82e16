import A2ARegistry.Orchestration.Store.Ops
import A2ARegistry.Orchestration.Proofs.Resolve

namespace A2ARegistry.Orchestration
open Base

theorem insertLinks_mem {child : String} {specs : List ParentSpec} {links links' : Table TaskLink}
    (h : insertLinks child specs links = .ok links') (l : TaskLink) :
    l ∈ links'.rows ↔ l ∈ links.rows ∨ ∃ spec ∈ specs, l = ⟨spec.parentId, child, spec.condition⟩ := by
  induction specs generalizing links with
  | nil =>
    cases h
    simp
  | cons spec specs ih =>
    unfold insertLinks at h
    split at h
    · cases h
    · rename_i mid hmid
      have hrows := (Table.insert_some hmid).2
      rw [ih h, hrows]
      simp only [List.mem_append, List.mem_cons, List.not_mem_nil, or_false, exists_eq_or_imp, or_assoc]

/-- Everything a successful `create_task` does to tasks, links and runs. -/
theorem createTask_ok {db db' : Db} {clock : Clock} {hex : String} {args : CreateArgs} {t : Task}
    (h : createTask db clock hex args = .ok (t, db')) :
    t = args.row clock.now hex ∧ db.task? (freshId hex) = none ∧
    (∀ k, db'.task? k = if k = freshId hex then some t else db.task? k) ∧
    db'.runs = db.runs ∧
    (∀ spec ∈ args.parentSpecs, (db.task? spec.parentId).isSome) ∧
    (∀ l, l ∈ db'.links.rows ↔ l ∈ db.links.rows ∨
      ∃ spec ∈ args.parentSpecs, l = ⟨spec.parentId, freshId hex, spec.condition⟩) := by
  unfold createTask at h
  simp only [bind, pure, Except.bind, Except.pure, throw, throwThe, MonadExceptOf.throw] at h
  split at h
  · cases h
  split at h
  · cases h
  rename_i hparents
  split at h
  · cases h
  split at h
  · cases h
  rename_i tasks htasks
  split at h
  · cases h
  rename_i links hlinks
  cases h
  refine ⟨rfl, (Table.insert_some htasks).1, Table.find_insert htasks, rfl, ?_, insertLinks_mem hlinks⟩
  intro spec hs
  have := List.find?_eq_none.mp hparents spec hs
  cases hf : db.task? spec.parentId <;> simp_all

section
variable (db : Db) (now : Int) (t : Task) (new : TaskStatus) (args : StatusArgs)

@[simp] theorem finishRun_task (k : String) : (finishRun db now t new args).task? k = db.task? k := by
  unfold finishRun
  split
  · rw [Db.task_setRun]
  · rfl

@[simp] theorem finishRun_links : (finishRun db now t new args).links = db.links := by
  unfold finishRun
  split
  · rw [Db.links_setRun]
  · rfl

theorem finishRun_run (n : Nat) : (finishRun db now t new args).run? n = (db.run? n).map (fun r =>
    if (new = .completed ∨ new = .failed) ∧ t.currentRunId = some n then r.finish now new args
    else r) := by
  unfold finishRun
  split
  · rename_i hn
    simp [hn]
  · rename_i hn
    simp [hn]

end

section
variable (db : Db) (clock : Clock) (task : Task) (new : TaskStatus) (args : StatusArgs)
  (retryAt : Option Int) (kind : String)

theorem moveStatus_links : (moveStatus db clock task new args retryAt kind).links = db.links := by
  simp only [moveStatus, links_emitEvent, Db.links_setTask, finishRun_links]

theorem moveStatus_task (ht : db.task? task.id = some task) (k : String) :
    (moveStatus db clock task new args retryAt kind).task? k =
      if k = task.id then some (task.move clock.now new args.result retryAt) else db.task? k := by
  simp only [moveStatus, task_emitEvent, Db.task_setTask, finishRun_task]
  by_cases hk : k = task.id
  · simp [hk, ht]
  · simp [hk]

theorem writeStatus_links : (writeStatus db clock task new args retryAt kind).links = db.links := by
  simp only [writeStatus]
  split
  · rw [resolveChildren_links, moveStatus_links]
  · rw [moveStatus_links]

theorem writeStatus_run (n : Nat) :
    (writeStatus db clock task new args retryAt kind).run? n = (db.run? n).map (fun r =>
      if (new = .completed ∨ new = .failed) ∧ task.currentRunId = some n
      then r.finish clock.now new args else r) := by
  have hm : (moveStatus db clock task new args retryAt kind).run? n =
      (finishRun db clock.now task new args).run? n := rfl
  rw [← finishRun_run, ← hm]
  simp only [writeStatus]
  split
  · rw [Db.run?, resolveChildren_runs, Db.run?]
  · rfl

/-- The moved row itself, and the settled children of a task that completes. -/
theorem writeStatus_task (ht : db.task? task.id = some task) (k : String) :
    (writeStatus db clock task new args retryAt kind).task? k =
      if k = task.id then some (task.move clock.now new args.result retryAt)
      else (db.task? k).map (fun t => if new = .completed ∧ k ∈ childIds db task.id then
        settle (writeStatus db clock task new args retryAt kind) t else t) := by
  have hmoved := moveStatus_task db clock task new args retryAt kind ht k
  by_cases hn : new = .completed
  · have hw : writeStatus db clock task new args retryAt kind =
        resolveChildren (moveStatus db clock task new args retryAt kind) clock task.id := by
      simp [writeStatus, hn]
    have hs : ∀ t, settle (writeStatus db clock task new args retryAt kind) t =
        settle (moveStatus db clock task new args retryAt kind) t := by
      intro t
      rw [hw]
      exact settle_congr (parentsDone_resolveChildren ..)
    have hc : childIds (moveStatus db clock task new args retryAt kind) task.id =
        childIds db task.id := by
      simp only [childIds, moveStatus_links]
    simp only [hs]
    rw [hw, resolveChildren_task, hmoved, hc]
    by_cases hk : k = task.id
    · simp [hk, settle, Task.move, hn]
    · simp [hk, hn]
  · have hw : writeStatus db clock task new args retryAt kind =
        moveStatus db clock task new args retryAt kind := by
      simp [writeStatus, hn]
    rw [hw, hmoved]
    simp [hn]

end

/-- What `update_task_status` demands of the row before it writes anything. -/
structure Accepted (t : Task) (now : Int) (new : TaskStatus) (lock : Json)
    (retryAt : Option Int) : Prop where
  edge : new ∈ transitions t.status
  lock : lockRefused t lock = false
  kind : ¬ (t.status = .failed ∧ new = .ready)
  retry : nextRetry now t new = .ok retryAt

theorem eventKind_ok_iff {old new : TaskStatus} :
    (∃ kind, eventKind old new = .ok kind) ↔ ¬ (old = .failed ∧ new = .ready) := by
  unfold eventKind
  split
  · rename_i h
    simp [h.1]
  · split
    · rename_i h
      simp [h]
    · rename_i h
      refine ⟨fun _ => h, fun _ => ?_⟩
      cases new <;> exact ⟨_, rfl⟩

/-- Everything a successful `update_task_status` has checked, and what it then writes. -/
theorem updateTaskStatus_wrote {db db' : Db} {clock : Clock} {id s : String} {args : StatusArgs}
    {view : Option TaskView} (h : updateTaskStatus db clock id s args = .ok (view, db')) :
    ∃ t new retryAt kind, db.task? id = some t ∧ new.value = s ∧
      Accepted t clock.now new args.claimLock retryAt ∧ eventKind t.status new = .ok kind ∧
      db' = writeStatus db clock t new args retryAt kind := by
  unfold updateTaskStatus at h
  simp only [bind, pure, Except.bind, Except.pure, throw, throwThe, MonadExceptOf.throw] at h
  split at h
  · cases h
  rename_i t ht
  split at h
  · cases h
  rename_i hv
  split at h
  · cases h
  rename_i new hnew
  split at h
  · cases h
  rename_i hlock
  split at h
  · cases h
  rename_i retryAt hretry
  split at h
  · cases h
  rename_i kind hkind
  cases h
  obtain ⟨new', hedge, rfl⟩ := validate_ok_iff.mp hv
  rw [TaskStatus.ofValue_value] at hnew
  cases hnew
  refine ⟨t, new, retryAt, kind, ht, rfl, ⟨hedge, ?_, ?_, hretry⟩, hkind, rfl⟩
  · simpa using hlock
  · exact eventKind_ok_iff.mp ⟨kind, hkind⟩

theorem updateTaskStatus_ok {db db' : Db} {clock : Clock} {id s : String} {args : StatusArgs}
    {view : Option TaskView} (h : updateTaskStatus db clock id s args = .ok (view, db')) :
    ∃ t new retryAt kind, db.task? id = some t ∧ new.value = s ∧
      Accepted t clock.now new args.claimLock retryAt ∧
      db' = writeStatus db clock t new args retryAt kind := by
  obtain ⟨t, new, retryAt, kind, ht, hs, ha, _, he⟩ := updateTaskStatus_wrote h
  exact ⟨t, new, retryAt, kind, ht, hs, ha, he⟩

theorem updateTaskStatus_accepted {db : Db} {clock : Clock} {id : String} {args : StatusArgs}
    {t : Task} {new : TaskStatus} {retryAt : Option Int} (ht : db.task? id = some t)
    (ha : Accepted t clock.now new args.claimLock retryAt) :
    ∃ view kind, updateTaskStatus db clock id new.value args =
      .ok (view, writeStatus db clock t new args retryAt kind) := by
  obtain ⟨kind, hkind⟩ := eventKind_ok_iff.mpr ha.kind
  have hv := validate_ok_iff.mpr ⟨new, ha.edge, rfl⟩
  refine ⟨getTask (writeStatus db clock t new args retryAt kind) id, kind, ?_⟩
  unfold updateTaskStatus
  simp only [ht, bind, pure, Except.bind, Except.pure, hv, TaskStatus.ofValue_value, ha.lock,
    ha.retry, hkind]
  rfl

/-- A running task refuses an update that presents another lock than the stored one. -/
theorem updateTaskStatus_refused {db : Db} (clock : Clock) {id : String} (s : String)
    {args : StatusArgs} {t : Task} (ht : db.task? id = some t) (hl : lockRefused t args.claimLock = true) :
    ∃ e, updateTaskStatus db clock id s args = .error e := by
  cases h : updateTaskStatus db clock id s args with
  | error e => exact ⟨e, rfl⟩
  | ok r =>
    obtain ⟨u, _, _, _, hu, _, ha, _⟩ := updateTaskStatus_ok h
    rw [ht] at hu
    cases hu
    rw [ha.lock] at hl
    cases hl

/-- The moves out of a status other than to `failed` never set a retry time. -/
theorem nextRetry_of_ne {now : Int} {t : Task} {new : TaskStatus} (h : new ≠ .failed) :
    nextRetry now t new = .ok none := by
  unfold nextRetry
  split
  · exact absurd rfl h
  · rfl

theorem lockRefused_of_ne {t : Task} {lock : Json} (h : t.status ≠ .running) :
    lockRefused t lock = false := by
  simp [lockRefused, h]

/-- The lock plays no part in a move of a task that is not running. -/
theorem accepted_of_edge {t : Task} {now : Int} {new : TaskStatus} {lock : Json}
    (hedge : new ∈ transitions t.status) (hs : t.status ≠ .running) (hn : new ≠ .failed)
    (hk : ¬ (t.status = .failed ∧ new = .ready)) : Accepted t now new lock none :=
  ⟨hedge, lockRefused_of_ne hs, hk, nextRetry_of_ne hn⟩

/-- A blocked task is put back whoever asks. -/
theorem accepted_requeue {t : Task} (now : Int) (lock : Json) (hs : t.status = .blocked) :
    Accepted t now .ready lock none :=
  accepted_of_edge (by simp [hs, transitions]) (by simp [hs]) (by simp) (by simp [hs])

/-- The row of a task after a successful claim of it. -/
def claimedRow (t : Task) (now : Int) (workerId : String) (pid ttl : Int) (runId : Nat) : Task :=
  { t.claim now (now + ttl) (lockOf workerId pid) pid with currentRunId := some runId }

section
variable {db : Db} {clock : Clock} {id workerId : String} {pid ttl : Int} {t : Task}

theorem claimHits_empty_iff : (db.tasks.select (claimHits clock id)).isEmpty = true ↔
    ∀ t, db.task? id = some t → t.claimable clock.now = false := by
  rw [List.isEmpty_iff, Table.select, List.filter_eq_nil_iff]
  constructor
  · intro h t ht
    have := h t (Table.find_some_iff.mp ht).1
    simpa [claimHits, Db.task_id ht] using this
  · intro h t ht
    by_cases hid : t.id = id
    · subst hid
      simpa [claimHits] using h t (Db.mem_tasks.mp ht)
    · simp [claimHits, hid]

theorem writeClaim_task (workerId : String) (pid ttl : Int) (ht : db.task? id = some t)
    (hc : t.claimable clock.now = true) (k : String) :
    (writeClaim db clock id workerId pid ttl).task? k = if k = id
      then some (claimedRow t clock.now workerId pid ttl db.runs.next) else db.task? k := by
  have hid := Db.task_id ht
  simp only [writeClaim, task_emitEvent, Db.task_setTask]
  simp only [Db.task?, Table.find_modify]
  by_cases hk : k = id
  · subst hk
    simp only [Db.task?] at ht
    simp [ht, claimHits, hid, hc, claimedRow]
  · cases hf : db.tasks.find? k with
    | none => simp [hk]
    | some u =>
      have hu : u.id = k := Table.find_key hf
      simp [claimHits, hu, hk]

theorem writeClaim_run (n : Nat) : (writeClaim db clock id workerId pid ttl).run? n =
    if n = db.runs.next then some (claimRun id workerId pid clock.now (clock.now + ttl) n)
    else db.run? n := by
  have h : (writeClaim db clock id workerId pid ttl).run? n =
      (db.runs.insert (claimRun id workerId pid clock.now (clock.now + ttl))
        (claimRun_id id workerId pid clock.now (clock.now + ttl))).find? n := rfl
  rw [h, AutoTable.find_insert]
  split
  · rename_i hn
    rw [hn]
  · rfl

theorem claimTask_refused (h : ∀ t, db.task? id = some t → t.claimable clock.now = false) :
    claimTask db clock id workerId pid ttl = (none, db) := by
  simp [claimTask, claimHits_empty_iff.mpr h]

theorem claimTask_claims (ht : db.task? id = some t) (hc : t.claimable clock.now = true) :
    claimTask db clock id workerId pid ttl =
      (some ⟨id, lockOf workerId pid, clock.now + ttl, t.workspacePath⟩,
        writeClaim db clock id workerId pid ttl) := by
  have hne : (db.tasks.select (claimHits clock id)).isEmpty = false := by
    apply Bool.eq_false_iff.mpr
    intro he
    rw [claimHits_empty_iff.mp he t ht] at hc
    cases hc
  have hrow := writeClaim_task workerId pid ttl ht hc id
  simp only [claimTask, hne, hrow]
  rfl

theorem claimTask_cases (db : Db) (clock : Clock) (id workerId : String) (pid ttl : Int) :
    (∃ t, db.task? id = some t ∧ t.claimable clock.now = true) ∨
      claimTask db clock id workerId pid ttl = (none, db) := by
  by_cases h : ∃ t, db.task? id = some t ∧ t.claimable clock.now = true
  · exact Or.inl h
  · refine Or.inr (claimTask_refused fun t ht => ?_)
    cases hc : t.claimable clock.now with
    | false => rfl
    | true => exact absurd ⟨t, ht, hc⟩ h

/-- A claim that returns a lock found the row claimable. -/
theorem claimTask_some {res : ClaimResult} (h : (claimTask db clock id workerId pid ttl).1 = some res) :
    ∃ t, db.task? id = some t ∧ t.claimable clock.now = true ∧
      res = ⟨id, lockOf workerId pid, clock.now + ttl, t.workspacePath⟩ := by
  rcases claimTask_cases db clock id workerId pid ttl with ⟨t, ht, hc⟩ | hn
  · rw [claimTask_claims ht hc] at h
    cases h
    exact ⟨t, ht, hc, rfl⟩
  · rw [hn] at h
    cases h

end

theorem heartbeat_refused {db : Db} (clock : Clock) {id : String} {lock : Json}
    (h : ∀ t, db.task? id = some t → lock.eqText t.claimLock = false) :
    heartbeat db clock id lock = (false, db) := by
  unfold heartbeat
  cases ht : db.task? id with
  | none => rfl
  | some t => simp [h t ht]

section
variable {db : Db} {clock : Clock} {id : String} {lock : Json} {t : Task}

theorem heartbeat_task (clock : Clock) (ht : db.task? id = some t)
    (hl : lock.eqText t.claimLock = true) (k : String) :
    (heartbeat db clock id lock).2.task? k = if k = id then some (t.beat clock.now) else db.task? k := by
  simp only [heartbeat, ht, hl, Bool.not_true, Bool.false_eq_true, if_false, task_emitEvent,
    Db.task_setRun, Db.task_setTask]
  by_cases hk : k = id
  · simp [hk, ht]
  · simp [hk]

theorem heartbeat_run (clock : Clock) (ht : db.task? id = some t)
    (hl : lock.eqText t.claimLock = true) (n : Nat) :
    (heartbeat db clock id lock).2.run? n =
      (db.run? n).map (fun r => if t.currentRunId = some n then r.beat clock.now else r) := by
  simp only [heartbeat, ht, hl, Bool.not_true, Bool.false_eq_true, if_false, run_emitEvent,
    Db.run_setRun, Db.run_setTask]

theorem heartbeat_links (lock : Json) : (heartbeat db clock id lock).2.links = db.links := by
  unfold heartbeat
  cases db.task? id with
  | none => rfl
  | some t =>
    dsimp only
    split
    · rfl
    · simp

end

/-- Upserting a link replaces the one between the same two tasks, if there is one. -/
theorem modifyLink_mem {links : Table TaskLink} {parent child : String} {condition : Option String}
    (h : (links.find? (parent, child)).isSome) (l : TaskLink) :
    l ∈ (links.modify (fun l => l.parentId == parent && l.childId == child)
      (fun l => { l with condition := condition })).rows ↔
      l = ⟨parent, child, condition⟩ ∨
        (l ∈ links.rows ∧ ¬ (l.parentId = parent ∧ l.childId = child)) := by
  obtain ⟨x, hx⟩ := Option.isSome_iff_exists.mp h
  obtain ⟨hx, hkey⟩ := Table.find_some_iff.mp hx
  simp only [key_link, Prod.mk.injEq] at hkey
  rw [Table.mem_modify]
  constructor
  · rintro ⟨r, hr, rfl⟩
    by_cases hp : r.parentId = parent ∧ r.childId = child
    · left
      simp [hp]
    · right
      have hb : (r.parentId == parent && r.childId == child) = false := by
        simpa [Bool.and_eq_false_iff, not_and_or] using hp
      simp only [hb]
      exact ⟨hr, hp⟩
  · rintro (rfl | ⟨hl, hn⟩)
    · refine ⟨x, hx, ?_⟩
      simp [hkey]
    · refine ⟨l, hl, ?_⟩
      have hb : (l.parentId == parent && l.childId == child) = false := by
        simpa [Bool.and_eq_false_iff, not_and_or] using hn
      simp [hb]

theorem insertLink_mem {links links' : Table TaskLink} {new : TaskLink}
    (h : links.insert? new = some links') (l : TaskLink) : l ∈ links'.rows ↔ l = new ∨
      (l ∈ links.rows ∧ ¬ (l.parentId = new.parentId ∧ l.childId = new.childId)) := by
  obtain ⟨hn, hr⟩ := Table.insert_some h
  have hfree := Table.find_none_iff.mp hn
  simp only [key_link, ne_eq, Prod.mk.injEq] at hfree
  rw [hr, List.mem_append, List.mem_singleton]
  constructor
  · rintro (hl | hl)
    · exact Or.inr ⟨hl, hfree l hl⟩
    · exact Or.inl hl
  · rintro (hl | ⟨hl, _⟩)
    · exact Or.inr hl
    · exact Or.inl hl

/-- Everything a successful `add_dependency` does. -/
theorem addDependency_ok {db db' : Db} {clock : Clock} {id parent : String}
    {condition : Option String} {u : Unit}
    (h : addDependency db clock id parent condition = .ok (u, db')) :
    (db.task? id).isSome ∧ (db.task? parent).isSome ∧ ∃ links : Table TaskLink,
      db' = resolveDependencies { db with links := links } clock id ∧
      ∀ l, l ∈ links.rows ↔ l = ⟨parent, id, condition⟩ ∨
        (l ∈ db.links.rows ∧ ¬ (l.parentId = parent ∧ l.childId = id)) := by
  unfold addDependency at h
  simp only [bind, pure, Except.bind, Except.pure, throw, throwThe, MonadExceptOf.throw] at h
  split at h
  · cases h
  rename_i hid
  split at h
  · cases h
  rename_i hparent
  split at h
  · cases h
  split at h
  · cases h
  have hsome : (db.task? id).isSome ∧ (db.task? parent).isSome := by
    simp only [Option.isNone_iff_eq_none, ← Option.isSome_iff_ne_none] at hid hparent
    exact ⟨hid, hparent⟩
  refine ⟨hsome.1, hsome.2, ?_⟩
  split at h
  · rename_i hex
    cases h
    exact ⟨_, rfl, modifyLink_mem hex⟩
  · rename_i hex
    split at h
    · cases h
    · rename_i links hlinks
      cases h
      exact ⟨links, rfl, insertLink_mem hlinks⟩

theorem removeDependency_cases (db : Db) (clock : Clock) (id parent : String) :
    (removeDependency db clock id parent = (false, db) ∧
      ∀ l ∈ db.links.rows, ¬ (l.parentId = parent ∧ l.childId = id)) ∨
    ∃ links : Table TaskLink, removeDependency db clock id parent =
        (true, resolveDependencies { db with links := links } clock id) ∧
      ∀ l, l ∈ links.rows ↔ l ∈ db.links.rows ∧ ¬ (l.parentId = parent ∧ l.childId = id) := by
  unfold removeDependency
  dsimp only
  split
  · rename_i he
    refine Or.inl ⟨rfl, fun l hl hp => ?_⟩
    have := List.filter_eq_nil_iff.mp (List.isEmpty_iff.mp he) l hl
    simp [hp] at this
  · refine Or.inr ⟨_, rfl, fun l => ?_⟩
    simp only [Table.delete, List.mem_filter, Bool.not_eq_true', Bool.and_eq_false_iff,
      beq_eq_false_iff_ne, ne_eq, not_and_or]

/-- Everything a `remove_dependency` that finds the link does. -/
theorem removeDependency_ok {db db' : Db} {clock : Clock} {id parent : String}
    (h : removeDependency db clock id parent = (true, db')) : ∃ links : Table TaskLink,
      db' = resolveDependencies { db with links := links } clock id ∧
      ∀ l, l ∈ links.rows ↔ l ∈ db.links.rows ∧ ¬ (l.parentId = parent ∧ l.childId = id) := by
  rcases removeDependency_cases db clock id parent with ⟨he, _⟩ | ⟨links, he, hl⟩
  · rw [he] at h
    cases h
  · rw [he] at h
    cases h
    exact ⟨links, rfl, hl⟩

/-- An edit reaches one row and nothing but its text and priority. -/
theorem updateTask_ok {db db' : Db} {clock : Clock} {id : String} {args : EditArgs} {u : Task}
    (h : updateTask db clock id args = .ok (u, db')) :
    db'.links = db.links ∧ db'.runs = db.runs ∧ ((∀ k, db'.task? k = db.task? k) ∨
      ∀ k, db'.task? k = (db.task? k).map (fun t => if k = id then args.edit t else t)) := by
  unfold updateTask at h
  simp only [pure, Except.pure, throw, throwThe, MonadExceptOf.throw] at h
  split at h
  · cases h
  · split at h
    · cases h
      exact ⟨rfl, rfl, Or.inr fun k => Db.task_setTask db id args.edit args.edit_id k⟩
    · cases h
      exact ⟨rfl, rfl, Or.inl fun _ => rfl⟩

theorem addComment_ok {db db' : Db} {clock : Clock} {id author body : String} {c : TaskComment}
    (h : addComment db clock id author body = .ok (c, db')) :
    db'.tasks = db.tasks ∧ db'.links = db.links ∧ db'.runs = db.runs := by
  unfold addComment at h
  split at h
  · cases h
  · cases h
    exact ⟨rfl, rfl, rfl⟩

/-- A comment is nothing to the tasks, whether it is stored or not. -/
theorem commented_tasks (db : Db) (clock : Clock) (taskId author body : String) :
    (db.tx (addComment db clock taskId author body)).2.tasks = db.tasks := by
  rcases tx_cases db (addComment db clock taskId author body) with ⟨c, db', h, he⟩ | ⟨_, _, he⟩
  · rw [he]
    exact (addComment_ok h).1
  · rw [he]

end A2ARegistry.Orchestration
