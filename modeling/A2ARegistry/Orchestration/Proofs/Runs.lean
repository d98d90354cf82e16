import A2ARegistry.Orchestration.Proofs.Rows

namespace A2ARegistry.Orchestration
open Base

/-- What a call can do to a run record that exists. -/
inductive RunStep (db : Db) : Op → TaskRun → TaskRun → Prop
  | same : RunStep db op r r
  | beat (task : db.task? k = some t) (current : t.currentRunId = some r.id) :
      RunStep db (.heartbeat clock k claimLock) r (r.beat clock.now)
  | finished (task : db.task? k = some t)
      (accepted : Accepted t clock.now new args.claimLock retryAt)
      (ends : new = .completed ∨ new = .failed) (current : t.currentRunId = some r.id) :
      RunStep db (.updateTaskStatus clock k new.value args) r (r.finish clock.now new args)
  | timedOut (task : db.task? k = some t) (expired : t.expired clock.now tenant = true)
      (current : t.currentRunId = some r.id) :
      RunStep db (.releaseExpiredClaims clock tenant) r (r.timeOut clock.now)

/-- How a call opens a run: the task it is for, its row before and after, and the record. -/
inductive RunOpened (db db' : Db) : Op → TaskRun → Prop
  | claimed {k : String} {t : Task} {clock : Clock} {workerId : String} {pid ttl : Int}
      (task : db.task? k = some t) (free : t.claimable clock.now = true)
      (after : db'.task? k = some (claimedRow t clock.now workerId pid ttl db.runs.next)) :
      RunOpened db db' (.claimTask clock k workerId pid ttl)
        (claimRun k workerId pid clock.now (clock.now + ttl) db.runs.next)
  | promoted (task : db.task? k = some t) (retryable : t.retryable tenant = true)
      (fresh : db.runs.next ≤ n) (after : db'.task? k = some (t.promote n)) :
      RunOpened db db' (.promoteRetryableTasks clock tenant) (retryRun k clock.now n)

theorem run_eq_of_runs {db db' : Db} (h : db'.runs = db.runs) (n : Nat) : db'.run? n = db.run? n := by
  rw [Db.run?, Db.run?, h]

/-- Neither the links nor the resolver has to do with runs. -/
theorem run_relinked (db : Db) (links : Table TaskLink) (clock : Clock) (id : String) (n : Nat) :
    (resolveDependencies { db with links := links } clock id).run? n = db.run? n :=
  run_eq_of_runs (resolve_runs { db with links := links } clock id) n

theorem Wrote.run {db db' : Db} {op : Op} {n : Nat} {r : TaskRun} (h : Wrote db op db')
    (hr : db.run? n = some r) : ∃ r', db'.run? n = some r' ∧ RunStep db op r r' := by
  have hid : r.id = n := Table.find_key hr
  have hlt := AutoTable.find_lt hr
  subst hid
  have hsame : db'.run? r.id = db.run? r.id → ∃ r', db'.run? r.id = some r' ∧ RunStep db op r r' :=
    fun he => ⟨r, he.trans hr, RunStep.same⟩
  cases h with
  | created ok =>
    obtain ⟨_, _, _, hruns, _⟩ := createTask_ok ok
    exact hsame (run_eq_of_runs hruns r.id)
  | edited ok => exact hsame (run_eq_of_runs (updateTask_ok ok).2.1 r.id)
  | @moved clock id t new args retryAt kind task accepted =>
    have hrun := writeStatus_run db clock t new args retryAt kind r.id
    rw [hr, Option.map_some] at hrun
    split at hrun
    · rename_i hc
      exact ⟨_, hrun, RunStep.finished task accepted hc.1 hc.2⟩
    · exact ⟨_, hrun, RunStep.same⟩
  | claimed => exact hsame (by rw [writeClaim_run, if_neg (by omega)])
  | @beat clock id t claimLock task lock =>
    have hrun := heartbeat_run clock task lock r.id
    rw [hr, Option.map_some] at hrun
    split at hrun
    · rename_i hc
      exact ⟨_, hrun, RunStep.beat task hc⟩
    · exact ⟨_, hrun, RunStep.same⟩
  | @released clock tenant =>
    have hrun := release_run db clock tenant r.id
    rw [hr, Option.map_some] at hrun
    split at hrun
    · rename_i hc
      obtain ⟨t, ht, he, hcur⟩ := hc
      exact ⟨_, hrun, RunStep.timedOut (Db.mem_tasks.mp ht) he hcur⟩
    · exact ⟨_, hrun, RunStep.same⟩
  | @promoted clock tenant => exact hsame ((promoteRetryable_loop db clock tenant).kept r.id hlt)
  | linked ok =>
    obtain ⟨_, _, links, rfl, _⟩ := addDependency_ok ok
    exact hsame (run_relinked ..)
  | unlinked ok =>
    obtain ⟨links, rfl, _⟩ := removeDependency_ok ok
    exact hsame (run_relinked ..)
  | commented ok => exact hsame (run_eq_of_runs (addComment_ok ok).2.2 r.id)
  | placed => exact hsame rfl
  | manned => exact hsame rfl

/-- No call deletes a run record. -/
theorem step_run {db : Db} (op : Op) {n : Nat} {r : TaskRun} (hr : db.run? n = some r) :
    ∃ r', (step db op).run? n = some r' ∧ RunStep db op r r' := by
  rcases step_wrote db op with he | h
  · exact ⟨r, he.symm ▸ hr, RunStep.same⟩
  · exact h.run hr

theorem Wrote.opened {db db' : Db} {op : Op} {n : Nat} {r : TaskRun} (h : Wrote db op db')
    (hn : db.run? n = none) (hr : db'.run? n = some r) : RunOpened db db' op r := by
  have hnone : db'.run? n = db.run? n → RunOpened db db' op r := by
    intro he
    rw [he, hn] at hr
    cases hr
  cases h with
  | created ok =>
    obtain ⟨_, _, _, hruns, _⟩ := createTask_ok ok
    exact hnone (run_eq_of_runs hruns n)
  | edited ok => exact hnone (run_eq_of_runs (updateTask_ok ok).2.1 n)
  | moved => simp [writeStatus_run, hn] at hr
  | @claimed clock id workerId pid ttl t task free =>
    rw [writeClaim_run, hn] at hr
    split at hr
    · rename_i he
      cases hr
      subst he
      exact RunOpened.claimed task free (by rw [writeClaim_task _ _ _ task free, if_pos rfl])
    · cases hr
  | beat task lock => simp [heartbeat_run _ task lock, hn] at hr
  | released => simp [release_run, hn] at hr
  | @promoted clock tenant =>
    have hloop := promoteRetryable_loop db clock tenant
    by_cases hlt : n < db.runs.next
    · exact hnone (hloop.kept n hlt)
    · obtain ⟨row, hrow, rfl, hafter⟩ := hloop.opened n r (by omega) hr
      obtain ⟨hrow, hret⟩ := Table.mem_select.mp hrow
      have ht := Db.mem_tasks.mp hrow
      exact RunOpened.promoted ht hret (by omega) (hafter row ht)
  | linked ok =>
    obtain ⟨_, _, links, rfl, _⟩ := addDependency_ok ok
    exact hnone (run_relinked ..)
  | unlinked ok =>
    obtain ⟨links, rfl, _⟩ := removeDependency_ok ok
    exact hnone (run_relinked ..)
  | commented ok => exact hnone (run_eq_of_runs (addComment_ok ok).2.2 n)
  | placed => exact hnone rfl
  | manned => exact hnone rfl

theorem step_opened {db : Db} {op : Op} {n : Nat} {r : TaskRun} (hn : db.run? n = none)
    (hr : (step db op).run? n = some r) : RunOpened db (step db op) op r := by
  rcases step_wrote db op with he | h
  · rw [he, hn] at hr
    cases hr
  · exact h.opened hn hr

theorem RunStep.kept {db : Db} {op : Op} {r r' : TaskRun} (h : RunStep db op r r') :
    r'.id = r.id ∧ r'.taskId = r.taskId := by
  cases h <;> exact ⟨rfl, rfl⟩

theorem settle_kept (db : Db) (t : Task) : ∃ status, settle db t = { t with status := status } := by
  rcases settle_cases db t with ⟨_, _, he⟩ | ⟨_, _, he⟩ | ⟨_, _, he⟩
  · exact ⟨_, he⟩
  · exact ⟨_, he⟩
  · exact ⟨t.status, he⟩

/-- References between the tables: links join existing tasks, runs are runs of
existing tasks, and the current run of a task is a run of that task. -/
structure Integrity (db : Db) : Prop where
  parent : ∀ l ∈ db.links.rows, (db.task? l.parentId).isSome
  child : ∀ l ∈ db.links.rows, (db.task? l.childId).isSome
  owner : ∀ n r, db.run? n = some r → (db.task? r.taskId).isSome
  current : ∀ k t n, db.task? k = some t → t.currentRunId = some n →
    ∃ r, db.run? n = some r ∧ r.taskId = k

theorem empty_integrity : Integrity Db.empty := by
  refine ⟨?_, ?_, ?_, ?_⟩
  · intro l hl
    cases hl
  · intro l hl
    cases hl
  · intro n r hr
    cases hr
  · intro k t n ht
    cases ht

theorem step_isSome {db : Db} {op : Op} {k : String} (h : (db.task? k).isSome) :
    ((step db op).task? k).isSome := by
  obtain ⟨t, ht⟩ := Option.isSome_iff_exists.mp h
  obtain ⟨t', ht', _⟩ := step_row op ht
  rw [ht']
  rfl

theorem step_run_owner {db : Db} {op : Op} {k : String} {n : Nat}
    (h : ∃ r, db.run? n = some r ∧ r.taskId = k) :
    ∃ r, (step db op).run? n = some r ∧ r.taskId = k := by
  obtain ⟨r, hr, hk⟩ := h
  obtain ⟨r', hr', hstep⟩ := step_run op hr
  exact ⟨r', hr', hstep.kept.2.trans hk⟩

/-- A link of the new state joins tasks of the new state. -/
theorem step_endpoints {db : Db} {op : Op} (h : Integrity db) (l : TaskLink)
    (hl : l ∈ (step db op).links.rows) :
    ((step db op).task? l.parentId).isSome ∧ ((step db op).task? l.childId).isSome := by
  have hold : l ∈ db.links.rows → ((step db op).task? l.parentId).isSome ∧
      ((step db op).task? l.childId).isSome :=
    fun hm => ⟨step_isSome (h.parent l hm), step_isSome (h.child l hm)⟩
  have hstep := step_links db op
  generalize hs : step db op = db' at hl hold hstep ⊢
  cases hstep with
  | same links => exact hold (links ▸ hl)
  | created ok =>
    obtain ⟨rfl, _, htask, _, hparents, hlinks⟩ := createTask_ok ok
    rcases (hlinks l).mp hl with hm | ⟨spec, hspec, rfl⟩
    · exact hold hm
    · refine ⟨?_, by simp [htask]⟩
      rw [← hs]
      exact step_isSome (hparents spec hspec)
  | linked task parent rows =>
    rw [resolve_links] at hl
    rcases (rows l).mp hl with rfl | ⟨hm, _⟩
    · rw [← hs]
      exact ⟨step_isSome parent, step_isSome task⟩
    · exact hold hm
  | unlinked rows =>
    rw [resolve_links] at hl
    exact hold ((rows l).mp hl).1

theorem step_current {db : Db} {op : Op} (h : Integrity db) {k : String} {t : Task} {n : Nat}
    (ht : (step db op).task? k = some t) (hc : t.currentRunId = some n) :
    ∃ r, (step db op).run? n = some r ∧ r.taskId = k := by
  rcases step_origin ht with ⟨clock, hex, args, u, rfl, rfl, rfl, _⟩ | ⟨s, hb, hrow⟩
  · cases hc
  · have hkeep : t.currentRunId = s.currentRunId →
        ∃ r, (step db op).run? n = some r ∧ r.taskId = k := by
      intro he
      exact step_run_owner (h.current k s n hb (he ▸ hc))
    generalize hs : step db op = db' at hrow hkeep ⊢
    have hid := Db.task_id hb
    cases hrow with
    | same | edited | placed | manned | beat | moved => exact hkeep rfl
    | settled =>
      obtain ⟨status, he⟩ := settle_kept db' s
      exact hkeep (by rw [he])
    | claimed free run =>
      cases hc
      exact ⟨_, run, hid⟩
    | released => cases hc
    | promoted retryable fresh run =>
      cases hc
      exact ⟨_, run, hid⟩

theorem step_owner {db : Db} {op : Op} (h : Integrity db) {n : Nat} {r : TaskRun}
    (hr : (step db op).run? n = some r) : ((step db op).task? r.taskId).isSome := by
  cases hb : db.run? n with
  | some s =>
    obtain ⟨r', hr', hstep⟩ := step_run op hb
    rw [hr] at hr'
    cases hr'
    rw [hstep.kept.2]
    exact step_isSome (h.owner n s hb)
  | none =>
    have hopen := step_opened hb hr
    generalize step db op = db' at hopen ⊢
    cases hopen with
    | claimed _ _ after => exact Option.isSome_iff_exists.mpr ⟨_, after⟩
    | promoted _ _ _ after => exact Option.isSome_iff_exists.mpr ⟨_, after⟩

theorem step_integrity (db : Db) (op : Op) (h : Integrity db) : Integrity (step db op) :=
  ⟨fun l hl => (step_endpoints h l hl).1, fun l hl => (step_endpoints h l hl).2,
    fun _ _ hr => step_owner h hr, fun _ _ _ ht hc => step_current h ht hc⟩

/-- What a successful claim leaves: the row is running under the lock that was handed
out, and exactly one run was inserted, which the row names. -/
structure ClaimEffect (db db' : Db) (clock : Clock) (k workerId : String) (pid ttl : Int)
    (res : ClaimResult) : Prop where
  task : res.taskId = k
  lock : res.claimLock = lockOf workerId pid
  expires : res.claimExpires = clock.now + ttl
  inserts : ∃ n t, db.run? n = none ∧
    db'.run? n = some (claimRun k workerId pid clock.now res.claimExpires n) ∧
    (∀ m, m ≠ n → db'.run? m = db.run? m) ∧
    db'.task? k = some t ∧ t.status = .running ∧ t.claimLock = some res.claimLock ∧
    t.claimExpires = some res.claimExpires ∧ t.currentRunId = some n

/-- The call takes the task into `ready`. -/
def BecomesReady (k : String) (db : Db) (op : Op) : Prop :=
  ¬ InStatus k .ready db ∧ InStatus k .ready (step db op)

section
variable {db db' : Db} {clock : Clock} {k workerId : String} {pid ttl : Int} {res : ClaimResult}

theorem claim_effect (h : claimTask db clock k workerId pid ttl = (some res, db')) :
    ClaimEffect db db' clock k workerId pid ttl res := by
  obtain ⟨t, ht, hc, rfl⟩ := claimTask_some (congrArg Prod.fst h)
  rw [claimTask_claims ht hc] at h
  cases h
  refine ⟨rfl, rfl, rfl, db.runs.next, claimedRow t clock.now workerId pid ttl db.runs.next,
    AutoTable.find_next db.runs, ?_, ?_, ?_, rfl, rfl, rfl, rfl⟩
  · rw [writeClaim_run, if_pos rfl]
  · intro m hm
    rw [writeClaim_run, if_neg hm]
  · rw [writeClaim_task _ _ _ ht hc, if_pos rfl]

theorem claim_refused_unchanged (h : claimTask db clock k workerId pid ttl = (none, db')) : db' = db := by
  rcases claimTask_cases db clock k workerId pid ttl with ⟨t, ht, hc⟩ | hn
  · rw [claimTask_claims ht hc] at h
    cases h
  · rw [hn] at h
    cases h
    rfl

/-- A claim is granted on a ready task and takes it out of `ready`. -/
theorem claim_leaves_ready (h : (claimTask db clock k workerId pid ttl).1 = some res) :
    InStatus k .ready db ∧ ¬ InStatus k .ready (step db (.claimTask clock k workerId pid ttl)) := by
  obtain ⟨t, ht, hc, rfl⟩ := claimTask_some h
  constructor
  · simp only [Task.claimable, Bool.and_eq_true, beq_iff_eq] at hc
    exact inStatus_iff.mpr ⟨t, ht, hc.1⟩
  · intro hr
    obtain ⟨t', ht', hs⟩ := inStatus_iff.mp hr
    have he : step db (.claimTask clock k workerId pid ttl) = writeClaim db clock k workerId pid ttl :=
      congrArg Prod.snd (claimTask_claims ht hc)
    rw [he, writeClaim_task _ _ _ ht hc, if_pos rfl] at ht'
    cases ht'
    cases hs

end

/-- Between two successful claims of a task it becomes ready once more; a successful claim
inserts one run and leaves the task running under its lock; any other claim changes nothing. -/
theorem claims_exclusive (pre : List Op) (clock : Clock) (k workerId : String) (pid ttl : Int) :
    (∀ res db', claimTask (exec step Db.empty pre) clock k workerId pid ttl = (some res, db') →
      ClaimEffect (exec step Db.empty pre) db' clock k workerId pid ttl res ∧
      ∀ mid clock₂ workerId₂ pid₂ ttl₂ res₂,
        (claimTask (exec step Db.empty (pre ++ .claimTask clock k workerId pid ttl :: mid))
          clock₂ k workerId₂ pid₂ ttl₂).1 = some res₂ →
        ∃ mid₁ op mid₂, mid = mid₁ ++ op :: mid₂ ∧ BecomesReady k
          (exec step Db.empty (pre ++ .claimTask clock k workerId pid ttl :: mid₁)) op) ∧
    (∀ db', claimTask (exec step Db.empty pre) clock k workerId pid ttl = (none, db') →
      db' = exec step Db.empty pre) := by
  refine ⟨?_, fun _ h => claim_refused_unchanged h⟩
  intro res db' h
  refine ⟨claim_effect h, ?_⟩
  intro mid clock₂ workerId₂ pid₂ ttl₂ res₂ h₂
  have hout := (claim_leaves_ready (congrArg Prod.fst h)).2
  have hin := (claim_leaves_ready h₂).1
  rw [exec_append, exec_cons] at hin
  obtain ⟨mid₁, op, mid₂, he, hn, hr⟩ := exec_enters hout hin
  refine ⟨mid₁, op, mid₂, he, ?_⟩
  rw [BecomesReady, exec_append, exec_cons]
  exact ⟨hn, hr⟩

end A2ARegistry.Orchestration
