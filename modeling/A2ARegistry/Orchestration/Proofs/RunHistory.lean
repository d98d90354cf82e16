import A2ARegistry.Orchestration.Proofs.Lease

namespace A2ARegistry.Orchestration
open Base

/-- The open runs of a task: at most one, and it is the current run of a task that is
running or blocked. -/
structure RunsInOrder (db : Db) (k : String) (t : Task) : Prop where
  unique : ∀ n m r s, db.run? n = some r → db.run? m = some s → r.taskId = k → s.taskId = k →
    r.endedAt = none → s.endedAt = none → n = m
  current : ∀ n r, db.run? n = some r → r.taskId = k → r.endedAt = none →
    t.currentRunId = some n ∧ (t.status = .running ∨ t.status = .blocked)

def RunHistory (db : Db) : Prop := ∀ k t, db.task? k = some t → RunsInOrder db k t

/-- The call opens no run that nobody works on, and takes no task out of the statuses
of an attempt while its run is open. -/
def ClosesRuns (db : Db) : Op → Prop
  | .promoteRetryableTasks _ tenant => ∀ k t, db.task? k = some t → t.retryable tenant = false
  | .updateTaskStatus _ k s args => ∀ t, db.task? k = some t → OpenRun db t →
    (s = TaskStatus.cancelled.value → t.status = .running ∨ t.status = .blocked →
      lockRefused t args.claimLock = true) ∧
    (s = TaskStatus.ready.value → t.status ≠ .blocked)
  | _ => True

/-- Two open runs that are both the current one are one. -/
theorem runs_in_order {db : Db} {k : String} {t : Task} (h : ∀ n r, db.run? n = some r →
    r.taskId = k → r.endedAt = none →
      t.currentRunId = some n ∧ (t.status = .running ∨ t.status = .blocked)) :
    RunsInOrder db k t := by
  refine ⟨?_, h⟩
  intro n m r s hr hs hrk hsk hro hso
  have hn := (h n r hr hrk hro).1
  have hm := (h m s hs hsk hso).1
  rw [hn] at hm
  exact Option.some.inj hm

/-- Completing or failing a task closes its current run. -/
theorem step_finished {db : Db} {clock : Clock} {k : String} {t : Task} {new : TaskStatus}
    {args : StatusArgs} {retryAt : Option Int} {n : Nat} (ht : db.task? k = some t)
    (ha : Accepted t clock.now new args.claimLock retryAt) (hn : new = .completed ∨ new = .failed)
    (hc : t.currentRunId = some n) :
    (step db (.updateTaskStatus clock k new.value args)).run? n =
      (db.run? n).map (fun r => r.finish clock.now new args) := by
  obtain ⟨kind, hw, _⟩ := step_moved ht ha
  rw [hw, writeStatus_run]
  simp [hn, hc]

/-- A move of another kind leaves every run as it is. -/
theorem step_unfinished {db : Db} {clock : Clock} {k : String} {t : Task} {new : TaskStatus}
    {args : StatusArgs} {retryAt : Option Int} {n : Nat} (ht : db.task? k = some t)
    (ha : Accepted t clock.now new args.claimLock retryAt)
    (hn : ¬ (new = .completed ∨ new = .failed)) :
    (step db (.updateTaskStatus clock k new.value args)).run? n = db.run? n := by
  obtain ⟨kind, hw, _⟩ := step_moved ht ha
  rw [hw, writeStatus_run]
  simp [hn]

theorem step_timedOut {db : Db} {clock : Clock} {tenant : Option String} {k : String} {t : Task}
    {n : Nat} (ht : db.task? k = some t) (he : t.expired clock.now tenant = true)
    (hc : t.currentRunId = some n) :
    (step db (.releaseExpiredClaims clock tenant)).run? n =
      (db.run? n).map (fun r => r.timeOut clock.now) := by
  have hid := Db.task_id ht
  subst hid
  have hx : ∃ t ∈ db.tasks.rows, t.expired clock.now tenant = true ∧ t.currentRunId = some n :=
    ⟨t, Db.mem_tasks.mpr ht, he, hc⟩
  have hrun := release_run db clock tenant n
  simp only [hx, if_true] at hrun
  exact hrun

/-- An open run that a call leaves open stays the current run of a task at work. -/
theorem step_kept_run {db : Db} {op : Op} (hc : ClosesRuns db op) {k : String} {t t' : Task} {n : Nat}
    {r r' : TaskRun} (ht : db.task? k = some t) (ht' : (step db op).task? k = some t')
    (hr : db.run? n = some r) (hr' : (step db op).run? n = some r') (hk : r.taskId = k)
    (hopen : r.endedAt = none) (hopen' : r'.endedAt = none) (hcur : t.currentRunId = some n)
    (hst : t.status = .running ∨ t.status = .blocked) :
    t'.currentRunId = some n ∧ (t'.status = .running ∨ t'.status = .blocked) := by
  have hid := Db.task_id ht
  have hrow := step_moves ht ht'
  have ho : OpenRun db t := ⟨n, r, hcur, hr, hk.trans hid.symm, hopen⟩
  generalize hdb : step db op = db' at hrow
  cases hrow with
  | same | edited | placed | manned | beat => exact ⟨hcur, hst⟩
  | claimed free =>
    simp only [Task.claimable, Bool.and_eq_true, beq_iff_eq] at free
    rcases hst with hs | hs <;> rw [hs] at free <;> cases free.1
  | @moved clock _ new args retryAt accepted =>
    refine ⟨hcur, ?_⟩
    subst hid
    by_cases hends : new = .completed ∨ new = .failed
    · rw [step_finished ht accepted hends hcur, hr] at hr'
      cases hr'
      cases hopen'
    · obtain ⟨hcancel, hready⟩ := hc t ht ho
      have hedge := accepted.edge
      have hmem : new = .running ∨ new = .blocked ∨ new = .cancelled ∨ new = .ready := by
        rcases hst with hs | hs <;>
          simp only [hs, transitions, List.mem_cons, List.not_mem_nil, or_false] at hedge <;> grind
      rcases hmem with rfl | rfl | rfl | rfl
      · exact Or.inl rfl
      · exact Or.inr rfl
      · have hlock := hcancel rfl hst
        rw [accepted.lock] at hlock
        cases hlock
      · rcases hst with hs | hs
        · simp [transitions, hs] at hedge
        · exact absurd hs (hready rfl)
  | settled =>
    rcases settle_cases db' t with ⟨hs, _, _⟩ | ⟨hs, _, _⟩ | ⟨_, _, he⟩
    · rcases hst with h | h <;> rw [hs] at h <;> cases h
    · rcases hst with h | h <;> rw [hs] at h <;> cases h
    · rw [he]
      exact ⟨hcur, hst⟩
  | released expired =>
    rw [step_timedOut ht expired hcur, hr] at hr'
    cases hr'
    cases hopen'
  | promoted retryable =>
    simp only [Task.retryable, Bool.and_eq_true, beq_iff_eq] at retryable
    rcases hst with hs | hs <;> rw [hs] at retryable <;> simp at retryable

theorem step_run_history {db : Db} {op : Op} (hi : Integrity db) (hp : RunHistory db)
    (hc : ClosesRuns db op) : RunHistory (step db op) := by
  intro k t' ht'
  apply runs_in_order
  intro n r' hr' hk hopen'
  cases hb : db.run? n with
  | some r =>
    obtain ⟨s, hs, hrun⟩ := step_run op hb
    rw [hr'] at hs
    cases hs
    have howner : r.taskId = k := hrun.kept.2.symm.trans hk
    have hopen : r.endedAt = none := by
      cases hrun with
      | same | beat => exact hopen'
      | finished => cases hopen'
      | timedOut => cases hopen'
    obtain ⟨t, ht⟩ := Option.isSome_iff_exists.mp (hi.owner n r hb)
    rw [howner] at ht
    obtain ⟨hcur, hst⟩ := (hp k t ht).current n r hb howner hopen
    exact step_kept_run hc ht ht' hb hr' howner hopen hopen' hcur hst
  | none =>
    have hop := step_opened hb hr'
    generalize hdb : step db op = db' at hop ht'
    cases hop with
    | @claimed j t clock workerId pid ttl task free after =>
      have hj : j = k := hk
      subst hj
      rw [after] at ht'
      cases ht'
      have hid : db.runs.next = n := Table.find_key hr'
      exact ⟨congrArg some hid, Or.inl rfl⟩
    | promoted task retryable =>
      rw [hc _ _ task] at retryable
      cases retryable

theorem closes_runs {db : Db} {op : Op} (hp : RunHistory (step db op)) : ClosesRuns db op := by
  unfold ClosesRuns
  split
  · rename_i clock tenant
    intro k t ht
    cases hr : t.retryable tenant with
    | false => rfl
    | true =>
      obtain ⟨n, _, hrow, hrun⟩ := (promote_task clock tenant ht).2 hr
      obtain ⟨_, hs | hs⟩ := (hp k _ hrow).current n _ hrun rfl rfl
      · cases hs
      · cases hs
  · rename_i clock k s args
    intro t ht ho
    obtain ⟨n, r, hcur, hr, howner, hopen⟩ := ho
    have hid := Db.task_id ht
    have hstays : ∀ new retryAt, Accepted t clock.now new args.claimLock retryAt →
        s = new.value → ¬ (new = .completed ∨ new = .failed) →
        new = .running ∨ new = .blocked := by
      intro new retryAt ha hs hn
      subst hs
      obtain ⟨_, _, hrow⟩ := step_moved ht ha
      have hrun := step_unfinished (n := n) ht ha hn
      rw [hr] at hrun
      exact ((hp k _ hrow).current n r hrun (howner.trans hid) hopen).2
    constructor
    · intro hs hst
      cases hl : lockRefused t args.claimLock with
      | true => rfl
      | false =>
        have hedge : TaskStatus.cancelled ∈ transitions t.status := by
          rcases hst with h | h <;> simp [h, transitions]
        have ha : Accepted t clock.now .cancelled args.claimLock none :=
          ⟨hedge, hl, by simp, nextRetry_of_ne (by simp)⟩
        rcases hstays _ _ ha hs (by simp) with h | h <;> cases h
    · intro hs hst
      have ha := accepted_requeue clock.now args.claimLock hst
      rcases hstays _ _ ha hs (by simp) with h | h <;> cases h
  · trivial

/-- The run records of a run of the store are in order at all times exactly when no step
promotes a failed task, or cancels or re-queues one whose run is open. -/
theorem run_history_iff_closes_runs (ops : List Op) :
    Always step RunHistory Db.empty ops ↔ EachStep step ClosesRuns Db.empty ops := by
  apply always_iff_guarded (I := Integrity) _ _ empty_integrity
  · intro k t ht
    cases ht
  · exact fun db op hi _ => step_integrity db op hi
  · intro db op hi hp
    exact ⟨closes_runs, step_run_history hi hp⟩

/-- A failed task is promoted for a retry. -/
def failedAndPromoted : List Op :=
  [.createTask (.fixed 0) "a" { title := "a" },
    .claimTask (.fixed 0) "t_a" "w" 1 900,
    .updateTaskStatus (.fixed 0) "t_a" "failed" {},
    .promoteRetryableTasks (.fixed 0) none]

/-- The promotion opens a run although the task is only ready. -/
theorem promotion_opens_run : ¬ Always step RunHistory Db.empty failedAndPromoted := by
  intro h
  have hlast := h.last
  have hrow : ((exec step Db.empty failedAndPromoted).task? "t_a").map Task.status = some .ready := by
    decide
  have hrun : ((exec step Db.empty failedAndPromoted).run? 2).map
      (fun r => (r.taskId, r.endedAt)) = some ("t_a", none) := by decide
  obtain ⟨t, ht, hs⟩ := Option.map_eq_some_iff.mp hrow
  obtain ⟨r, hr, he⟩ := Option.map_eq_some_iff.mp hrun
  simp only [Prod.mk.injEq] at he
  obtain ⟨_, hst | hst⟩ := (hlast "t_a" t ht).current 2 r hr he.1 he.2
  · rw [hs] at hst
    cases hst
  · rw [hs] at hst
    cases hst

end A2ARegistry.Orchestration
