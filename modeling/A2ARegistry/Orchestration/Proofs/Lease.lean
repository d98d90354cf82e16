import A2ARegistry.Orchestration.Proofs.Readiness

namespace A2ARegistry.Orchestration
open Base

/-- The current run of the task is a run of it that has not ended. -/
def OpenRun (db : Db) (t : Task) : Prop :=
  ∃ n r, t.currentRunId = some n ∧ db.run? n = some r ∧ r.taskId = t.id ∧ r.endedAt = none

/-- The statuses from which a task can still be running, or run on, under the lock it has. -/
def TaskStatus.live : TaskStatus → Bool
  | .todo | .ready | .running | .blocked => true
  | _ => false

/-- A live task that has a lock has the rest of the lease too. -/
def LocksBacked (db : Db) : Prop :=
  ∀ k t, db.task? k = some t → t.status.live = true → t.claimLock ≠ none →
    t.claimExpires ≠ none ∧ OpenRun db t

/-- A release leaves no expired row behind. -/
theorem step_released {db : Db} {clock : Clock} {tenant : Option String} {k : String} {t : Task}
    (ht : db.task? k = some t) (he : t.expired clock.now tenant = true) :
    (step db (.releaseExpiredClaims clock tenant)).task? k =
      some (t.release clock.now (t.consecutiveFailures + 1)) := by
  have hrow := release_task db clock tenant k
  rw [ht, Option.map_some, if_pos he] at hrow
  exact hrow

/-- The run of a task is closed only by a call that ends the task with it. -/
theorem step_open_run {db : Db} {op : Op} {k : String} {t t' : Task} (hi : Integrity db)
    (ht : db.task? k = some t) (ht' : (step db op).task? k = some t')
    (hlive : t'.status.live = true) (hcur : t'.currentRunId = t.currentRunId)
    (ho : OpenRun db t) : OpenRun (step db op) t' := by
  obtain ⟨n, r, hn, hr, howner, hopen⟩ := ho
  have hid := Db.task_id ht
  have hid' := Db.task_id ht'
  obtain ⟨r', hr', hrun⟩ := step_run op hr
  have hrid : r.id = n := Table.find_key hr
  have howner' : r'.taskId = t'.id := by rw [hrun.kept.2, howner, hid, hid']
  have hsame : ∀ j u, db.task? j = some u → u.currentRunId = some r.id → j = k := by
    intro j u hu hc
    obtain ⟨s, hs, hown⟩ := hi.current j u n hu (by rw [hc, hrid])
    rw [hr] at hs
    cases hs
    rw [← hown, howner, hid]
  refine ⟨n, r', hcur.trans hn, hr', howner', ?_⟩
  cases hrun with
  | same | beat => exact hopen
  | finished task accepted ends current =>
    have hj := hsame _ _ task current
    subst hj
    rw [ht] at task
    cases task
    obtain ⟨_, _, hrow⟩ := step_moved ht accepted
    rw [ht'] at hrow
    cases hrow
    rcases ends with rfl | rfl <;> cases hlive
  | timedOut task expired current =>
    have hj := hsame _ _ task current
    subst hj
    rw [ht] at task
    cases task
    rw [step_released ht expired] at ht'
    cases ht'
    cases hlive

theorem step_locks_backed (db : Db) (op : Op) (hi : Integrity db) (hb : LocksBacked db) :
    LocksBacked (step db op) := by
  intro k t' ht' hlive hlock
  rcases step_origin ht' with ⟨clock, hex, args, u, rfl, rfl, rfl, _⟩ | ⟨t, hk, hrow⟩
  · exact absurd rfl hlock
  · have hid := Db.task_id hk
    have hkeep : t.status.live = true → t'.claimLock = t.claimLock →
        t'.currentRunId = t.currentRunId → t.claimExpires ≠ none ∧ OpenRun (step db op) t' := by
      intro hold hl hc
      obtain ⟨he, ho⟩ := hb k t hk hold (hl ▸ hlock)
      exact ⟨he, step_open_run hi hk ht' hlive hc ho⟩
    generalize hdb : step db op = db' at hrow hkeep ⊢
    cases hrow with
    | same | edited | placed | manned => exact hkeep hlive rfl rfl
    | beat => exact ⟨by simp [Task.beat], (hkeep hlive rfl rfl).2⟩
    | claimed free run =>
      exact ⟨by simp [claimedRow, Task.claim], _, _, rfl, run, rfl, rfl⟩
    | @moved clock _ new args retryAt accepted =>
      apply hkeep _ rfl rfl
      have hedge := accepted.edge
      have hnew : new.live = true := hlive
      cases hst : t.status with
      | todo | ready | running | blocked => rfl
      | failed =>
        simp only [transitions, hst, List.mem_cons, List.not_mem_nil, or_false] at hedge
        rcases hedge with rfl | rfl | rfl
        · exact absurd ⟨hst, rfl⟩ accepted.kind
        · cases hnew
        · cases hnew
      | completed | cancelled =>
        simp only [transitions, hst, List.mem_singleton] at hedge
        subst hedge
        cases hnew
      | dangling | archived => simp [transitions, hst] at hedge
    | settled =>
      rcases settle_cases db' t with ⟨hs, _, he⟩ | ⟨hs, _, he⟩ | ⟨_, _, he⟩
      · rw [he] at hkeep ⊢
        exact hkeep (by rw [hs]; rfl) rfl rfl
      · rw [he] at hkeep ⊢
        exact hkeep (by rw [hs]; rfl) rfl rfl
      · rw [he] at hkeep hlive ⊢
        exact hkeep hlive rfl rfl
    | released => exact absurd rfl hlock
    | promoted => exact absurd rfl hlock

/-- The lease of a running task, and its end: the first release after the expiry fails the task. -/
structure Leased (db : Db) (k : String) (t : Task) : Prop where
  lock : t.claimLock ≠ none
  expires : t.claimExpires ≠ none
  run : OpenRun db t
  heals : ∀ e clock tenant, t.claimExpires = some e → e ≤ clock.now → t.inTenant tenant = true →
    InStatus k .failed (step db (.releaseExpiredClaims clock tenant))

def RunningLeased (db : Db) : Prop :=
  ∀ k t, db.task? k = some t → t.status = .running → Leased db k t

/-- A status update starts or resumes only tasks that have a lock. -/
def StartsUnderLock (db : Db) : Op → Prop
  | .updateTaskStatus _ k s _ => s = TaskStatus.running.value →
    ∀ t, db.task? k = some t → t.status = .ready ∨ t.status = .blocked → t.claimLock ≠ none
  | _ => True

theorem leased_of_lock {db : Db} (hb : LocksBacked db) {k : String} {t : Task}
    (ht : db.task? k = some t) (hs : t.status = .running) (hl : t.claimLock ≠ none) : Leased db k t := by
  obtain ⟨he, hr⟩ := hb k t ht (by rw [hs]; rfl) hl
  refine ⟨hl, he, hr, ?_⟩
  intro e clock tenant hexp hle hten
  have hx : t.expired clock.now tenant = true := by simp [Task.expired, hs, hexp, hle, hten]
  exact inStatus_iff.mpr ⟨_, step_released ht hx, rfl⟩

theorem step_running_leased {db : Db} {op : Op} (hi : Integrity db) (hb : LocksBacked db)
    (hp : RunningLeased db) (hc : StartsUnderLock db op) : RunningLeased (step db op) := by
  intro k t' ht' hs
  apply leased_of_lock (step_locks_backed db op hi hb) ht' hs
  rcases step_origin ht' with ⟨clock, hex, args, u, rfl, rfl, rfl, _⟩ | ⟨t, hk, hrow⟩
  · simp only [CreateArgs.row] at hs
    split at hs <;> cases hs
  · have hid := Db.task_id hk
    generalize hdb : step db op = db' at hrow
    cases hrow with
    | same | edited | placed | manned | beat => exact (hp k _ hk hs).lock
    | claimed => simp [claimedRow, Task.claim]
    | @moved clock _ new args retryAt accepted =>
      have hnew : new = .running := hs
      subst hnew
      subst hid
      apply hc rfl t hk
      have hedge := accepted.edge
      cases hst : t.status with
      | ready => exact Or.inl rfl
      | blocked => exact Or.inr rfl
      | _ => simp [transitions, hst] at hedge
    | settled =>
      rcases settle_cases db' t with ⟨_, _, he⟩ | ⟨_, _, he⟩ | ⟨_, _, he⟩
      · rw [he] at hs
        cases hs
      · rw [he] at hs
        cases hs
      · rw [he] at hs ⊢
        exact (hp k t hk hs).lock
    | released => cases hs
    | promoted => cases hs

theorem starts_under_lock {db : Db} {op : Op} (hp : RunningLeased (step db op)) :
    StartsUnderLock db op := by
  unfold StartsUnderLock
  split
  · rename_i clock k s args
    intro hs t ht hst
    subst hs
    have ha : Accepted t clock.now .running args.claimLock none := by
      rcases hst with hst | hst
      · exact accepted_of_edge (by simp [hst, transitions]) (by simp [hst]) (by simp) (by simp)
      · exact accepted_of_edge (by simp [hst, transitions]) (by simp [hst]) (by simp) (by simp)
    obtain ⟨_, _, hrow⟩ := step_moved ht ha
    exact (hp k _ hrow rfl).lock
  · trivial

/-- In a run every running task has a lease at all times exactly when no status update
starts a task that has no lock. -/
theorem running_leased_iff_starts_under_lock (ops : List Op) :
    Always step RunningLeased Db.empty ops ↔ EachStep step StartsUnderLock Db.empty ops := by
  apply always_iff_guarded (I := fun db => Integrity db ∧ LocksBacked db)
  · intro db op hi _
    exact ⟨step_integrity db op hi.1, step_locks_backed db op hi.1 hi.2⟩
  · intro db op hi hp
    exact ⟨starts_under_lock, step_running_leased hi.1 hi.2 hp⟩
  · refine ⟨empty_integrity, ?_⟩
    intro k t ht
    cases ht
  · intro k t ht
    cases ht

/-- A ready task is set to `running` by a status update. -/
def startedByUpdate : List Op :=
  [.createTask (.fixed 0) "a" { title := "a" },
    .updateTaskStatus (.fixed 0) "t_a" "running" {}]

/-- Such a task runs without a lease. -/
theorem started_without_lease : ¬ Always step RunningLeased Db.empty startedByUpdate := by
  intro h
  have hlast := h.last
  have hrow : ((exec step Db.empty startedByUpdate).task? "t_a").map
      (fun t => (t.status, t.claimLock)) = some (.running, none) := by decide
  obtain ⟨t, ht, he⟩ := Option.map_eq_some_iff.mp hrow
  simp only [Prod.mk.injEq] at he
  exact (hlast "t_a" t ht he.1).lock he.2

end A2ARegistry.Orchestration
