import A2ARegistry.Orchestration.Proofs.Runs

namespace A2ARegistry.Orchestration
open Base

/-- The exponential backoff after the n-th consecutive failure, in seconds. -/
def backoff (n : Nat) : Int := min (30 * 2 ^ (n - 1)) 3600

theorem backoffDelay_ok {n : Nat} {delay : Int} (h : backoffDelay n = .ok delay) :
    delay = backoff n := by
  unfold backoffDelay at h
  split at h
  · cases h
  · cases h
    rfl

/-- The clock reading a call starts with. -/
def Op.now? : Op → Option Int
  | .createTask clock _ _ | .updateTask clock _ _ | .updateTaskStatus clock _ _ _
  | .claimTask clock _ _ _ _ | .heartbeat clock _ _ | .releaseExpiredClaims clock _
  | .promoteRetryableTasks clock _ | .addDependency clock _ _ _ | .removeDependency clock _ _
  | .addComment clock _ _ _ => some clock.now
  | .updateWorkspacePath .. | .setWorkerPid .. => none

/-- The call, made at time `now`, fails the task and leaves it the row `t`. -/
structure FailsAt (k : String) (db : Db) (op : Op) (now : Int) (t : Task) : Prop where
  time : op.now? = some now
  before : ¬ InStatus k .failed db
  after : (step db op).task? k = some t
  failed : t.status = .failed

/-- Whenever a call fails a task for the n-th time in a row, and n is within the retry limit of
the task, the time of the next attempt is set to the time of the failure plus the backoff for n,
and as long as the task stays failed no promotion re-opens it before that time. -/
def BackoffRespected (ops : List Op) : Prop :=
  ∀ pre fail post k now t, ops = pre ++ fail :: post →
    FailsAt k (exec step Db.empty pre) fail now t → (t.consecutiveFailures : Int) ≤ t.retryLimit →
    t.nextRetryAt = some (now + backoff t.consecutiveFailures) ∧
    ∀ mid clock tenant rest, post = mid ++ .promoteRetryableTasks clock tenant :: rest →
      Always step (InStatus k .failed) (step (exec step Db.empty pre) fail) mid →
      InStatus k .ready (step (exec step (step (exec step Db.empty pre) fail) mid)
        (.promoteRetryableTasks clock tenant)) →
      now + backoff t.consecutiveFailures ≤ clock.now

/-- The time of the next attempt is, before a failure at `now`, already what it has to be after it. -/
def Task.Scheduled (t : Task) (now : Int) : Prop :=
  ((t.consecutiveFailures + 1 : Nat) : Int) ≤ t.retryLimit →
    t.nextRetryAt = some (now + backoff (t.consecutiveFailures + 1))

/-- The guard of each call: a failure that does not write `next_retry_at` finds it right, and a
promotion finds it set and reached. -/
def KeepsBackoff (db : Db) : Op → Prop
  | .updateTaskStatus clock k s args => ∀ t, db.task? k = some t → s = TaskStatus.failed.value →
    t.status = .running ∨ t.status = .blocked → lockRefused t args.claimLock = false →
    t.maxRetries = none → t.Scheduled clock.now
  | .releaseExpiredClaims clock tenant => ∀ k t, db.task? k = some t →
    t.expired clock.now tenant = true → t.Scheduled clock.now
  | .promoteRetryableTasks clock tenant => ∀ k t, db.task? k = some t →
    t.retryable tenant = true → ∃ due, t.nextRetryAt = some due ∧ due ≤ clock.now
  | _ => True

/-- What a failing call does to the row: it is an explicit update or an expiry. -/
inductive Failed (db : Db) (k : String) (u : Task) : Op → Task → Prop
  | update {clock : Clock} {args : StatusArgs} {retryAt : Option Int}
      (accepted : Accepted u clock.now .failed args.claimLock retryAt) :
      Failed db k u (.updateTaskStatus clock k TaskStatus.failed.value args)
        (u.move clock.now .failed args.result retryAt)
  | expiry {clock : Clock} {tenant : Option String} (expired : u.expired clock.now tenant = true) :
      Failed db k u (.releaseExpiredClaims clock tenant)
        (u.release clock.now (u.consecutiveFailures + 1))

theorem step_failed {db : Db} {op : Op} {k : String} {t : Task} (hn : ¬ InStatus k .failed db)
    (ht : (step db op).task? k = some t) (hs : t.status = .failed) :
    ∃ u, db.task? k = some u ∧ Failed db k u op t := by
  rcases step_origin ht with ⟨clock, hex, args, _, rfl, rfl, rfl, _⟩ | ⟨u, hu, hrow⟩
  · simp only [CreateArgs.row] at hs
    split at hs <;> cases hs
  · refine ⟨u, hu, ?_⟩
    have hid := Db.task_id hu
    have hne : u.status ≠ .failed := fun he => hn (inStatus_iff.mpr ⟨u, hu, he⟩)
    generalize step db op = db' at hrow
    cases hrow with
    | same | edited | placed | manned | beat => exact absurd hs hne
    | claimed => cases hs
    | @moved clock _ new args retryAt accepted =>
      have hnew : new = .failed := hs
      subst hnew
      subst hid
      exact Failed.update accepted
    | settled =>
      rcases settle_cases db' u with ⟨_, _, he⟩ | ⟨_, _, he⟩ | ⟨_, _, he⟩
      · rw [he] at hs
        cases hs
      · rw [he] at hs
        cases hs
      · exact absurd (he ▸ hs) hne
    | released expired => exact Failed.expiry expired
    | promoted => cases hs

/-- The columns a promotion is judged by. -/
def RetrySame (t t' : Task) : Prop :=
  t'.nextRetryAt = t.nextRetryAt ∧ t'.consecutiveFailures = t.consecutiveFailures ∧
    t'.maxRetries = t.maxRetries

/-- As long as a task stays failed nothing touches them. -/
theorem RowStep.retry_same {db db' : Db} {op : Op} {t t' : Task} (h : RowStep db db' op t t')
    (hs : t.status = .failed) (hs' : t'.status = .failed) : RetrySame t t' := by
  cases h with
  | same | edited | placed | manned | beat => exact ⟨rfl, rfl, rfl⟩
  | claimed => cases hs'
  | @moved clock _ new args retryAt accepted =>
    have hnew : new = .failed := hs'
    subst hnew
    have hedge := accepted.edge
    simp [transitions, hs] at hedge
  | settled =>
    obtain ⟨status, he⟩ := settle_kept db' t
    rw [he]
    exact ⟨rfl, rfl, rfl⟩
  | released expired => simp [Task.expired, hs] at expired
  | promoted => cases hs'

theorem failed_keeps_retry {db : Db} {k : String} {t : Task} (ht : db.task? k = some t) {ops : List Op}
    (h : Always step (InStatus k .failed) db ops) :
    ∃ t', (exec step db ops).task? k = some t' ∧ RetrySame t t' := by
  apply h.keeps (I := fun db => ∃ t', db.task? k = some t' ∧ RetrySame t t')
  · rintro db op hf hf' ⟨u, hu, h1, h2, h3⟩
    obtain ⟨v, hv, hrow⟩ := step_row op hu
    obtain ⟨_, hu', hs⟩ := inStatus_iff.mp hf
    obtain ⟨_, hv', hs'⟩ := inStatus_iff.mp hf'
    rw [hu] at hu'
    rw [hv] at hv'
    cases hu'
    cases hv'
    obtain ⟨k1, k2, k3⟩ := hrow.retry_same hs hs'
    exact ⟨v, hv, k1.trans h1, k2.trans h2, k3.trans h3⟩
  · exact ⟨t, ht, rfl, rfl, rfl⟩

/-- The update writes the right time if the task has a limit of its own, and nothing otherwise. -/
theorem failed_schedules {u : Task} {now : Int} {lock : Json} {retryAt : Option Int}
    {result : Option String} (h : Accepted u now .failed lock retryAt)
    (hle : ((u.consecutiveFailures + 1 : Nat) : Int) ≤ u.retryLimit) :
    (u.move now .failed result retryAt).nextRetryAt =
      if u.maxRetries.isSome then some (now + backoff (u.consecutiveFailures + 1))
      else u.nextRetryAt := by
  have hretry := h.retry
  cases hm : u.maxRetries with
  | none =>
    simp only [nextRetry, hm] at hretry
    cases hretry
    rfl
  | some limit =>
    have hlimit : u.retryLimit = limit := by simp [Task.retryLimit, hm]
    rw [hlimit] at hle
    simp only [nextRetry, hm, if_pos hle] at hretry
    cases hd : backoffDelay (u.consecutiveFailures + 1) with
    | error e => simp [hd, Except.map] at hretry
    | ok delay =>
      simp only [hd, Except.map] at hretry
      cases hretry
      simp [Task.move, backoffDelay_ok hd]

theorem promoted_retryable {db : Db} {clock : Clock} {tenant : Option String} {k : String} {t : Task}
    (ht : db.task? k = some t) (hs : t.status = .failed)
    (hr : InStatus k .ready (step db (.promoteRetryableTasks clock tenant))) :
    t.retryable tenant = true := by
  by_contra hn
  have hkept := (promote_task clock tenant ht).1 (Bool.eq_false_iff.mpr hn)
  obtain ⟨t', ht', hs'⟩ := inStatus_iff.mp hr
  have he : some t' = some t := ht'.symm.trans hkept
  cases he
  rw [hs] at hs'
  cases hs'

/-- Where every call meets its guard, a failure leaves the right time behind. -/
theorem fail_scheduled {db : Db} {op : Op} {k : String} {now : Int} {t : Task}
    (hg : KeepsBackoff db op) (hf : FailsAt k db op now t)
    (hle : (t.consecutiveFailures : Int) ≤ t.retryLimit) :
    t.nextRetryAt = some (now + backoff t.consecutiveFailures) := by
  obtain ⟨u, hu, hfail⟩ := step_failed hf.before hf.after hf.failed
  have htime := hf.time
  cases hfail with
  | @update clock args retryAt accepted =>
    cases htime
    have hle' : ((u.consecutiveFailures + 1 : Nat) : Int) ≤ u.retryLimit := hle
    have hcount : (u.move clock.now .failed args.result retryAt).consecutiveFailures =
        u.consecutiveFailures + 1 := rfl
    rw [failed_schedules accepted hle', hcount]
    cases hm : u.maxRetries with
    | some limit => rfl
    | none =>
      have hst : u.status = .running ∨ u.status = .blocked := by
        have hedge := accepted.edge
        cases hs : u.status <;> simp [transitions, hs] at hedge ⊢
      exact hg u hu rfl hst accepted.lock hm hle'
  | expiry expired =>
    cases htime
    exact hg k u hu expired hle

/-- In a run that respects the backoff, a promotion finds the time of the last failure reached. -/
theorem respected_promotion {ops pre post : List Op} {clock : Clock} {tenant : Option String}
    (h : BackoffRespected ops) (he : ops = pre ++ .promoteRetryableTasks clock tenant :: post) :
    KeepsBackoff (exec step Db.empty pre) (.promoteRetryableTasks clock tenant) := by
  intro k t ht hret
  have hsel := hret
  simp only [Task.retryable, Bool.and_eq_true, beq_iff_eq, decide_eq_true_eq] at hsel
  have hin : InStatus k .failed (exec step Db.empty pre) := inStatus_iff.mpr ⟨t, ht, hsel.1.1.1⟩
  have hout : ¬ InStatus k .failed Db.empty := by
    intro hs
    cases hs
  obtain ⟨pre', fail, mid, rfl, hbefore, hmid⟩ := exec_last_entry hout hin
  obtain ⟨u, hu, hus⟩ := inStatus_iff.mp hmid.head
  obtain ⟨v, hv, hfail⟩ := step_failed hbefore hu hus
  obtain ⟨t', ht', h1, h2, h3⟩ := failed_keeps_retry hu hmid
  have hlast : (exec step Db.empty (pre' ++ fail :: mid)).task? k = some t' := by
    rw [exec_append, exec_cons]
    exact ht'
  rw [ht] at hlast
  cases hlast
  obtain ⟨now, hnow⟩ : ∃ now, fail.now? = some now := by
    cases hfail with
    | update => exact ⟨_, rfl⟩
    | expiry => exact ⟨_, rfl⟩
  have hle : (u.consecutiveFailures : Int) ≤ u.retryLimit := by
    have := hsel.1.1.2
    rw [Task.retryLimit, h3, h2] at this
    exact this
  have hsplit : ops = pre' ++ fail :: (mid ++ .promoteRetryableTasks clock tenant :: post) := by
    rw [he]
    simp
  obtain ⟨hdue, hwait⟩ := h pre' fail _ k now u hsplit ⟨hnow, hbefore, hu, hus⟩ hle
  refine ⟨now + backoff u.consecutiveFailures, h1.trans hdue, hwait mid clock tenant post rfl hmid ?_⟩
  obtain ⟨n, _, hrow, _⟩ := (promote_task clock tenant ht').2 (by simpa using hret)
  exact inStatus_iff.mpr ⟨_, hrow, rfl⟩

/-- In a run that respects the backoff, an expiry finds the time of the next attempt right,
since it does not write it. -/
theorem respected_release {ops pre post : List Op} {clock : Clock} {tenant : Option String}
    (h : BackoffRespected ops) (he : ops = pre ++ .releaseExpiredClaims clock tenant :: post) :
    KeepsBackoff (exec step Db.empty pre) (.releaseExpiredClaims clock tenant) := by
  intro k t ht hexp hle
  have hrow : (step (exec step Db.empty pre) (.releaseExpiredClaims clock tenant)).task? k =
      some (t.release clock.now (t.consecutiveFailures + 1)) := by
    rw [step, release_task, ht, Option.map_some, if_pos hexp]
  have hbefore : ¬ InStatus k .failed (exec step Db.empty pre) := by
    intro hf
    obtain ⟨u, hu, hs⟩ := inStatus_iff.mp hf
    rw [ht] at hu
    cases hu
    simp [Task.expired, hs] at hexp
  exact (h pre _ post k clock.now _ he ⟨rfl, hbefore, hrow, rfl⟩ hle).1

/-- The same holds of an update to `failed` on a task without a limit of its own. -/
theorem respected_update {ops pre post : List Op} {clock : Clock} {k s : String} {args : StatusArgs}
    (h : BackoffRespected ops) (he : ops = pre ++ .updateTaskStatus clock k s args :: post) :
    KeepsBackoff (exec step Db.empty pre) (.updateTaskStatus clock k s args) := by
  rintro t ht rfl hst hlock hm hle
  have hid := Db.task_id ht
  subst hid
  have hedge : TaskStatus.failed ∈ transitions t.status := by
    rcases hst with hs | hs <;> simp [hs, transitions]
  have hretry : nextRetry clock.now t .failed = .ok none := by simp [nextRetry, hm]
  have hacc : Accepted t clock.now .failed args.claimLock none :=
    ⟨hedge, hlock, by simp, hretry⟩
  obtain ⟨view, kind, hok⟩ := updateTaskStatus_accepted ht hacc
  have hrow : (step (exec step Db.empty pre)
      (.updateTaskStatus clock t.id TaskStatus.failed.value args)).task? t.id =
      some (t.move clock.now .failed args.result none) := by
    rw [step, hok]
    exact (writeStatus_task _ clock t .failed args none kind ht t.id).trans (if_pos rfl)
  have hbefore : ¬ InStatus t.id .failed (exec step Db.empty pre) := by
    intro hf
    obtain ⟨u, hu, hs⟩ := inStatus_iff.mp hf
    rw [ht] at hu
    cases hu
    rcases hst with hr | hb
    · rw [hr] at hs
      cases hs
    · rw [hb] at hs
      cases hs
  exact (h pre _ post t.id clock.now _ he ⟨rfl, hbefore, hrow, rfl⟩ hle).1

/-- The backoff is respected exactly in the runs all of whose calls meet their guard. -/
theorem backoff_respected_iff (ops : List Op) :
    BackoffRespected ops ↔ EachStep step KeepsBackoff Db.empty ops := by
  constructor
  · intro h
    apply eachStep_iff.mpr
    intro pre op post he
    cases op with
    | updateTaskStatus => exact respected_update h he
    | releaseExpiredClaims => exact respected_release h he
    | promoteRetryableTasks => exact respected_promotion h he
    | _ => trivial
  · intro h pre fail post k now t he hf hle
    have hguard := eachStep_iff.mp h
    have hdue := fail_scheduled (hguard pre fail post he) hf hle
    refine ⟨hdue, fun mid clock tenant rest hpost hmid hready => ?_⟩
    obtain ⟨t', ht', h1, _, _⟩ := failed_keeps_retry hf.after hmid
    obtain ⟨_, hu, hs⟩ := inStatus_iff.mp hmid.last
    rw [ht'] at hu
    cases hu
    have hg := hguard (pre ++ fail :: mid) (.promoteRetryableTasks clock tenant) rest
      (by rw [he, hpost]; simp)
    rw [exec_append, exec_cons] at hg
    obtain ⟨due, hd, hle'⟩ := hg k t' ht' (promoted_retryable ht' hs hready)
    rw [h1, hdue] at hd
    cases hd
    exact hle'

/-- A task with two retries fails at once and is promoted in the same second. -/
def hastyRetry : List Op :=
  [.createTask (.fixed 0) "a" { title := "a", maxRetries := some 2 },
    .claimTask (.fixed 0) "t_a" "w" 1 900,
    .updateTaskStatus (.fixed 0) "t_a" "failed" {},
    .promoteRetryableTasks (.fixed 0) none]

/-- The next attempt is due at 30, and the task is ready at 0. -/
theorem hastyRetry_ignores_backoff : (hastyRetry.filterMap Op.now?).Pairwise (· ≤ ·) ∧
    ¬ BackoffRespected hastyRetry := by
  refine ⟨by decide, fun h => ?_⟩
  have hfails : FailsAt "t_a" (exec step Db.empty (hastyRetry.take 2))
      (.updateTaskStatus (.fixed 0) "t_a" "failed" {}) 0
      (((exec step Db.empty (hastyRetry.take 3)).task? "t_a").get (by decide)) :=
    ⟨rfl, by decide, by simp [hastyRetry], by decide⟩
  have hwait := (h (hastyRetry.take 2) _ [_] "t_a" 0 _ rfl hfails (by decide)).2 [] (.fixed 0) none []
    rfl (by unfold Always; decide) (by decide)
  revert hwait
  decide

end A2ARegistry.Orchestration
