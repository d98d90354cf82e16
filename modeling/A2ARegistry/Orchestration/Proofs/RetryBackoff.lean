import Mathlib.Tactic.Ring
import Mathlib.Tactic.Linarith
import Mathlib.Algebra.Order.Ring.Int
import A2ARegistry.Orchestration.FlowControl
import A2ARegistry.Orchestration.Proofs.Backoff
import A2ARegistry.Orchestration.Proofs.Readiness

namespace A2ARegistry.Orchestration
open Base

/-- The update fails its task for the n-th time in a row, n is within the limit the task has, and the
time of the next attempt it stores is `delay` after now. -/
inductive StoresRetry (db : Db) (n : Nat) : Op → Int → Prop
  | fails {clock : Clock} {k : String} {args : StatusArgs} {t t' : Task} {limit delay : Int}
      (task : db.task? k = some t) (nth : t.consecutiveFailures + 1 = n)
      (hasLimit : t.maxRetries = some limit) (within : (n : Int) ≤ limit)
      (returns : raised db (.updateTaskStatus clock k TaskStatus.failed.value args) = none)
      (after : (step db (.updateTaskStatus clock k TaskStatus.failed.value args)).task? k = some t')
      (stored : t'.nextRetryAt = some (clock.now + delay)) :
      StoresRetry db n (.updateTaskStatus clock k TaskStatus.failed.value args) delay

/-- The delay is the one the flow controller gives, is within its bounds, and no earlier failure has a
longer one. -/
structure BackoffLaw (config : RetryBackoffConfig) (n : Nat) (delay : Int) : Prop where
  same : delay = config.getRetryBackoff n
  least : config.retryBackoffBase ≤ delay
  most : delay ≤ config.retryBackoffMax
  grows : ∀ ops op m earlier, m ≤ n → StoresRetry (exec step Db.empty ops) m op earlier → earlier ≤ delay

/-- The law for the n-th failure in a row, in every reachable store. -/
def OneBackoff (config : RetryBackoffConfig) (n : Nat) : Prop :=
  ∀ ops op delay, StoresRetry (exec step Db.empty ops) n op delay → BackoffLaw config n delay

/-- Where the two formulas agree: 30 seconds doubled stay under an hour up to the seventh failure. -/
def SameBackoff (config : RetryBackoffConfig) (n : Nat) : Prop :=
  if n ≤ 7 then
    (config.retryBackoffBase = 30 ∧ 30 * 2 ^ (n - 1) ≤ config.retryBackoffMax) ∨
      (30 ≤ config.retryBackoffBase ∧ config.retryBackoffMax = 30 * 2 ^ (n - 1))
  else
    (config.retryBackoffMax = 3600 ∧ 3600 ≤ config.retryBackoffBase * 2 ^ (n - 1)) ∨
      (config.retryBackoffBase * 2 ^ (n - 1) = 3600 ∧ 3600 ≤ config.retryBackoffMax)

theorem doubled_eq (rounds : Nat) (delay : Int) : doubled rounds delay = delay * 2 ^ rounds := by
  induction rounds generalizing delay with
  | zero => simp [doubled]
  | succ rounds ih =>
    rw [doubled, ih, pow_succ]
    ring

theorem getRetryBackoff_eq (config : RetryBackoffConfig) (n : Nat) :
    config.getRetryBackoff n = min (config.retryBackoffBase * 2 ^ (n - 1)) config.retryBackoffMax := by
  rw [RetryBackoffConfig.getRetryBackoff, doubled_eq]

section
variable {config : RetryBackoffConfig} {n : Nat}

theorem getRetryBackoff_le (config : RetryBackoffConfig) (n : Nat) :
    config.getRetryBackoff n ≤ config.retryBackoffMax :=
  min_le_right _ _

theorem le_getRetryBackoff (hbase : 1 ≤ config.retryBackoffBase)
    (hmax : config.retryBackoffBase ≤ config.retryBackoffMax) :
    config.retryBackoffBase ≤ config.getRetryBackoff n := by
  rw [getRetryBackoff_eq]
  apply le_min _ hmax
  have hpow : (1 : Int) ≤ 2 ^ (n - 1) := one_le_pow₀ (by decide)
  exact le_mul_of_one_le_right (by omega) hpow

end

theorem backoff_mono {m n : Nat} (h : m ≤ n) : backoff m ≤ backoff n := by
  have hpow : (2 : Int) ^ (m - 1) ≤ 2 ^ (n - 1) := pow_le_pow_right₀ (by decide) (by omega)
  unfold backoff
  omega

theorem backoff_early {n : Nat} (h : n ≤ 7) : backoff n = 30 * 2 ^ (n - 1) := by
  have hpow : (2 : Int) ^ (n - 1) ≤ 2 ^ 6 := pow_le_pow_right₀ (by decide) (by omega)
  unfold backoff
  omega

theorem backoff_late {n : Nat} (h : ¬ n ≤ 7) : backoff n = 3600 := by
  have hpow : (2 : Int) ^ 7 ≤ 2 ^ (n - 1) := pow_le_pow_right₀ (by decide) (by omega)
  unfold backoff
  omega

theorem sameBackoff_iff (config : RetryBackoffConfig) (n : Nat) :
    SameBackoff config n ↔ backoff n = config.getRetryBackoff n := by
  have hpow : (1 : Int) ≤ 2 ^ (n - 1) := one_le_pow₀ (by decide)
  rw [getRetryBackoff_eq, SameBackoff]
  split
  · rename_i h
    have hscale : config.retryBackoffBase * 2 ^ (n - 1) = 30 * 2 ^ (n - 1) ↔ config.retryBackoffBase = 30 :=
      mul_left_inj' (by omega)
    have horder : (30 : Int) * 2 ^ (n - 1) ≤ config.retryBackoffBase * 2 ^ (n - 1) ↔ 30 ≤ config.retryBackoffBase :=
      mul_le_mul_iff_left₀ (by omega)
    rw [backoff_early h, ← hscale, ← horder]
    omega
  · rename_i h
    rw [backoff_late h]
    omega

/-- The retry time of a failure within the limit of the task. -/
theorem nextRetry_failed {t : Task} {now limit : Int} (hl : t.maxRetries = some limit)
    (hle : ((t.consecutiveFailures + 1 : Nat) : Int) ≤ limit) : nextRetry now t .failed =
      if 1024 < t.consecutiveFailures + 1 then .error .overflowError
      else .ok (some (now + backoff (t.consecutiveFailures + 1))) := by
  simp only [nextRetry, hl, if_pos hle, backoffDelay]
  split
  · rw [if_pos (by omega)]
    rfl
  · rw [if_neg (by omega)]
    rfl

/-- What an update stores is the closed form, and it stores nothing beyond the range of a float. -/
theorem StoresRetry.delay_eq {db : Db} {n : Nat} {op : Op} {delay : Int} (h : StoresRetry db n op delay) :
    delay = backoff n ∧ n ≤ 1024 := by
  cases h with
  | @fails clock k args t t' limit _ task nth hasLimit within returns after stored =>
    cases hup : updateTaskStatus db clock k TaskStatus.failed.value args with
    | error e => simp [raised, Db.tx, errorOf, hup] at returns
    | ok r =>
      obtain ⟨view, db'⟩ := r
      obtain ⟨u, new, retryAt, kind, hu, hnew, ha, _⟩ := updateTaskStatus_ok hup
      have hfailed := TaskStatus.value_injective hnew
      subst hfailed
      rw [task] at hu
      cases hu
      subst nth
      obtain ⟨_, _, hrow⟩ := step_moved task ha
      rw [after] at hrow
      cases hrow
      have hlimit : ((t.consecutiveFailures + 1 : Nat) : Int) ≤ t.retryLimit := by
        simpa [Task.retryLimit, hasLimit] using within
      rw [failed_schedules ha hlimit, hasLimit] at stored
      constructor
      · simpa using (Option.some.inj stored).symm
      · by_contra hover
        have hretry := ha.retry
        rw [nextRetry_failed hasLimit within, if_pos (by omega)] at hretry
        cases hretry

/-- A task that is ready for the attempt after its first `m` failures, with this limit. -/
def ReadyAfter (k : String) (limit : Int) (m : Nat) (db : Db) : Prop :=
  ∃ t, db.task? k = some t ∧ t.status = .ready ∧ t.consecutiveFailures = m ∧ t.maxRetries = some limit

/-- One more attempt that fails and is retried. -/
def failedAttempt (k : String) : List Op :=
  [.updateTaskStatus (.fixed 0) k TaskStatus.running.value {},
    .updateTaskStatus (.fixed 0) k TaskStatus.failed.value {}, .promoteRetryableTasks (.fixed 0) none]

theorem accepted_fail {t : Task} {m : Nat} {limit : Int} (hs : t.status = .running)
    (hm : t.consecutiveFailures = m) (hl : t.maxRetries = some limit) (hle : ((m + 1 : Nat) : Int) ≤ limit)
    (hfloat : m < 1024) : Accepted t 0 .failed .null (some (0 + backoff (m + 1))) := by
  subst hm
  refine ⟨by simp [hs, transitions], by simp [lockRefused, Json.truthy], by simp, ?_⟩
  rw [nextRetry_failed hl hle, if_neg (by omega)]

section
variable {db : Db} {k : String} {limit : Int} {m : Nat}

/-- The started attempt, and what its failure stores. -/
theorem ReadyAfter.fails (h : ReadyAfter k limit m db) (hle : ((m + 1 : Nat) : Int) ≤ limit)
    (hfloat : m < 1024) : ∃ t, t.status = .running ∧ t.consecutiveFailures = m ∧ t.maxRetries = some limit ∧
      (exec step db ((failedAttempt k).take 1)).task? k = some t ∧
      (exec step db ((failedAttempt k).take 2)).task? k =
        some (t.move 0 .failed none (some (0 + backoff (m + 1)))) ∧
      StoresRetry (exec step db ((failedAttempt k).take 1)) (m + 1)
        (.updateTaskStatus (.fixed 0) k TaskStatus.failed.value {}) (backoff (m + 1)) := by
  obtain ⟨u, hu, hs, hm, hl⟩ := h
  have hstart : Accepted u 0 .running .null none :=
    accepted_of_edge (by simp [hs, transitions]) (by simp [hs]) (by simp) (by simp)
  obtain ⟨_, _, hrun⟩ := @step_moved db (.fixed 0) k u .running {} none hu hstart
  have hfail := accepted_fail (t := u.move 0 .running none none) rfl hm hl hle hfloat
  obtain ⟨_, _, hrow⟩ := @step_moved _ (.fixed 0) k _ .failed {} _ hrun hfail
  obtain ⟨_, _, hok⟩ := @updateTaskStatus_accepted _ (.fixed 0) k {} _ .failed _ hrun hfail
  have hreturns : raised (step db (.updateTaskStatus (.fixed 0) k TaskStatus.running.value {}))
      (.updateTaskStatus (.fixed 0) k TaskStatus.failed.value {}) = none := by
    simp only [raised, Db.tx, hok, errorOf]
  exact ⟨u.move 0 .running none none, rfl, hm, hl, hrun, hrow,
    StoresRetry.fails hrun (congrArg (· + 1) hm) hl hle hreturns hrow rfl⟩

theorem ReadyAfter.next (h : ReadyAfter k limit m db) (hle : ((m + 1 : Nat) : Int) ≤ limit)
    (hfloat : m < 1024) : ReadyAfter k limit (m + 1) (exec step db (failedAttempt k)) := by
  obtain ⟨t, hs, hm, hl, _, hrow, _⟩ := h.fails hle hfloat
  have hretry : (t.move 0 .failed none (some (0 + backoff (m + 1)))).retryable none = true := by
    simp [Task.retryable, Task.move, Task.retryLimit, Task.inTenant, hl, hm]
    exact_mod_cast hle
  obtain ⟨n, _, hafter, _⟩ := (promote_task (.fixed 0) none hrow).2 hretry
  exact ⟨_, hafter, rfl, by simp [Task.promote, Task.move, hm], hl⟩

end

/-- Every number of failures up to the limit is reached. -/
theorem reaches_failures (limit : Int) (m : Nat) (hle : (m : Int) ≤ limit) (hfloat : m ≤ 1024) :
    ∃ ops, ReadyAfter "t_a" limit m (exec step Db.empty ops) := by
  induction m with
  | zero =>
    refine ⟨[.createTask (.fixed 0) "a" { title := "a", maxRetries := some limit }], ?_⟩
    exact ⟨_, rfl, rfl, rfl, rfl⟩
  | succ m ih =>
    obtain ⟨ops, h⟩ := ih (by omega) (by omega)
    refine ⟨ops ++ failedAttempt "t_a", ?_⟩
    rw [exec_append]
    exact h.next hle (by omega)

/-- So each n whose delay is a float is stored for in some run. -/
theorem stores_nth {n : Nat} (h1 : 1 ≤ n) (hn : n ≤ 1024) :
    ∃ ops op, StoresRetry (exec step Db.empty ops) n op (backoff n) := by
  obtain ⟨m, rfl⟩ : ∃ m, n = m + 1 := ⟨n - 1, by omega⟩
  obtain ⟨ops, h⟩ := reaches_failures 1024 m (by omega) (by omega)
  obtain ⟨_, _, _, _, _, _, hstores⟩ := h.fails (by omega) (by omega)
  refine ⟨ops ++ (failedAttempt "t_a").take 1, .updateTaskStatus (.fixed 0) "t_a" TaskStatus.failed.value {}, ?_⟩
  rw [exec_append]
  exact hstores

theorem oneBackoff_iff {config : RetryBackoffConfig} (hbase : 1 ≤ config.retryBackoffBase)
    (hmax : config.retryBackoffBase ≤ config.retryBackoffMax) {n : Nat} (h1 : 1 ≤ n) :
    OneBackoff config n ↔ 1024 < n ∨ SameBackoff config n := by
  constructor
  · intro h
    by_cases hn : n ≤ 1024
    · obtain ⟨ops, op, hstores⟩ := stores_nth h1 hn
      exact Or.inr ((sameBackoff_iff config n).mpr (h ops op _ hstores).same)
    · exact Or.inl (by omega)
  · intro h ops op delay hstores
    obtain ⟨rfl, hn⟩ := hstores.delay_eq
    have hsame := (sameBackoff_iff config n).mp (h.resolve_left (by omega))
    refine ⟨hsame, ?_, ?_, ?_⟩
    · rw [hsame]
      exact le_getRetryBackoff hbase hmax
    · rw [hsame]
      exact getRetryBackoff_le config n
    · intro pre op' m earlier hm hearlier
      rw [hearlier.delay_eq.1]
      exact backoff_mono hm

/-- The delay the store adds is the flow controller's exactly where the configuration makes its formula
give the same number, and for every failure count only with the two constants of the store. -/
theorem one_backoff_iff (config : RetryBackoffConfig) (hbase : 1 ≤ config.retryBackoffBase)
    (hmax : config.retryBackoffBase ≤ config.retryBackoffMax) :
    (∀ n, 1 ≤ n → (OneBackoff config n ↔ 1024 < n ∨ SameBackoff config n)) ∧
    ((∀ n, 1 ≤ n → OneBackoff config n) ↔ config.retryBackoffBase = 30 ∧ config.retryBackoffMax = 3600) := by
  refine ⟨fun n h1 => oneBackoff_iff hbase hmax h1, ?_⟩
  constructor
  · intro h
    have first : SameBackoff config 1 := ((oneBackoff_iff hbase hmax (by decide)).mp (h 1 (by decide))).resolve_left
      (by decide)
    have last : SameBackoff config 1024 :=
      ((oneBackoff_iff hbase hmax (by decide)).mp (h 1024 (by decide))).resolve_left (by decide)
    have hb : config.retryBackoffBase = 30 := by
      rw [SameBackoff, if_pos (by decide)] at first
      omega
    refine ⟨hb, ?_⟩
    have hpow : (2 : Int) ^ 7 ≤ 2 ^ (1024 - 1) := pow_le_pow_right₀ (by decide) (by decide)
    rw [SameBackoff, if_neg (by decide), hb] at last
    omega
  · rintro ⟨hb, hm⟩ n h1
    apply (oneBackoff_iff hbase hmax h1).mpr
    right
    rw [sameBackoff_iff, getRetryBackoff_eq, hb, hm]
    rfl

/-- A configuration that retries after a minute at first. -/
def minuteBackoff : RetryBackoffConfig := { retryBackoffBase := 60 }

theorem one_backoff_sample : (1 ≤ minuteBackoff.retryBackoffBase ∧
      minuteBackoff.retryBackoffBase ≤ minuteBackoff.retryBackoffMax) ∧
    ((∀ n, 1 ≤ n → OneBackoff minuteBackoff n) ↔
      minuteBackoff.retryBackoffBase = 30 ∧ minuteBackoff.retryBackoffMax = 3600) :=
  ⟨by decide, (one_backoff_iff minuteBackoff (by decide) (by decide)).2⟩

/-- The store waits half of it after the first failure. -/
theorem store_ignores_config : (1 ≤ minuteBackoff.retryBackoffBase ∧
      minuteBackoff.retryBackoffBase ≤ minuteBackoff.retryBackoffMax) ∧ ¬ OneBackoff minuteBackoff 1 := by
  refine ⟨by decide, fun h => ?_⟩
  obtain ⟨ops, op, hstores⟩ := stores_nth (n := 1) (by decide) (by decide)
  exact absurd (h ops op _ hstores).same (by decide)

end A2ARegistry.Orchestration
