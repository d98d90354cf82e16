import A2ARegistry.Orchestration.Proofs.Readiness
import A2ARegistry.Orchestration.Proofs.RetryBound
import A2ARegistry.Orchestration.Proofs.History

namespace A2ARegistry.Orchestration
open Base

/-- The workers of a task are silent: none reports on it and none sends a heartbeat for it; and it is not linked
behind other tasks meanwhile. -/
def Silent (k : String) : Op → Prop
  | .updateTaskStatus _ id _ _ | .heartbeat _ id _ | .addDependency _ id _ _ | .removeDependency _ id _ => id ≠ k
  | _ => True

/-- A task whose attempts the retry loop goes through. -/
structure Tried (limit : Int) (tenant : Option String) (t : Task) : Prop where
  stage : t.status = .ready ∨ t.status = .running ∨ t.status = .failed
  own : t.retryLimit = limit
  inTenant : t.inTenant tenant = true

/-- What is the same of two rows as far as attempts go. -/
structure SameAttempt (t t' : Task) : Prop where
  status : t'.status = t.status
  failures : t'.consecutiveFailures = t.consecutiveFailures
  lock : t'.claimLock = t.claimLock
  expires : t'.claimExpires = t.claimExpires
  retries : t'.maxRetries = t.maxRetries
  tenant : t'.tenant = t.tenant

theorem SameAttempt.refl (t : Task) : SameAttempt t t := ⟨rfl, rfl, rfl, rfl, rfl, rfl⟩

/-- What can happen to the attempts of a task with silent workers. -/
inductive Attempt : Op → Task → Task → Prop
  | same (h : SameAttempt t t') : Attempt op t t'
  | claimed {clock : Clock} {t : Task} (free : t.claimable clock.now = true) :
      Attempt (.claimTask clock t.id workerId pid ttl) t (claimedRow t clock.now workerId pid ttl n)
  | released (expired : t.expired clock.now tenant = true) :
      Attempt (.releaseExpiredClaims clock tenant) t (t.release clock.now (t.consecutiveFailures + 1))
  | promoted (retryable : t.retryable tenant = true) : Attempt (.promoteRetryableTasks clock tenant) t (t.promote n)

section Steps

variable {k : String} {limit : Int} {tenant : Option String} {db : Db} {op : Op} {t : Task}

/-- With its parents done, resolving a task that the retry loop goes through changes nothing. -/
theorem settle_tried (h : Tried limit tenant t) (hdone : parentsDone db t.id = true) : settle db t = t := by
  rcases settle_cases db t with ⟨hstatus, _, _⟩ | ⟨_, hopen, _⟩ | ⟨_, _, he⟩
  · rcases h.stage with hs | hs | hs <;> rw [hstatus] at hs <;> cases hs
  · rw [hdone] at hopen
    cases hopen
  · exact he

theorem silent_parents (hop : Silent k op) (ht : db.task? k = some t) (hp : ParentsSatisfied db k) :
    ParentsSatisfied (step db op) k := by
  rcases step_links_kept op ht with hkept | ⟨hrelinks, _⟩
  · exact hp.step hkept
  · cases op with
    | addDependency | removeDependency => exact absurd hrelinks hop
    | _ => cases hrelinks

theorem silent_row (hi : Integrity db) (hp : ParentsSatisfied db k) (ht : db.task? k = some t)
    (h : Tried limit tenant t) (hop : Silent k op) :
    ∃ t', (step db op).task? k = some t' ∧ Attempt op t t' := by
  have hid := Db.task_id ht
  obtain ⟨t', ht', hrow⟩ := step_row op ht
  refine ⟨t', ht', ?_⟩
  cases hrow with
  | same => exact .same (.refl t)
  | edited => exact .same ⟨rfl, rfl, rfl, rfl, rfl, rfl⟩
  | placed => exact .same ⟨rfl, rfl, rfl, rfl, rfl, rfl⟩
  | manned => exact .same ⟨rfl, rfl, rfl, rfl, rfl, rfl⟩
  | beat => exact absurd hid hop
  | claimed free => exact .claimed free
  | moved => exact absurd hid hop
  | settled =>
    have hdone : parentsDone (step db op) k = true :=
      (parentsDone_iff_satisfied (step_integrity db op hi)).mpr (silent_parents hop ht hp)
    rw [settle_tried h (hid ▸ hdone)]
    exact .same (.refl t)
  | released expired => exact .released expired
  | promoted retryable => exact .promoted retryable

/-- The task is in the retry loop, behind parents that are done. -/
structure Trying (k : String) (limit : Int) (tenant : Option String) (db : Db) : Prop where
  sound : Integrity db
  parents : ParentsSatisfied db k
  row : ∃ t, db.task? k = some t ∧ Tried limit tenant t

theorem SameAttempt.tried {t' : Task} (h : SameAttempt t t') (ht : Tried limit tenant t) : Tried limit tenant t' := by
  refine ⟨h.status ▸ ht.stage, ?_, ?_⟩
  · rw [Task.retryLimit, h.retries]
    exact ht.own
  · have htenant := ht.inTenant
    cases tenant with
    | none => rfl
    | some name => rwa [Task.inTenant, h.tenant]

theorem Attempt.tried {t' : Task} (h : Attempt op t t') (ht : Tried limit tenant t) : Tried limit tenant t' := by
  obtain ⟨hstage, hown, htenant⟩ := ht
  cases h with
  | same h => exact h.tried ⟨hstage, hown, htenant⟩
  | claimed => exact ⟨Or.inr (Or.inl rfl), hown, by cases tenant <;> exact htenant⟩
  | released => exact ⟨Or.inr (Or.inr rfl), hown, by cases tenant <;> exact htenant⟩
  | promoted => exact ⟨Or.inl rfl, hown, by cases tenant <;> exact htenant⟩

theorem step_trying (op : Op) (h : Trying k limit tenant db) (hop : Silent k op) :
    Trying k limit tenant (step db op) := by
  obtain ⟨t, ht, htried⟩ := h.row
  obtain ⟨t', ht', hattempt⟩ := silent_row h.sound h.parents ht htried hop
  exact ⟨step_integrity db op h.sound, silent_parents hop ht h.parents, t', ht', hattempt.tried htried⟩

theorem Task.claimable_ready {now : Int} (free : t.claimable now = true) : t.status = .ready := by
  simp only [Task.claimable, Bool.and_eq_true, beq_iff_eq] at free
  exact free.1

theorem Tried.expired_running {now : Int} (h : Tried limit tenant t) (expired : t.expired now tenant' = true) :
    t.status = .running := by
  simp only [Task.expired, Bool.and_eq_true, Bool.or_eq_true, beq_iff_eq] at expired
  rcases h.stage with hs | hs | hs
  · rw [hs] at expired
    simp at expired
  · exact hs
  · rw [hs] at expired
    simp at expired

theorem claimsTask_iff {clock : Clock} {workerId : String} {pid ttl : Int} (ht : db.task? k = some t) :
    claimsTask k db (.claimTask clock k workerId pid ttl) = true ↔ t.claimable clock.now = true := by
  rw [claimsTask, beq_self_eq_true, Bool.true_and]
  constructor
  · intro h
    obtain ⟨res, hres⟩ := Option.isSome_iff_exists.mp h
    obtain ⟨u, hu, hfree, _⟩ := claimTask_some hres
    rw [ht] at hu
    cases hu
    exact hfree
  · intro h
    rw [claimTask_claims ht h]
    rfl

theorem claims_row (ht : db.task? k = some t) (h : claimsTask k db op = true) :
    ∃ now n workerId pid ttl, t.claimable now = true ∧
      (step db op).task? k = some (claimedRow t now workerId pid ttl n) := by
  unfold claimsTask at h
  split at h
  · rename_i clock j workerId pid ttl
    simp only [Bool.and_eq_true, beq_iff_eq] at h
    obtain ⟨rfl, hsome⟩ := h
    obtain ⟨res, hres⟩ := Option.isSome_iff_exists.mp hsome
    obtain ⟨u, hu, hfree, _⟩ := claimTask_some hres
    rw [ht] at hu
    cases hu
    refine ⟨clock.now, db.runs.next, workerId, pid, ttl, hfree, ?_⟩
    have hs : step db (.claimTask clock j workerId pid ttl) = writeClaim db clock j workerId pid ttl :=
      congrArg Prod.snd (claimTask_claims ht hfree)
    rw [hs, writeClaim_task _ _ _ ht hfree, if_pos rfl]
  · cases h

/-- With silent workers, the attempts are the claims. -/
theorem silent_attempts (h : Trying k limit tenant db) (hop : Silent k op) :
    attempts k (step db op) = attempts k db + (if claimsTask k db op then 1 else 0) := by
  obtain ⟨t, ht, htried⟩ := h.row
  obtain rfl := Db.task_id ht
  obtain ⟨t', ht', hattempt⟩ := silent_row h.sound h.parents ht htried hop
  simp only [attempts, ht, ht', Option.map_some, Option.getD_some, Task.attempts]
  cases hattempt with
  | same hsame =>
    have hno : claimsTask t.id db op = false := by
      by_contra hclaims
      rw [Bool.not_eq_false] at hclaims
      obtain ⟨_, _, _, _, _, hfree, hrow⟩ := claims_row ht hclaims
      rw [ht'] at hrow
      cases hrow
      have hstatus := hsame.status
      rw [Task.claimable_ready hfree] at hstatus
      cases hstatus
    rw [hno, hsame.status, hsame.failures]
    rfl
  | claimed free =>
    rw [(claimsTask_iff ht).mpr free, Task.claimable_ready free]
    rfl
  | released expired =>
    have hrunning := htried.expired_running expired
    rw [hrunning]
    rfl
  | promoted retryable =>
    simp only [Task.retryable, Bool.and_eq_true, beq_iff_eq] at retryable
    rw [retryable.1.1.1]
    rfl

end Steps

/-- Where the attempts of a task stand after a number of failures. -/
inductive Stage
  | ready
  | underWay (expires : Int)
  | failed

def Stage.At (failures : Nat) (t : Task) : Stage → Prop
  | .ready => t.status = .ready ∧ t.claimLock = none ∧ t.consecutiveFailures = failures
  | .underWay expires => t.status = .running ∧ t.claimExpires = some expires ∧ t.consecutiveFailures = failures
  | .failed => t.status = .failed ∧ t.consecutiveFailures = failures

theorem SameAttempt.stage {t t' : Task} {stage : Stage} {failures : Nat} (h : SameAttempt t t')
    (ht : stage.At failures t) : stage.At failures t' := by
  cases stage with
  | ready => exact ⟨h.status.trans ht.1, h.lock.trans ht.2.1, h.failures.trans ht.2.2⟩
  | underWay => exact ⟨h.status.trans ht.1, h.expires.trans ht.2.1, h.failures.trans ht.2.2⟩
  | failed => exact ⟨h.status.trans ht.1, h.failures.trans ht.2⟩

def AtStage (k : String) (stage : Stage) (failures : Nat) (db : Db) : Prop :=
  ∃ t, db.task? k = some t ∧ stage.At failures t

/-- A call that is no part of the retry loop of the task. -/
def Aside (k : String) : Op → Prop
  | .claimTask _ id _ _ _ => id ≠ k
  | .releaseExpiredClaims .. | .promoteRetryableTasks .. => False
  | op => Silent k op

/-- What the row of the task becomes in `release_expired_claims`. -/
def Stage.release (now : Int) (failures : Nat) : Stage → Stage × Nat
  | .underWay expires => if expires ≤ now then (.failed, failures + 1) else (.underWay expires, failures)
  | stage => (stage, failures)

/-- What it becomes in `promote_retryable_tasks`. -/
def Stage.promote (limit : Int) (failures : Nat) : Stage → Stage
  | .failed => if (failures : Int) ≤ limit ∧ 0 < failures then .ready else .failed
  | stage => stage

/-- What it becomes in `claim_task`. -/
def Stage.claim (now ttl : Int) : Stage → Stage
  | .ready => .underWay (now + ttl)
  | stage => stage

section Passes

variable {k : String} {limit : Int} {tenant : Option String} {db : Db} {op : Op} {t : Task} {f : Nat} {stage : Stage}

theorem Aside.silent (h : Aside k op) : Silent k op := by
  cases op with
  | claimTask | releaseExpiredClaims | promoteRetryableTasks => exact trivial
  | _ => exact h

theorem step_aside (h : Trying k limit tenant db) (ha : AtStage k stage f db) (hop : Aside k op) :
    AtStage k stage f (step db op) := by
  obtain ⟨t, ht, hat⟩ := ha
  obtain ⟨u, hu, htried⟩ := h.row
  obtain rfl := Option.some.inj (ht.symm.trans hu)
  obtain ⟨t', ht', hattempt⟩ := silent_row h.sound h.parents ht htried hop.silent
  refine ⟨t', ht', ?_⟩
  cases hattempt with
  | same hsame => exact hsame.stage hat
  | claimed => exact absurd (Db.task_id ht) hop
  | released | promoted => cases hop

theorem exec_aside (h : Trying k limit tenant db) (ha : AtStage k stage f db) {ops : List Op}
    (hops : ∀ op ∈ ops, Aside k op) :
    Trying k limit tenant (exec step db ops) ∧ AtStage k stage f (exec step db ops) := by
  induction ops generalizing db with
  | nil => exact ⟨h, ha⟩
  | cons op ops ih =>
    have hop := hops op List.mem_cons_self
    exact ih (step_trying op h hop.silent) (step_aside h ha hop) (fun o ho => hops o (List.mem_cons_of_mem op ho))

theorem step_release (clock : Clock) (h : Trying k limit tenant db) (ha : AtStage k stage f db) :
    AtStage k (stage.release clock.now f).1 (stage.release clock.now f).2
      (step db (.releaseExpiredClaims clock tenant)) := by
  obtain ⟨t, ht, hat⟩ := ha
  obtain ⟨u, hu, htried⟩ := h.row
  obtain rfl := Option.some.inj (ht.symm.trans hu)
  have hrow := release_task db clock tenant k
  rw [ht, Option.map_some] at hrow
  refine ⟨_, hrow, ?_⟩
  cases stage with
  | ready =>
    have halive : t.expired clock.now tenant = false := by
      rw [Task.expired, hat.1]
      rfl
    rw [halive]
    exact hat
  | failed =>
    have halive : t.expired clock.now tenant = false := by
      rw [Task.expired, hat.1]
      rfl
    rw [halive]
    exact hat
  | underWay e =>
    have hexpired : t.expired clock.now tenant = decide (e ≤ clock.now) := by
      rw [Task.expired, hat.1, hat.2.1, htried.inTenant, Bool.and_true]
      rfl
    rw [hexpired, Stage.release]
    by_cases hlate : e ≤ clock.now
    · rw [if_pos hlate, if_pos (decide_eq_true hlate)]
      exact ⟨rfl, congrArg (· + 1) hat.2.2⟩
    · rw [if_neg hlate, if_neg (by simpa using hlate)]
      exact hat

theorem step_promote (clock : Clock) (h : Trying k limit tenant db) (ha : AtStage k stage f db) :
    AtStage k (stage.promote limit f) f (step db (.promoteRetryableTasks clock tenant)) := by
  obtain ⟨t, ht, hat⟩ := ha
  obtain ⟨u, hu, htried⟩ := h.row
  obtain rfl := Option.some.inj (ht.symm.trans hu)
  obtain ⟨hkept, hpromoted⟩ := promote_task clock tenant ht
  cases stage with
  | ready =>
    refine ⟨t, hkept ?_, hat⟩
    rw [Task.retryable, hat.1]
    rfl
  | underWay =>
    refine ⟨t, hkept ?_, hat⟩
    rw [Task.retryable, hat.1]
    rfl
  | failed =>
    have hretryable : t.retryable tenant = decide ((f : Int) ≤ limit ∧ 0 < f) := by
      rw [Task.retryable, hat.1, hat.2, htried.own, htried.inTenant, Bool.and_true, Bool.decide_and]
      rfl
    rw [Stage.promote]
    by_cases hmore : (f : Int) ≤ limit ∧ 0 < f
    · obtain ⟨n, _, hrow, _⟩ := hpromoted (hretryable.trans (decide_eq_true hmore))
      rw [if_pos hmore]
      exact ⟨_, hrow, rfl, rfl, hat.2⟩
    · rw [if_neg hmore]
      exact ⟨t, hkept (hretryable.trans (decide_eq_false hmore)), hat⟩

theorem step_claim (clock : Clock) (workerId : String) (pid ttl : Int) (ha : AtStage k stage f db) :
    AtStage k (stage.claim clock.now ttl) f (step db (.claimTask clock k workerId pid ttl)) := by
  obtain ⟨t, ht, hat⟩ := ha
  have hrefused (hready : t.status ≠ .ready) : (step db (.claimTask clock k workerId pid ttl)).task? k = some t := by
    have hs : step db (.claimTask clock k workerId pid ttl) = db := by
      refine congrArg Prod.snd (claimTask_refused fun u hu => ?_)
      obtain rfl := Option.some.inj (ht.symm.trans hu)
      by_contra hfree
      exact hready (Task.claimable_ready (by simpa using hfree))
    rw [hs, ht]
  cases stage with
  | ready =>
    have hfree : t.claimable clock.now = true := by
      rw [Task.claimable, hat.1, hat.2.1]
      rfl
    have hs : step db (.claimTask clock k workerId pid ttl) = writeClaim db clock k workerId pid ttl :=
      congrArg Prod.snd (claimTask_claims ht hfree)
    refine ⟨claimedRow t clock.now workerId pid ttl db.runs.next, ?_, rfl, rfl, hat.2.2⟩
    rw [hs, writeClaim_task _ _ _ ht hfree, if_pos rfl]
  | underWay => exact ⟨t, hrefused (by rw [hat.1]; decide), hat⟩
  | failed => exact ⟨t, hrefused (by rw [hat.1]; decide), hat⟩

end Passes

/-- One `_poll_cycle` of the dispatcher as a task meets it: its three passes, and what other callers do between them. -/
structure PollCycle where
  releasing : Clock
  released : List Op
  promoting : Clock
  promoted : List Op
  claiming : Clock
  workerId : String
  pid : Int
  claimed : List Op

def PollCycle.ops (cycle : PollCycle) (k : String) (tenant : Option String) (ttl : Int) : List Op :=
  .releaseExpiredClaims cycle.releasing tenant :: (cycle.released ++
    .promoteRetryableTasks cycle.promoting tenant :: (cycle.promoted ++
      .claimTask cycle.claiming k cycle.workerId cycle.pid ttl :: cycle.claimed))

structure PollCycle.LeavesAlone (cycle : PollCycle) (k : String) : Prop where
  released : ∀ op ∈ cycle.released, Aside k op
  promoted : ∀ op ∈ cycle.promoted, Aside k op
  claimed : ∀ op ∈ cycle.claimed, Aside k op

/-- Each cycle claims within `gap` of the release pass of the cycle before it. -/
def Timely (gap : Int) : Int → List PollCycle → Prop
  | _, [] => True
  | reading, cycle :: cycles =>
    cycle.releasing.now ≤ cycle.claiming.now ∧ cycle.claiming.now ≤ reading + gap ∧
      Timely gap cycle.releasing.now cycles

/-- The clock reading of the last release pass. -/
def lastReading (reading : Int) (cycles : List PollCycle) : Int :=
  cycles.foldl (fun _ cycle => cycle.releasing.now) reading

/-- Where a task without workers can stand after a cycle: on a lease that is not over yet, and ends in time, or given
up for good. -/
inductive Standing (k : String) (limit base period reading : Int) (db : Db) : Prop
  | underWay (e : Int) (f : Nat) (at_ : AtStage k (.underWay e) f db) (alive : reading < e)
      (soon : e ≤ base + f * period) (below : (f : Int) ≤ limit)
  | givenUp (f : Nat) (at_ : AtStage k .failed f db) (spent : (f : Int) = limit + 1)

section Cycles

variable {k : String} {limit gap ttl base reading : Int} {tenant : Option String} {db : Db} {cycle : PollCycle}

/-- A cycle takes the task through its three passes. -/
theorem exec_cycle (h : Trying k limit tenant db) {stage released promoted : Stage} {f f' : Nat}
    (ha : AtStage k stage f db) (hc : cycle.LeavesAlone k)
    (hrelease : stage.release cycle.releasing.now f = (released, f')) (hpromote : released.promote limit f' = promoted) :
    Trying k limit tenant (exec step db (cycle.ops k tenant ttl)) ∧
      AtStage k (promoted.claim cycle.claiming.now ttl) f' (exec step db (cycle.ops k tenant ttl)) := by
  rw [PollCycle.ops, exec_cons, exec_append, exec_cons, exec_append, exec_cons]
  have hreleased := step_release cycle.releasing h ha
  rw [hrelease] at hreleased
  obtain ⟨h, ha⟩ := exec_aside (step_trying (.releaseExpiredClaims cycle.releasing tenant) h trivial) hreleased hc.released
  have hpromoted := step_promote cycle.promoting h ha
  rw [hpromote] at hpromoted
  obtain ⟨h, ha⟩ := exec_aside (step_trying (.promoteRetryableTasks cycle.promoting tenant) h trivial) hpromoted
    hc.promoted
  exact exec_aside (step_trying (.claimTask cycle.claiming k cycle.workerId cycle.pid ttl) h trivial)
    (step_claim cycle.claiming cycle.workerId cycle.pid ttl ha) hc.claimed

theorem cycle_standing (h : Trying k limit tenant db) (hs : Standing k limit base (gap + ttl) reading db)
    (hc : cycle.LeavesAlone k) (hclaim : cycle.releasing.now ≤ cycle.claiming.now)
    (hgap : cycle.claiming.now ≤ reading + gap) (httl : 0 < ttl) :
    Trying k limit tenant (exec step db (cycle.ops k tenant ttl)) ∧
      Standing k limit base (gap + ttl) cycle.releasing.now (exec step db (cycle.ops k tenant ttl)) := by
  cases hs with
  | underWay e f hat halive hsoon hbelow =>
    by_cases hlate : e ≤ cycle.releasing.now
    · by_cases hmore : ((f + 1 : Nat) : Int) ≤ limit ∧ 0 < f + 1
      · obtain ⟨h, ha⟩ := exec_cycle h hat hc (if_pos hlate) (if_pos hmore)
        refine ⟨h, .underWay _ (f + 1) ha (by omega) ?_ hmore.1⟩
        have hnext : ((f + 1 : Nat) : Int) * (gap + ttl) = f * (gap + ttl) + (gap + ttl) := by
          rw [Int.natCast_succ, Int.add_mul, Int.one_mul]
        rw [hnext]
        omega
      · obtain ⟨h, ha⟩ := exec_cycle h hat hc (if_pos hlate) (if_neg hmore)
        exact ⟨h, .givenUp (f + 1) ha (by push_cast at hmore ⊢; omega)⟩
    · obtain ⟨h, ha⟩ := exec_cycle h hat hc (if_neg hlate) rfl
      exact ⟨h, .underWay e f ha (by omega) hsoon hbelow⟩
  | givenUp f hat hover =>
    have hlast : ¬ ((f : Int) ≤ limit ∧ 0 < f) := by omega
    obtain ⟨h, ha⟩ := exec_cycle h hat hc rfl (if_neg hlast)
    exact ⟨h, .givenUp f ha hover⟩

theorem cycles_standing (httl : 0 < ttl) {cycles : List PollCycle} (h : Trying k limit tenant db)
    (hs : Standing k limit base (gap + ttl) reading db) (htimely : Timely gap reading cycles)
    (hc : ∀ cycle ∈ cycles, cycle.LeavesAlone k) :
    Standing k limit base (gap + ttl) (lastReading reading cycles)
      (exec step db (cycles.flatMap (fun cycle => cycle.ops k tenant ttl))) := by
  induction cycles generalizing db reading with
  | nil => exact hs
  | cons cycle cycles ih =>
    obtain ⟨hclaim, hgap, hrest⟩ := htimely
    obtain ⟨h, hs⟩ := cycle_standing h hs (hc cycle List.mem_cons_self) hclaim hgap httl
    rw [List.flatMap_cons, exec_append]
    exact ih h hs hrest (fun c hmem => hc c (List.mem_cons_of_mem cycle hmem))

theorem cycle_silent (hc : cycle.LeavesAlone k) : ∀ op ∈ cycle.ops k tenant ttl, Silent k op := by
  intro op hop
  simp only [PollCycle.ops, List.mem_cons, List.mem_append] at hop
  rcases hop with rfl | hop | rfl | hop | rfl | hop
  · trivial
  · exact (hc.released op hop).silent
  · trivial
  · exact (hc.promoted op hop).silent
  · trivial
  · exact (hc.claimed op hop).silent

end Cycles

/-- A task with one retry is claimed by a worker that dies. -/
def deadWorker : List Op :=
  [.createTask (.fixed 0) "a" poisonArgs, .claimTask (.fixed 0) "t_a" "w" 1 900]

def cycleAt (releasing claiming : Int) : PollCycle :=
  { releasing := .fixed releasing, released := [], promoting := .fixed releasing, promoted := []
    claiming := .fixed claiming, workerId := "w", pid := 1, claimed := [.setWorkerPid "t_a" 7] }

def cyclesAfter : List PollCycle := [cycleAt 500 501, cycleAt 900 901, cycleAt 1801 1802, cycleAt 2800 2801]

end A2ARegistry.Orchestration
