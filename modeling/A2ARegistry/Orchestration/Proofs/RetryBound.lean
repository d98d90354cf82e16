import A2ARegistry.Orchestration.Proofs.Runs

namespace A2ARegistry.Orchestration
open Base

/-- The calls that make up the retry loop. An update to `failed` is accepted on running
and on blocked tasks only, and none of these calls blocks a task. -/
def RetryOp : Op → Prop
  | .claimTask .. | .releaseExpiredClaims .. | .promoteRetryableTasks .. => True
  | .updateTaskStatus _ _ s _ => s = TaskStatus.failed.value
  | _ => False

/-- The call is a successful claim of the task. -/
def claimsTask (k : String) (db : Db) : Op → Bool
  | .claimTask clock j workerId pid ttl =>
    j == k && (claimTask db clock j workerId pid ttl).1.isSome
  | _ => false

/-- Where the retry loop can have taken a task with this limit. -/
structure InRetryLoop (limit : Int) (t : Task) : Prop where
  own : t.retryLimit = limit
  below : t.status ≠ .failed → (t.consecutiveFailures : Int) ≤ limit
  bound : (t.consecutiveFailures : Int) ≤ limit + 1

def Bounded (limit : Int) (k : String) (db : Db) : Prop :=
  ∃ t, db.task? k = some t ∧ InRetryLoop limit t

/-- Failures so far, and one more if an attempt is under way. -/
def Task.attempts (t : Task) : Nat :=
  t.consecutiveFailures + if t.status = .running then 1 else 0

def attempts (k : String) (db : Db) : Nat := ((db.task? k).map Task.attempts).getD 0

section
variable {limit : Int} {db db' : Db} {op : Op} {t t' : Task} {k : String}

theorem RowStep.retry_loop (h : RowStep db db' op t t') (hop : RetryOp op)
    (hb : InRetryLoop limit t) : InRetryLoop limit t' := by
  obtain ⟨hl, hlow, hbound⟩ := hb
  cases h with
  | same => exact ⟨hl, hlow, hbound⟩
  | edited | placed | manned | beat => cases hop
  | claimed free =>
    simp only [Task.claimable, Bool.and_eq_true, beq_iff_eq] at free
    exact ⟨hl, fun _ => hlow (by simp [free.1]), hbound⟩
  | @moved clock _ new args retryAt accepted =>
    have hnew : new = .failed := TaskStatus.value_injective hop
    subst hnew
    have hst : t.status ≠ .failed := by
      intro hf
      have hedge := accepted.edge
      simp [transitions, hf] at hedge
    have hle := hlow hst
    refine ⟨hl, fun h => absurd rfl h, ?_⟩
    simp only [Task.move, if_true]
    omega
  | settled =>
    rcases settle_cases db' t with ⟨hst, _, he⟩ | ⟨hst, _, he⟩ | ⟨_, _, he⟩
    · rw [he]
      exact ⟨hl, fun _ => hlow (by simp [hst]), hbound⟩
    · rw [he]
      exact ⟨hl, fun _ => hlow (by simp [hst]), hbound⟩
    · rw [he]
      exact ⟨hl, hlow, hbound⟩
  | released expired =>
    have hst : t.status ≠ .failed := by
      intro hf
      simp [Task.expired, hf] at expired
    have hle := hlow hst
    refine ⟨hl, fun h => absurd rfl h, ?_⟩
    simp only [Task.release]
    omega
  | promoted retryable =>
    simp only [Task.retryable, Bool.and_eq_true, beq_iff_eq, decide_eq_true_eq] at retryable
    exact ⟨hl, fun _ => hl ▸ retryable.1.1.2, hbound⟩

/-- An attempt is counted when it is claimed, and failing it does not uncount it. -/
theorem RowStep.attempts_le (h : RowStep db db' op t t') (hop : RetryOp op) : t.attempts ≤ t'.attempts := by
  cases h with
  | same => exact Nat.le_refl _
  | edited | placed | manned | beat => cases hop
  | claimed free =>
    simp only [Task.claimable, Bool.and_eq_true, beq_iff_eq] at free
    simp [Task.attempts, free.1, claimedRow, Task.claim]
  | @moved clock _ new args retryAt accepted =>
    have hnew : new = .failed := TaskStatus.value_injective hop
    subst hnew
    simp only [Task.attempts, Task.move]
    split <;> simp
  | settled =>
    rcases settle_cases db' t with ⟨hst, _, he⟩ | ⟨hst, _, he⟩ | ⟨_, _, he⟩
    · simp [he, Task.attempts, hst]
    · simp [he, Task.attempts, hst]
    · exact Nat.le_of_eq (by rw [he])
  | released expired =>
    simp only [Task.attempts, Task.release]
    split <;> simp
  | promoted retryable =>
    simp only [Task.retryable, Bool.and_eq_true, beq_iff_eq] at retryable
    simp [Task.attempts, retryable.1.1.1, Task.promote]

/-- The loop never resets the failure count. -/
theorem RowStep.failures_le (h : RowStep db db' op t t') (hop : RetryOp op) :
    t.consecutiveFailures ≤ t'.consecutiveFailures := by
  cases h with
  | same | claimed | promoted => exact Nat.le_refl _
  | edited | placed | manned | beat => cases hop
  | @moved clock _ new args retryAt accepted =>
    have hnew : new = .failed := TaskStatus.value_injective hop
    subst hnew
    exact Nat.le_succ _
  | settled =>
    obtain ⟨status, he⟩ := settle_kept db' t
    exact Nat.le_of_eq (by rw [he])
  | released => exact Nat.le_succ _

/-- The task has used up its retries. -/
def Exhausted (limit : Int) (k : String) (db : Db) : Prop :=
  ∃ t, db.task? k = some t ∧ InRetryLoop limit t ∧ limit < t.consecutiveFailures

theorem Exhausted.failed (h : Exhausted limit k db) : InStatus k .failed db := by
  obtain ⟨t, ht, hb, hlt⟩ := h
  refine inStatus_iff.mpr ⟨t, ht, ?_⟩
  by_contra hn
  have := hb.below hn
  omega

theorem step_exhausted (hop : RetryOp op) (h : Exhausted limit k db) :
    Exhausted limit k (step db op) := by
  obtain ⟨t, ht, hb, hlt⟩ := h
  obtain ⟨t', ht', hrow⟩ := step_row op ht
  have hle := hrow.failures_le hop
  exact ⟨t', ht', hrow.retry_loop hop hb, by omega⟩

theorem step_bounded (hop : RetryOp op) (h : Bounded limit k db) : Bounded limit k (step db op) := by
  obtain ⟨t, ht, hb⟩ := h
  obtain ⟨t', ht', hrow⟩ := step_row op ht
  exact ⟨t', ht', hrow.retry_loop hop hb⟩

theorem step_attempts (hop : RetryOp op) (h : Bounded limit k db) :
    attempts k db + (if claimsTask k db op then 1 else 0) ≤ attempts k (step db op) := by
  obtain ⟨t, ht, _⟩ := h
  obtain ⟨t', ht', hrow⟩ := step_row op ht
  have hle := hrow.attempts_le hop
  simp only [attempts, ht, ht', Option.map_some, Option.getD_some]
  split
  · rename_i hc
    unfold claimsTask at hc
    split at hc
    · rename_i clock j workerId pid ttl
      simp only [Bool.and_eq_true, beq_iff_eq] at hc
      obtain ⟨rfl, hsome⟩ := hc
      obtain ⟨res, hres⟩ := Option.isSome_iff_exists.mp hsome
      obtain ⟨u, hu, hfree, _⟩ := claimTask_some hres
      have hs : step db (.claimTask clock j workerId pid ttl) = writeClaim db clock j workerId pid ttl :=
        congrArg Prod.snd (claimTask_claims hu hfree)
      rw [hs, writeClaim_task _ _ _ hu hfree, if_pos rfl] at ht'
      cases ht'
      rw [ht] at hu
      cases hu
      simp only [Task.claimable, Bool.and_eq_true, beq_iff_eq] at hfree
      simp [Task.attempts, claimedRow, Task.claim, hfree.1]
    · cases hc
  · exact hle

end

theorem eachStep_retry {ops : List Op} (h : ∀ op ∈ ops, RetryOp op) (db : Db) :
    EachStep step (fun _ op => RetryOp op) db ops := by
  induction ops generalizing db with
  | nil => exact trivial
  | cons op ops ih =>
    exact ⟨h op List.mem_cons_self, ih (fun o ho => h o (List.mem_cons_of_mem _ ho)) _⟩

theorem Bounded.attempts_le {limit : Int} {k : String} {db : Db} (h : Bounded limit k db) :
    (attempts k db : Int) ≤ limit + 1 := by
  obtain ⟨t, ht, hb⟩ := h
  simp only [attempts, ht, Option.map_some, Option.getD_some, Task.attempts]
  split
  · rename_i hs
    have := hb.below (by simp [hs])
    push_cast
    omega
  · have := hb.bound
    push_cast
    omega

/-- `create_task` starts the loop with no failures. -/
theorem created_bounded {db db' : Db} {clock : Clock} {hex : String} {args : CreateArgs} {t : Task}
    (ok : createTask db clock hex args = .ok (t, db')) (hlimit : 0 ≤ t.retryLimit) :
    Bounded t.retryLimit t.id db' := by
  obtain ⟨rfl, _, htask, _⟩ := createTask_ok ok
  refine ⟨args.row clock.now hex, by rw [htask]; exact if_pos rfl, rfl, fun _ => hlimit, ?_⟩
  change (0 : Int) ≤ _
  omega

/-- From its creation a task with limit `L` goes through the retry loop with at most
`L + 1` successful claims, and once its failures exceed `L` it stays failed. -/
theorem retry_bound {db db' : Db} {clock : Clock} {hex : String} {args : CreateArgs} {t : Task}
    (ok : createTask db clock hex args = .ok (t, db')) (hlimit : 0 ≤ t.retryLimit) {ops : List Op}
    (hops : ∀ op ∈ ops, RetryOp op) :
    (tally step (claimsTask t.id) db' ops : Int) ≤ t.retryLimit + 1 ∧
    ∀ ops₁ ops₂, ops = ops₁ ++ ops₂ → ∀ u, (exec step db' ops₁).task? t.id = some u →
      t.retryLimit < u.consecutiveFailures → InStatus t.id .failed (exec step db' ops) := by
  have hb := created_bounded ok hlimit
  have hrun : ∀ ops, (∀ op ∈ ops, RetryOp op) → Bounded t.retryLimit t.id (exec step db' ops) :=
    fun ops h => EachStep.invariant (I := Bounded t.retryLimit t.id)
      (fun _ _ hb hop => step_bounded hop hb) hb (eachStep_retry h db')
  constructor
  · have htally : attempts t.id db' + tally step (claimsTask t.id) db' ops ≤
        attempts t.id (exec step db' ops) :=
      tally_le_potential (I := Bounded t.retryLimit t.id) (fun _ _ hb hop => step_bounded hop hb)
        (fun _ _ hb hop => step_attempts hop hb) hb (eachStep_retry hops db')
    have hle := (hrun ops hops).attempts_le
    omega
  · rintro ops₁ ops₂ rfl u hu hlt
    obtain ⟨v, hv, hin⟩ := hrun ops₁ (fun op ho => hops op (List.mem_append_left _ ho))
    rw [hu] at hv
    cases hv
    rw [exec_append]
    have hlast : Exhausted t.retryLimit t.id (exec step (exec step db' ops₁) ops₂) :=
      EachStep.invariant (fun _ _ he hop => step_exhausted hop he) ⟨u, hu, hin, hlt⟩
        (eachStep_retry (fun op ho => hops op (List.mem_append_right _ ho)) _)
    exact hlast.failed

def poisonArgs : CreateArgs := { title := "a", maxRetries := some 1 }

/-- A task with one retry fails, is promoted, expires and is not promoted again. -/
def poisonLoop : List Op :=
  [.claimTask (.fixed 0) "t_a" "w" 1 900,
    .updateTaskStatus (.fixed 0) "t_a" "failed" {},
    .promoteRetryableTasks (.fixed 1) none,
    .claimTask (.fixed 1) "t_a" "w" 1 900,
    .releaseExpiredClaims (.fixed 901) none,
    .promoteRetryableTasks (.fixed 902) none]

theorem poison_created : createTask Db.empty (.fixed 0) "a" poisonArgs =
    .ok (poisonArgs.row 0 "a", step Db.empty (.createTask (.fixed 0) "a" poisonArgs)) := by
  rfl

theorem poisonLoop_retry : ∀ op ∈ poisonLoop, RetryOp op := by
  intro op ho
  simp only [poisonLoop, List.mem_cons, List.not_mem_nil, or_false] at ho
  rcases ho with rfl | rfl | rfl | rfl | rfl | rfl
  · trivial
  · rfl
  · trivial
  · trivial
  · trivial
  · trivial

theorem retry_bound_on_poison : 0 ≤ (poisonArgs.row 0 "a").retryLimit ∧
    (tally step (claimsTask "t_a") (step Db.empty (.createTask (.fixed 0) "a" poisonArgs))
      poisonLoop : Int) ≤ (poisonArgs.row 0 "a").retryLimit + 1 :=
  ⟨by decide, (retry_bound poison_created (by decide) poisonLoop_retry).1⟩

end A2ARegistry.Orchestration
