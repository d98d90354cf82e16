import Mathlib
import A2ARegistry.Orchestration.Proofs.Runs

namespace A2ARegistry.Orchestration
open Base

/-- Two texts that end in a separator and a tail without it are equal part by part. -/
theorem append_sep_inj {sep : α} {xs ys ds es : List α} (hd : sep ∉ ds) (he : sep ∉ es)
    (h : xs ++ sep :: ds = ys ++ sep :: es) : xs = ys ∧ ds = es := by
  have hcut : ∀ {zs as bs : List α}, sep ∉ as → sep :: as = zs ++ sep :: bs → zs = [] := by
    intro zs as bs hn hz
    cases zs with
    | nil => rfl
    | cons z zs =>
      simp only [List.cons_append, List.cons.injEq] at hz
      exact absurd (hz.2 ▸ List.mem_append_right _ List.mem_cons_self) hn
  rcases List.append_eq_append_iff.mp h with ⟨zs, hys, hz⟩ | ⟨zs, hxs, hz⟩
  · have hnil := hcut hd hz
    subst hnil
    simp only [List.append_nil] at hys
    simp only [List.nil_append, List.cons.injEq, true_and] at hz
    exact ⟨hys.symm, hz⟩
  · have hnil := hcut he hz
    subst hnil
    simp only [List.append_nil] at hxs
    simp only [List.nil_append, List.cons.injEq, true_and] at hz
    exact ⟨hxs, hz.symm⟩

theorem colon_not_mem_repr (n : Int) : ':' ∉ n.repr.toList := by
  have hdigits : ∀ m : Nat, ':' ∉ m.repr.toList := by
    intro m hm
    rw [Nat.toList_repr] at hm
    have := Nat.isDigit_of_mem_toDigits (by decide) (by decide) hm
    revert this
    decide
  rw [Int.repr_eq_if]
  split
  · exact hdigits _
  · simp only [String.toList_append, List.mem_append, not_or]
    exact ⟨by decide, hdigits _⟩

theorem lockOf_toList (workerId : String) (pid : Int) :
    (lockOf workerId pid).toList = workerId.toList ++ ':' :: pid.repr.toList := by
  have h : lockOf workerId pid = workerId ++ ":" ++ pid.repr := by
    simp [lockOf, toString]
  simp [h, String.toList_append]

/-- The lock text determines the worker and the process. -/
theorem lockOf_inj {w w' : String} {p p' : Int} : lockOf w p = lockOf w' p' ↔ w = w' ∧ p = p' := by
  constructor
  · intro h
    have hl := congrArg String.toList h
    rw [lockOf_toList, lockOf_toList] at hl
    obtain ⟨hw, hp⟩ := append_sep_inj (colon_not_mem_repr p) (colon_not_mem_repr p') hl
    exact ⟨String.toList_inj.mp hw, Int.repr_inj.mp (String.toList_inj.mp hp)⟩
  · rintro ⟨rfl, rfl⟩
    rfl

theorem lockOf_ne_empty (w : String) (p : Int) : lockOf w p ≠ "" := by
  intro h
  have hl := congrArg String.toList h
  rw [lockOf_toList] at hl
  simp at hl

/-- The task is not held under the lock of this worker and process. -/
def NotHeldBy (w : String) (p : Int) (k : String) (db : Db) : Prop :=
  ∀ t, db.task? k = some t → t.claimLock ≠ some (lockOf w p)

/-- The call is not a successful claim of the task by this worker and process. -/
def NotClaimedBy (w : String) (p : Int) (k : String) (db : Db) (op : Op) : Prop :=
  ∀ clock ttl, op = .claimTask clock k w p ttl → (claimTask db clock k w p ttl).1 = none

theorem step_not_held {w : String} {p : Int} {k : String} {db : Db} {op : Op}
    (h : NotHeldBy w p k db) (hc : NotClaimedBy w p k db op) : NotHeldBy w p k (step db op) := by
  intro t' ht' hlock
  rcases step_origin ht' with ⟨clock, hex, args, u, rfl, rfl, rfl, _⟩ | ⟨t, hk, hrow⟩
  · cases hlock
  · have hid := Db.task_id hk
    generalize hdb : step db op = db' at hrow
    cases hrow with
    | same | edited | placed | manned | beat | moved => exact h _ hk hlock
    | @claimed clock _ workerId pid ttl free run =>
      have he : lockOf workerId pid = lockOf w p := Option.some.inj hlock
      obtain ⟨rfl, rfl⟩ := lockOf_inj.mp he
      subst hid
      have := hc clock ttl rfl
      rw [claimTask_claims hk free] at this
      cases this
    | settled =>
      obtain ⟨status, he⟩ := settle_kept db' t
      rw [he] at hlock
      exact h t hk hlock
    | released => cases hlock
    | promoted => cases hlock

/-- What the old lock is worth: no heartbeat, and no update while the task runs. -/
structure Fenced (lock : String) (k : String) (db : Db) : Prop where
  heartbeat : ∀ clock, heartbeat db clock k (.str lock) = (false, db)
  update : InStatus k .running db → ∀ clock s args, args.claimLock = .str lock →
    ∃ e, updateTaskStatus db clock k s args = .error e

theorem fenced_of_not_held {w : String} {p : Int} {k : String} {db : Db} (h : NotHeldBy w p k db) :
    Fenced (lockOf w p) k db := by
  have hne : ∀ t, db.task? k = some t → (Json.str (lockOf w p)).eqText t.claimLock = false := by
    intro t ht
    apply Bool.eq_false_iff.mpr
    intro he
    have heq := Json.eqText_iff.mp he
    cases hl : t.claimLock with
    | none =>
      rw [hl] at heq
      cases heq
    | some lock =>
      rw [hl] at heq
      injection heq with heq
      exact h t ht (heq ▸ hl)
  refine ⟨fun clock => heartbeat_refused clock hne, ?_⟩
  intro hrun clock s args hl
  obtain ⟨t, ht, hs⟩ := inStatus_iff.mp hrun
  apply updateTaskStatus_refused clock s ht
  rw [lockRefused, hl, hne t ht]
  simp [hs, Json.truthy, lockOf_ne_empty]

/-- The locks of two successful claims of a task are equal exactly when the same worker
claims from the same process. A claim by another one fences the earlier lock off for
as long as its worker does not claim the task again. -/
theorem earlier_lock_fenced {pre mid : List Op} {k w₁ w₂ : String} {p₁ p₂ ttl₁ ttl₂ : Int}
    {clock₁ clock₂ : Clock} {r₁ r₂ : ClaimResult}
    (h₁ : (claimTask (exec step Db.empty pre) clock₁ k w₁ p₁ ttl₁).1 = some r₁)
    (h₂ : (claimTask (exec step Db.empty (pre ++ .claimTask clock₁ k w₁ p₁ ttl₁ :: mid))
      clock₂ k w₂ p₂ ttl₂).1 = some r₂) :
    (r₁.claimLock = r₂.claimLock ↔ w₁ = w₂ ∧ p₁ = p₂) ∧
    (¬ (w₁ = w₂ ∧ p₁ = p₂) → ∀ post : List Op,
      EachStep step (NotClaimedBy w₁ p₁ k) (exec step Db.empty
        (pre ++ .claimTask clock₁ k w₁ p₁ ttl₁ :: mid ++ [.claimTask clock₂ k w₂ p₂ ttl₂])) post →
      Fenced r₁.claimLock k (exec step Db.empty (pre ++ .claimTask clock₁ k w₁ p₁ ttl₁ :: mid ++
        .claimTask clock₂ k w₂ p₂ ttl₂ :: post))) := by
  obtain ⟨_, _, _, rfl⟩ := claimTask_some h₁
  obtain ⟨t, ht, hc, rfl⟩ := claimTask_some h₂
  refine ⟨lockOf_inj, ?_⟩
  intro hne post hpost
  generalize hdb : exec step Db.empty (pre ++ .claimTask clock₁ k w₁ p₁ ttl₁ :: mid) = db at ht h₂
  have hclaimed : NotHeldBy w₁ p₁ k (step db (.claimTask clock₂ k w₂ p₂ ttl₂)) := by
    intro t' ht' hlock
    have hs : step db (.claimTask clock₂ k w₂ p₂ ttl₂) = writeClaim db clock₂ k w₂ p₂ ttl₂ :=
      congrArg Prod.snd (claimTask_claims ht hc)
    rw [hs, writeClaim_task _ _ _ ht hc, if_pos rfl] at ht'
    cases ht'
    have he : lockOf w₂ p₂ = lockOf w₁ p₁ := Option.some.inj hlock
    obtain ⟨hw, hp⟩ := lockOf_inj.mp he
    exact hne ⟨hw.symm, hp.symm⟩
  rw [exec_append, hdb, exec_cons, exec_nil] at hpost
  rw [exec_append, hdb, exec_cons]
  exact fenced_of_not_held
    (EachStep.invariant (I := NotHeldBy w₁ p₁ k) (fun _ _ => step_not_held) hclaimed hpost)

def firstTask : List Op := [.createTask (.fixed 0) "a" { title := "a" }]

/-- The lease runs out, and the task is promoted for a retry. -/
def expiryAndRetry : List Op :=
  [.releaseExpiredClaims (.fixed 10) none, .promoteRetryableTasks (.fixed 10) none]

theorem first_claim : (claimTask (exec step Db.empty firstTask) (.fixed 0) "t_a" "w" 1 10).1 =
    some ⟨"t_a", "w:1", 10, none⟩ := by
  decide

theorem second_claim : (claimTask (exec step Db.empty
      (firstTask ++ .claimTask (.fixed 0) "t_a" "w" 1 10 :: expiryAndRetry))
    (.fixed 20) "t_a" "v" 2 10).1 = some ⟨"t_a", "v:2", 30, none⟩ := by
  decide

theorem earlier_lock_fenced_on_retry : Fenced "w:1" "t_a" (exec step Db.empty
    (firstTask ++ .claimTask (.fixed 0) "t_a" "w" 1 10 :: expiryAndRetry ++
      [.claimTask (.fixed 20) "t_a" "v" 2 10])) :=
  (earlier_lock_fenced first_claim second_claim).2 (by decide) [] trivial

/-- The same worker gets the same lock again, so nothing fences its first claim off: the
lock that was handed out for it keeps the second one alive. -/
theorem reclaim_repeats_lock :
    (claimTask (exec step Db.empty firstTask) (.fixed 0) "t_a" "w" 1 10).1 =
      some ⟨"t_a", "w:1", 10, none⟩ ∧
    (claimTask (exec step Db.empty
        (firstTask ++ .claimTask (.fixed 0) "t_a" "w" 1 10 :: expiryAndRetry))
      (.fixed 20) "t_a" "w" 1 10).1 = some ⟨"t_a", "w:1", 30, none⟩ ∧
    (heartbeat (exec step Db.empty
        (firstTask ++ .claimTask (.fixed 0) "t_a" "w" 1 10 :: expiryAndRetry ++
          [.claimTask (.fixed 20) "t_a" "w" 1 10])) (.fixed 25) "t_a" (.str "w:1")).1 = true := by
  refine ⟨first_claim, ?_, ?_⟩
  · decide
  · decide

end A2ARegistry.Orchestration
