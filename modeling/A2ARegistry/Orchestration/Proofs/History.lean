import A2ARegistry.Orchestration.Proofs.Readiness

namespace A2ARegistry.Orchestration
open Base

/-- The run has passed through a state with the task in this status. -/
def HasBeen (k : String) (status : TaskStatus) (ops : List Op) : Prop :=
  Visits step (InStatus k status) Db.empty ops

/-- What the present row of a task tells about its past. -/
structure Past (ops : List Op) (k : String) (t : Task) : Prop where
  present : HasBeen k t.status ops
  archived : t.status = .archived →
    HasBeen k .completed ops ∨ HasBeen k .failed ops ∨ HasBeen k .cancelled ops
  result : t.result.isSome → HasBeen k .completed ops

theorem HasBeen.snoc {k : String} {status : TaskStatus} {ops : List Op} (h : HasBeen k status ops)
    (op : Op) : HasBeen k status (ops ++ [op]) :=
  Visits.snoc h op

theorem hasBeen_last {k : String} {status : TaskStatus} {ops : List Op}
    (h : InStatus k status (exec step Db.empty ops)) : HasBeen k status ops :=
  Visits.of_last h

/-- Into `archived` a task comes from one of three statuses. -/
theorem RowStep.archived_from {db db' : Db} {op : Op} {t t' : Task} (h : RowStep db db' op t t')
    (ha : t'.status = .archived) : t.status = .archived ∨ t.status = .completed ∨
      t.status = .failed ∨ t.status = .cancelled := by
  cases h with
  | same | edited | placed | manned | beat => exact Or.inl ha
  | claimed => cases ha
  | @moved clock _ new args retryAt accepted =>
    have hnew : new = .archived := ha
    subst hnew
    have hedge := accepted.edge
    cases hst : t.status with
    | archived | completed | failed | cancelled => simp
    | _ => simp [transitions, hst] at hedge
  | settled =>
    rcases settle_cases db' t with ⟨_, _, he⟩ | ⟨_, _, he⟩ | ⟨_, _, he⟩
    · rw [he] at ha
      cases ha
    · rw [he] at ha
      cases ha
    · exact Or.inl (he ▸ ha)
  | released => cases ha
  | promoted => cases ha

/-- Only completing a task stores a result. -/
theorem RowStep.result_from {db db' : Db} {op : Op} {t t' : Task} (h : RowStep db db' op t t')
    (hr : t'.result.isSome) : t.result.isSome ∨ t'.status = .completed := by
  cases h with
  | same | edited | placed | manned | beat | claimed | released | promoted => exact Or.inl hr
  | @moved clock _ new args retryAt accepted =>
    by_cases hnew : new = .completed
    · exact Or.inr hnew
    · simp only [Task.move, hnew, false_and, if_false] at hr
      exact Or.inl hr
  | settled =>
    obtain ⟨status, he⟩ := settle_kept db' t
    rw [he] at hr
    exact Or.inl hr

def Recorded (ops : List Op) (db : Db) : Prop := ∀ k t, db.task? k = some t → Past ops k t

theorem step_recorded (ops : List Op) (op : Op) (h : Recorded ops (exec step Db.empty ops)) :
    Recorded (ops ++ [op]) (step (exec step Db.empty ops) op) := by
  intro k t' ht'
  have hnow : HasBeen k t'.status (ops ++ [op]) := by
    apply hasBeen_last
    rw [exec_append]
    exact inStatus_iff.mpr ⟨t', ht', rfl⟩
  rcases step_origin ht' with ⟨clock, hex, args, u, rfl, rfl, rfl, _⟩ | ⟨t, hb, hrow⟩
  · refine ⟨hnow, ?_, fun hr => by cases hr⟩
    intro ha
    simp only [CreateArgs.row] at ha
    split at ha <;> cases ha
  · have hpast := h k t hb
    refine ⟨hnow, ?_, ?_⟩
    · intro ha
      have hbefore := hpast.present.snoc op
      rcases hrow.archived_from ha with hs | hs | hs | hs
      · rcases hpast.archived hs with hc | hf | hc
        · exact Or.inl (hc.snoc op)
        · exact Or.inr (Or.inl (hf.snoc op))
        · exact Or.inr (Or.inr (hc.snoc op))
      · exact Or.inl (hs ▸ hbefore)
      · exact Or.inr (Or.inl (hs ▸ hbefore))
      · exact Or.inr (Or.inr (hs ▸ hbefore))
    · intro hr
      rcases hrow.result_from hr with hr | hs
      · exact (hpast.result hr).snoc op
      · exact hs ▸ hnow

theorem recorded (ops : List Op) : Recorded ops (exec step Db.empty ops) := by
  apply history_invariant (H := Recorded)
  · intro k t ht
    cases ht
  · exact step_recorded

/-- The call makes the resolver move the task from `todo` to `ready`: it is not the
explicit update of that task to `ready`. -/
def ResolverPromotes (db : Db) (op : Op) (k : String) : Prop :=
  InStatus k .todo db ∧ InStatus k .ready (step db op) ∧
    ∀ clock args, op ≠ .updateTaskStatus clock k TaskStatus.ready.value args

theorem resolver_satisfied {db : Db} {op : Op} {k : String} (hi : Integrity db)
    (h : ResolverPromotes db op k) : ParentsSatisfied (step db op) k := by
  obtain ⟨htodo, hready, hnot⟩ := h
  obtain ⟨t, ht, hst⟩ := inStatus_iff.mp htodo
  obtain ⟨t', ht', hst'⟩ := inStatus_iff.mp hready
  have hi' := step_integrity db op hi
  have hid := Db.task_id ht
  have hrow := step_moves ht ht'
  generalize hdb : step db op = db' at hrow hi' ⊢
  cases hrow with
  | same | edited | placed | manned | beat =>
    change t.status = .ready at hst'
    rw [hst] at hst'
    cases hst'
  | claimed => cases hst'
  | @moved clock _ new args retryAt accepted =>
    have hnew : new = .ready := hst'
    subst hnew
    exact absurd (by rw [hid]) (hnot clock args)
  | settled =>
    have hd := settle_ready hst'
    rw [hid] at hd
    exact (parentsDone_iff_satisfied hi').mp hd
  | released => cases hst'
  | promoted retryable => simp [Task.retryable, hst] at retryable

theorem reachable_integrity (ops : List Op) : Integrity (exec step Db.empty ops) :=
  exec_invariant step_integrity empty_integrity ops

/-- Whenever the resolver promotes a task, each of its parents has been completed, or
is archived after having failed or been cancelled; behind a link with a condition
it has been completed. -/
theorem resolver_promotes_behind_finished {ops : List Op} {op : Op} {k : String}
    (h : ResolverPromotes (exec step Db.empty ops) op k) :
    ∀ l ∈ (exec step Db.empty (ops ++ [op])).links.rows, l.childId = k →
      (HasBeen l.parentId .completed (ops ++ [op]) ∨
        (InStatus l.parentId .archived (exec step Db.empty (ops ++ [op])) ∧
          (HasBeen l.parentId .failed (ops ++ [op]) ∨ HasBeen l.parentId .cancelled (ops ++ [op])))) ∧
      ∀ c, l.condition = some c → c ≠ "" → HasBeen l.parentId .completed (ops ++ [op]) := by
  intro l hl hk
  have hsat := resolver_satisfied (reachable_integrity ops) h
  have hexec : exec step Db.empty (ops ++ [op]) = step (exec step Db.empty ops) op := by simp
  rw [← hexec] at hsat
  obtain ⟨p, hp, hdone, hcond⟩ := hsat l hl hk
  have hpast := recorded (ops ++ [op]) l.parentId p hp
  constructor
  · rcases hdone with hs | hs
    · exact Or.inl (hs ▸ hpast.present)
    · rcases hpast.archived hs with hc | hother
      · exact Or.inl hc
      · exact Or.inr ⟨inStatus_iff.mpr ⟨p, hp, hs⟩, hother⟩
  · intro c hc hne
    apply hpast.result
    rw [hcond c hc hne]
    rfl

/-- A task waits for two parents; the first fails and is archived, the second runs. -/
def archivedFailure : List Op :=
  [.createTask (.fixed 0) "a" { title := "a" },
    .claimTask (.fixed 0) "t_a" "w" 1 900,
    .updateTaskStatus (.fixed 0) "t_a" "failed" {},
    .updateTaskStatus (.fixed 0) "t_a" "archived" {},
    .createTask (.fixed 0) "b" { title := "b" },
    .createTask (.fixed 0) "c" { title := "c", parents := [.plain "t_a", .plain "t_b"] },
    .claimTask (.fixed 0) "t_b" "w" 1 900]

def completesSecond : Op := .updateTaskStatus (.fixed 0) "t_b" "completed" {}

theorem archivedFailure_promotes :
    ResolverPromotes (exec step Db.empty archivedFailure) completesSecond "t_c" := by
  refine ⟨by decide, by decide, ?_⟩
  intro clock args he
  injection he with _ hid
  exact absurd hid (by decide)

theorem resolver_promotes_on_archivedFailure :
    ResolverPromotes (exec step Db.empty archivedFailure) completesSecond "t_c" ∧
    ∀ l ∈ (exec step Db.empty (archivedFailure ++ [completesSecond])).links.rows,
      l.childId = "t_c" →
      (HasBeen l.parentId .completed (archivedFailure ++ [completesSecond]) ∨
        (InStatus l.parentId .archived (exec step Db.empty (archivedFailure ++ [completesSecond])) ∧
          (HasBeen l.parentId .failed (archivedFailure ++ [completesSecond]) ∨
            HasBeen l.parentId .cancelled (archivedFailure ++ [completesSecond])))) ∧
      ∀ c, l.condition = some c → c ≠ "" →
        HasBeen l.parentId .completed (archivedFailure ++ [completesSecond]) :=
  ⟨archivedFailure_promotes, resolver_promotes_behind_finished archivedFailure_promotes⟩

/-- The child is promoted although its first parent never completed. -/
theorem promoted_on_archived_failure :
    ResolverPromotes (exec step Db.empty archivedFailure) completesSecond "t_c" ∧
    ⟨"t_a", "t_c", none⟩ ∈ (exec step Db.empty (archivedFailure ++ [completesSecond])).links.rows ∧
    ¬ HasBeen "t_a" .completed (archivedFailure ++ [completesSecond]) := by
  refine ⟨archivedFailure_promotes, by decide, ?_⟩
  unfold HasBeen
  decide

end A2ARegistry.Orchestration
