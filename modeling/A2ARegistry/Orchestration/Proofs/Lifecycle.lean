import A2ARegistry.Orchestration.Store.Ops
import A2ARegistry.Orchestration.Proofs.Runs

namespace A2ARegistry.Orchestration
open Base

/-- The row stayed in its status or took an edge of the table. -/
def Conforms (t t' : Task) : Prop := t'.status = t.status ∨ t'.status ∈ transitions t.status

theorem settle_conforms (db : Db) (t : Task) : Conforms t (settle db t) := by
  rcases settle_cases db t with ⟨hs, _, he⟩ | ⟨hs, _, he⟩ | ⟨_, _, he⟩
  · right
    simp [he, hs, transitions]
  · right
    simp [he, hs, transitions]
  · exact Or.inl (by rw [he])

/-- Every statement that writes a status writes the end of an edge, the raw ones included. -/
theorem RowStep.conforms {db db' : Db} {op : Op} {t t' : Task} (h : RowStep db db' op t t') :
    Conforms t t' := by
  cases h with
  | same | edited | placed | manned | beat => exact Or.inl rfl
  | claimed free =>
    simp only [Task.claimable, Bool.and_eq_true, beq_iff_eq] at free
    right
    simp [claimedRow, Task.claim, free.1, transitions]
  | moved accepted => exact Or.inr accepted.edge
  | settled => exact settle_conforms db' t
  | released expired =>
    simp only [Task.expired, Bool.and_eq_true, Bool.or_eq_true, beq_iff_eq] at expired
    right
    rcases expired.1.1.1 with hs | hs
    · simp [Task.release, hs, transitions]
    · simp [Task.release, hs, transitions]
  | promoted retryable =>
    simp only [Task.retryable, Bool.and_eq_true, beq_iff_eq] at retryable
    right
    simp [Task.promote, retryable.1.1.1, transitions]

/-- What the row of a finished task keeps: a completed or cancelled task can only be archived,
an archived one stays archived, and a task that was completed keeps its result. -/
structure Settled (t t' : Task) : Prop where
  completed : t.status = .completed → t'.status = .completed ∨ t'.status = .archived
  cancelled : t.status = .cancelled → t'.status = .cancelled ∨ t'.status = .archived
  archived : t.status = .archived → t'.status = .archived
  result : t.status = .completed ∨ t.status = .archived → t'.result = t.result

theorem Settled.refl (t : Task) : Settled t t := ⟨Or.inl, Or.inl, id, fun _ => rfl⟩

theorem Settled.trans {t u v : Task} (h : Settled t u) (h' : Settled u v) : Settled t v := by
  refine ⟨fun hs => ?_, fun hs => ?_, fun hs => h'.archived (h.archived hs), fun hs => ?_⟩
  · rcases h.completed hs with hu | hu
    · exact h'.completed hu
    · exact Or.inr (h'.archived hu)
  · rcases h.cancelled hs with hu | hu
    · exact h'.cancelled hu
    · exact Or.inr (h'.archived hu)
  · have hu : u.status = .completed ∨ u.status = .archived := by
      rcases hs with hs | hs
      · exact h.completed hs
      · exact Or.inr (h.archived hs)
    exact (h'.result hu).trans (h.result hs)

/-- The result is written by the move to `completed` only, and no finished task makes it. -/
theorem RowStep.result_kept {db db' : Db} {op : Op} {t t' : Task} (h : RowStep db db' op t t')
    (hs : t.status = .completed ∨ t.status = .archived) : t'.result = t.result := by
  cases h with
  | same | edited | placed | manned | beat | claimed | released | promoted => rfl
  | @moved clock _ new args retryAt accepted =>
    have hnew : new ≠ .completed := by
      intro hn
      have hedge := accepted.edge
      rcases hs with hs | hs <;> simp [transitions, hs, hn] at hedge
    simp [Task.move, hnew]
  | settled =>
    obtain ⟨status, he⟩ := settle_kept db' t
    rw [he]

theorem RowStep.settled_row {db db' : Db} {op : Op} {t t' : Task} (h : RowStep db db' op t t') :
    Settled t t' := by
  have hedge := h.conforms
  refine ⟨fun hs => ?_, fun hs => ?_, fun hs => ?_, h.result_kept⟩
  · rcases hedge with he | he
    · exact Or.inl (he.trans hs)
    · simp only [hs, transitions, List.mem_singleton] at he
      exact Or.inr he
  · rcases hedge with he | he
    · exact Or.inl (he.trans hs)
    · simp only [hs, transitions, List.mem_singleton] at he
      exact Or.inr he
  · rcases hedge with he | he
    · exact he.trans hs
    · simp only [hs, transitions, List.not_mem_nil] at he

theorem exec_settled {db : Db} {k : String} {t : Task} (ht : db.task? k = some t) (ops : List Op) :
    ∃ t', (exec step db ops).task? k = some t' ∧ Settled t t' := by
  induction ops generalizing db t with
  | nil => exact ⟨t, ht, Settled.refl t⟩
  | cons op ops ih =>
    obtain ⟨u, hu, hrow⟩ := step_row op ht
    obtain ⟨t', ht', hs⟩ := ih hu
    exact ⟨t', ht', hrow.settled_row.trans hs⟩

/-- A run of calls is a run of their transactions. Each transaction changes the status of a
task along an edge of the table if at all, and from any point of the run to any later one
a finished task stays as the table has it and keeps its result. -/
theorem lifecycle_conformance (calls : List Call) :
    exec Call.run Db.empty calls = exec step Db.empty (transactions Db.empty calls) ∧
    (∀ pre op post, transactions Db.empty calls = pre ++ op :: post →
      ∀ k t, (exec step Db.empty pre).task? k = some t →
        ∃ t', (exec step Db.empty (pre ++ [op])).task? k = some t' ∧
          (t'.status = t.status ∨ t'.status ∈ transitions t.status)) ∧
    (∀ pre mid post, transactions Db.empty calls = pre ++ mid ++ post →
      ∀ k t, (exec step Db.empty pre).task? k = some t →
        ∃ t', (exec step Db.empty (pre ++ mid)).task? k = some t' ∧
          (t.status = .completed → t'.status = .completed ∨ t'.status = .archived) ∧
          (t.status = .cancelled → t'.status = .cancelled ∨ t'.status = .archived) ∧
          (t.status = .archived → t'.status = .archived) ∧
          (t.status = .completed → t'.result = t.result)) := by
  refine ⟨exec_transactions Db.empty calls, ?_, ?_⟩
  · intro pre op post _ k t ht
    obtain ⟨t', ht', hrow⟩ := step_row op ht
    refine ⟨t', ?_, hrow.conforms⟩
    rw [exec_append]
    exact ht'
  · intro pre mid post _ k t ht
    obtain ⟨t', ht', hs⟩ := exec_settled ht mid
    refine ⟨t', ?_, hs.completed, hs.cancelled, hs.archived, fun hc => hs.result (Or.inl hc)⟩
    rw [exec_append]
    exact ht'

end A2ARegistry.Orchestration
