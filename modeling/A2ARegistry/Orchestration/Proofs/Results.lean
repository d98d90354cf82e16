import A2ARegistry.Orchestration.Detail
import A2ARegistry.Orchestration.Proofs.History
import A2ARegistry.Orchestration.Proofs.Reports

namespace A2ARegistry.Orchestration
open Base

/-- A write to the task store: a call, or a report with a result of any type. -/
inductive Write
  | call (op : Op)
  | report (clock : Clock) (taskId : String) (new : TaskStatus) (value : Json)

def Write.step (e : Engine) (db : Db) : Write → Db
  | .call op => Orchestration.step db op
  | .report clock taskId new value => (reportStatus e db clock taskId new value).getD db

/-- A task that was completed. -/
def Task.wasCompleted (t : Task) : Prop := t.status = .completed ∨ t.status = .archived

/-- Only tasks that were completed have a result. -/
def ResultsSettled (db : Db) : Prop :=
  ∀ k t, db.task? k = some t → t.result.isSome → t.wasCompleted

section
variable {e : Engine} {db : Db} {k : String} {t t' : Task}

theorem Settled.wasCompleted (h : Settled t t') (hc : t.wasCompleted) : t'.wasCompleted := by
  rcases hc with hc | hc
  · exact h.completed hc
  · exact Or.inr (h.archived hc)

/-- A report on a task stores a result only if it completes the task. -/
theorem ReportStep.result_from {db' : Db} {now : Int} {id : String} {new : TaskStatus} {value : Json}
    (h : ReportStep e db' now id new value t t') (hr : t'.result.isSome) :
    t.result.isSome ∨ t'.status = .completed := by
  cases h with
  | same => exact Or.inl hr
  | settled =>
    obtain ⟨status, he⟩ := settle_kept db' t
    rw [he] at hr
    exact Or.inl hr
  | reported own ok =>
    by_cases hnew : new = .completed
    · exact Or.inr hnew
    · simp only [Task.report, hnew, false_and, if_false] at hr
      exact Or.inl hr

/-- What a write does to a row that is there. -/
theorem write_row (w : Write) (ht : db.task? k = some t) : ∃ t', (w.step e db).task? k = some t' ∧
    Settled t t' ∧ (t'.result.isSome → t.result.isSome ∨ t'.status = .completed) := by
  cases w with
  | call op =>
    obtain ⟨t', ht', hrow⟩ := step_row op ht
    exact ⟨t', ht', hrow.settled_row, hrow.result_from⟩
  | report clock id new value =>
    simp only [Write.step]
    cases hr : reportStatus e db clock id new value with
    | none => exact ⟨t, ht, Settled.refl t, Or.inl⟩
    | some db' =>
      obtain ⟨t', ht', hrow⟩ := report_row hr ht
      exact ⟨t', ht', hrow.settled_row, hrow.result_from⟩

/-- A row that a write creates has no result. -/
theorem write_created (w : Write) (hn : db.task? k = none) (ht : (w.step e db).task? k = some t) :
    t.result = none := by
  cases w with
  | call op =>
    obtain ⟨clock, hex, args, u, _, _, rfl, _⟩ := step_created hn ht
    rfl
  | report clock id new value =>
    simp only [Write.step] at ht
    cases hr : reportStatus e db clock id new value with
    | none =>
      rw [hr, Option.getD_none, hn] at ht
      cases ht
    | some db' =>
      rw [hr, Option.getD_some] at ht
      obtain ⟨u, bound, retryAt, kind, hu, _, _, rfl⟩ := reportStatus_some hr
      have hid := Db.task_id hu
      subst hid
      have hne : k ≠ u.id := by
        rintro rfl
        rw [hn] at hu
        cases hu
      rw [writeReport_task clock new value hu, if_neg hne, hn] at ht
      cases ht

theorem write_settled (w : Write) (h : ResultsSettled db) : ResultsSettled (w.step e db) := by
  intro k t' ht' hr
  cases hk : db.task? k with
  | none =>
    rw [write_created w hk ht'] at hr
    cases hr
  | some t =>
    obtain ⟨u, hu, hs, hfrom⟩ := write_row (e := e) w hk
    rw [ht'] at hu
    cases hu
    rcases hfrom hr with hr | hc
    · exact hs.wasCompleted (h k t hk hr)
    · exact Or.inl hc

theorem empty_settled : ResultsSettled Db.empty := by
  intro k t ht
  cases ht

/-- A completed task keeps its result whatever is written. -/
theorem writes_keep (ht : db.task? k = some t) (writes : List Write) :
    ∃ t', (exec (Write.step e) db writes).task? k = some t' ∧ Settled t t' := by
  induction writes generalizing db t with
  | nil => exact ⟨t, ht, Settled.refl t⟩
  | cons w ws ih =>
    obtain ⟨u, hu, hs, _⟩ := write_row (e := e) w ht
    obtain ⟨t', ht', hs'⟩ := ih hu
    exact ⟨t', ht', hs.trans hs'⟩

end

/-- The answer shows a task with this result. -/
def Response.returns (r : Response) (value : Json) : Prop :=
  r.status = 200 ∧ ∃ detail, ("task", .obj detail) ∈ r.body ∧ ("result", value) ∈ detail

section
variable (codec : Codec) (db : Db) (k : String)

theorem taskToDetail_some (t : Task) : (∃ detail, taskToDetail codec t = some detail ∧
    ("result", value) ∈ detail) ↔ loadColumn codec t.result = some value := by
  unfold taskToDetail
  cases loadColumn codec t.result with
  | none => simp
  | some result => simp [taskToBrief, eq_comm]

/-- A GET returns a value exactly when the column of the task is read as this value. -/
theorem handleGetTask_returns_iff (value : Json) : (handleGetTask db k codec).returns value ↔
    ∃ t, db.task? k = some t ∧ loadColumn codec t.result = some value := by
  unfold handleGetTask getTask
  cases ht : db.task? k with
  | none => simp [Response.returns, jsonError]
  | some t =>
    simp only [Option.map_some, Option.some.injEq, exists_eq_left', ← taskToDetail_some]
    cases taskToDetail codec t with
    | none => simp [Response.returns, serverError]
    | some detail => simp [Response.returns]

variable {k} in
/-- A column that cannot be read makes every GET an error. -/
theorem handleGetTask_fails {db : Db} {t : Task} (ht : db.task? k = some t)
    (h : loadColumn codec t.result = none) : handleGetTask db k codec = serverError := by
  have hdetail : taskToDetail codec t = none := by rw [taskToDetail, h]; rfl
  simp [handleGetTask, getTask, ht, hdetail]

variable (clock : Clock) (ape : Option Security.Ape) (agentId : String) (body : CompleteBody)

/-- A completion that passes the checkpoint and its contract, and that the store takes. -/
structure Accepts : Prop where
  allowed : (completeCheckpoint ape db agentId k body).allowed = true
  contract : checkContract codec body = some none
  stored : ∃ r, updateTaskStatus db clock k TaskStatus.completed.value (body.args codec) = .ok r

variable {codec db k clock ape agentId body}

/-- Its row holds the text of the result, if that is not empty. -/
theorem accepted_row (h : Accepts codec db k clock ape agentId body) :
    ∃ t t', db.task? k = some t ∧ TaskStatus.completed ∈ transitions t.status ∧
      (handleComplete codec ape db clock agentId k body).2.task? k = some t' ∧ t'.status = .completed ∧
      t'.result = if truthy (resultText codec body.result) then resultText codec body.result else t.result := by
  obtain ⟨⟨view, db'⟩, hok⟩ := h.stored
  obtain ⟨t, new, retryAt, kind, ht, hv, ha, rfl⟩ := updateTaskStatus_ok hok
  have hnew := TaskStatus.value_injective hv
  subst hnew
  have hid := Db.task_id ht
  subst hid
  have hdb : (handleComplete codec ape db clock agentId t.id body).2 =
      writeStatus db clock t .completed (body.args codec) retryAt kind := by
    simp [handleComplete, h.allowed, h.contract, completeTask, hok]
  have hrow := writeStatus_task db clock t .completed (body.args codec) retryAt kind ht t.id
  rw [if_pos rfl, ← hdb] at hrow
  refine ⟨t, _, ht, ha.edge, hrow, rfl, ?_⟩
  simp [Task.move, CompleteBody.args]

end

/-- The broadcast changes the answer only. -/
theorem postComplete_db (codec : Codec) (broadcasts : Bool) (ape : Option Security.Ape) (db : Db)
    (clock : Clock) (agentId taskId : String) (body : CompleteBody) :
    (postComplete codec broadcasts ape db clock agentId taskId body).2 =
      (handleComplete codec ape db clock agentId taskId body).2 := by
  unfold postComplete broadcastAnswer
  dsimp only
  split
  · split
    · split
      · rfl
      · split <;> rfl
    · rfl
  · rfl

/-- A text that is stored unless it is empty is read as the value it is read as. -/
theorem loadColumn_iff (codec : Codec) (hempty : codec.loads "" = none) {value : Json}
    (hvalue : value ≠ .null) (text : String) :
    loadColumn codec (if truthy (some text) then some text else none) = some value ↔
      codec.loads text = some value := by
  by_cases ht : text = ""
  · simp [ht, truthy, loadColumn, hempty, hvalue.symm]
  · simp [ht, truthy, loadColumn]

end A2ARegistry.Orchestration
