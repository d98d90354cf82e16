import A2ARegistry.Orchestration.Proofs.Lifecycle
import A2ARegistry.Orchestration.Proofs.WorkflowTasks

namespace A2ARegistry.Orchestration.Workflow
open Base

/-- Somebody works on the task, or is awaited. -/
def busy : TaskStatus → Bool
  | .running | .dangling | .blocked => true
  | _ => false

/-- The task is to be started. -/
def waiting : TaskStatus → Bool
  | .todo | .ready => true
  | _ => false

/-- The task has come to an end, other than by a failure. -/
def concluded : TaskStatus → Bool
  | .completed | .cancelled | .archived => true
  | _ => false

/-- What the one status of a workflow says of those of its tasks. -/
structure Summarises (summary : String) (statuses : List TaskStatus) : Prop where
  running : summary = "running" ↔ ∃ s ∈ statuses, busy s = true
  failed : summary = "failed" ↔ .failed ∈ statuses ∧ ∀ s ∈ statuses, busy s = false
  pending : summary = "pending" ↔
    (∃ s ∈ statuses, waiting s = true) ∧ ∀ s ∈ statuses, busy s = false ∧ s ≠ .failed
  completed : summary = "completed" ↔ ∀ s ∈ statuses, s = .completed
  partially : summary = "partially_completed" ↔ (∀ s ∈ statuses, concluded s = true) ∧ ∃ s ∈ statuses, s ≠ .completed

section Summary

variable {statuses : List TaskStatus}

theorem status_cases (s : TaskStatus) : busy s = true ∨ s = .failed ∨ waiting s = true ∨ concluded s = true := by
  cases s <;> simp [busy, waiting, concluded]

/-- A test of a status by its word is one of the status. -/
theorem any_value {words : List String} {q : TaskStatus → Bool} (hq : ∀ s, words.contains s.value = q s) :
    (statuses.map TaskStatus.value).any words.contains = statuses.any q := by
  rw [List.any_map]
  exact congrArg statuses.any (funext hq)

theorem all_value {words : List String} {q : TaskStatus → Bool} (hq : ∀ s, words.contains s.value = q s) :
    (statuses.map TaskStatus.value).all words.contains = statuses.all q := by
  rw [List.all_map]
  exact congrArg statuses.all (funext hq)

theorem contains_failed : (statuses.map TaskStatus.value).contains "failed" = decide (.failed ∈ statuses) := by
  rw [Bool.eq_iff_iff, List.contains_iff_mem, decide_eq_true_iff, List.mem_map]
  constructor
  · rintro ⟨s, hs, hvalue⟩
    cases s with
    | failed => exact hs
    | _ => exact absurd hvalue (by decide)
  · intro hs
    exact ⟨.failed, hs, rfl⟩

theorem none_uncompleted :
    (statuses.map TaskStatus.value).filter (fun s => s != "completed") = [] ↔ ∀ s ∈ statuses, s = .completed := by
  rw [List.filter_eq_nil_iff, List.forall_mem_map]
  refine forall₂_congr fun s _ => ?_
  cases s <;> decide

/-- The status of a workflow, by the statuses of its tasks. -/
theorem derive_statuses (statuses : List TaskStatus) : deriveWorkflowStatus (statuses.map TaskStatus.value) =
    if ∃ s ∈ statuses, busy s = true then "running"
    else if .failed ∈ statuses then "failed"
    else if ∃ s ∈ statuses, waiting s = true then "pending"
    else if ∀ s ∈ statuses, s = .completed then "completed"
    else "partially_completed" := by
  unfold deriveWorkflowStatus
  dsimp only
  rw [any_value (q := busy) (fun s => by cases s <;> decide), contains_failed,
    all_value (q := fun s => concluded s || s == .failed) (fun s => by cases s <;> decide),
    all_value (q := fun s => !busy s) (fun s => by cases s <;> decide),
    any_value (q := waiting) (fun s => by cases s <;> decide)]
  simp only [none_uncompleted, List.any_eq_true, List.all_eq_true, decide_eq_true_iff]
  by_cases hbusy : ∃ s ∈ statuses, busy s = true
  · rw [if_pos hbusy, if_pos hbusy]
  rw [if_neg hbusy, if_neg hbusy]
  by_cases hfailed : .failed ∈ statuses
  · rw [if_pos hfailed, if_pos hfailed]
  rw [if_neg hfailed, if_neg hfailed]
  have hidle : ∀ s ∈ statuses, (!busy s) = true := by
    intro s hs
    rw [Bool.not_eq_true', ← Bool.not_eq_true]
    exact fun hb => hbusy ⟨s, hs, hb⟩
  have hconcluded : (∀ s ∈ statuses, (concluded s || s == .failed) = true) ↔ ¬ ∃ s ∈ statuses, waiting s = true := by
    constructor
    · rintro hall ⟨s, hs, hw⟩
      have hend := hall s hs
      cases s <;> simp [waiting, concluded] at hw hend
    · intro hnone s hs
      rcases status_cases s with hb | rfl | hw | ho
      · exact absurd ⟨s, hs, hb⟩ hbusy
      · exact absurd hs hfailed
      · exact absurd ⟨s, hs, hw⟩ hnone
      · rw [ho, Bool.true_or]
  rw [if_pos hidle]
  by_cases hwaiting : ∃ s ∈ statuses, waiting s = true
  · rw [if_neg (fun hall => hconcluded.mp hall hwaiting), if_pos hwaiting, if_pos hwaiting]
  · rw [if_pos (hconcluded.mpr hwaiting), if_neg hwaiting]

theorem completed_fields {s : TaskStatus} (h : s = .completed) : busy s = false ∧ s ≠ .failed ∧ waiting s = false := by
  subst h
  decide

theorem concluded_fields {s : TaskStatus} (h : concluded s = true) : busy s = false ∧ s ≠ .failed ∧ waiting s = false := by
  cases s <;> simp [busy, waiting, concluded] at h ⊢

theorem derive_summarises (statuses : List TaskStatus) :
    Summarises (deriveWorkflowStatus (statuses.map TaskStatus.value)) statuses := by
  rw [derive_statuses]
  by_cases hbusy : ∃ s ∈ statuses, busy s = true
  · rw [if_pos hbusy]
    obtain ⟨b, hb, htrue⟩ := hbusy
    have hnot : ¬ ∀ s ∈ statuses, busy s = false := fun hall => Bool.false_ne_true ((hall b hb).symm.trans htrue)
    refine ⟨iff_of_true rfl ⟨b, hb, htrue⟩, iff_of_false (by decide) (fun h => hnot h.2),
      iff_of_false (by decide) (fun h => hnot fun s hs => (h.2 s hs).1),
      iff_of_false (by decide) (fun h => hnot fun s hs => (completed_fields (h s hs)).1),
      iff_of_false (by decide) (fun h => hnot fun s hs => (concluded_fields (h.1 s hs)).1)⟩
  rw [if_neg hbusy]
  have hidle : ∀ s ∈ statuses, busy s = false := fun s hs => Bool.eq_false_iff.mpr fun hb => hbusy ⟨s, hs, hb⟩
  by_cases hfailed : .failed ∈ statuses
  · rw [if_pos hfailed]
    refine ⟨iff_of_false (by decide) hbusy, iff_of_true rfl ⟨hfailed, hidle⟩,
      iff_of_false (by decide) (fun h => (h.2 _ hfailed).2 rfl),
      iff_of_false (by decide) (fun h => (completed_fields (h _ hfailed)).2.1 rfl),
      iff_of_false (by decide) (fun h => (concluded_fields (h.1 _ hfailed)).2.1 rfl)⟩
  rw [if_neg hfailed]
  have hsound : ∀ s ∈ statuses, busy s = false ∧ s ≠ .failed := fun s hs => ⟨hidle s hs, fun he => hfailed (he ▸ hs)⟩
  by_cases hwaiting : ∃ s ∈ statuses, waiting s = true
  · rw [if_pos hwaiting]
    obtain ⟨w, hw, htrue⟩ := hwaiting
    have hnot : ¬ ∀ s ∈ statuses, waiting s = false := fun hall => Bool.false_ne_true ((hall w hw).symm.trans htrue)
    refine ⟨iff_of_false (by decide) hbusy, iff_of_false (by decide) (fun h => hfailed h.1),
      iff_of_true rfl ⟨⟨w, hw, htrue⟩, hsound⟩,
      iff_of_false (by decide) (fun h => hnot fun s hs => (completed_fields (h s hs)).2.2),
      iff_of_false (by decide) (fun h => hnot fun s hs => (concluded_fields (h.1 s hs)).2.2)⟩
  rw [if_neg hwaiting]
  have hconcluded : ∀ s ∈ statuses, concluded s = true := by
    intro s hs
    rcases status_cases s with hb | he | hw | ho
    · exact absurd ⟨s, hs, hb⟩ hbusy
    · exact absurd he (hsound s hs).2
    · exact absurd ⟨s, hs, hw⟩ hwaiting
    · exact ho
  by_cases hcompleted : ∀ s ∈ statuses, s = .completed
  · rw [if_pos hcompleted]
    refine ⟨iff_of_false (by decide) hbusy, iff_of_false (by decide) (fun h => hfailed h.1),
      iff_of_false (by decide) (fun h => hwaiting h.1), iff_of_true rfl hcompleted,
      iff_of_false (by decide) (fun h => ?_)⟩
    obtain ⟨_, s, hs, hne⟩ := h
    exact hne (hcompleted s hs)
  · rw [if_neg hcompleted]
    refine ⟨iff_of_false (by decide) hbusy, iff_of_false (by decide) (fun h => hfailed h.1),
      iff_of_false (by decide) (fun h => hwaiting h.1), iff_of_false (by decide) hcompleted,
      iff_of_true rfl ⟨hconcluded, ?_⟩⟩
    by_contra hnone
    exact hcompleted fun s hs => by_contra fun hne => hnone ⟨s, hs, hne⟩

end Summary

section Runs

/-- Every task of the one database is in the other, and what was finished has stayed as it was. -/
def Follows (db db' : Db) : Prop :=
  ∀ k t, db.task? k = some t → ∃ t', db'.task? k = some t' ∧ Settled t t'

theorem Follows.refl (db : Db) : Follows db db := fun _ t ht => ⟨t, ht, Settled.refl t⟩

theorem Follows.trans {db db' db'' : Db} (h : Follows db db') (h' : Follows db' db'') : Follows db db'' := by
  intro k t ht
  obtain ⟨u, hu, hs⟩ := h k t ht
  obtain ⟨v, hv, hs'⟩ := h' k u hu
  exact ⟨v, hv, hs.trans hs'⟩

theorem Follows.isSome {db db' : Db} (h : Follows db db') {k : String} (hk : (db.task? k).isSome) :
    (db'.task? k).isSome := by
  obtain ⟨t, ht⟩ := Option.isSome_iff_exists.mp hk
  obtain ⟨t', ht', _⟩ := h k t ht
  rw [ht']
  rfl

theorem step_follows (db : Db) (op : Op) : Follows db (Orchestration.step db op) :=
  fun _ _ ht => exec_settled ht [op]

/-- The tasks that were created so far are there. -/
def Progress.Present (p : Progress) : Prop := ∀ ids ∈ p.created, (p.db.task? ids.2).isSome

theorem materialise_follows (calls : Calls) (spec : WorkflowSpec) (p : Progress) (t : WorkflowTaskSpec) :
    Follows p.db (materialise calls spec p t).db ∧ (p.Present → (materialise calls spec p t).Present) := by
  unfold materialise
  split
  · rename_i row db hcall
    have hcreates := createCall_creates hcall
    have hfollows : Follows p.db db := by
      unfold createCall at hcall
      split at hcall
      · cases hcall
      · rw [← step_createTask hcall]
        exact step_follows _ _
    refine ⟨hfollows, ?_⟩
    intro hpresent ids hids
    rcases List.mem_append.mp hids with hold | hnew
    · exact hfollows.isSome (hpresent ids hold)
    · rw [List.mem_singleton.mp hnew, hcreates.id, hcreates.task, if_pos rfl]
      rfl
  · exact ⟨Follows.refl p.db, id⟩

theorem applyWorkflow_follows (calls : Calls) (spec : WorkflowSpec) (db : Db) : Follows db (applyWorkflow calls false spec db).2 ∧
    ∀ ids ∈ (applyWorkflow calls false spec db).1.taskIds, ((applyWorkflow calls false spec db).2.task? ids.2).isSome := by
  by_cases hvalid : validateWorkflow spec = []
  · have hstep : ∀ p t, (Follows db p.db ∧ p.Present) →
        Follows db (materialise calls spec p t).db ∧ (materialise calls spec p t).Present := by
      rintro p t ⟨hfollows, hpresent⟩
      obtain ⟨hon, hmade⟩ := materialise_follows calls spec p t
      exact ⟨hfollows.trans hon, hmade hpresent⟩
    have hstart : Follows db db ∧ Progress.Present ⟨db, [], []⟩ :=
      ⟨Follows.refl db, fun _ h => absurd h List.not_mem_nil⟩
    rw [applyWorkflow_eq hvalid]
    exact exec_invariant hstep hstart (topologicalSort spec.tasks)
  · rw [applyWorkflow, if_neg hvalid]
    exact ⟨Follows.refl db, fun _ h => absurd h List.not_mem_nil⟩

/-- The tasks of every workflow are there. -/
def WorkflowHandler.Present (h : WorkflowHandler) : Prop :=
  ∀ wfId wf, h.workflows.find? wfId = some wf → ∀ ids ∈ wf.taskIds, (h.store.task? ids.2).isSome

variable {h : WorkflowHandler} {wfId : String}

theorem step_store_follows (h : WorkflowHandler) (event : WorkflowEvent) : Follows h.store (h.step event).store := by
  cases event with
  | call op => exact step_follows _ _
  | submit s =>
    rw [WorkflowHandler.step, WorkflowHandler.handleCreateWorkflow]
    split
    · exact (applyWorkflow_follows s.calls s.spec h.store).1
    · exact Follows.refl _

theorem step_workflows {event : WorkflowEvent} (hother : ∀ s, event = .submit s → s.workflowId ≠ wfId) :
    (h.step event).workflows.find? wfId = h.workflows.find? wfId := by
  cases event with
  | call op => rfl
  | submit s =>
    rw [WorkflowHandler.step, WorkflowHandler.handleCreateWorkflow]
    split
    · exact (Table.find_put _ _ _).trans (if_neg (Ne.symm (hother s rfl)))
    · rfl

theorem step_present (hp : h.Present) (event : WorkflowEvent) : (h.step event).Present := by
  have hold : ∀ wfId wf, h.workflows.find? wfId = some wf → ∀ ids ∈ wf.taskIds,
      ((h.step event).store.task? ids.2).isSome :=
    fun wfId wf hwf ids hids => (step_store_follows h event).isSome (hp wfId wf hwf ids hids)
  cases event with
  | call op => exact hold
  | submit s =>
    intro wfId wf hwf
    by_cases hid : s.workflowId = wfId
    · rw [WorkflowHandler.step, WorkflowHandler.handleCreateWorkflow] at hwf ⊢
      split at hwf
      · rename_i hvalid
        rw [if_pos hvalid]
        obtain rfl : s.makeMeta _ _ = wf := Option.some.inj
          (((Table.find_put _ _ _).trans (if_pos hid.symm)).symm.trans hwf)
        exact (applyWorkflow_follows s.calls s.spec h.store).2
      · rename_i hinvalid
        rw [if_neg hinvalid]
        exact hp wfId wf hwf
    · rw [step_workflows (fun _ he => by cases he; exact hid)] at hwf
      exact hold wfId wf hwf

theorem exec_follows (h : WorkflowHandler) (events : List WorkflowEvent) :
    Follows h.store (exec WorkflowHandler.step h events).store := by
  have hstep : ∀ (later : WorkflowHandler) event, Follows h.store later.store →
      Follows h.store (later.step event).store :=
    fun later event hf => hf.trans (step_store_follows later event)
  exact exec_invariant hstep (Follows.refl h.store) events

theorem exec_workflows {events : List WorkflowEvent} (hother : ∀ s, .submit s ∈ events → s.workflowId ≠ wfId) :
    (exec WorkflowHandler.step h events).workflows.find? wfId = h.workflows.find? wfId := by
  induction events generalizing h with
  | nil => rfl
  | cons event events ih =>
    rw [exec_cons, ih (fun s hs => hother s (List.mem_cons_of_mem _ hs))]
    exact step_workflows (fun s he => hother s (he ▸ List.mem_cons_self))

theorem start_present : WorkflowHandler.start.Present := by
  intro wfId wf hwf
  cases hwf

/-- In the run the workflow was created under the id, with this result, and none was under the same id after it. -/
structure CreatedAs (events : List WorkflowEvent) (wfId : String) (s : Submission) (result : WorkflowResult) : Prop where
  id : s.workflowId = wfId
  run : ∃ pre post, events = pre ++ .submit s :: post ∧
    ((exec WorkflowHandler.step .start pre).handleCreateWorkflow s).1 = .created wfId result ∧
    ∀ s', .submit s' ∈ post → s'.workflowId = wfId → validateWorkflow s'.spec ≠ []

/-- A later event that does not create a workflow under the id leaves the last creation the last. -/
theorem CreatedAs.snoc {events : List WorkflowEvent} {s : Submission} {result : WorkflowResult}
    (hc : CreatedAs events wfId s result) {event : WorkflowEvent}
    (hother : ∀ s', event = .submit s' → s'.workflowId = wfId → validateWorkflow s'.spec ≠ []) :
    CreatedAs (events ++ [event]) wfId s result := by
  obtain ⟨hid, pre, post, rfl, hcreated, hlast⟩ := hc
  refine ⟨hid, pre, post ++ [event], by simp, hcreated, fun s' hs' => ?_⟩
  rcases List.mem_append.mp hs' with hold | hnew
  · exact hlast s' hold
  · exact hother s' (List.mem_singleton.mp hnew).symm

/-- What is kept under an id is the workflow that was last created under it. -/
theorem found_created (events : List WorkflowEvent) {wf : WorkflowMeta}
    (hwf : (exec WorkflowHandler.step .start events).workflows.find? wfId = some wf) :
    ∃ s result, CreatedAs events wfId s result ∧ wf = s.makeMeta result !result.errors.isEmpty := by
  induction events using List.reverseRecOn generalizing wf with
  | nil => cases hwf
  | append_singleton events event ih =>
    rw [exec_append] at hwf
    have hkept : ∀ wf', (exec WorkflowHandler.step .start events).workflows.find? wfId = some wf' → wf' = wf →
        (∀ s', event = .submit s' → s'.workflowId = wfId → validateWorkflow s'.spec ≠ []) →
        ∃ s result, CreatedAs (events ++ [event]) wfId s result ∧ wf = s.makeMeta result !result.errors.isEmpty := by
      rintro _ hfind rfl hother
      obtain ⟨s, result, hcreated, hmeta⟩ := ih hfind
      exact ⟨s, result, hcreated.snoc hother, hmeta⟩
    cases event with
    | call op => exact hkept wf hwf rfl (fun _ he => by cases he)
    | submit s =>
      by_cases hid : s.workflowId = wfId
      · rw [exec_cons, exec_nil, WorkflowHandler.step, WorkflowHandler.handleCreateWorkflow] at hwf
        split at hwf
        · rename_i hvalid
          obtain rfl : s.makeMeta _ _ = wf := Option.some.inj
            (((Table.find_put _ _ _).trans (if_pos hid.symm)).symm.trans hwf)
          refine ⟨s, _, ⟨hid, events, [], rfl, ?_, fun _ h => absurd h List.not_mem_nil⟩, rfl⟩
          rw [WorkflowHandler.handleCreateWorkflow, if_pos hvalid, hid]
        · rename_i hinvalid
          exact hkept wf hwf rfl fun s' he _ => by cases he; exact hinvalid
      · rw [exec_cons, exec_nil, step_workflows (fun _ he => by cases he; exact hid)] at hwf
        exact hkept wf hwf rfl fun s' he hs' => by cases he; exact absurd hs' hid

end Runs

section Reports

/-- A report on a workflow that was created with this result, and the tasks it is about. -/
structure Reports (h : WorkflowHandler) (result : WorkflowResult) (report : WorkflowReport) (rows : List Task) :
    Prop where
  present : ∀ t ∈ rows, h.store.task? t.id = some t
  own : rows.map Task.id = result.taskIds.map Prod.snd
  ids : report.tasks.map TaskEntry.taskId = rows.map Task.id
  statuses : report.tasks.map TaskEntry.status = rows.map (fun t => t.status.value)
  count : report.taskCount = rows.length
  summary : Summarises report.status (rows.map Task.status)

variable {h h' : WorkflowHandler} {wfId : String} {ids : List (String × String)} {rows rows' : List Task}

/-- The rows of tasks, by their logical and persistent ids. -/
def Rows (db : Db) (ids : List (String × String)) (rows : List Task) : Prop :=
  List.Forall₂ (fun id t => db.task? id.2 = some t) ids rows

theorem rows_exist {db : Db} (h : ∀ id ∈ ids, (db.task? id.2).isSome) : ∃ rows, Rows db ids rows := by
  induction ids with
  | nil => exact ⟨[], .nil⟩
  | cons id ids ih =>
    obtain ⟨hid, hids⟩ := List.forall_mem_cons.mp h
    obtain ⟨t, ht⟩ := Option.isSome_iff_exists.mp hid
    obtain ⟨rows, hrows⟩ := ih hids
    exact ⟨t :: rows, .cons ht hrows⟩

/-- The entries of a report are those of the rows. -/
theorem Rows.entries (hr : Rows h.store ids rows) :
    (ids.map (fun id => h.taskEntry id.1 id.2)).map TaskEntry.taskId = rows.map Task.id ∧
      (ids.map (fun id => h.taskEntry id.1 id.2)).map TaskEntry.status = rows.map (fun t => t.status.value) := by
  induction hr with
  | nil => exact ⟨rfl, rfl⟩
  | cons ht _ ih =>
    rw [List.map_cons, List.map_cons, List.map_cons, List.map_cons, List.map_cons, ih.1, ih.2, Db.task_id ht,
      WorkflowHandler.taskEntry, ht]
    exact ⟨rfl, rfl⟩

theorem Rows.present {db : Db} (hr : Rows db ids rows) : ∀ t ∈ rows, db.task? t.id = some t := by
  induction hr with
  | nil => exact fun t ht => absurd ht List.not_mem_nil
  | cons ht _ ih =>
    refine List.forall_mem_cons.mpr ⟨?_, ih⟩
    rw [Db.task_id ht]
    exact ht

theorem Rows.taskIds {db : Db} (hr : Rows db ids rows) : rows.map Task.id = ids.map Prod.snd := by
  induction hr with
  | nil => rfl
  | cons ht _ ih => rw [List.map_cons, List.map_cons, ih, Db.task_id ht]

/-- A workflow is reported on by its rows. -/
theorem reports_rows {s : Submission} {result : WorkflowResult} {isPartial : Bool}
    (hwf : h.workflows.find? wfId = some (s.makeMeta result isPartial)) (hr : Rows h.store result.taskIds rows) :
    ∃ report, h.handleGetWorkflow wfId = some report ∧ Reports h result report rows := by
  obtain ⟨hids, hstatuses⟩ := hr.entries
  refine ⟨_, by rw [WorkflowHandler.handleGetWorkflow, hwf]; rfl, hr.present, hr.taskIds, hids, hstatuses, hr.length_eq, ?_⟩
  have hmap : rows.map (fun t => t.status.value) = (rows.map Task.status).map TaskStatus.value := by
    rw [List.map_map]
    rfl
  dsimp only [Submission.makeMeta]
  rw [hstatuses, hmap]
  exact derive_summarises (rows.map Task.status)

/-- The rows later on, of tasks that are followed. -/
theorem Rows.later {db db' : Db} (hr : Rows db ids rows) (hf : Follows db db') (hr' : Rows db' ids rows') :
    List.Forall₂ (fun t t' => t'.id = t.id ∧ Settled t t') rows rows' := by
  induction hr generalizing rows' with
  | nil =>
    cases hr'
    exact .nil
  | cons ht _ ih =>
    cases hr' with
    | cons ht' hrest =>
      refine .cons ⟨(Db.task_id ht').trans (Db.task_id ht).symm, ?_⟩ (ih hrest)
      obtain ⟨u, hu, hsettled⟩ := hf _ _ ht
      rw [ht'] at hu
      cases hu
      exact hsettled

/-- A task that has come to an end without a failure does not leave it. -/
theorem concluded_settled {t t' : Task} (h : Settled t t') (ho : concluded t.status = true) : concluded t'.status = true := by
  cases hs : t.status with
  | completed =>
    rcases h.completed hs with he | he <;> rw [he] <;> rfl
  | cancelled =>
    rcases h.cancelled hs with he | he <;> rw [he] <;> rfl
  | archived =>
    rw [h.archived hs]
    rfl
  | _ =>
    rw [hs] at ho
    cases ho

theorem concluded_later (hf : List.Forall₂ (fun t t' : Task => t'.id = t.id ∧ Settled t t') rows rows')
    (ho : ∀ t ∈ rows, concluded t.status = true) : ∀ t ∈ rows', concluded t.status = true := by
  induction hf with
  | nil => exact fun t ht => absurd ht List.not_mem_nil
  | cons hrow _ ih =>
    obtain ⟨hfirst, hrest⟩ := List.forall_mem_cons.mp ho
    exact List.forall_mem_cons.mpr ⟨concluded_settled hrow.2 hfirst, ih hrest⟩

/-- All is over where the status says so. -/
theorem Summarises.concluded_iff {summary : String} (h : Summarises summary (rows.map Task.status)) :
    summary = "completed" ∨ summary = "partially_completed" ↔ ∀ t ∈ rows, concluded t.status = true := by
  rw [h.completed, h.partially, List.forall_mem_map, List.forall_mem_map]
  constructor
  · rintro (hall | ⟨hall, _⟩) t ht
    · rw [hall t ht]
      rfl
    · exact hall t ht
  · intro hall
    by_cases hcompleted : ∀ t ∈ rows, t.status = .completed
    · exact Or.inl hcompleted
    · right
      obtain ⟨t, ht, hne⟩ : ∃ t ∈ rows, t.status ≠ .completed := by
        by_contra hnone
        exact hcompleted fun t ht => by_contra fun hne => hnone ⟨t, ht, hne⟩
      exact ⟨hall, t.status, List.mem_map_of_mem ht, hne⟩

/-- In every run a workflow is reported on by the tasks that were created for it, as they are in the store, none of
which goes missing, and the status is that of the table above. Later on the report is about the same tasks, and what was
over has stayed so. -/
theorem workflow_report_exact {events : List WorkflowEvent} {report : WorkflowReport}
    (hreport : (exec WorkflowHandler.step .start events).handleGetWorkflow wfId = some report) :
    ∃ s result rows, CreatedAs events wfId s result ∧
      Reports (exec WorkflowHandler.step .start events) result report rows ∧
      ∀ more, (∀ s, .submit s ∈ more → s.workflowId ≠ wfId) → ∃ later rows',
        (exec WorkflowHandler.step .start (events ++ more)).handleGetWorkflow wfId = some later ∧
        Reports (exec WorkflowHandler.step .start (events ++ more)) result later rows' ∧
        List.Forall₂ (fun t t' => t'.id = t.id ∧ Settled t t') rows rows' ∧
        (report.status = "completed" ∨ report.status = "partially_completed" →
          later.status = "completed" ∨ later.status = "partially_completed") := by
  have hstep : ∀ (h : WorkflowHandler) event, h.Present → (h.step event).Present :=
    fun _ event hp => step_present hp event
  have hpresent : ∀ events, (exec WorkflowHandler.step .start events).Present :=
    exec_invariant hstep start_present
  obtain ⟨wf, hwf, _⟩ := Option.map_eq_some_iff.mp hreport
  obtain ⟨s, result, hcreated, rfl⟩ := found_created events hwf
  obtain ⟨rows, hrows⟩ := rows_exist (hpresent events wfId _ hwf)
  obtain ⟨found, hfound, hreports⟩ := reports_rows hwf hrows
  obtain rfl : found = report := Option.some.inj (hfound.symm.trans hreport)
  refine ⟨s, result, rows, hcreated, hreports, fun more hmore => ?_⟩
  have hlater : (exec WorkflowHandler.step .start (events ++ more)).workflows.find? wfId =
      some (s.makeMeta result !result.errors.isEmpty) := by
    rw [exec_append, exec_workflows hmore, hwf]
  obtain ⟨rows', hrows'⟩ := rows_exist (hpresent (events ++ more) wfId _ hlater)
  obtain ⟨later, hget, hreports'⟩ := reports_rows hlater hrows'
  have hfollows : Follows (exec WorkflowHandler.step .start events).store
      (exec WorkflowHandler.step .start (events ++ more)).store := by
    rw [exec_append]
    exact exec_follows _ more
  have hpairs := hrows.later hfollows hrows'
  refine ⟨later, rows', hget, hreports', hpairs, fun hconcluded => ?_⟩
  exact hreports'.summary.concluded_iff.mpr (concluded_later hpairs (hreports.summary.concluded_iff.mp hconcluded))

/-- The chain is pending when it has been submitted, whatever else is submitted under other ids. -/
theorem chain_reported : ∃ s result rows, CreatedAs [.submit ⟨chain 1, quiet, "1", 7⟩] "wf_1" s result ∧
    Reports (exec WorkflowHandler.step .start [.submit ⟨chain 1, quiet, "1", 7⟩]) result
      ⟨"wf_1", "release", none, 7, "pending", 3, [.found "r" "t_r" "Fetch" "ready" none,
        .found "a" "t_a" "Build" "todo" none, .found "b" "t_b" "Deploy" "todo" none]⟩ rows := by
  have hreport : (exec WorkflowHandler.step .start [.submit ⟨chain 1, quiet, "1", 7⟩]).handleGetWorkflow "wf_1" =
      some ⟨"wf_1", "release", none, 7, "pending", 3, [.found "r" "t_r" "Fetch" "ready" none,
        .found "a" "t_a" "Build" "todo" none, .found "b" "t_b" "Deploy" "todo" none]⟩ := by decide +kernel
  obtain ⟨s, result, rows, hcreated, hreports, _⟩ := workflow_report_exact hreport
  exact ⟨s, result, rows, hcreated, hreports⟩

end Reports

end A2ARegistry.Orchestration.Workflow
