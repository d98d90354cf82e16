import A2ARegistry.Orchestration.Proofs.Completeness

namespace A2ARegistry.Orchestration
open Base

/-- The parents of `k` are the tasks `parents`, and none of the links has a condition. -/
def DependsOn (k : String) (parents : List String) (db : Db) : Prop :=
  ∀ l : TaskLink, l ∈ db.links.rows ∧ l.childId = k ↔ ∃ p ∈ parents, l = ⟨p, k, none⟩

def AllCompleted (ids : List String) (db : Db) : Prop := ∀ id ∈ ids, InStatus id .completed db

instance (ids : List String) : DecidablePred (AllCompleted ids) :=
  fun _ => inferInstanceAs (Decidable (∀ id ∈ ids, _))

def NoneArchived (ids : List String) (db : Db) : Prop := ∀ id ∈ ids, ∃ t, db.task? id = some t ∧ t.status ≠ .archived

/-- `k` depends on `parents` alone and is in `todo` as long as one of them is open. -/
structure Gated (k : String) (parents : List String) (db : Db) : Prop where
  depends : DependsOn k parents db
  kept : NoneArchived parents db
  waits : ∃ t, db.task? k = some t ∧ (t.status = .todo ↔ ¬ AllCompleted parents db)

/-- The tasks `ids` are only worked on: claimed, heartbeated, completed, failed, retried and released. Their texts,
their comments and the columns of their worker and workspace may change too, and other tasks are free. -/
def OnlyWorked (ids : List String) (db : Db) : Op → Prop
  | .updateTaskStatus _ k s _ => k ∈ ids →
    s = TaskStatus.running.value ∨ s = TaskStatus.completed.value ∨ s = TaskStatus.failed.value ∨
      (s = TaskStatus.ready.value ∧ InStatus k .failed db)
  | .addDependency _ k _ _ | .removeDependency _ k _ => k ∉ ids
  | _ => True

instance (ids : List String) (db : Db) : DecidablePred (OnlyWorked ids db)
  | .updateTaskStatus .. => inferInstanceAs (Decidable (_ → _))
  | .addDependency .. | .removeDependency .. => inferInstanceAs (Decidable (¬ _))
  | .createTask .. | .updateTask .. | .claimTask .. | .heartbeat .. | .releaseExpiredClaims .. |
    .promoteRetryableTasks .. | .addComment .. | .updateWorkspacePath .. | .setWorkerPid .. =>
    inferInstanceAs (Decidable True)

section
variable {ids parents : List String} {db db' : Db} {op : Op} {k : String} {t t' : Task}

/-- What working on a task does to its status. -/
theorem RowStep.worked (h : RowStep db db' op t t') (hw : OnlyWorked ids db op) (hk : t.id ∈ ids)
    (ht : db.task? t.id = some t) : t'.status = t.status ∨ t' = settle db' t ∨
      ((t.status ≠ .todo ∧ t.status ≠ .completed) ∧ t'.status ≠ .todo ∧ t'.status ≠ .archived) := by
  cases h with
  | same | edited | placed | manned | beat => exact Or.inl rfl
  | settled => exact Or.inr (Or.inl rfl)
  | claimed free =>
    simp only [Task.claimable, Bool.and_eq_true, beq_iff_eq] at free
    exact Or.inr (Or.inr ⟨by simp [free.1], by simp [claimedRow, Task.claim]⟩)
  | released expired =>
    simp only [Task.expired, Bool.and_eq_true, Bool.or_eq_true, beq_iff_eq] at expired
    refine Or.inr (Or.inr ⟨?_, by simp [Task.release]⟩)
    rcases expired.1.1.1 with hs | hs <;> simp [hs]
  | promoted retryable =>
    simp only [Task.retryable, Bool.and_eq_true, beq_iff_eq] at retryable
    exact Or.inr (Or.inr ⟨by simp [retryable.1.1.1], by simp [Task.promote]⟩)
  | @moved clock _ new args retryAt accepted =>
    have hedge := accepted.edge
    have hnew : new = .running ∨ new = .completed ∨ new = .failed := by
      rcases hw hk with hs | hs | hs | ⟨hs, hf⟩
      · exact Or.inl (TaskStatus.value_injective hs)
      · exact Or.inr (Or.inl (TaskStatus.value_injective hs))
      · exact Or.inr (Or.inr (TaskStatus.value_injective hs))
      · obtain ⟨u, hu, hfailed⟩ := inStatus_iff.mp hf
        rw [ht] at hu
        cases hu
        exact absurd ⟨hfailed, TaskStatus.value_injective hs⟩ accepted.kind
    refine Or.inr (Or.inr ⟨?_, ?_⟩)
    · constructor
      · intro hs
        rcases hnew with rfl | rfl | rfl <;> simp [transitions, hs] at hedge
      · intro hs
        rcases hnew with rfl | rfl | rfl <;> simp [transitions, hs] at hedge
    · rcases hnew with rfl | rfl | rfl <;> simp [Task.move]

/-- A task that is worked on stays completed once it is. -/
theorem InStatus.stays_completed (h : InStatus k .completed db) (hw : OnlyWorked ids db op) (hk : k ∈ ids) :
    InStatus k .completed (step db op) := by
  obtain ⟨t, ht, hs⟩ := inStatus_iff.mp h
  have hid := Db.task_id ht
  subst hid
  obtain ⟨t', ht', hrow⟩ := step_row op ht
  refine inStatus_iff.mpr ⟨t', ht', ?_⟩
  rcases hrow.worked hw hk ht with he | he | ⟨⟨_, hne⟩, _⟩
  · rw [he, hs]
  · rw [he]
    simp [settle, hs]
  · exact absurd hs hne

theorem AllCompleted.step (h : AllCompleted parents db) (hw : OnlyWorked ids db op) (hp : parents ⊆ ids) :
    AllCompleted parents (Orchestration.step db op) :=
  fun id hid => (h id hid).stays_completed hw (hp hid)

theorem NoneArchived.step (h : NoneArchived parents db) (hw : OnlyWorked ids db op) (hp : parents ⊆ ids) :
    NoneArchived parents (Orchestration.step db op) := by
  intro p hmem
  obtain ⟨u, hu, hne⟩ := h p hmem
  have hid := Db.task_id hu
  subst hid
  obtain ⟨u', hu', hrow⟩ := step_row op hu
  refine ⟨u', hu', ?_⟩
  rcases hrow.worked hw (hp hmem) hu with he | he | ⟨_, _, harchived⟩
  · rwa [he]
  · rcases settle_cases (Orchestration.step db op) u with ⟨_, _, hs⟩ | ⟨_, _, hs⟩ | ⟨_, _, hs⟩
    · simp [he, hs]
    · simp [he, hs]
    · rwa [he, hs]
  · exact harchived

namespace DependsOn

/-- The resolver finds the parents done when all of them are completed. -/
theorem done_iff (h : DependsOn k parents db) (hkept : NoneArchived parents db) (hi : Integrity db) :
    parentsDone db k = true ↔ AllCompleted parents db := by
  rw [parentsDone_iff_satisfied hi]
  constructor
  · intro hs p hp
    obtain ⟨hl, hc⟩ := (h ⟨p, k, none⟩).mpr ⟨p, hp, rfl⟩
    obtain ⟨u, hu, hdone, _⟩ := hs _ hl hc
    obtain ⟨v, hv, hne⟩ := hkept p hp
    rw [hu] at hv
    cases hv
    exact inStatus_iff.mpr ⟨u, hu, hdone.resolve_right hne⟩
  · intro hall l hl hc
    obtain ⟨p, hp, rfl⟩ := (h l).mp ⟨hl, hc⟩
    obtain ⟨u, hu, hs⟩ := inStatus_iff.mp (hall p hp)
    exact ⟨u, hu, Or.inl hs, by simp⟩

theorem step (h : DependsOn k parents db) (ht : db.task? k = some t) (hw : OnlyWorked ids db op) (hk : k ∈ ids) :
    DependsOn k parents (Orchestration.step db op) := by
  have hfree : ¬ op.relinks k := by
    intro hr
    cases op with
    | addDependency | removeDependency => exact hw (hr ▸ hk)
    | _ => exact hr
  have hl := (step_links_kept op ht).resolve_right (fun hr => hfree hr.1)
  intro l
  rw [← h l]
  exact and_congr_left (hl l)

end DependsOn

namespace Gated

/-- The call that completes the last parent makes the task ready. -/
theorem opened (h : Gated k parents db) (hi : Integrity db) (hw : OnlyWorked ids db op) (hk : k ∈ ids)
    (hp : parents ⊆ ids) (hn : ¬ AllCompleted parents db) (hd : AllCompleted parents (step db op)) :
    InStatus k .ready (step db op) := by
  obtain ⟨t, ht, hwaits⟩ := h.waits
  have htodo := hwaits.mpr hn
  have hdone := ((h.depends.step ht hw hk).done_iff (h.kept.step hw hp) (step_integrity db op hi)).mpr hd
  simp only [AllCompleted, not_forall] at hn
  obtain ⟨p, hmem, hopen⟩ := hn
  obtain ⟨u, hu, harchived⟩ := h.kept p hmem
  obtain ⟨hl, _⟩ := (h.depends ⟨p, k, none⟩).mpr ⟨p, hmem, rfl⟩
  have hunsatisfied : ¬ LinkSatisfied db ⟨p, k, none⟩ := by
    intro hsat
    obtain ⟨v, hv, hs, _⟩ := hsat
    rw [hu] at hv
    cases hv
    exact hopen (inStatus_iff.mpr ⟨u, hu, hs.resolve_right harchived⟩)
  have hsatisfied : LinkSatisfied (step db op) ⟨p, k, none⟩ := by
    obtain ⟨v, hv, hs⟩ := inStatus_iff.mp (hd p hmem)
    exact ⟨v, hv, Or.inl hs, by simp⟩
  obtain ⟨v, clock, new, args, retryAt, hv, rfl, ha, hnew⟩ := newly_satisfied hi hl hunsatisfied hsatisfied
  have hid := Db.task_id hv
  dsimp only at hid
  subst hid
  have hcompleted : new = .completed := by
    apply hnew.resolve_right
    intro he
    subst he
    rcases hw (hp hmem) with hs | hs | hs | ⟨hs, _⟩ <;> exact absurd hs (by decide)
  subst hcompleted
  have hne : k ≠ v.id := by
    intro he
    rw [he, hv] at ht
    cases ht
    have hedge := ha.edge
    simp [transitions, htodo] at hedge
  have hsettled := completed_settles hv ha ht hne ⟨_, hl, rfl, rfl⟩
  refine inStatus_iff.mpr ⟨_, hsettled, ?_⟩
  rw [← Db.task_id ht] at hdone
  simp [settle, htodo, hdone]

theorem step (h : Gated k parents db) (hi : Integrity db) (hw : OnlyWorked ids db op) (hk : k ∈ ids)
    (hp : parents ⊆ ids) : Gated k parents (Orchestration.step db op) := by
  obtain ⟨t, ht, hwaits⟩ := h.waits
  have hdepends := h.depends.step ht hw hk
  have hkept := h.kept.step hw hp
  have hdone := hdepends.done_iff hkept (step_integrity db op hi)
  refine ⟨hdepends, hkept, ?_⟩
  have hopened := h.opened hi hw hk hp
  have hid := Db.task_id ht
  subst hid
  obtain ⟨t', ht', hrow⟩ := step_row op ht
  refine ⟨t', ht', ?_⟩
  have hmoves := hrow.worked hw hk ht
  by_cases hall : AllCompleted parents db
  · have hall' := hall.step hw hp
    have hne : t.status ≠ .todo := fun he => hwaits.mp he hall
    refine ⟨fun htodo => ?_, fun hn => absurd hall' hn⟩
    rcases hmoves with he | he | ⟨_, hne', _⟩
    · exact absurd (he ▸ htodo) hne
    · rw [he] at htodo
      have hopen := settle_todo htodo
      rw [hdone.mpr hall'] at hopen
      cases hopen
    · exact absurd htodo hne'
  · have htodo := hwaits.mpr hall
    by_cases hall' : AllCompleted parents (Orchestration.step db op)
    · obtain ⟨u, hu, hready⟩ := inStatus_iff.mp (hopened hall hall')
      rw [ht'] at hu
      cases hu
      refine ⟨fun he => ?_, fun hn => absurd hall' hn⟩
      rw [hready] at he
      cases he
    · refine ⟨fun _ => hall', fun _ => ?_⟩
      rcases hmoves with he | he | ⟨⟨hne, _⟩, _⟩
      · rw [he, htodo]
      · rw [he]
        have hopen : parentsDone (Orchestration.step db op) t.id = false :=
          Bool.eq_false_iff.mpr fun hd => hall' (hdone.mp hd)
        simp [settle, htodo, hopen]
      · exact absurd htodo hne

end Gated

end

namespace Gated

variable {ids parents : List String} {db : Db} {k : String}

theorem completed_of_ready (h : Gated k parents db) (hr : InStatus k .ready db) : AllCompleted parents db := by
  obtain ⟨t, ht, hwaits⟩ := h.waits
  obtain ⟨u, hu, hready⟩ := inStatus_iff.mp hr
  rw [ht] at hu
  cases hu
  by_contra hopen
  have htodo := hwaits.mpr hopen
  rw [hready] at htodo
  cases htodo

end Gated

/-- A task that is created behind tasks of which one is open is gated by them. -/
theorem created_gated {db db' : Db} {clock : Clock} {hex : String} {args : CreateArgs} {t : Task} {ids : List String}
    (hi : Integrity db) (ok : createTask db clock hex args = .ok (t, db')) (hargs : args.parents = ids.map .plain)
    (hkept : NoneArchived ids db) (hopen : ¬ AllCompleted ids db) :
    Gated t.id ids db' ∧ InStatus t.id .todo db' := by
  obtain ⟨rfl, hfresh, htask, _, _, hlinks⟩ := createTask_ok ok
  have hold : ∀ p ∈ ids, db'.task? p = db.task? p := by
    intro p hp
    rw [htask, if_neg]
    intro he
    obtain ⟨u, hu, _⟩ := hkept p hp
    rw [he, hfresh] at hu
    cases hu
  have htodo : (args.row clock.now hex).status = .todo := by
    cases ids with
    | nil => exact absurd (by simp [AllCompleted]) hopen
    | cons => simp [CreateArgs.row, hargs]
  have hnew : db'.task? (freshId hex) = some (args.row clock.now hex) := by rw [htask, if_pos rfl]
  have hall : AllCompleted ids db' ↔ AllCompleted ids db := by
    refine forall₂_congr fun p hp => ?_
    rw [InStatus, InStatus, hold p hp]
  refine ⟨⟨?_, ?_, ?_⟩, inStatus_iff.mpr ⟨_, hnew, htodo⟩⟩
  · intro l
    rw [hlinks]
    constructor
    · rintro ⟨hm | ⟨spec, hspec, rfl⟩, hk⟩
      · have := hi.child l hm
        rw [hk] at this
        have hnone : db.task? (args.row clock.now hex).id = none := hfresh
        rw [hnone] at this
        cases this
      · simp only [CreateArgs.parentSpecs, hargs, List.map_map, List.mem_map] at hspec
        obtain ⟨p, hp, rfl⟩ := hspec
        exact ⟨p, hp, rfl⟩
    · rintro ⟨p, hp, rfl⟩
      refine ⟨Or.inr ⟨⟨p, none⟩, ?_, rfl⟩, rfl⟩
      simp only [CreateArgs.parentSpecs, hargs, List.map_map, List.mem_map]
      exact ⟨p, hp, rfl⟩
  · intro p hp
    rw [hold p hp]
    exact hkept p hp
  · exact ⟨_, hnew, by simp [htodo, hall, hopen]⟩

end A2ARegistry.Orchestration
