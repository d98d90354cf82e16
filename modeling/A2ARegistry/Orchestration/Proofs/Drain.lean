import Mathlib.Algebra.Order.BigOperators.Group.List
import Mathlib.Algebra.Order.Ring.Nat
import A2ARegistry.Orchestration.Proofs.Acyclic
import A2ARegistry.Orchestration.Proofs.Completeness

namespace A2ARegistry.Orchestration
open Base

/-- The task is through: nothing waits for it any more. -/
def TaskStatus.done : TaskStatus → Bool
  | .completed | .archived => true
  | _ => false

/-- Somebody works on the task, or has. -/
def TaskStatus.begun : TaskStatus → Bool
  | .running | .completed | .archived => true
  | _ => false

/-- The condition of a link is one that this result meets. -/
def Meets (condition result : Option String) : Prop := ∀ c, condition = some c → c ≠ "" → result = some c

/-- The result is what every link out of the task asks for, those into `child` apart. -/
def Fulfils (db : Db) (parent : String) (result : Option String) (child : String) : Prop :=
  ∀ l ∈ db.links.rows, l.parentId = parent → l.childId ≠ child → Meets l.condition result

/-- A link that can be satisfied: a parent that is through has met the condition, any other
can meet it with all the rest. -/
structure Satisfiable (db : Db) (parent child : String) (condition : Option String) : Prop where
  kept : ∀ p, db.task? parent = some p → p.status.done = true → Meets condition p.result
  fits : ∃ result, Meets condition result ∧ Fulfils db parent result child

/-- A call of those who plan the work and those who do it as it is meant to be done: tasks are
not created behind parents that are all through, links can be satisfied, a completed task brings
the result its links ask for, and leases are renewed before they expire. -/
def Orderly (db : Db) : Op → Prop
  | .createTask _ hex args => ¬ BornStuck db hex args ∧
    ∀ spec ∈ args.parentSpecs, Satisfiable db spec.parentId (freshId hex) spec.condition
  | .addDependency _ child parent condition => Satisfiable db parent child condition
  | .updateTaskStatus _ k s args => s = TaskStatus.running.value ∨
    (s = TaskStatus.completed.value ∧
      ∀ l ∈ db.links.rows, l.parentId = k → Meets l.condition args.result) ∨
    (s = TaskStatus.archived.value ∧ InStatus k .completed db)
  | .releaseExpiredClaims clock tenant =>
    ∀ k t, db.task? k = some t → t.expired clock.now tenant = false
  | _ => True

/-- The call is a claim of the task that is granted. -/
def claims (k : String) (db : Db) : Op → Bool
  | .claimTask clock id workerId pid ttl => id == k && (claimTask db clock id workerId pid ttl).1.isSome
  | _ => false

/-- The call is a claim of the task that is granted, or starts it without one. -/
def starts (k : String) (db : Db) : Op → Bool
  | .claimTask clock id workerId pid ttl => id == k && (claimTask db clock id workerId pid ttl).1.isSome
  | .updateTaskStatus clock id s args => id == k && s == TaskStatus.running.value &&
    (raised db (.updateTaskStatus clock id s args)).isNone
  | _ => false

/-- The call completes the task. -/
def completes (k : String) (db : Db) : Op → Bool
  | .updateTaskStatus clock id s args => id == k && s == TaskStatus.completed.value &&
    (raised db (.updateTaskStatus clock id s args)).isNone
  | _ => false

/-- The call is a worker's: the claim of a task, or its completion. -/
def Works (db : Db) (op : Op) : Prop := ∃ k, claims k db op = true ∨ completes k db op = true

/-- What holds of a board on which work is done in order. -/
structure Flowing (db : Db) : Prop where
  integrity : Integrity db
  acyclic : Graph.Acyclic (Linked db)
  unstuck : NoneStuck db
  stages : ∀ k t, db.task? k = some t → t.status ∈ [.todo, .ready, .running, .completed, .archived]
  linked : ∀ k t, db.task? k = some t → t.status = .todo → ∃ l ∈ db.links.rows, l.childId = k
  kept : ∀ l ∈ db.links.rows, ∀ p, db.task? l.parentId = some p → p.status.done = true → Meets l.condition p.result
  fits : ∀ parent, ∃ result, ∀ l ∈ db.links.rows, l.parentId = parent → Meets l.condition result
  timed : ∀ k t, db.task? k = some t → t.claimLock.isSome → t.claimExpires.isSome

theorem done_iff {status : TaskStatus} : status.done = true ↔ status = .completed ∨ status = .archived := by
  cases status <;> simp [TaskStatus.done]

theorem satisfies_iff {t : Task} {condition : Option String} :
    t.Satisfies condition ↔ t.status.done = true ∧ Meets condition t.result := by
  rw [done_iff]
  rfl

theorem claimable_ready {t : Task} {now : Int} (h : t.claimable now = true) : t.status = .ready := by
  simp only [Task.claimable, Bool.and_eq_true, beq_iff_eq] at h
  exact h.1

section Rows

variable {db : Db} {op : Op} {k : String} {t t' : Task}

theorem settle_stage (db : Db) (t : Task) : (settle db t).status.begun = t.status.begun ∧ (settle db t).status.done = t.status.done := by
  rcases settle_cases db t with ⟨hs, _, he⟩ | ⟨hs, _, he⟩ | ⟨_, _, he⟩
  · rw [he, hs]
    exact ⟨rfl, rfl⟩
  · rw [he, hs]
    exact ⟨rfl, rfl⟩
  · rw [he]
    exact ⟨rfl, rfl⟩

/-- What a status update that does not raise has moved. -/
theorem update_moves {clock : Clock} {args : StatusArgs} {new : TaskStatus}
    (h : (raised db (.updateTaskStatus clock k new.value args)).isNone) :
    ∃ t, db.task? k = some t ∧ new ∈ transitions t.status ∧
      InStatus k new (step db (.updateTaskStatus clock k new.value args)) := by
  cases hr : updateTaskStatus db clock k new.value args with
  | error e => simp [raised, hr, Db.tx, errorOf] at h
  | ok r =>
    obtain ⟨t, new', retryAt, kind, ht, hnew, ha, _⟩ := updateTaskStatus_ok hr
    cases TaskStatus.value_injective hnew
    obtain ⟨_, _, hrow⟩ := step_moved ht ha
    exact ⟨t, ht, ha.edge, inStatus_iff.mpr ⟨_, hrow, rfl⟩⟩

theorem claims_starts (h : claims k db op = true) : starts k db op = true := by
  unfold claims at h
  split at h
  · exact h
  · cases h

theorem starts_moves (hf : Flowing db) (h : starts k db op = true) :
    InStatus k .ready db ∧ InStatus k .running (step db op) := by
  unfold starts at h
  split at h
  · rename_i clock id workerId pid ttl
    simp only [Bool.and_eq_true, beq_iff_eq, Option.isSome_iff_exists] at h
    obtain ⟨rfl, res, hres⟩ := h
    obtain ⟨_, _, _, _, _, hrow, hs, _⟩ := (claim_effect (Prod.ext hres rfl)).inserts
    exact ⟨(claim_leaves_ready hres).1, inStatus_iff.mpr ⟨_, hrow, hs⟩⟩
  · rename_i clock id s args
    simp only [Bool.and_eq_true, beq_iff_eq] at h
    obtain ⟨⟨rfl, rfl⟩, hok⟩ := h
    obtain ⟨t, ht, hedge, hrunning⟩ := update_moves hok
    refine ⟨inStatus_iff.mpr ⟨t, ht, ?_⟩, hrunning⟩
    have hstage := hf.stages id t ht
    cases hs : t.status with
    | ready => rfl
    | blocked => simp [hs] at hstage
    | _ => simp [transitions, hs] at hedge
  · cases h

theorem completes_moves (h : completes k db op = true) :
    InStatus k .running db ∧ InStatus k .completed (step db op) := by
  unfold completes at h
  split at h
  · rename_i clock id s args
    simp only [Bool.and_eq_true, beq_iff_eq] at h
    obtain ⟨⟨rfl, rfl⟩, hok⟩ := h
    obtain ⟨t, ht, hedge, hcompleted⟩ := update_moves hok
    refine ⟨inStatus_iff.mpr ⟨t, ht, ?_⟩, hcompleted⟩
    cases hs : t.status with
    | running => rfl
    | _ => simp [transitions, hs] at hedge
  · cases h

/-- The moves of an orderly board: only a claim starts a task, only its completion ends it. -/
theorem orderly_row (hf : Flowing db) (ho : Orderly db op) (ht : db.task? k = some t)
    (hrow : RowStep db (step db op) op t t') :
    (starts k db op = false → t'.status.begun = t.status.begun) ∧ (completes k db op = false → t'.status.done = t.status.done) ∧
      t'.status ∈ [.todo, .ready, .running, .completed, .archived] := by
  have hid := Db.task_id ht
  have hstage := hf.stages k t ht
  generalize hdb : step db op = db' at hrow
  cases hrow with
  | same | edited | placed | manned | beat => exact ⟨fun _ => rfl, fun _ => rfl, hstage⟩
  | @claimed clock _ workerId pid ttl free =>
    have hready := claimable_ready free
    subst hid
    refine ⟨fun hn => ?_, fun _ => by rw [hready]; rfl, by simp [claimedRow, Task.claim]⟩
    simp [starts, claimTask_claims ht free] at hn
  | @moved clock _ new args retryAt accepted =>
    subst hid
    have hok : (raised db (.updateTaskStatus clock t.id new.value args)).isNone := by
      obtain ⟨view, kind, hu⟩ := updateTaskStatus_accepted ht accepted
      simp [raised, hu, Db.tx, errorOf]
    have hedge := accepted.edge
    rcases ho with hs | ⟨hs, _⟩ | ⟨hs, hin⟩
    · have hnew := TaskStatus.value_injective hs
      subst hnew
      have hready : t.status = .ready := by
        cases hst : t.status with
        | ready => rfl
        | blocked => simp [hst] at hstage
        | _ => simp [transitions, hst] at hedge
      refine ⟨fun hn => ?_, fun _ => by rw [hready]; rfl, by simp [Task.move]⟩
      simp [starts, hok] at hn
    · have hnew := TaskStatus.value_injective hs
      subst hnew
      have hrunning : t.status = .running := by
        cases hst : t.status with
        | running => rfl
        | _ => simp [transitions, hst] at hedge
      refine ⟨fun _ => by rw [hrunning]; rfl, fun hn => ?_, by simp [Task.move]⟩
      simp [completes, hok] at hn
    · have hnew := TaskStatus.value_injective hs
      subst hnew
      obtain ⟨u, hu, hst⟩ := inStatus_iff.mp hin
      rw [ht] at hu
      cases hu
      exact ⟨fun _ => by rw [hst]; rfl, fun _ => by rw [hst]; rfl, by simp [Task.move]⟩
  | settled =>
    refine ⟨fun _ => (settle_stage db' t).1, fun _ => (settle_stage db' t).2, ?_⟩
    rcases settle_cases db' t with ⟨_, _, he⟩ | ⟨_, _, he⟩ | ⟨_, _, he⟩
    · simp [he]
    · simp [he]
    · rwa [he]
  | released expired =>
    rw [ho k t ht] at expired
    cases expired
  | promoted retryable =>
    simp only [Task.retryable, Bool.and_eq_true, beq_iff_eq] at retryable
    simp [retryable.1.1.1] at hstage

end Rows

section Steps

variable {db : Db} {op : Op}

theorem step_updateTaskStatus_links (db : Db) (clock : Clock) (k s : String) (args : StatusArgs) :
    (step db (.updateTaskStatus clock k s args)).links = db.links := by
  cases step_links db (.updateTaskStatus clock k s args) with
  | same links => exact links

theorem orderly_strands_none (ho : Orderly db op) : StrandsNone db op := by
  unfold StrandsNone
  split
  · exact ho.1
  · rename_i clock k s args
    intro t ht
    rcases ho with rfl | ⟨rfl, _⟩ | ⟨rfl, hin⟩
    · exact ⟨fun he => absurd (TaskStatus.value_injective he) (by decide),
        fun he => absurd (TaskStatus.value_injective he) (by decide)⟩
    · exact ⟨fun he => absurd (TaskStatus.value_injective he) (by decide),
        fun he => absurd (TaskStatus.value_injective he) (by decide)⟩
    · refine ⟨fun _ hst => ?_, fun he => absurd (TaskStatus.value_injective he) (by decide)⟩
      obtain ⟨u, hu, hs⟩ := inStatus_iff.mp hin
      rw [ht] at hu
      cases hu
      rcases hst with hst | hst <;> rw [hst] at hs <;> cases hs
  · trivial

theorem orderly_linked (hf : Flowing db) (ho : Orderly db op) {k : String} {t' : Task}
    (ht' : (step db op).task? k = some t') (htodo : t'.status = .todo) :
    ∃ l ∈ (step db op).links.rows, l.childId = k := by
  rcases step_origin ht' with ⟨clock, hex, args, u, rfl, rfl, rfl, ok⟩ | ⟨t, hb, hrow⟩
  · obtain ⟨rfl, _, _, _, _, hlinks⟩ := createTask_ok ok
    have hne : args.parentSpecs ≠ [] := by
      intro he
      have hparents : args.parents = [] := List.map_eq_nil_iff.mp he
      simp [CreateArgs.row, hparents] at htodo
    obtain ⟨spec, hspec⟩ := List.exists_mem_of_ne_nil _ hne
    exact ⟨_, (hlinks _).mpr (Or.inr ⟨spec, hspec, rfl⟩), rfl⟩
  · have hid := Db.task_id hb
    have hsettled : t' = settle (step db op) t → ∃ l ∈ (step db op).links.rows, l.childId = k := by
      intro he
      rw [he] at htodo
      have hnot := settle_todo htodo
      rw [hid, Bool.eq_false_iff, ne_eq, parentsDone_iff_satisfied (step_integrity db op hf.integrity)] at hnot
      simp only [ParentsSatisfied, not_forall] at hnot
      obtain ⟨l, hl, hk, _⟩ := hnot
      exact ⟨l, hl, hk⟩
    rcases step_links_into op hb with hl | hs
    · have hkeep : t.status = .todo → ∃ l ∈ (step db op).links.rows, l.childId = k := by
        intro hst
        obtain ⟨l, hm, hk⟩ := hf.linked k t hb hst
        exact ⟨l, (hl l hk).mpr hm, hk⟩
      generalize hdb : step db op = db' at hrow hkeep hsettled ⊢
      cases hrow with
      | same | edited | placed | manned | beat => exact hkeep htodo
      | claimed => cases htodo
      | @moved clock _ new args =>
        have hnew : new = .todo := htodo
        subst hnew
        rcases ho with he | ⟨he, _⟩ | ⟨he, _⟩
        · exact absurd (TaskStatus.value_injective he) (by decide)
        · exact absurd (TaskStatus.value_injective he) (by decide)
        · exact absurd (TaskStatus.value_injective he) (by decide)
      | settled => exact hsettled rfl
      | released => cases htodo
      | promoted => cases htodo
    · rw [hs] at ht'
      exact hsettled (Option.some.inj ht').symm

/-- A parent that a call of an orderly board finishes has the result its links ask for. -/
theorem orderly_kept_row (hf : Flowing db) (ho : Orderly db op) {l : TaskLink} {p p' : Task}
    (hp : db.task? l.parentId = some p) (hrow : RowStep db (step db op) op p p') (hd : p'.status.done = true)
    (hl : l ∈ db.links.rows) : Meets l.condition p'.result := by
  by_cases hdone : p.status.done = true
  · have hsat := satisfies_iff.mpr ⟨hdone, hf.kept l hl p hp hdone⟩
    exact (satisfies_iff.mp (hrow.stays_done hsat)).2
  have hid := Db.task_id hp
  cases hrow with
  | same | edited | placed | manned | beat => exact absurd hd hdone
  | claimed => cases hd
  | @moved clock _ new args retryAt accepted =>
    rcases ho with he | ⟨he, hmeets⟩ | ⟨_, hin⟩
    · have hnew := TaskStatus.value_injective he
      subst hnew
      cases hd
    · have hnew := TaskStatus.value_injective he
      subst hnew
      intro c hc hne
      have hres := hmeets l hl hid.symm c hc hne
      simp [Task.move, hres, truthy, hne]
    · obtain ⟨u, hu, hst⟩ := inStatus_iff.mp hin
      rw [hid, hp] at hu
      cases hu
      exact absurd (done_iff.mpr (Or.inl hst)) hdone
  | settled => rw [(settle_stage _ p).2] at hd; exact absurd hd hdone
  | released => cases hd
  | promoted => cases hd

theorem orderly_kept (hf : Flowing db) (ho : Orderly db op) {l : TaskLink} {p' : Task}
    (hl : l ∈ (step db op).links.rows) (hp' : (step db op).task? l.parentId = some p') (hd : p'.status.done = true) :
    Meets l.condition p'.result := by
  have hold : l ∈ db.links.rows → Meets l.condition p'.result := by
    intro hm
    obtain ⟨p, hp⟩ := Option.isSome_iff_exists.mp (hf.integrity.parent l hm)
    exact orderly_kept_row hf ho hp (step_moves hp hp') hd hm
  have hstep := step_links db op
  generalize hdb : step db op = db' at hl hp' hold hstep
  cases hstep with
  | same links => exact hold (links ▸ hl)
  | created ok =>
    obtain ⟨_, hfresh, htask, _, hparents, hlinks⟩ := createTask_ok ok
    rcases (hlinks l).mp hl with hm | ⟨spec, hspec, rfl⟩
    · exact hold hm
    · have hne : spec.parentId ≠ freshId _ := fun he => by
        have := hparents spec hspec
        rw [he, hfresh] at this
        cases this
      dsimp only at hp'
      rw [htask, if_neg hne] at hp'
      exact (ho.2 spec hspec).kept p' hp' hd
  | @linked c parent condition clock links task hparent rows =>
    rw [resolve_links] at hl
    rcases (rows l).mp hl with rfl | ⟨hm, _⟩
    · obtain ⟨p, hp⟩ := Option.isSome_iff_exists.mp hparent
      have hrow := resolve_row { db with links := links } clock c (k := parent) (t := p) hp
      dsimp only at hp'
      rw [hrow] at hp'
      cases hp'
      split at hd
      · rename_i he
        rw [if_pos he]
        rw [(settle_stage _ p).2] at hd
        have hmeets := ho.kept p hp hd
        exact (satisfies_iff.mp (settle_satisfies.mpr (satisfies_iff.mpr ⟨hd, hmeets⟩))).2
      · rename_i he
        rw [if_neg he]
        exact ho.kept p hp hd
    · exact hold hm
  | unlinked rows =>
    rw [resolve_links] at hl
    exact hold ((rows l).mp hl).1

theorem orderly_fits (hf : Flowing db) (ho : Orderly db op) (parent : String) :
    ∃ result, ∀ l ∈ (step db op).links.rows, l.parentId = parent → Meets l.condition result := by
  obtain ⟨result, hres⟩ := hf.fits parent
  have hstep := step_links db op
  generalize hdb : step db op = db' at hstep
  cases hstep with
  | same links => exact ⟨result, fun l hl => hres l (links ▸ hl)⟩
  | @created clock hex args t _ ok =>
    obtain ⟨_, hfresh, _, _, _, hlinks⟩ := createTask_ok ok
    have hnodup := (createTask_specs ok).2
    by_cases hin : ∃ spec ∈ args.parentSpecs, spec.parentId = parent
    · obtain ⟨spec, hspec, rfl⟩ := hin
      obtain ⟨wanted, hcond, hothers⟩ := (ho.2 spec hspec).fits
      refine ⟨wanted, fun l hl hp => ?_⟩
      rcases (hlinks l).mp hl with hm | ⟨other, hother, rfl⟩
      · refine hothers l hm hp fun hc => ?_
        have := hf.integrity.child l hm
        rw [hc, hfresh] at this
        cases this
      · rw [List.inj_on_of_nodup_map hnodup hother hspec hp]
        exact hcond
    · refine ⟨result, fun l hl hp => ?_⟩
      rcases (hlinks l).mp hl with hm | ⟨spec, hspec, rfl⟩
      · exact hres l hm hp
      · exact absurd ⟨spec, hspec, hp⟩ hin
  | @linked c p condition clock links task hparent rows =>
    by_cases hp : p = parent
    · subst hp
      obtain ⟨wanted, hcond, hothers⟩ := ho.fits
      refine ⟨wanted, fun l hl he => ?_⟩
      rw [resolve_links] at hl
      rcases (rows l).mp hl with rfl | ⟨hm, hne⟩
      · exact hcond
      · exact hothers l hm he fun hc => hne ⟨he, hc⟩
    · refine ⟨result, fun l hl he => ?_⟩
      rw [resolve_links] at hl
      rcases (rows l).mp hl with rfl | ⟨hm, _⟩
      · exact absurd he hp
      · exact hres l hm he
  | unlinked rows =>
    refine ⟨result, fun l hl he => ?_⟩
    rw [resolve_links] at hl
    exact hres l ((rows l).mp hl).1 he

theorem timed_step (h : ∀ k t, db.task? k = some t → t.claimLock.isSome → t.claimExpires.isSome)
    {k : String} {t' : Task} (ht' : (step db op).task? k = some t') (hl : t'.claimLock.isSome) :
    t'.claimExpires.isSome := by
  rcases step_origin ht' with ⟨_, _, _, _, rfl, rfl, rfl, _⟩ | ⟨t, hb, hrow⟩
  · cases hl
  · have hold := h k t hb
    generalize hdb : step db op = db' at hrow
    cases hrow with
    | same | edited | placed | manned | moved => exact hold hl
    | beat => rfl
    | claimed => rfl
    | settled =>
      obtain ⟨status, he⟩ := settle_kept db' t
      rw [he] at hl ⊢
      exact hold hl
    | released => cases hl
    | promoted => cases hl

theorem flowing_step (hf : Flowing db) (ho : Orderly db op) : Flowing (step db op) where
  integrity := step_integrity db op hf.integrity
  acyclic := step_acyclic hf.integrity hf.acyclic
  unstuck := step_none_stuck hf.integrity hf.unstuck (orderly_strands_none ho)
  stages := by
    intro k t' ht'
    rcases step_origin ht' with ⟨clock, hex, args, u, _, _, rfl, _⟩ | ⟨t, hb, hrow⟩
    · cases hp : args.parents <;> simp [CreateArgs.row, hp]
    · exact (orderly_row hf ho hb hrow).2.2
  linked := fun _ _ => orderly_linked hf ho
  kept := fun _ hl _ => orderly_kept hf ho hl
  fits := orderly_fits hf ho
  timed := fun _ _ => timed_step hf.timed

/-- A task may be created behind parents none of which is through. -/
theorem createTask_flows (hf : Flowing db) {db' : Db} {clock : Clock} {hex : String} {args : CreateArgs} {t : Task}
    (ok : createTask db clock hex args = .ok (t, db'))
    (hopen : ∀ spec ∈ args.parentSpecs, ∃ p, db.task? spec.parentId = some p ∧ p.status.done = false)
    (hfits : ∀ spec ∈ args.parentSpecs, ∃ result, Meets spec.condition result ∧
      Fulfils db spec.parentId result (freshId hex)) : Flowing db' := by
  have ho : Orderly db (.createTask clock hex args) := by
    refine ⟨fun hb => ?_, fun spec hspec => ⟨fun p hp hd => ?_, hfits spec hspec⟩⟩
    · obtain ⟨spec, hspec⟩ := List.exists_mem_of_ne_nil _ hb.parents
      obtain ⟨p, hp, hd⟩ := hopen spec hspec
      obtain ⟨q, hq, hsat⟩ := hb.done spec hspec
      rw [hp] at hq
      cases hq
      rw [(satisfies_iff.mp hsat).1] at hd
      cases hd
    · obtain ⟨q, hq, hopen⟩ := hopen spec hspec
      rw [hp] at hq
      cases hq
      rw [hd] at hopen
      cases hopen
  exact step_createTask ok ▸ flowing_step hf ho

theorem empty_flowing : Flowing Db.empty where
  integrity := empty_integrity
  acyclic := reachable_acyclic []
  unstuck := fun _ _ ht => by cases ht
  stages := fun _ _ ht => by cases ht
  linked := fun _ _ ht => by cases ht
  kept := fun _ hl => by cases hl
  fits := fun _ => ⟨none, fun _ hl => by cases hl⟩
  timed := fun _ _ ht => by cases ht

end Steps

/-- The task has been started. -/
def began (k : String) (db : Db) : Bool := (db.task? k).any (fun t => t.status.begun)

/-- The task is through. -/
def ended (k : String) (db : Db) : Bool := (db.task? k).any (fun t => t.status.done)

section Counting

variable {db : Db} {op : Op}

theorem any_of_inStatus {k : String} {status : TaskStatus} (h : InStatus k status db) :
    began k db = status.begun ∧ ended k db = status.done := by
  obtain ⟨t, ht, rfl⟩ := inStatus_iff.mp h
  simp [began, ended, ht]

/-- What is not started by the call has not changed in that, nor what is not completed by it. -/
theorem orderly_stage (hf : Flowing db) (ho : Orderly db op) (k : String) :
    (starts k db op = false → began k (step db op) = began k db) ∧
      (completes k db op = false → ended k (step db op) = ended k db) := by
  cases ht' : (step db op).task? k with
  | none =>
    cases ht : db.task? k with
    | none => simp [began, ended, ht, ht']
    | some t =>
      obtain ⟨_, hrow, _⟩ := step_row op ht
      rw [ht'] at hrow
      cases hrow
  | some t' =>
    rcases step_origin ht' with ⟨clock, hex, args, u, rfl, rfl, rfl, ok⟩ | ⟨t, hb, hrow⟩
    · have hfresh := (createTask_ok ok).2.1
      cases hp : args.parents <;>
        simp [began, ended, ht', hfresh, CreateArgs.row, hp, TaskStatus.begun, TaskStatus.done]
    · obtain ⟨hbegun, hdone, _⟩ := orderly_row hf ho hb hrow
      simp only [began, ended, ht', hb, Option.any_some]
      exact ⟨hbegun, hdone⟩

theorem step_began (hf : Flowing db) (ho : Orderly db op) (k : String) :
    (began k (step db op)).toNat = (began k db).toNat + if starts k db op then 1 else 0 := by
  cases hg : starts k db op with
  | false => simp [(orderly_stage hf ho k).1 hg]
  | true =>
    obtain ⟨hready, hrunning⟩ := starts_moves hf hg
    rw [(any_of_inStatus hready).1, (any_of_inStatus hrunning).1]
    rfl

theorem step_ended (hf : Flowing db) (ho : Orderly db op) (k : String) :
    (ended k (step db op)).toNat = (ended k db).toNat + if completes k db op then 1 else 0 := by
  cases hc : completes k db op with
  | false => simp [(orderly_stage hf ho k).2 hc]
  | true =>
    obtain ⟨hrunning, hcompleted⟩ := completes_moves hc
    rw [(any_of_inStatus hrunning).2, (any_of_inStatus hcompleted).2]
    rfl

end Counting

section Progress

variable {db : Db}

/-- Up the links from a task that is not through there is one to start or to complete. -/
theorem flowing_open (hf : Flowing db) {k : String} {t : Task} (ht : db.task? k = some t)
    (hopen : t.status.done = false) :
    ∃ j u, db.task? j = some u ∧ (u.status = .ready ∨ u.status = .running) := by
  have hfinite : {v | (db.task? v).isSome}.Finite := by
    apply (db.tasks.rows.map Task.id).finite_toSet.subset
    intro v hv
    obtain ⟨u, hu⟩ := Option.isSome_iff_exists.mp hv
    exact List.mem_map.mpr ⟨u, (Table.find_some_iff.mp hu).1, Db.task_id hu⟩
  have hclimb := hf.acyclic.induction hfinite (P := fun v => ∀ u, db.task? v = some u → u.status.done = false →
    ∃ j u, db.task? j = some u ∧ (u.status = .ready ∨ u.status = .running)) ?_
  · exact hclimb k (Option.isSome_iff_exists.mpr ⟨t, ht⟩) t ht hopen
  intro v _ ih u hu hud
  have hstage := hf.stages v u hu
  cases hs : u.status with
  | ready => exact ⟨v, u, hu, Or.inl hs⟩
  | running => exact ⟨v, u, hu, Or.inr hs⟩
  | todo =>
    have hwaits := hf.unstuck v u hu hs (hf.linked v u hu hs)
    simp only [ParentsSatisfied, not_forall] at hwaits
    obtain ⟨l, hl, hk, hn⟩ := hwaits
    have hparent := hf.integrity.parent l hl
    obtain ⟨p, hp⟩ := Option.isSome_iff_exists.mp hparent
    apply ih l.parentId hparent ⟨l, hl, rfl, hk⟩ p hp
    apply Bool.eq_false_iff.mpr
    intro hd
    exact hn ⟨p, hp, satisfies_iff.mpr ⟨hd, hf.kept l hl p hp hd⟩⟩
  | completed | archived => rw [hs] at hud; cases hud
  | _ => rw [hs] at hstage; simp at hstage

/-- A ready task can be claimed once the lease it was last held under has run out. -/
theorem ready_claims (hf : Flowing db) {k : String} {t : Task} (ht : db.task? k = some t)
    (hs : t.status = .ready) : ∃ op, Orderly db op ∧ claims k db op = true := by
  have hfree : t.claimable (Clock.fixed (t.claimExpires.getD 0 + 1)).now = true := by
    have htimed := hf.timed k t ht
    cases hl : t.claimLock with
    | none => simp [Task.claimable, hs, hl]
    | some lock =>
      obtain ⟨e, he⟩ := Option.isSome_iff_exists.mp (htimed (by simp [hl]))
      simp [Task.claimable, Clock.fixed, hs, he]
  refine ⟨.claimTask (.fixed (t.claimExpires.getD 0 + 1)) k "" 0 0, trivial, ?_⟩
  simp [claims, claimTask_claims ht hfree]

/-- A running task can be completed with the result its links ask for. -/
theorem running_completes (hf : Flowing db) {k : String} {t : Task} (ht : db.task? k = some t)
    (hs : t.status = .running) : ∃ op, Orderly db op ∧ completes k db op = true := by
  obtain ⟨result, hres⟩ := hf.fits k
  have ha : Accepted t (Clock.fixed 0).now .completed ({ result := result } : StatusArgs).claimLock none :=
    ⟨by simp [hs, transitions], by simp [lockRefused, Json.truthy], by simp, nextRetry_of_ne (by simp)⟩
  refine ⟨.updateTaskStatus (.fixed 0) k TaskStatus.completed.value { result := result }, Or.inr (Or.inl ⟨rfl, hres⟩), ?_⟩
  obtain ⟨view, kind, hok⟩ := updateTaskStatus_accepted ht ha
  simp [completes, raised, hok, Db.tx, errorOf]

/-- How many starts and completions the tasks of the list still take. -/
def workLeft (ids : List String) (db : Db) : Nat :=
  (ids.map (fun k => (!began k db).toNat + (!ended k db).toNat)).sum

/-- A call takes the share of the task off what it starts and completes. -/
theorem step_left {op : Op} (hf : Flowing db) (ho : Orderly db op) (k : String) :
    (!began k (step db op)).toNat + (!ended k (step db op)).toNat +
      ((if starts k db op then 1 else 0) + if completes k db op then 1 else 0) =
    (!began k db).toNat + (!ended k db).toNat := by
  have hnot : ∀ b : Bool, (!b).toNat + b.toNat = 1 := by decide
  have hb := step_began hf ho k
  have he := step_ended hf ho k
  have hb₁ := hnot (began k (step db op))
  have hb₀ := hnot (began k db)
  have he₁ := hnot (ended k (step db op))
  have he₀ := hnot (ended k db)
  omega

theorem works_lowers {op : Op} (hf : Flowing db) (ho : Orderly db op) {ids : List String} {k : String}
    (hk : k ∈ ids) (hw : starts k db op = true ∨ completes k db op = true) :
    workLeft ids (step db op) < workLeft ids db := by
  apply List.sum_lt_sum
  · intro j _
    have := step_left hf ho j
    omega
  · refine ⟨k, hk, ?_⟩
    have := step_left hf ho k
    rcases hw with hw | hw <;> simp only [hw, if_true] at this <;> omega

/-- Only `create_task` brings a task in. -/
theorem works_ids {op : Op} (hw : Works db op) {k : String} (hk : ((step db op).task? k).isSome) :
    (db.task? k).isSome := by
  obtain ⟨t', ht'⟩ := Option.isSome_iff_exists.mp hk
  rcases step_origin ht' with ⟨clock, hex, args, u, rfl, _⟩ | ⟨t, ht, _⟩
  · obtain ⟨j, hg | hc⟩ := hw
    · cases hg
    · cases hc
  · rw [ht]
    rfl

/-- From a flowing board the workers can complete every task. -/
theorem flowing_drains (hf : Flowing db) :
    ∃ more, EachStep step (fun db op => Orderly db op ∧ Works db op) db more ∧
      ∀ k t, (exec step db more).task? k = some t → t.status.done = true := by
  let ids := db.tasks.rows.map Task.id
  have hids : ∀ k, (db.task? k).isSome → k ∈ ids := by
    intro k hk
    obtain ⟨t, ht⟩ := Option.isSome_iff_exists.mp hk
    exact List.mem_map.mpr ⟨t, (Table.find_some_iff.mp ht).1, Db.task_id ht⟩
  refine exec_reaches (P := fun db => ∀ k t, db.task? k = some t → t.status.done = true)
    (I := fun db => Flowing db ∧ ∀ k, (db.task? k).isSome → k ∈ ids) (m := workLeft ids) ?_ ?_ ⟨hf, hids⟩
  · intro db op hi hw
    exact ⟨flowing_step hi.1 hw.1, fun k hk => hi.2 k (works_ids hw.2 hk)⟩
  · intro db hi hopen
    simp only [not_forall] at hopen
    obtain ⟨k, t, ht, hd⟩ := hopen
    obtain ⟨j, u, hu, hs⟩ := flowing_open hi.1 ht (Bool.eq_false_iff.mpr hd)
    have hj : j ∈ ids := hi.2 j (Option.isSome_iff_exists.mpr ⟨u, hu⟩)
    rcases hs with hs | hs
    · obtain ⟨op, ho, hg⟩ := ready_claims hi.1 hu hs
      exact ⟨op, ⟨ho, j, Or.inl hg⟩, works_lowers hi.1 ho hj (Or.inl (claims_starts hg))⟩
    · obtain ⟨op, ho, hc⟩ := running_completes hi.1 hu hs
      exact ⟨op, ⟨ho, j, Or.inr hc⟩, works_lowers hi.1 ho hj (Or.inr hc)⟩

end Progress

/-- Where work is done in order, a task is started once when it is begun and completed once when
it is through, and whatever has been done the workers can complete all that is left. -/
theorem orderly_board_drains {ops : List Op} (h : EachStep step Orderly Db.empty ops) :
    (∀ k, tally step (starts k) Db.empty ops = (began k (exec step Db.empty ops)).toNat ∧
      tally step (completes k) Db.empty ops = (ended k (exec step Db.empty ops)).toNat) ∧
    ∃ more, EachStep step (fun db op => Orderly db op ∧ Works db op) (exec step Db.empty ops) more ∧
      ∀ k t, (exec step Db.empty (ops ++ more)).task? k = some t → t.status.done = true := by
  have hstep : ∀ db op, Flowing db → Orderly db op → Flowing (step db op) := fun _ _ => flowing_step
  constructor
  · intro k
    have hbegan := tally_eq_potential (c := starts k) (m := fun db => (began k db).toNat) hstep
      (fun db op hf ho => step_began hf ho k) empty_flowing h
    have hended := tally_eq_potential (c := completes k) (m := fun db => (ended k db).toNat) hstep
      (fun db op hf ho => step_ended hf ho k) empty_flowing h
    simp only [show (began k Db.empty).toNat = 0 from rfl, Nat.zero_add] at hbegan
    simp only [show (ended k Db.empty).toNat = 0 from rfl, Nat.zero_add] at hended
    exact ⟨hbegan.symm, hended.symm⟩
  · obtain ⟨more, hmore, hdone⟩ := flowing_drains (EachStep.invariant hstep empty_flowing h)
    exact ⟨more, hmore, by rwa [exec_append]⟩

/-- A task is completed with the result that the link to its child asks for. -/
def reviewed : List Op :=
  [.createTask (.fixed 0) "x" { title := "x" },
    .createTask (.fixed 1) "y" { title := "y", parents := [.conditional (some "t_x") (some "approved")] },
    .claimTask (.fixed 2) "t_x" "w" 1 900,
    .heartbeat (.fixed 3) "t_x" (.str "w:1"),
    .updateTaskStatus (.fixed 4) "t_x" "completed" { result := some "approved" }]

theorem reviewed_orderly : EachStep step Orderly Db.empty reviewed := by
  have hready : InStatus "t_x" .ready (exec step Db.empty (reviewed.take 1)) := by decide
  have hnone : (exec step Db.empty (reviewed.take 1)).links.rows = [] := by decide
  have hlinks : (exec step Db.empty (reviewed.take 4)).links.rows = [⟨"t_x", "t_y", some "approved"⟩] := by decide
  obtain ⟨t, ht, hs⟩ := inStatus_iff.mp hready
  refine ⟨⟨fun hb => hb.parents rfl, by simp [CreateArgs.parentSpecs]⟩, ⟨fun hb => ?_, fun spec hspec => ?_⟩, trivial,
    trivial, Or.inr (Or.inl ⟨rfl, fun l hl _ => ?_⟩), trivial⟩
  · obtain ⟨p, hp, hsat⟩ := hb.done ⟨"t_x", some "approved"⟩ List.mem_cons_self
    cases ht.symm.trans hp
    rcases hsat.1 with hd | hd <;> rw [hs] at hd <;> cases hd
  · cases List.mem_singleton.mp hspec
    refine ⟨fun p hp hd => ?_, some "approved", fun c hc _ => hc, fun l hl => ?_⟩
    · cases ht.symm.trans hp
      rw [hs] at hd
      cases hd
    · cases hnone ▸ (show l ∈ (exec step Db.empty (reviewed.take 1)).links.rows from hl)
  · cases List.mem_singleton.mp (hlinks ▸ (show l ∈ (exec step Db.empty (reviewed.take 4)).links.rows from hl))
    exact fun c hc _ => hc

theorem reviewed_drains : EachStep step Orderly Db.empty reviewed ∧
    ∃ more, EachStep step (fun db op => Orderly db op ∧ Works db op) (exec step Db.empty reviewed) more ∧
      ∀ k t, (exec step Db.empty (reviewed ++ more)).task? k = some t → t.status.done = true :=
  ⟨reviewed_orderly, (orderly_board_drains reviewed_orderly).2⟩

end A2ARegistry.Orchestration
