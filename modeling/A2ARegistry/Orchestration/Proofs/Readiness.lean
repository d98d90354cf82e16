import A2ARegistry.Orchestration.Proofs.Runs

namespace A2ARegistry.Orchestration
open Base

/-- What an accepted update of one row does, whatever else it triggers. -/
theorem step_moved {db : Db} {clock : Clock} {k : String} {t : Task} {new : TaskStatus}
    {args : StatusArgs} {retryAt : Option Int} (ht : db.task? k = some t)
    (ha : Accepted t clock.now new args.claimLock retryAt) :
    ∃ kind, step db (.updateTaskStatus clock k new.value args) =
        writeStatus db clock t new args retryAt kind ∧
      (step db (.updateTaskStatus clock k new.value args)).task? k =
        some (t.move clock.now new args.result retryAt) := by
  obtain ⟨view, kind, h⟩ := updateTaskStatus_accepted ht ha
  have hs : step db (.updateTaskStatus clock k new.value args) =
      writeStatus db clock t new args retryAt kind := step_updateTaskStatus h
  have hid := Db.task_id ht
  subst hid
  exact ⟨kind, hs, by rw [hs, writeStatus_task db clock t new args retryAt kind ht, if_pos rfl]⟩

section
variable {db db' : Db} {op : Op} {t t' p p' : Task} {condition : Option String}

theorem settle_ready (h : (settle db t).status = .ready) : parentsDone db t.id = true := by
  rcases settle_cases db t with ⟨_, hp, _⟩ | ⟨_, _, he⟩ | ⟨_, hp, he⟩
  · exact hp
  · rw [he] at h
    cases h
  · exact hp (he ▸ h)

theorem settle_todo (h : (settle db t).status = .todo) : parentsDone db t.id = false := by
  rcases settle_cases db t with ⟨_, _, he⟩ | ⟨_, hp, _⟩ | ⟨hp, _, he⟩
  · rw [he] at h
    cases h
  · exact hp
  · exact hp (he ▸ h)

/-- With no dangling link, the resolver's verdict is the condition itself. -/
theorem parentsDone_iff_satisfied (hi : Integrity db) {k : String} :
    parentsDone db k = true ↔ ParentsSatisfied db k := by
  rw [parentsDone_iff]
  constructor
  · intro h l hl hk
    obtain ⟨p, hp⟩ := Option.isSome_iff_exists.mp (hi.parent l hl)
    exact ⟨p, hp, h l hl hk p hp⟩
  · intro h l hl hk p hp
    obtain ⟨q, hq, hs⟩ := h l hl hk
    rw [hp] at hq
    cases hq
    exact hs

/-- Being done is for ever: a completed parent can only be archived, with its result. -/
theorem RowStep.stays_done (h : RowStep db db' op p p') (hp : p.Satisfies condition) :
    p'.Satisfies condition := by
  obtain ⟨hs, hr⟩ := hp
  cases h with
  | same | edited | placed | manned | beat => exact ⟨hs, hr⟩
  | claimed free =>
    simp only [Task.claimable, Bool.and_eq_true, beq_iff_eq] at free
    rcases hs with hs | hs <;> rw [hs] at free <;> cases free.1
  | moved accepted =>
    have hedge := accepted.edge
    rcases hs with hs | hs
    · rw [hs] at hedge
      simp only [transitions, List.mem_singleton] at hedge
      subst hedge
      exact ⟨Or.inr rfl, hr⟩
    · rw [hs] at hedge
      cases hedge
  | settled => exact settle_satisfies.mpr ⟨hs, hr⟩
  | released expired =>
    simp only [Task.expired, Bool.and_eq_true, Bool.or_eq_true, beq_iff_eq] at expired
    rcases hs with hs | hs <;> rw [hs] at expired <;> simp at expired
  | promoted retryable =>
    simp only [Task.retryable, Bool.and_eq_true, beq_iff_eq] at retryable
    rcases hs with hs | hs <;> rw [hs] at retryable <;> simp at retryable

/-- A parent becomes done by an accepted update of it to `completed` or `archived`. -/
theorem RowStep.becomes_done (h : RowStep db db' op p p') (hp : p'.Satisfies condition) :
    p.Satisfies condition ∨ ∃ clock new args retryAt,
      op = .updateTaskStatus clock p.id new.value args ∧
      Accepted p clock.now new args.claimLock retryAt ∧ (new = .completed ∨ new = .archived) := by
  cases h with
  | same | edited | placed | manned | beat => exact Or.inl hp
  | claimed => obtain ⟨hs | hs, _⟩ := hp <;> cases hs
  | @moved clock _ new args retryAt accepted =>
    exact Or.inr ⟨clock, new, args, retryAt, rfl, accepted, hp.1⟩
  | settled => exact Or.inl (settle_satisfies.mp hp)
  | released => obtain ⟨hs | hs, _⟩ := hp <;> cases hs
  | promoted => obtain ⟨hs | hs, _⟩ := hp <;> cases hs

/-- The call adds a dependency to the task or removes one. -/
def Op.relinks (k : String) : Op → Prop
  | .addDependency _ child _ _ | .removeDependency _ child _ => child = k
  | _ => False

/-- The links into an existing task stay as they are, unless a dependency of it is
added or removed, and then it is resolved at once. -/
theorem step_links_kept (op : Op) {k : String} (ht : db.task? k = some t) :
    (∀ l : TaskLink, l.childId = k → (l ∈ (step db op).links.rows ↔ l ∈ db.links.rows)) ∨
      (op.relinks k ∧ ∃ clock links, step db op = resolveDependencies { db with links := links } clock k) := by
  have hstep := step_links db op
  generalize step db op = db' at hstep ⊢
  cases hstep with
  | same links => exact Or.inl fun l _ => by rw [links]
  | created ok =>
    obtain ⟨_, hfresh, _, _, _, hlinks⟩ := createTask_ok ok
    refine Or.inl fun l hl => ?_
    rw [hlinks]
    refine ⟨fun h => h.resolve_right ?_, Or.inl⟩
    rintro ⟨spec, _, rfl⟩
    dsimp only at hl
    rw [← hl, hfresh] at ht
    cases ht
  | @linked c _ condition clock links _ _ rows =>
    by_cases hk : c = k
    · subst hk
      exact Or.inr ⟨rfl, clock, links, rfl⟩
    · refine Or.inl fun l hl => ?_
      rw [resolve_links]
      dsimp only
      rw [rows]
      constructor
      · rintro (rfl | ⟨hm, _⟩)
        · exact absurd hl hk
        · exact hm
      · exact fun hm => Or.inr ⟨hm, fun he => hk (he.2.symm.trans hl)⟩
  | @unlinked _ c clock links rows =>
    by_cases hk : c = k
    · subst hk
      exact Or.inr ⟨rfl, clock, links, rfl⟩
    · refine Or.inl fun l hl => ?_
      rw [resolve_links]
      dsimp only
      rw [rows]
      exact ⟨And.left, fun hm => ⟨hm, fun he => hk (he.2.symm.trans hl)⟩⟩

theorem step_links_into (op : Op) {k : String} (ht : db.task? k = some t) :
    (∀ l : TaskLink, l.childId = k → (l ∈ (step db op).links.rows ↔ l ∈ db.links.rows)) ∨
      (step db op).task? k = some (settle (step db op) t) := by
  rcases step_links_kept op ht with hl | ⟨_, clock, links, he⟩
  · exact Or.inl hl
  · right
    have ht' : ({ db with links := links } : Db).task? k = some t := ht
    rw [he, resolve_row _ clock k ht', if_pos rfl]

theorem ParentsSatisfied.step {k : String} (h : ParentsSatisfied db k)
    (hl : ∀ l : TaskLink, l.childId = k → (l ∈ (step db op).links.rows ↔ l ∈ db.links.rows)) :
    ParentsSatisfied (step db op) k := by
  intro l hm hk
  obtain ⟨p, hp, hs⟩ := h l ((hl l hk).mp hm) hk
  obtain ⟨p', hp', hrow⟩ := step_row op hp
  exact ⟨p', hp', hrow.stays_done hs⟩

/-- A call that finishes no task satisfies no link. -/
theorem ParentsSatisfied.unstep (hi : Integrity db) {k : String}
    (h : ParentsSatisfied (A2ARegistry.Orchestration.step db op) k)
    (hl : ∀ l : TaskLink, l.childId = k →
      (l ∈ (A2ARegistry.Orchestration.step db op).links.rows ↔ l ∈ db.links.rows))
    (hop : ∀ clock j s args, op = .updateTaskStatus clock j s args →
      s ≠ TaskStatus.completed.value ∧ s ≠ TaskStatus.archived.value) :
    ParentsSatisfied db k := by
  intro l hm hk
  obtain ⟨p, hp⟩ := Option.isSome_iff_exists.mp (hi.parent l hm)
  obtain ⟨p', hp', hs⟩ := h l ((hl l hk).mpr hm) hk
  have hrow := step_moves hp hp'
  rcases hrow.becomes_done hs with hs | ⟨clock, new, args, _, he, _, hn | hn⟩
  · exact ⟨p, hp, hs⟩
  · subst hn
    exact absurd rfl (hop _ _ _ _ he).1
  · subst hn
    exact absurd rfl (hop _ _ _ _ he).2

end

/-- Every ready task has all of its parent links satisfied. -/
def ReadySafe (db : Db) : Prop :=
  ∀ k t, db.task? k = some t → t.status = .ready → ParentsSatisfied db k

/-- The call is not an explicit move of a `todo` task to `ready`. -/
def NoOverride (db : Db) : Op → Prop
  | .updateTaskStatus _ k s _ =>
    s = TaskStatus.ready.value → ∀ t, db.task? k = some t → t.status ≠ .todo
  | _ => True

/-- A call that re-opens blocked or failed tasks finds their parent links satisfied. -/
def ReopensSatisfied (db : Db) : Op → Prop
  | .updateTaskStatus _ k s _ => s = TaskStatus.ready.value →
    ∀ t, db.task? k = some t → t.status = .blocked → ParentsSatisfied db k
  | .promoteRetryableTasks _ tenant =>
    ∀ k t, db.task? k = some t → t.retryable tenant = true → ParentsSatisfied db k
  | _ => True

/-- A task that `create_task` makes `ready` has no links. -/
theorem created_ready {db db' : Db} {clock : Clock} {hex : String} {args : CreateArgs} {t : Task}
    (hi : Integrity db) (ok : createTask db clock hex args = .ok (t, db')) (hr : t.status = .ready) :
    ParentsSatisfied db' (freshId hex) := by
  obtain ⟨rfl, hfresh, _, _, _, hlinks⟩ := createTask_ok ok
  intro l hl hk
  rcases (hlinks l).mp hl with hm | ⟨spec, hspec, _⟩
  · have := hi.child l hm
    rw [hk, hfresh] at this
    cases this
  · have hne : args.parents.isEmpty = false := by
      cases hp : args.parents with
      | nil => simp [CreateArgs.parentSpecs, hp] at hspec
      | cons => rfl
    simp [CreateArgs.row, hne] at hr

theorem step_ready_safe {db : Db} {op : Op} (hi : Integrity db) (hp : ReadySafe db)
    (hg : NoOverride db op) (hc : ReopensSatisfied db op) : ReadySafe (step db op) := by
  intro k t' ht' hr
  have hi' := step_integrity db op hi
  rcases step_origin ht' with ⟨clock, hex, args, u, rfl, rfl, rfl, ok⟩ | ⟨t, hb, hrow⟩
  · obtain ⟨rfl, _⟩ := createTask_ok ok
    exact created_ready hi ok hr
  · have hid := Db.task_id hb
    rcases step_links_into op hb with hl | hs
    · have hkeep : ParentsSatisfied db k → ParentsSatisfied (step db op) k := fun h => h.step hl
      generalize hdb : step db op = db' at *
      cases hrow with
      | same | edited | placed | manned | beat => exact hkeep (hp k _ hb hr)
      | claimed => cases hr
      | @moved clock _ new args retryAt accepted =>
        have hnew : new = .ready := hr
        subst hnew
        subst hid
        apply hkeep
        apply hc rfl t hb
        have hedge := accepted.edge
        cases hst : t.status with
        | todo => exact absurd hst (hg rfl t hb)
        | blocked => rfl
        | failed => exact absurd ⟨hst, rfl⟩ accepted.kind
        | _ => simp [transitions, hst] at hedge
      | settled =>
        have hd := settle_ready hr
        rw [hid] at hd
        exact (parentsDone_iff_satisfied hi').mp hd
      | released => cases hr
      | promoted retryable => exact hkeep (hc k t hb retryable)
    · rw [hs] at ht'
      cases ht'
      have hd := settle_ready hr
      rw [hid] at hd
      exact (parentsDone_iff_satisfied hi').mp hd

theorem reopens_of_ready_safe {db : Db} {op : Op} (hi : Integrity db)
    (hp : ReadySafe (step db op)) : ReopensSatisfied db op := by
  unfold ReopensSatisfied
  split
  · rename_i clock k s args
    intro hs t ht hst
    subst hs
    have ha := accepted_requeue clock.now args.claimLock hst
    obtain ⟨kind, hw, hrow⟩ := step_moved ht ha
    have hsat := hp k _ hrow rfl
    apply ParentsSatisfied.unstep hi hsat
    · intro l _
      rw [hw, writeStatus_links]
    · intro clock' j s' args' he
      cases he
      exact ⟨by decide, by decide⟩
  · rename_i clock tenant
    intro k t ht hr
    obtain ⟨n, _, hrow, _⟩ := (promote_task clock tenant ht).2 hr
    have hsat := hp k _ hrow rfl
    apply ParentsSatisfied.unstep hi hsat
    · intro l _
      rw [step, (promoteRetryable_loop db clock tenant).links]
    · intro clock' j s' args' he
      cases he
  · trivial

theorem empty_ready_safe : ReadySafe Db.empty := by
  intro k t ht
  cases ht

/-- A run without overrides keeps ready tasks behind their parents exactly when it
never re-opens a blocked or a failed task ahead of them. -/
theorem ready_safe_iff_reopens_satisfied {ops : List Op} (h : EachStep step NoOverride Db.empty ops) :
    Always step ReadySafe Db.empty ops ↔ EachStep step ReopensSatisfied Db.empty ops := by
  apply always_iff_eachStep (I := Integrity) (G := NoOverride) _ _ empty_integrity empty_ready_safe h
  · intro db op hi _
    exact step_integrity db op hi
  · intro db op hi hp hg
    exact ⟨reopens_of_ready_safe hi, step_ready_safe hi hp hg⟩

/-- A task is claimed, gets a parent, fails and is promoted for a retry. -/
def retryAheadOfParent : List Op :=
  [.createTask (.fixed 0) "a" { title := "a" },
    .claimTask (.fixed 0) "t_a" "w" 1 900,
    .createTask (.fixed 0) "b" { title := "b" },
    .addDependency (.fixed 0) "t_a" "t_b" none,
    .updateTaskStatus (.fixed 0) "t_a" "failed" {},
    .promoteRetryableTasks (.fixed 0) none]

theorem retryAheadOfParent_no_override : EachStep step NoOverride Db.empty retryAheadOfParent :=
  ⟨trivial, trivial, trivial, trivial, fun h => absurd h (by decide), trivial, trivial⟩

theorem ready_safe_iff_on_retry : EachStep step NoOverride Db.empty retryAheadOfParent ∧
    (Always step ReadySafe Db.empty retryAheadOfParent ↔
      EachStep step ReopensSatisfied Db.empty retryAheadOfParent) :=
  ⟨retryAheadOfParent_no_override, ready_safe_iff_reopens_satisfied retryAheadOfParent_no_override⟩

/-- The retry re-opens the task although its parent has not run. -/
theorem ready_ahead_of_parent : EachStep step NoOverride Db.empty retryAheadOfParent ∧
    ¬ Always step ReadySafe Db.empty retryAheadOfParent := by
  refine ⟨retryAheadOfParent_no_override, fun h => ?_⟩
  have hlast := h.last
  have hstatus : ((exec step Db.empty retryAheadOfParent).task? "t_a").map Task.status =
      some .ready := by decide
  have hparent : ((exec step Db.empty retryAheadOfParent).task? "t_b").map Task.status =
      some .ready := by decide
  have hlink : ⟨"t_b", "t_a", none⟩ ∈ (exec step Db.empty retryAheadOfParent).links.rows := by decide
  obtain ⟨t, ht, hs⟩ := Option.map_eq_some_iff.mp hstatus
  obtain ⟨p, hp, hdone, _⟩ := hlast "t_a" t ht hs _ hlink rfl
  rw [hp, Option.map_some] at hparent
  rcases hdone with hd | hd <;> rw [hd] at hparent <;> cases hparent

/-- A ready task is free, and the next claim of it succeeds, whoever makes it and when. -/
structure Claimable (db : Db) (k : String) (t : Task) : Prop where
  free : t.claimLock = none
  claims : ∀ clock workerId pid ttl, (claimTask db clock k workerId pid ttl).1.isSome

def ReadyClaimable (db : Db) : Prop :=
  ∀ k t, db.task? k = some t → t.status = .ready → Claimable db k t

/-- A waiting task has no lock either. -/
def TodoFree (db : Db) : Prop :=
  ∀ k t, db.task? k = some t → t.status = .todo → t.claimLock = none

/-- A blocked task goes back to the pool without a lock. -/
def RequeuesFree (db : Db) : Op → Prop
  | .updateTaskStatus _ k s _ => s = TaskStatus.ready.value →
    ∀ t, db.task? k = some t → t.status = .blocked → t.claimLock = none
  | _ => True

theorem claimable_of_free {db : Db} {k : String} {t : Task} (ht : db.task? k = some t)
    (hs : t.status = .ready) (hf : t.claimLock = none) : Claimable db k t := by
  refine ⟨hf, fun clock workerId pid ttl => ?_⟩
  have hc : t.claimable clock.now = true := by simp [Task.claimable, hs, hf]
  rw [claimTask_claims ht hc]
  rfl

/-- The lock of a task that becomes `ready` or `todo` is the one it had, or it has none. -/
theorem RowStep.pooled_lock {db db' : Db} {op : Op} {t t' : Task} (h : RowStep db db' op t t')
    (hs : t'.status = .ready ∨ t'.status = .todo) :
    t'.claimLock = none ∨ (t'.claimLock = t.claimLock ∧
      (t.status = .ready ∨ t.status = .todo ∨ (t.status = .blocked ∧ t'.status = .ready ∧
        ∃ clock args, op = .updateTaskStatus clock t.id TaskStatus.ready.value args))) := by
  cases h with
  | same | edited | placed | manned | beat =>
    rcases hs with hs | hs
    · exact Or.inr ⟨rfl, Or.inl hs⟩
    · exact Or.inr ⟨rfl, Or.inr (Or.inl hs)⟩
  | claimed => rcases hs with hs | hs <;> cases hs
  | @moved clock _ new args retryAt accepted =>
    right
    refine ⟨rfl, ?_⟩
    have hnew : new = .ready ∨ new = .todo := hs
    have hedge := accepted.edge
    cases hst : t.status with
    | ready => exact Or.inl rfl
    | todo => exact Or.inr (Or.inl rfl)
    | blocked =>
      rcases hnew with rfl | rfl
      · exact Or.inr (Or.inr ⟨rfl, rfl, clock, args, rfl⟩)
      · simp [transitions, hst] at hedge
    | failed =>
      rcases hnew with rfl | rfl
      · exact absurd ⟨hst, rfl⟩ accepted.kind
      · simp [transitions, hst] at hedge
    | _ => rcases hnew with rfl | rfl <;> simp [transitions, hst] at hedge
  | settled =>
    right
    rcases settle_cases db' t with ⟨hst, _, he⟩ | ⟨hst, _, he⟩ | ⟨_, _, he⟩
    · exact ⟨by rw [he], Or.inr (Or.inl hst)⟩
    · exact ⟨by rw [he], Or.inl hst⟩
    · rw [he] at hs ⊢
      rcases hs with hs | hs
      · exact ⟨rfl, Or.inl hs⟩
      · exact ⟨rfl, Or.inr (Or.inl hs)⟩
  | released => rcases hs with hs | hs <;> cases hs
  | promoted => exact Or.inl rfl

theorem step_pooled_free {db : Db} {op : Op} (hp : ReadyClaimable db) (hi : TodoFree db)
    {k : String} {t' : Task} (ht' : (step db op).task? k = some t')
    (hs : t'.status = .todo ∨ (t'.status = .ready ∧ RequeuesFree db op)) : t'.claimLock = none := by
  rcases step_origin ht' with ⟨clock, hex, args, u, rfl, rfl, rfl, _⟩ | ⟨t, hk, hrow⟩
  · rfl
  · have hid := Db.task_id hk
    rcases hrow.pooled_lock (hs.symm.imp And.left id) with
      hf | ⟨he, hst | hst | ⟨hst, hready, clock, args, rfl⟩⟩
    · exact hf
    · exact he.trans (hp k t hk hst).free
    · exact he.trans (hi k t hk hst)
    · rcases hs with htodo | ⟨_, hc⟩
      · rw [hready] at htodo
        cases htodo
      · exact he.trans (hc rfl t (hid.symm ▸ hk) hst)

theorem requeues_free {db : Db} {op : Op} (hp : ReadyClaimable (step db op)) : RequeuesFree db op := by
  unfold RequeuesFree
  split
  · rename_i clock k s args
    intro hs t ht hst
    subst hs
    have ha := accepted_requeue clock.now args.claimLock hst
    obtain ⟨_, _, hrow⟩ := step_moved ht ha
    exact (hp k _ hrow rfl).free
  · trivial

/-- Every ready task of a run is claimable at all times exactly when no blocked task is
put back with the lock it was claimed under. -/
theorem ready_claimable_iff_requeues_free (ops : List Op) :
    Always step ReadyClaimable Db.empty ops ↔ EachStep step RequeuesFree Db.empty ops := by
  apply always_iff_guarded (I := TodoFree)
  · intro db op hi hp k t ht hs
    exact step_pooled_free hp hi ht (Or.inl hs)
  · intro db op hi hp
    refine ⟨requeues_free, fun hc k t ht hs => ?_⟩
    exact claimable_of_free ht hs (step_pooled_free hp hi ht (Or.inr ⟨hs, hc⟩))
  · intro k t ht
    cases ht
  · intro k t ht
    cases ht

/-- A claimed task is blocked and put back into the pool. -/
def blockedAndRequeued : List Op :=
  [.createTask (.fixed 0) "a" { title := "a" },
    .claimTask (.fixed 0) "t_a" "w" 1 900,
    .updateTaskStatus (.fixed 0) "t_a" "blocked" {},
    .updateTaskStatus (.fixed 0) "t_a" "ready" {}]

/-- It is ready, but still locked by the worker that had it. -/
theorem requeued_not_claimable : ¬ Always step ReadyClaimable Db.empty blockedAndRequeued := by
  intro h
  have hlast := h.last
  have hrow : ((exec step Db.empty blockedAndRequeued).task? "t_a").map
      (fun t => (t.status, t.claimLock)) = some (.ready, some "w:1") := by decide
  obtain ⟨t, ht, he⟩ := Option.map_eq_some_iff.mp hrow
  simp only [Prod.mk.injEq] at he
  have hfree := (hlast "t_a" t ht he.1).free
  rw [he.2] at hfree
  cases hfree

end A2ARegistry.Orchestration
