import A2ARegistry.Orchestration.Proofs.Readiness

namespace A2ARegistry.Orchestration
open Base

section
variable {child : String} {specs : List ParentSpec} {links links' : Table TaskLink}

/-- The primary key of `task_links` refuses a parent that is named twice. -/
theorem insertLinks_nodup (h : insertLinks child specs links = .ok links') :
    (specs.map ParentSpec.parentId).Nodup ∧
      ∀ spec ∈ specs, links.find? (spec.parentId, child) = none := by
  induction specs generalizing links with
  | nil => exact ⟨List.nodup_nil, by simp⟩
  | cons spec specs ih =>
    unfold insertLinks at h
    split at h
    · cases h
    · rename_i mid hmid
      obtain ⟨hn, hfree⟩ := ih h
      obtain ⟨hnone, _⟩ := Table.insert_some hmid
      have hfind := Table.find_insert hmid
      refine ⟨List.nodup_cons.mpr ⟨?_, hn⟩, ?_⟩
      · intro hm
        obtain ⟨other, ho, he⟩ := List.mem_map.mp hm
        have := hfree other ho
        simp [hfind, he] at this
      · intro other ho
        rcases List.mem_cons.mp ho with rfl | ho
        · exact hnone
        · have hf := hfree other ho
          rw [hfind] at hf
          split at hf
          · cases hf
          · exact hf

theorem insertLinks_accepts (hn : (specs.map ParentSpec.parentId).Nodup)
    (hfree : ∀ l ∈ links.rows, l.childId ≠ child) :
    ∃ links', insertLinks child specs links = .ok links' := by
  suffices h : ∀ spec ∈ specs, links.find? (spec.parentId, child) = none by
    clear hfree
    induction specs generalizing links with
    | nil => exact ⟨links, rfl⟩
    | cons spec specs ih =>
      obtain ⟨hspec, hn⟩ := List.nodup_cons.mp hn
      have hkey : links.find? (key (TaskLink.mk spec.parentId child spec.condition)) = none :=
        h spec List.mem_cons_self
      obtain ⟨mid, hmid⟩ := Option.isSome_iff_exists.mp (Table.insert_isSome.mpr hkey)
      have hrest : ∀ other ∈ specs, mid.find? (other.parentId, child) = none := by
        intro other ho
        have hne : other.parentId ≠ spec.parentId := fun he => hspec (he ▸ List.mem_map_of_mem ho)
        rw [Table.find_insert hmid, if_neg (by simp [hne])]
        exact h other (List.mem_cons_of_mem _ ho)
      obtain ⟨links', hl⟩ := ih hn hrest
      refine ⟨links', ?_⟩
      unfold insertLinks
      simp only [hmid, hl]
  intro spec _
  apply Table.find_none_iff.mpr
  intro l hl he
  simp only [key_link, Prod.mk.injEq] at he
  exact hfree l hl he.2

end

theorem createTask_specs {db db' : Db} {clock : Clock} {hex : String} {args : CreateArgs} {t : Task}
    (h : createTask db clock hex args = .ok (t, db')) :
    (∀ spec ∈ args.parentSpecs, spec.parentId ≠ "") ∧
      (args.parentSpecs.map ParentSpec.parentId).Nodup := by
  unfold createTask at h
  simp only [bind, pure, Except.bind, Except.pure, throw, throwThe, MonadExceptOf.throw] at h
  split at h
  · cases h
  rename_i hempty
  split at h
  · cases h
  split at h
  · cases h
  split at h
  · cases h
  split at h
  · cases h
  rename_i links hlinks
  refine ⟨?_, (insertLinks_nodup hlinks).1⟩
  intro spec hs he
  apply hempty
  exact List.any_eq_true.mpr ⟨spec, hs, by simp [he]⟩

/-- No chain of links leaves an id that no task has. -/
theorem detectCycle_fresh {db : Db} (hi : Integrity db) {child parent : String}
    (hc : db.task? child = none) (hp : (db.task? parent).isSome) : detectCycle db child parent = false := by
  have hne : child ≠ parent := by
    intro he
    rw [← he, hc] at hp
    cases hp
  have hchildren : childIds db child = [] := by
    apply List.eq_nil_iff_forall_not_mem.mpr
    intro c hm
    obtain ⟨l, hl, he, _⟩ := mem_childIds.mp hm
    have := hi.parent l hl
    rw [he, hc] at this
    cases this
  have hdone : ∀ n visited, detectCycleLoop db parent n visited [] = false := by
    intro n visited
    cases n <;> rfl
  simp only [detectCycle, if_neg hne, detectCycleLoop, hchildren, List.not_mem_nil, if_false,
    List.reverse_nil, List.append_nil, hdone]

theorem createTask_accepts {db : Db} (hi : Integrity db) (clock : Clock) {hex : String}
    {args : CreateArgs} (hid : db.task? (freshId hex) = none)
    (hempty : ∀ spec ∈ args.parentSpecs, spec.parentId ≠ "")
    (hparents : ∀ spec ∈ args.parentSpecs, (db.task? spec.parentId).isSome)
    (hn : (args.parentSpecs.map ParentSpec.parentId).Nodup) :
    ∃ t db', createTask db clock hex args = .ok (t, db') := by
  have hany : args.parentSpecs.any (fun spec => spec.parentId == "") = false := by
    apply List.any_eq_false.mpr
    intro spec hs
    simpa using hempty spec hs
  have hfound : args.parentSpecs.find? (fun spec => (db.task? spec.parentId).isNone) = none := by
    apply List.find?_eq_none.mpr
    intro spec hs
    simp [Option.isSome_iff_ne_none.mp (hparents spec hs)]
  have hacyclic : args.parentSpecs.find? (fun spec =>
      detectCycle db (args.row clock.now hex).id spec.parentId) = none := by
    apply List.find?_eq_none.mpr
    intro spec hs
    rw [show (args.row clock.now hex).id = freshId hex from rfl,
      detectCycle_fresh hi hid (hparents spec hs)]
    simp
  have hkey : db.tasks.find? (key (args.row clock.now hex)) = none := hid
  obtain ⟨tasks, htasks⟩ := Option.isSome_iff_exists.mp (Table.insert_isSome.mpr hkey)
  have hchild : ∀ l ∈ db.links.rows, l.childId ≠ freshId hex := by
    intro l hl he
    have := hi.child l hl
    rw [he, hid] at this
    cases this
  obtain ⟨links, hlinks⟩ := insertLinks_accepts hn hchild
  have hlinks' : insertLinks (args.row clock.now hex).id args.parentSpecs db.links = .ok links := hlinks
  cases h : createTask db clock hex args with
  | ok r => exact ⟨r.1, r.2, rfl⟩
  | error e =>
    unfold createTask at h
    simp only [hany, hfound, hacyclic, htasks, hlinks', bind, pure, Except.bind, Except.pure,
      Bool.false_eq_true, if_false] at h
    cases h

/-- No task with a parent waits in `todo` while all of its links are satisfied. -/
def NoneStuck (db : Db) : Prop :=
  ∀ k t, db.task? k = some t → t.status = .todo → (∃ l ∈ db.links.rows, l.childId = k) →
    ¬ ParentsSatisfied db k

/-- `create_task` would be accepted with parents that are all done already. -/
structure BornStuck (db : Db) (hex : String) (args : CreateArgs) : Prop where
  parents : args.parentSpecs ≠ []
  named : ∀ spec ∈ args.parentSpecs, spec.parentId ≠ ""
  distinct : (args.parentSpecs.map ParentSpec.parentId).Nodup
  fresh : db.task? (freshId hex) = none
  done : ∀ spec ∈ args.parentSpecs, ∃ p, db.task? spec.parentId = some p ∧ p.Satisfies spec.condition

/-- A waiting child of `p` has only links that are satisfied or would be if `p` were archived. -/
def LastOpenParent (db : Db) (p : Task) : Prop :=
  ∃ c t, db.task? c = some t ∧ t.status = .todo ∧
    (∃ l ∈ db.links.rows, l.parentId = p.id ∧ l.childId = c) ∧
    ∀ l ∈ db.links.rows, l.childId = c → LinkSatisfied db l ∨
      (l.parentId = p.id ∧ ∀ r, l.condition = some r → r ≠ "" → p.result = some r)

/-- The call does not leave a task behind links that nothing will look at again. -/
def StrandsNone (db : Db) : Op → Prop
  | .createTask _ hex args => ¬ BornStuck db hex args
  | .updateTaskStatus _ k s _ => ∀ t, db.task? k = some t →
    (s = TaskStatus.archived.value → t.status = .failed ∨ t.status = .cancelled →
      ¬ LastOpenParent db t) ∧
    (s = TaskStatus.todo.value → t.status = .ready → (∃ l ∈ db.links.rows, l.childId = k) →
      ¬ ParentsSatisfied db k)
  | _ => True

theorem created_none_stuck {db db' : Db} {clock : Clock} {hex : String} {args : CreateArgs} {t : Task}
    (hi : Integrity db) (ok : createTask db clock hex args = .ok (t, db'))
    (hc : ¬ BornStuck db hex args) (hl : ∃ l ∈ db'.links.rows, l.childId = freshId hex) :
    ¬ ParentsSatisfied db' (freshId hex) := by
  intro hs
  obtain ⟨rfl, hfresh, htask, _, hparents, hlinks⟩ := createTask_ok ok
  obtain ⟨hnamed, hdistinct⟩ := createTask_specs ok
  apply hc
  refine ⟨?_, hnamed, hdistinct, hfresh, ?_⟩
  · intro he
    obtain ⟨l, hl, hk⟩ := hl
    rcases (hlinks l).mp hl with hm | ⟨spec, hspec, _⟩
    · have := hi.child l hm
      rw [hk, hfresh] at this
      cases this
    · rw [he] at hspec
      cases hspec
  · intro spec hspec
    obtain ⟨p, hp, hsat⟩ := hs ⟨spec.parentId, freshId hex, spec.condition⟩
      ((hlinks _).mpr (Or.inr ⟨spec, hspec, rfl⟩)) rfl
    have hne : spec.parentId ≠ freshId hex := by
      intro he
      have := hparents spec hspec
      rw [he, hfresh] at this
      cases this
    dsimp only at hp
    rw [htask, if_neg hne] at hp
    exact ⟨p, hp, hsat⟩

/-- A link that a call satisfies has a parent that the call completes or archives. -/
theorem newly_satisfied {db : Db} {op : Op} (hi : Integrity db) {l : TaskLink}
    (hl : l ∈ db.links.rows) (hn : ¬ LinkSatisfied db l) (hs : LinkSatisfied (step db op) l) :
    ∃ p clock new args retryAt, db.task? l.parentId = some p ∧
      op = .updateTaskStatus clock p.id new.value args ∧
      Accepted p clock.now new args.claimLock retryAt ∧ (new = .completed ∨ new = .archived) := by
  obtain ⟨p, hp⟩ := Option.isSome_iff_exists.mp (hi.parent l hl)
  obtain ⟨p', hp', hsat⟩ := hs
  have hrow := step_moves hp hp'
  rcases hrow.becomes_done hsat with hs | ⟨clock, new, args, retryAt, he, ha, hn⟩
  · exact absurd ⟨p, hp, hs⟩ hn
  · exact ⟨p, clock, new, args, retryAt, hp, he, ha, hn⟩

/-- Completing a task settles its children. -/
theorem completed_settles {db : Db} {clock : Clock} {args : StatusArgs} {p t : Task}
    {retryAt : Option Int} {k : String} (hp : db.task? p.id = some p)
    (ha : Accepted p clock.now .completed args.claimLock retryAt) (ht : db.task? k = some t)
    (hk : k ≠ p.id) (hc : ∃ l ∈ db.links.rows, l.parentId = p.id ∧ l.childId = k) :
    (step db (.updateTaskStatus clock p.id TaskStatus.completed.value args)).task? k =
      some (settle (step db (.updateTaskStatus clock p.id TaskStatus.completed.value args)) t) := by
  obtain ⟨kind, hw, _⟩ := step_moved hp ha
  rw [hw, writeStatus_task db clock p .completed args retryAt kind hp k, if_neg hk, ht]
  simp [mem_childIds.mpr hc]

/-- A task that its parent's archiving releases had no other open link. -/
theorem archived_last_open {db : Db} {clock : Clock} {args : StatusArgs} {p t : Task}
    {retryAt : Option Int} {k : String} {l₀ : TaskLink} (hi : Integrity db)
    (hp : db.task? p.id = some p) (ha : Accepted p clock.now .archived args.claimLock retryAt)
    (ht : db.task? k = some t) (htodo : t.status = .todo) (hl : l₀ ∈ db.links.rows)
    (hk : l₀.childId = k) (hpar : l₀.parentId = p.id) (hn : ¬ LinkSatisfied db l₀)
    (hs : ∀ l ∈ db.links.rows, l.childId = k → LinkSatisfied
      (step db (.updateTaskStatus clock p.id TaskStatus.archived.value args)) l) :
    (p.status = .failed ∨ p.status = .cancelled) ∧ LastOpenParent db p := by
  obtain ⟨_, _, hrow⟩ := step_moved hp ha
  have hresult : ∀ l ∈ db.links.rows, l.childId = k → l.parentId = p.id →
      ∀ r, l.condition = some r → r ≠ "" → p.result = some r := by
    intro l hm hc he
    obtain ⟨p', hp', _, hr⟩ := hs l hm hc
    rw [he, hrow] at hp'
    cases hp'
    simpa [Task.move] using hr
  refine ⟨?_, k, t, ht, htodo, ⟨l₀, hl, hpar, hk⟩, ?_⟩
  · have hedge := ha.edge
    cases hst : p.status with
    | failed => exact Or.inl rfl
    | cancelled => exact Or.inr rfl
    | completed => exact absurd ⟨p, hpar ▸ hp, Or.inl hst, hresult l₀ hl hk hpar⟩ hn
    | _ => simp [transitions, hst] at hedge
  · intro l hm hc
    by_cases hold : LinkSatisfied db l
    · exact Or.inl hold
    · obtain ⟨q, _, _, _, _, hq, he, _⟩ := newly_satisfied hi hm hold (hs l hm hc)
      have hid : l.parentId = p.id := by
        injection he with _ hpq
        rw [hpq, Db.task_id hq]
      exact Or.inr ⟨hid, hresult l hm hc hid⟩

/-- A waiting task whose last open link is satisfied by a call is settled by the call. -/
theorem released_settles {db : Db} {op : Op} {k : String} {t : Task} (hi : Integrity db)
    (hp : NoneStuck db) (hc : StrandsNone db op) (ht : db.task? k = some t) (htodo : t.status = .todo)
    (hlink : ∃ l ∈ db.links.rows, l.childId = k)
    (hsat : ∀ l ∈ db.links.rows, l.childId = k → LinkSatisfied (step db op) l) :
    (step db op).task? k = some (settle (step db op) t) := by
  have hopen : ∃ l₀ ∈ db.links.rows, l₀.childId = k ∧ ¬ LinkSatisfied db l₀ := by
    have := hp k t ht htodo hlink
    simpa only [ParentsSatisfied, not_forall, exists_prop] using this
  obtain ⟨l₀, hm, hk, hn⟩ := hopen
  obtain ⟨p, clock, new, args, retryAt, hpar, rfl, ha, hnew⟩ := newly_satisfied hi hm hn (hsat l₀ hm hk)
  have hid := Db.task_id hpar
  have hpar' : db.task? p.id = some p := hid.symm ▸ hpar
  rcases hnew with rfl | rfl
  · have hne : k ≠ p.id := by
      intro he
      rw [he, hpar'] at ht
      cases ht
      have hedge := ha.edge
      simp [htodo, transitions] at hedge
    exact completed_settles hpar' ha ht hne ⟨l₀, hm, hid.symm, hk⟩
  · obtain ⟨hst, hlast⟩ := archived_last_open hi hpar' ha ht htodo hm hk hid.symm hn hsat
    exact absurd hlast ((hc p hpar').1 rfl hst)

theorem step_none_stuck {db : Db} {op : Op} (hi : Integrity db) (hp : NoneStuck db)
    (hc : StrandsNone db op) : NoneStuck (step db op) := by
  intro k t' ht' htodo hlink hsat
  have hi' := step_integrity db op hi
  have hsettled : ∀ t, db.task? k = some t → t' = settle (step db op) t → False := by
    intro t ht he
    subst he
    have hd := settle_todo htodo
    rw [Db.task_id ht, Bool.eq_false_iff] at hd
    exact hd ((parentsDone_iff_satisfied hi').mpr hsat)
  rcases step_origin ht' with ⟨clock, hex, args, u, rfl, rfl, rfl, ok⟩ | ⟨t, hb, hrow⟩
  · exact created_none_stuck hi ok hc hlink hsat
  · rcases step_links_into op hb with hl | hs
    · have hlink' : ∃ l ∈ db.links.rows, l.childId = k := by
        obtain ⟨l, hm, hk⟩ := hlink
        exact ⟨l, (hl l hk).mp hm, hk⟩
      have hsat' : ∀ l ∈ db.links.rows, l.childId = k → LinkSatisfied (step db op) l :=
        fun l hm hk => hsat l ((hl l hk).mpr hm) hk
      have hwaits : t.status ≠ .todo := by
        intro hold
        have hset := released_settles hi hp hc hb hold hlink' hsat'
        rw [ht'] at hset
        exact hsettled t hb (Option.some.inj hset)
      have hid := Db.task_id hb
      generalize hdb : step db op = db' at hrow hsettled
      cases hrow with
      | same | edited | placed | manned | beat => exact hwaits htodo
      | claimed => cases htodo
      | @moved clock _ new args retryAt accepted =>
        have hnew : new = .todo := htodo
        subst hnew
        subst hid
        have hst : t.status = .ready := by
          have hedge := accepted.edge
          cases hst : t.status with
          | ready => rfl
          | _ => simp [transitions, hst] at hedge
        apply (hc t hb).2 rfl hst hlink'
        apply ParentsSatisfied.unstep hi hsat hl
        intro clock' j s args' he
        cases he
        exact ⟨by decide, by decide⟩
      | settled => exact hsettled t hb rfl
      | released => cases htodo
      | promoted => cases htodo
    · rw [hs] at ht'
      cases ht'
      exact hsettled t hb rfl

theorem born_stuck {db : Db} (hi : Integrity db) {clock : Clock} {hex : String} {args : CreateArgs}
    (hb : BornStuck db hex args) : ¬ NoneStuck (step db (.createTask clock hex args)) := by
  intro hp
  have hparents : ∀ spec ∈ args.parentSpecs, (db.task? spec.parentId).isSome := by
    intro spec hs
    obtain ⟨p, hpar, _⟩ := hb.done spec hs
    rw [hpar]
    rfl
  obtain ⟨t, db', ok⟩ := createTask_accepts hi clock hb.fresh hb.named hparents hb.distinct
  rw [step_createTask ok] at hp
  obtain ⟨rfl, _, htask, _, _, hlinks⟩ := createTask_ok ok
  obtain ⟨spec₀, hspec₀⟩ := List.exists_mem_of_ne_nil _ hb.parents
  have htodo : (args.row clock.now hex).status = .todo := by
    have hne : args.parents.isEmpty = false := by
      apply Bool.eq_false_iff.mpr
      intro he
      apply hb.parents
      rw [CreateArgs.parentSpecs, List.isEmpty_iff.mp he]
      rfl
    simp [CreateArgs.row, hne]
  apply hp (freshId hex) _ (by rw [htask, if_pos rfl]) htodo
  · exact ⟨_, (hlinks _).mpr (Or.inr ⟨spec₀, hspec₀, rfl⟩), rfl⟩
  · intro l hl hk
    rcases (hlinks l).mp hl with hm | ⟨spec, hspec, rfl⟩
    · have := hi.child l hm
      rw [hk, hb.fresh] at this
      cases this
    · obtain ⟨p, hpar, hsat⟩ := hb.done spec hspec
      refine ⟨p, ?_, hsat⟩
      rw [htask, if_neg, hpar]
      intro he
      dsimp only at he
      rw [he, hb.fresh] at hpar
      cases hpar

theorem archived_stuck {db : Db} {clock : Clock} {args : StatusArgs} {p : Task}
    (hp : db.task? p.id = some p) (hst : p.status = .failed ∨ p.status = .cancelled)
    (hlast : LastOpenParent db p) :
    ¬ NoneStuck (step db (.updateTaskStatus clock p.id TaskStatus.archived.value args)) := by
  intro hn
  obtain ⟨c, t, ht, htodo, ⟨l₀, hl₀, _, hc₀⟩, hall⟩ := hlast
  have ha : Accepted p clock.now .archived args.claimLock none := by
    rcases hst with hst | hst
    · exact accepted_of_edge (by simp [hst, transitions]) (by simp [hst]) (by simp) (by simp)
    · exact accepted_of_edge (by simp [hst, transitions]) (by simp [hst]) (by simp) (by simp)
  obtain ⟨kind, hw, hrow⟩ := step_moved hp ha
  have hne : c ≠ p.id := by
    intro he
    rw [he, hp] at ht
    cases ht
    rcases hst with hst | hst <;> rw [hst] at htodo <;> cases htodo
  have hchild : (step db (.updateTaskStatus clock p.id TaskStatus.archived.value args)).task? c =
      some t := by
    rw [hw, writeStatus_task db clock p .archived args none kind hp c, if_neg hne, ht]
    simp
  have hlinks : (step db (.updateTaskStatus clock p.id TaskStatus.archived.value args)).links =
      db.links := by
    rw [hw, writeStatus_links]
  apply hn c t hchild htodo
  · exact ⟨l₀, hlinks.symm ▸ hl₀, hc₀⟩
  · intro l hl hc
    rw [hlinks] at hl
    rcases hall l hl hc with ⟨q, hq, hsat⟩ | ⟨hpar, hr⟩
    · obtain ⟨q', hq', hstep⟩ := step_row _ hq
      exact ⟨q', hq', hstep.stays_done hsat⟩
    · refine ⟨p.move clock.now .archived args.result none, by rw [hpar, hrow], Or.inr rfl, ?_⟩
      simpa [Task.move] using hr

theorem demoted_stuck {db : Db} {clock : Clock} {k : String} {args : StatusArgs} {t : Task}
    (ht : db.task? k = some t) (hst : t.status = .ready) (hlink : ∃ l ∈ db.links.rows, l.childId = k)
    (hsat : ParentsSatisfied db k) :
    ¬ NoneStuck (step db (.updateTaskStatus clock k TaskStatus.todo.value args)) := by
  intro hn
  have ha : Accepted t clock.now .todo args.claimLock none :=
    accepted_of_edge (by simp [hst, transitions]) (by simp [hst]) (by simp) (by simp)
  obtain ⟨kind, hw, hrow⟩ := step_moved ht ha
  have hlinks : (step db (.updateTaskStatus clock k TaskStatus.todo.value args)).links = db.links := by
    rw [hw, writeStatus_links]
  apply hn k _ hrow rfl
  · rw [hlinks]
    exact hlink
  · exact hsat.step fun l _ => by rw [hlinks]

theorem strands_none_of_none_stuck {db : Db} {op : Op} (hi : Integrity db)
    (hp : NoneStuck (step db op)) : StrandsNone db op := by
  unfold StrandsNone
  split
  · exact fun hb => born_stuck hi hb hp
  · rename_i clock k s args
    intro t ht
    have hid := Db.task_id ht
    subst hid
    constructor
    · rintro rfl hst hlast
      exact archived_stuck ht hst hlast hp
    · rintro rfl hst hlink hsat
      exact demoted_stuck ht hst hlink hsat hp
  · trivial

/-- A run leaves no task stuck exactly when none of its steps strands one. -/
theorem none_stuck_iff_strands_none (ops : List Op) :
    Always step NoneStuck Db.empty ops ↔ EachStep step StrandsNone Db.empty ops := by
  apply always_iff_guarded (I := Integrity) _ _ empty_integrity
  · intro k t ht
    cases ht
  · exact fun db op hi _ => step_integrity db op hi
  · intro db op hi hp
    exact ⟨strands_none_of_none_stuck hi, step_none_stuck hi hp⟩

/-- A task is created under a parent that has completed. -/
def childOfCompleted : List Op :=
  [.createTask (.fixed 0) "a" { title := "a" },
    .claimTask (.fixed 0) "t_a" "w" 1 900,
    .updateTaskStatus (.fixed 0) "t_a" "completed" {},
    .createTask (.fixed 0) "b" { title := "b", parents := [.plain "t_a"] }]

/-- The child waits for a completion that lies in the past. -/
theorem child_of_completed_stuck : ¬ Always step NoneStuck Db.empty childOfCompleted := by
  intro h
  have hlast := h.last
  have hstatus : ((exec step Db.empty childOfCompleted).task? "t_b").map Task.status = some .todo := by
    decide
  have hparent : ((exec step Db.empty childOfCompleted).task? "t_a").map Task.status =
      some .completed := by decide
  have hlinks : (exec step Db.empty childOfCompleted).links.rows = [⟨"t_a", "t_b", none⟩] := by decide
  obtain ⟨t, ht, hs⟩ := Option.map_eq_some_iff.mp hstatus
  obtain ⟨p, hp, hdone⟩ := Option.map_eq_some_iff.mp hparent
  apply hlast "t_b" t ht hs
  · rw [hlinks]
    exact ⟨_, List.mem_cons_self, rfl⟩
  · intro l hl _
    rw [hlinks, List.mem_singleton] at hl
    subst hl
    exact ⟨p, hp, Or.inl hdone, by simp⟩

end A2ARegistry.Orchestration
