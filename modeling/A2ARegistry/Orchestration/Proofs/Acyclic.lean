import A2ARegistry.Base.Graph
import A2ARegistry.Orchestration.Proofs.History

namespace A2ARegistry.Orchestration
open Base

/-- `p` is a parent of `c`. -/
def Linked (db : Db) (p c : String) : Prop := ∃ l ∈ db.links.rows, l.parentId = p ∧ l.childId = c

/-- `c` can be reached from `a` along links, from parents to children. -/
def ReachesTask (db : Db) (a c : String) : Prop := Graph.Reaches (Linked db) a c

def linkEdges (db : Db) : List (String × String) :=
  db.links.rows.map (fun l => (l.parentId, l.childId))

theorem edge_iff {db : Db} {p c : String} : Graph.Edge (linkEdges db) p c ↔ Linked db p c := by
  simp only [Graph.Edge, linkEdges, Linked, List.mem_map, Prod.mk.injEq]

theorem childIds_succs (db : Db) (p : String) : childIds db p = Graph.succs (linkEdges db) p := by
  simp only [childIds, Graph.succs, linkEdges, Table.select, List.filter_map, List.map_map]
  rfl

theorem detectCycleLoop_search (db : Db) (p : String) (n : Nat) (visited stack : List String) :
    detectCycleLoop db p n visited stack = Graph.search (linkEdges db) p n visited stack := by
  induction n generalizing visited stack with
  | zero => rfl
  | succ n ih =>
    cases stack with
    | nil => rfl
    | cons v stack =>
      rw [detectCycleLoop, Graph.search, ih, ih, childIds_succs]

/-- `_detect_cycle` decides whether the child already reaches its proposed parent. -/
theorem detectCycle_iff {db : Db} {c p : String} : detectCycle db c p = true ↔ ReachesTask db c p := by
  have hsearch : detectCycleLoop db p (db.links.rows.length + 1) [] [c] = true ↔ ReachesTask db c p := by
    have hlen : db.links.rows.length = (linkEdges db).length := by
      rw [linkEdges, List.length_map]
    have hrel : Graph.Edge (linkEdges db) = Linked db := by
      funext a b
      exact propext edge_iff
    rw [detectCycleLoop_search, hlen, Graph.search_iff, hrel, ReachesTask]
  unfold detectCycle
  split
  · rename_i he
    exact ⟨fun _ => he ▸ .refl, fun _ => rfl⟩
  · exact hsearch

/-- Of two existing tasks, `add_dependency` refuses exactly those that would close a cycle. -/
theorem addDependency_rejects {db : Db} (clock : Clock) {c p : String} (condition : Option String)
    (hc : (db.task? c).isSome) (hp : (db.task? p).isSome) :
    (∃ e, addDependency db clock c p condition = .error e) ↔ c = p ∨ ReachesTask db c p := by
  have hc' : (db.task? c).isNone = false := Option.isNone_eq_false_iff.mpr hc
  have hp' : (db.task? p).isNone = false := Option.isNone_eq_false_iff.mpr hp
  unfold addDependency
  simp only [hc', hp', bind, pure, Except.bind, Except.pure, throw, throwThe, MonadExceptOf.throw]
  by_cases he : c = p
  · simp [he]
  by_cases hr : ReachesTask db c p
  · have hd := detectCycle_iff.mpr hr
    simp [he, hr, hd]
  · have hd : detectCycle db c p = false := Bool.eq_false_iff.mpr fun h => hr (detectCycle_iff.mp h)
    simp only [he, hr, hd, or_self, iff_false]
    rintro ⟨e, h⟩
    simp only [Bool.false_eq_true, if_false] at h
    split at h
    · cases h
    rename_i hex
    split at h
    · rename_i hnone
      have hfree : db.links.find? (p, c) = none := by
        simpa [linkExists, Option.isSome_iff_ne_none] using hex
      have hins := (Table.insert_isSome (r := (⟨p, c, condition⟩ : TaskLink))).mpr hfree
      rw [hnone] at hins
      cases hins
    · cases h

/-- Links from a task lead out of an existing one, so none leads out of a fresh task. -/
theorem fresh_sink {db : Db} {k : String} (hi : Integrity db) (hk : db.task? k = none) (c : String) :
    ¬ Linked db k c := by
  rintro ⟨l, hl, rfl, _⟩
  have := hi.parent l hl
  rw [hk] at this
  cases this

theorem step_acyclic {db : Db} {op : Op} (hi : Integrity db) (h : Graph.Acyclic (Linked db)) :
    Graph.Acyclic (Linked (step db op)) := by
  cases hop : raised db op with
  | some e => rw [step_raised hop]; exact h
  | none =>
  have hstep := step_links db op
  generalize hs : step db op = db' at hstep ⊢
  cases hstep with
  | same links =>
    apply h.mono
    rintro a b ⟨l, hl, ha, hb⟩
    exact ⟨l, links ▸ hl, ha, hb⟩
  | @created clock hex args t _ ok =>
    obtain ⟨_, hfresh, _, _, hparents, hlinks⟩ := createTask_ok ok
    apply h.sink (c := freshId hex)
    · rintro a b ⟨l, hl, ha, hb⟩
      rcases (hlinks l).mp hl with hl | ⟨spec, _, rfl⟩
      · exact Or.inl ⟨l, hl, ha, hb⟩
      · exact Or.inr hb.symm
    · rintro b ⟨l, hl, ha, hb⟩
      rcases (hlinks l).mp hl with hl | ⟨spec, hspec, rfl⟩
      · exact fresh_sink hi hfresh b ⟨l, hl, ha, hb⟩
      · have := hparents spec hspec
        rw [show spec.parentId = freshId hex from ha, hfresh] at this
        cases this
  | @linked k p condition clock links task parent rows =>
    have hok : ¬ ReachesTask db k p := by
      intro hr
      obtain ⟨e, he⟩ := (addDependency_rejects clock condition task parent).mpr (Or.inr hr)
      simp [raised, he, Db.tx, errorOf] at hop
    apply h.insert (p := p) (c := k) _ hok
    rintro a b ⟨l, hl, ha, hb⟩
    rw [resolve_links] at hl
    rcases (rows l).mp hl with rfl | ⟨hl, _⟩
    · exact Or.inr ⟨ha.symm, hb.symm⟩
    · exact Or.inl ⟨l, hl, ha, hb⟩
  | unlinked rows =>
    apply h.mono
    rintro a b ⟨l, hl, ha, hb⟩
    rw [resolve_links] at hl
    exact ⟨l, ((rows l).mp hl).1, ha, hb⟩

theorem reachable_acyclic (ops : List Op) : Graph.Acyclic (Linked (exec step Db.empty ops)) := by
  have hempty : Graph.Acyclic (Linked Db.empty) := by
    intro v hv
    obtain ⟨b, ⟨l, hl, _⟩, _⟩ := Relation.TransGen.head'_iff.mp hv
    cases hl
  exact (exec_invariant (I := fun db => Integrity db ∧ Graph.Acyclic (Linked db))
    (fun db op h => ⟨step_integrity db op h.1, step_acyclic h.1 h.2⟩)
    ⟨empty_integrity, hempty⟩ ops).2

/-- In every reachable state the links are acyclic and join existing tasks, a dependency
between existing tasks is refused exactly when it would close a cycle, and a call that
raises changes nothing. -/
theorem dependencies_acyclic (ops : List Op) :
    Graph.Acyclic (Linked (exec step Db.empty ops)) ∧
    (∀ l ∈ (exec step Db.empty ops).links.rows, ((exec step Db.empty ops).task? l.parentId).isSome ∧
      ((exec step Db.empty ops).task? l.childId).isSome) ∧
    (∀ clock c p condition, ((exec step Db.empty ops).task? c).isSome →
      ((exec step Db.empty ops).task? p).isSome →
      ((raised (exec step Db.empty ops) (.addDependency clock c p condition)).isSome ↔
        c = p ∨ ReachesTask (exec step Db.empty ops) c p)) ∧
    (∀ op, (raised (exec step Db.empty ops) op).isSome →
      step (exec step Db.empty ops) op = exec step Db.empty ops) := by
  have hi := reachable_integrity ops
  refine ⟨reachable_acyclic ops, fun l hl => ⟨hi.parent l hl, hi.child l hl⟩, ?_, ?_⟩
  · intro clock c p condition hc hp
    rw [← addDependency_rejects clock condition hc hp]
    simp only [raised]
    cases addDependency (exec step Db.empty ops) clock c p condition with
    | ok r => simp [Db.tx, errorOf]
    | error e => simp [Db.tx, errorOf]
  · intro op h
    obtain ⟨e, he⟩ := Option.isSome_iff_exists.mp h
    exact step_raised he

/-- `a → b → c`, and the refused link back. -/
example : ((raised (exec step Db.empty
    [.createTask (.fixed 0) "a" { title := "a" },
      .createTask (.fixed 0) "b" { title := "b", parents := [.plain "t_a"] },
      .createTask (.fixed 0) "c" { title := "c", parents := [.plain "t_b"] }])
    (.addDependency (.fixed 0) "t_a" "t_c" none)).isSome) = true := by decide

end A2ARegistry.Orchestration
