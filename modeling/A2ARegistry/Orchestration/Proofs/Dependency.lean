import A2ARegistry.Orchestration.Dependency
import A2ARegistry.Orchestration.Proofs.Acyclic

namespace A2ARegistry.Orchestration
open Base

section Cycles

theorem detectCycleLoopWithin_walk (db : Db) (p : String) (n : Nat) (visited stack : List String) :
    detectCycleLoopWithin db p n visited stack = Graph.walk (Graph.succs (linkEdges db)) p n visited stack := by
  induction n generalizing visited stack with
  | zero => rfl
  | succ n ih =>
    cases stack with
    | nil => rfl
    | cons v stack => rw [detectCycleLoopWithin, Graph.walk, ih, ih, childIds_succs]

namespace Dependency

/-- The links from children to parents. -/
def parentEdges (db : Db) : List (String × String) := db.links.rows.map (fun l => (l.childId, l.parentId))

theorem parentEdge_iff {db : Db} {c p : String} : Graph.Edge (parentEdges db) c p ↔ Linked db p c := by
  simp only [Graph.Edge, parentEdges, Linked, List.mem_map, Prod.mk.injEq, and_comm]

theorem parentIds_succs (db : Db) (c : String) : parentIds db c = Graph.succs (parentEdges db) c := by
  simp only [parentIds, Graph.succs, parentEdges, Table.select, List.filter_map, List.map_map]
  rfl

theorem detectCycleLoop_walk (db : Db) (c : String) (n : Nat) (visited stack : List String) :
    detectCycleLoop db c n visited stack = Graph.walk (Graph.succs (parentEdges db)) c n visited stack := by
  induction n generalizing visited stack with
  | zero => rfl
  | succ n ih =>
    cases stack with
    | nil => rfl
    | cons v stack => rw [detectCycleLoop, Graph.walk, ih, ih, parentIds_succs]

/-- A path along the parents of tasks is one along their children, walked backwards. -/
theorem reaches_parents {db : Db} {c p : String} :
    Graph.Reaches (Graph.Edge (parentEdges db)) p c ↔ ReachesTask db c p := by
  have hrel : Graph.Edge (parentEdges db) = Function.swap (Linked db) := by
    funext a b
    exact propext parentEdge_iff
  rw [Graph.Reaches, hrel, Relation.reflTransGen_swap, ReachesTask, Graph.Reaches]

end Dependency

theorem reaches_links {db : Db} {c p : String} :
    Graph.Reaches (Graph.Edge (linkEdges db)) c p ↔ ReachesTask db c p := by
  have hrel : Graph.Edge (linkEdges db) = Linked db := by
    funext a b
    exact propext edge_iff
  rw [hrel, ReachesTask]

/-- The walk of the store ends, whatever the links are, and answers whether the child reaches the parent. -/
theorem detectCycleWithin_decides (db : Db) (c p : String) :
    ∃ answer, (answer = true ↔ ReachesTask db c p) ∧
      ∀ n, db.links.rows.length + 2 ≤ n → detectCycleWithin db n c p = some answer := by
  obtain ⟨answer, hanswer, hends⟩ := Graph.walk_unless_decides (linkEdges db) p c (c = p) id
  rw [linkEdges, List.length_map] at hends
  refine ⟨answer, hanswer.trans reaches_links, fun n hn => ?_⟩
  rw [detectCycleWithin, detectCycleLoopWithin_walk]
  exact hends n hn

/-- So does the walk of `dependency.py`, up from the parent. -/
theorem Dependency.detectCycle_decides (db : Db) (c p : String) :
    ∃ answer, (answer = true ↔ ReachesTask db c p) ∧
      ∀ n, db.links.rows.length + 2 ≤ n → Dependency.detectCycle db n c p = some answer := by
  obtain ⟨answer, hanswer, hends⟩ := Graph.walk_unless_decides (parentEdges db) c p (c = p) Eq.symm
  rw [parentEdges, List.length_map] at hends
  refine ⟨answer, hanswer.trans reaches_parents, fun n hn => ?_⟩
  rw [detectCycle, detectCycleLoop_walk]
  exact hends n hn

/-- The store's walk, counted or not, is one. -/
theorem detectCycleWithin_eq (db : Db) (c p : String) {n : Nat} (hn : db.links.rows.length + 2 ≤ n) :
    detectCycleWithin db n c p = some (detectCycle db c p) := by
  obtain ⟨answer, hanswer, hends⟩ := detectCycleWithin_decides db c p
  rw [hends n hn, Bool.eq_iff_iff.mpr (hanswer.trans detectCycle_iff.symm)]

/-- Both cycle checks end on every set of links and give one answer: whether a link from the parent to the child
would close a cycle. -/
theorem cycle_checks_agree (db : Db) (childId parentId : String) : ∃ answer,
    (∀ n, db.links.rows.length + 2 ≤ n → detectCycleWithin db n childId parentId = some answer ∧
      Dependency.detectCycle db n childId parentId = some answer) ∧
    (answer = true ↔ childId = parentId ∨ Relation.TransGen (Linked db) childId parentId) ∧
    (answer = true ↔ Graph.Closes (Linked db) parentId childId) := by
  obtain ⟨down, hdown, hdownEnds⟩ := detectCycleWithin_decides db childId parentId
  obtain ⟨up, hup, hupEnds⟩ := Dependency.detectCycle_decides db childId parentId
  have hsame : up = down := Bool.eq_iff_iff.mpr (hup.trans hdown.symm)
  refine ⟨down, fun n hn => ⟨hdownEnds n hn, ?_⟩, ?_, ?_⟩
  · rw [hupEnds n hn, hsame]
  · rw [hdown, ReachesTask, Graph.Reaches, Relation.reflTransGen_iff_eq_or_transGen, eq_comm]
  · rw [hdown, Graph.closes_iff, ReachesTask]

end Cycles

section Validation

variable {db : Db} {taskId : String} {parentIds : List String}

/-- The links there would be if the task had these parents besides. -/
def LinkedWith (db : Db) (parentIds : List String) (taskId : String) (p c : String) : Prop :=
  Linked db p c ∨ p ∈ parentIds ∧ c = taskId

/-- A parent that exists and does not come to depend on itself. -/
def Admissible (db : Db) (taskId p : String) : Prop := (db.task? p).isSome ∧ ¬ ReachesTask db taskId p

/-- What is wrong with a parent that may not be added. -/
inductive Complaint (db : Db) (taskId p : String) : String → Prop
  | missing (task : db.task? p = none) : Complaint db taskId p s!"Parent task '{p}' not found"
  | itself (task : (db.task? p).isSome) (same : p = taskId) : Complaint db taskId p "Self-links are not allowed"
  | cycle (task : (db.task? p).isSome) (other : p ≠ taskId) (reaches : ReachesTask db taskId p) :
      Complaint db taskId p s!"Cannot add parent '{p}' — would create a cycle"

/-- The first parent that may not be added, and the text about it. -/
def Objection (db : Db) (taskId : String) (parentIds : List String) (message : String) : Prop :=
  ∃ pre p post, parentIds = pre ++ p :: post ∧ (∀ q ∈ pre, Admissible db taskId q) ∧ Complaint db taskId p message

/-- One step of the loop: the next parent is admissible, or there is one text about it. -/
theorem validateParents_step (db : Db) (taskId p : String) :
    (Admissible db taskId p ∧ ∀ n, db.links.rows.length + 2 ≤ n → ∀ pids,
      Dependency.validateParents db n taskId (p :: pids) = Dependency.validateParents db n taskId pids) ∨
    (¬ Admissible db taskId p ∧ ∃ message, Complaint db taskId p message ∧ ∀ n, db.links.rows.length + 2 ≤ n → ∀ pids,
      Dependency.validateParents db n taskId (p :: pids) = some (.error message)) := by
  cases htask : db.task? p with
  | none =>
    right
    refine ⟨?_, _, .missing htask, ?_⟩
    · rintro ⟨hsome, _⟩
      rw [htask] at hsome
      cases hsome
    · intro n _ pids
      simp [Dependency.validateParents, htask]
  | some t =>
    have hsome : (db.task? p).isSome := by rw [htask]; rfl
    by_cases hself : p = taskId
    · subst hself
      right
      refine ⟨fun hadm => hadm.2 .refl, _, .itself hsome rfl, ?_⟩
      intro n _ pids
      simp [Dependency.validateParents, htask]
    · obtain ⟨answer, hanswer, hends⟩ := Dependency.detectCycle_decides db taskId p
      cases answer with
      | true =>
        have hreaches := hanswer.mp rfl
        right
        refine ⟨fun hadm => hadm.2 hreaches, _, .cycle hsome hself hreaches, ?_⟩
        intro n hn pids
        simp [Dependency.validateParents, htask, hself, hends n hn]
      | false =>
        have hno : ¬ ReachesTask db taskId p := fun hr => Bool.false_ne_true (hanswer.mpr hr)
        left
        refine ⟨⟨hsome, hno⟩, ?_⟩
        intro n hn pids
        simp [Dependency.validateParents, htask, hself, hends n hn]

/-- The loop ends, and accepts where every parent is admissible. -/
theorem validateParents_decides (db : Db) (taskId : String) (parentIds : List String) :
    ((∀ p ∈ parentIds, Admissible db taskId p) ∧ ∀ n, db.links.rows.length + 2 ≤ n →
      Dependency.validateParents db n taskId parentIds = some (.ok ())) ∨
    ((¬ ∀ p ∈ parentIds, Admissible db taskId p) ∧ ∃ message, Objection db taskId parentIds message ∧
      ∀ n, db.links.rows.length + 2 ≤ n → Dependency.validateParents db n taskId parentIds = some (.error message)) := by
  induction parentIds with
  | nil => exact Or.inl ⟨fun _ hp => absurd hp List.not_mem_nil, fun _ _ => rfl⟩
  | cons p pids ih =>
    rcases validateParents_step db taskId p with ⟨hadm, hstep⟩ | ⟨hnot, message, hcomplaint, hstep⟩
    · rcases ih with ⟨hall, hok⟩ | ⟨hsome, message, ⟨pre, q, post, rfl, hpre, hcomplaint⟩, herror⟩
      · exact Or.inl ⟨List.forall_mem_cons.mpr ⟨hadm, hall⟩, fun n hn => (hstep n hn pids).trans (hok n hn)⟩
      · refine Or.inr ⟨fun hall => hsome (List.forall_mem_cons.mp hall).2, message, ?_, ?_⟩
        · exact ⟨p :: pre, q, post, rfl, List.forall_mem_cons.mpr ⟨hadm, hpre⟩, hcomplaint⟩
        · exact fun n hn => (hstep n hn _).trans (herror n hn)
    · refine Or.inr ⟨fun hall => hnot (List.forall_mem_cons.mp hall).1, message, ?_, fun n hn => hstep n hn pids⟩
      exact ⟨[], p, pids, rfl, fun _ hq => absurd hq List.not_mem_nil, hcomplaint⟩

/-- Parents are admissible one by one where all the links are without a cycle. -/
theorem admissible_iff (hacyclic : Graph.Acyclic (Linked db)) : (∀ p ∈ parentIds, Admissible db taskId p) ↔
    (∀ p ∈ parentIds, (db.task? p).isSome) ∧ Graph.Acyclic (LinkedWith db parentIds taskId) := by
  have hall : Graph.Acyclic (LinkedWith db parentIds taskId) ↔ ∀ p ∈ parentIds, ¬ ReachesTask db taskId p :=
    hacyclic.insertAll_iff
  rw [hall]
  constructor
  · intro hadm
    exact ⟨fun p hp => (hadm p hp).1, fun p hp => (hadm p hp).2⟩
  · rintro ⟨hsome, hno⟩ p hp
    exact ⟨hsome p hp, hno p hp⟩

/-- The call of `add_dependency` for a parent, with its clock and condition. -/
def addParent (taskId : String) (call : Clock × String × Option String) : Op :=
  .addDependency call.1 taskId call.2.1 call.2.2

theorem raised_addParent {call : Clock × String × Option String} (htask : (db.task? taskId).isSome)
    (hparent : (db.task? call.2.1).isSome) (hno : ¬ ReachesTask db taskId call.2.1) :
    raised db (addParent taskId call) = none := by
  have hok : ¬ ∃ e, addDependency db call.1 taskId call.2.1 call.2.2 = .error e := by
    rw [addDependency_rejects call.1 call.2.2 htask hparent]
    rintro (he | hr)
    · exact hno (he ▸ .refl)
    · exact hno hr
  rw [addParent, raised]
  cases hadd : addDependency db call.1 taskId call.2.1 call.2.2 with
  | ok r => rfl
  | error e => exact absurd ⟨e, hadd⟩ hok

theorem addParent_links {call : Clock × String × Option String} {a b : String}
    (h : Linked (step db (addParent taskId call)) a b) : Linked db a b ∨ a = call.2.1 ∧ b = taskId := by
  have hstep := step_links db (addParent taskId call)
  rw [addParent] at h hstep
  generalize step db (.addDependency call.1 taskId call.2.1 call.2.2) = db' at h hstep
  obtain ⟨l, hl, rfl, rfl⟩ := h
  cases hstep with
  | same links => exact Or.inl ⟨l, links ▸ hl, rfl, rfl⟩
  | linked task parent rows =>
    rw [resolve_links] at hl
    rcases (rows l).mp hl with rfl | ⟨hl, _⟩
    · exact Or.inr ⟨rfl, rfl⟩
    · exact Or.inl ⟨l, hl, rfl, rfl⟩

/-- Parents that may be added at once may be added one after the other: no call is refused. -/
theorem addParents_accepted (hacyclic : Graph.Acyclic (LinkedWith db parentIds taskId)) {now : Db}
    (calls : List (Clock × String × Option String)) (hcalls : ∀ call ∈ calls, call.2.1 ∈ parentIds)
    (htask : (now.task? taskId).isSome) (hparents : ∀ p ∈ parentIds, (now.task? p).isSome)
    (hlinks : ∀ a b, Linked now a b → LinkedWith db parentIds taskId a b) :
    EachStep step (fun db op => raised db op = none) now (calls.map (addParent taskId)) := by
  induction calls generalizing now with
  | nil => trivial
  | cons call calls ih =>
    obtain ⟨hcall, hcalls⟩ := List.forall_mem_cons.mp hcalls
    have hno : ¬ ReachesTask now taskId call.2.1 := by
      intro hreach
      have hall : Graph.Reaches (LinkedWith db parentIds taskId) taskId call.2.1 :=
        Relation.ReflTransGen.mono hlinks taskId call.2.1 hreach
      exact hacyclic taskId (Relation.TransGen.tail' hall (Or.inr ⟨hcall, rfl⟩))
    refine ⟨raised_addParent htask (hparents _ hcall) hno, ih hcalls (step_isSome htask)
      (fun p hp => step_isSome (hparents p hp)) ?_⟩
    intro a b hab
    rcases addParent_links hab with hold | ⟨rfl, rfl⟩
    · exact hlinks a b hold
    · exact Or.inr ⟨hcall, rfl⟩

/-- In every reachable state the validation of a task's new parents ends, and accepts them exactly where they exist and
the links stay without a cycle with all of them added; what it raises is about the first that may not be added. Of
those it accepts the store refuses none, in whatever order they are added. -/
theorem dag_validation_exact (ops : List Op) (parentIds : List String) (taskId : String) : ∃ answer,
    (∀ n, (exec step Db.empty ops).links.rows.length + 2 ≤ n →
      Dependency.validateDagIntegrity (exec step Db.empty ops) n parentIds taskId = some answer) ∧
    (answer = .ok parentIds ↔ (∀ p ∈ parentIds, ((exec step Db.empty ops).task? p).isSome) ∧
      Graph.Acyclic (LinkedWith (exec step Db.empty ops) parentIds taskId)) ∧
    (∀ message, answer = .error message → Objection (exec step Db.empty ops) taskId parentIds message) ∧
    (answer = .ok parentIds → ((exec step Db.empty ops).task? taskId).isSome →
      ∀ calls : List (Clock × String × Option String), (∀ call ∈ calls, call.2.1 ∈ parentIds) →
      EachStep step (fun db op => raised db op = none) (exec step Db.empty ops) (calls.map (addParent taskId))) := by
  have hiff : (∀ p ∈ parentIds, Admissible (exec step Db.empty ops) taskId p) ↔ _ :=
    admissible_iff (reachable_acyclic ops)
  rcases validateParents_decides (exec step Db.empty ops) taskId parentIds with
    ⟨hall, hok⟩ | ⟨hnot, message, hrefused, herror⟩
  · obtain ⟨hsome, hacyclic⟩ := hiff.mp hall
    refine ⟨.ok parentIds, ?_, iff_of_true rfl ⟨hsome, hacyclic⟩, ?_, ?_⟩
    · intro n hn
      rw [Dependency.validateDagIntegrity, hok n hn]
      rfl
    · rintro message ⟨⟩
    · intro _ htask calls hcalls
      exact addParents_accepted hacyclic calls hcalls htask hsome (fun a b hab => Or.inl hab)
  · refine ⟨.error message, ?_, ?_, ?_, ?_⟩
    · intro n hn
      rw [Dependency.validateDagIntegrity, herror n hn]
      rfl
    · constructor
      · rintro ⟨⟩
      · intro hright
        exact absurd (hiff.mpr hright) hnot
    · rintro _ ⟨⟩
      exact hrefused
    · rintro ⟨⟩

end Validation

section Resolution

/-- Two databases with the same tasks and links. -/
def SameTasks (db db' : Db) : Prop := db.tasks = db'.tasks ∧ db.links = db'.links

variable {db db' : Db}

theorem SameTasks.task? (h : SameTasks db db') (k : String) : db.task? k = db'.task? k := by
  rw [Db.task?, h.1, Db.task?]

theorem SameTasks.setTask (h : SameTasks db db') (id : String) (f : Task → Task) (hf : ∀ t, (f t).id = t.id) :
    SameTasks (db.setTask id f hf) (db'.setTask id f hf) := by
  obtain ⟨htasks, hlinks⟩ := h
  exact ⟨by rw [Db.setTask, Db.setTask, htasks], hlinks⟩

namespace Dependency

/-- The row of a parent as a tuple of the cursor. -/
def tuple (row : ParentRow) : ParentTuple := (row.status, row.result, row.linkCondition)

theorem parentTuples_rows (h : SameTasks db db') (taskId : String) :
    parentTuples db taskId = (parentRows db' taskId).map tuple := by
  have htask : ∀ k, db.task? k = db'.task? k := h.task?
  simp only [parentTuples, parentRows, h.2, htask, List.map_filterMap, Option.map_map]
  rfl

/-- The loop that breaks gives the verdict of the store on every parent. -/
theorem allSatisfied_rows (rows : List ParentRow) : allSatisfied (rows.map tuple) = rows.all ParentRow.satisfied := by
  induction rows with
  | nil => rfl
  | cons row rows ih =>
    obtain ⟨status, result, condition⟩ := row
    rw [List.map_cons, tuple, allSatisfied, List.all_cons, ih, ParentRow.satisfied]
    by_cases hdone : status = .completed ∨ status = .archived
    · have hloop : ¬ (status ≠ .completed ∧ status ≠ .archived) := fun h => hdone.elim h.1 h.2
      have hstatus : (status == .completed || status == .archived) = true := by simpa using hdone
      rw [if_neg hloop, hstatus, Bool.true_and]
      cases truthy condition with
      | false => rfl
      | true => cases hresult : truthy result <;> cases hmatch : result == condition <;> simp [bne, hmatch]
    · obtain ⟨hcompleted, harchived⟩ := not_or.mp hdone
      rw [if_pos ⟨hcompleted, harchived⟩]
      simp [hcompleted, harchived]

theorem move_sameTasks (h : SameTasks db db') (emit : Option EventFunc) (clock : Clock) (taskId : String)
    (status : TaskStatus) (payload payload' : List (String × Json)) :
    SameTasks (move emit db taskId status payload) (moveByDependencies db' clock taskId status payload') := by
  have hmoved := h.setTask taskId (withStatus status) (fun _ => rfl)
  cases emit with
  | none => exact hmoved
  | some func => exact ⟨(func.tasks ..).trans hmoved.1, (func.links ..).trans hmoved.2⟩

theorem resolve_sameTasks (h : SameTasks db db') (emit : Option EventFunc) (clock : Clock) (taskId : String) :
    SameTasks (resolveDependencies emit db taskId) (Orchestration.resolveDependencies db' clock taskId) := by
  unfold resolveDependencies Orchestration.resolveDependencies
  simp only [parentTuples_rows h, h.task?, allSatisfied_rows, List.isEmpty_map]
  cases db'.task? taskId with
  | none => exact h
  | some row =>
    dsimp only
    split
    · split
      · exact move_sameTasks h ..
      · exact h
    · cases hall : (parentRows db' taskId).all ParentRow.satisfied with
      | true =>
        by_cases htodo : row.status = .todo
        · simpa [htodo] using move_sameTasks h ..
        · simpa [htodo] using h
      | false =>
        by_cases hready : row.status = .ready
        · simpa [hready] using move_sameTasks h ..
        · simpa [hready] using h

theorem promote_sameTasks (h : SameTasks db db') (emit : Option EventFunc) (clock : Clock) (children : List String) :
    SameTasks (children.foldl (resolveDependencies emit) db)
      (children.foldl (fun db child => Orchestration.resolveDependencies db clock child) db') := by
  induction children generalizing db db' with
  | nil => exact h
  | cons child children ih => exact ih (resolve_sameTasks h emit clock child)

end Dependency

/-- Both implementations of dependency resolution leave the same tasks, on one task and on the children of one. -/
theorem resolutions_agree (db : Db) (clock : Clock) (emit : Option Dependency.EventFunc) (taskId : String) :
    (Dependency.resolveDependencies emit db taskId).tasks = (resolveDependencies db clock taskId).tasks ∧
      (Dependency.promoteChildren emit db taskId).2.tasks = (resolveChildren db clock taskId).tasks := by
  have hsame : SameTasks db db := ⟨rfl, rfl⟩
  exact ⟨(Dependency.resolve_sameTasks hsame emit clock taskId).1,
    (Dependency.promote_sameTasks hsame emit clock (childIds db taskId)).1⟩

end Resolution

end A2ARegistry.Orchestration
