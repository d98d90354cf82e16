import A2ARegistry.Orchestration.Store.Status

namespace A2ARegistry.Orchestration
open Base

/-- A parent counts as done for a link with this condition. -/
def Task.Satisfies (p : Task) (condition : Option String) : Prop :=
  (p.status = .completed ∨ p.status = .archived) ∧
    ∀ c, condition = some c → c ≠ "" → p.result = some c

/-- The parent of the link exists and is done. -/
def LinkSatisfied (db : Db) (l : TaskLink) : Prop :=
  ∃ p, db.task? l.parentId = some p ∧ p.Satisfies l.condition

/-- Every parent link of the task is satisfied. -/
def ParentsSatisfied (db : Db) (id : String) : Prop :=
  ∀ l ∈ db.links.rows, l.childId = id → LinkSatisfied db l

/-- The verdict of `_resolve_dependencies` on the parents of a task. -/
def parentsDone (db : Db) (id : String) : Bool := (parentRows db id).all ParentRow.satisfied

theorem row_satisfied_iff {status : TaskStatus} {result condition : Option String} :
    (ParentRow.mk status result condition).satisfied = true ↔
      (status = .completed ∨ status = .archived) ∧
        ∀ c, condition = some c → c ≠ "" → result = some c := by
  cases condition with
  | none => simp [ParentRow.satisfied, truthy]
  | some c =>
    by_cases hc : c = ""
    · simp [ParentRow.satisfied, truthy, hc]
    · cases result <;> simp [ParentRow.satisfied, truthy, hc]
      intro _ he
      exact he ▸ hc

/-- The resolver looks at existing parents only, so it may disregard a link whose
parent row is missing. -/
theorem parentsDone_iff {db : Db} {id : String} : parentsDone db id = true ↔
    ∀ l ∈ db.links.rows, l.childId = id → ∀ p, db.task? l.parentId = some p →
      p.Satisfies l.condition := by
  simp only [parentsDone, parentRows, List.all_eq_true, List.mem_filterMap, Table.mem_select,
    beq_iff_eq, Option.map_eq_some_iff]
  constructor
  · intro h l hl hc p hp
    exact row_satisfied_iff.mp (h _ ⟨l, ⟨hl, hc⟩, p, hp, rfl⟩)
  · rintro h row ⟨l, ⟨hl, hc⟩, p, hp, rfl⟩
    exact row_satisfied_iff.mpr (h l hl hc p hp)

/-- What `_resolve_dependencies` does to the row of the task it is called on. -/
def settle (db : Db) (t : Task) : Task :=
  if t.status = .todo ∧ parentsDone db t.id then { t with status := .ready }
  else if t.status = .ready ∧ ¬ parentsDone db t.id then { t with status := .todo }
  else t

/-- Resolution reads the verdict once: the outcome depends on nothing else of the database. -/
theorem settle_congr {db db' : Db} {t : Task} (h : parentsDone db t.id = parentsDone db' t.id) :
    settle db t = settle db' t := by
  simp only [settle, h]

theorem settle_cases (db : Db) (t : Task) :
    (t.status = .todo ∧ parentsDone db t.id = true ∧ settle db t = { t with status := .ready }) ∨
    (t.status = .ready ∧ parentsDone db t.id = false ∧ settle db t = { t with status := .todo }) ∨
    ((t.status = .todo → parentsDone db t.id = false) ∧
      (t.status = .ready → parentsDone db t.id = true) ∧ settle db t = t) := by
  unfold settle
  by_cases ht : t.status = .todo <;> by_cases hr : t.status = .ready <;>
    cases hp : parentsDone db t.id <;> simp_all

theorem settle_idem (db : Db) (t : Task) : settle db (settle db t) = settle db t := by
  rcases settle_cases db t with ⟨_, hp, he⟩ | ⟨_, hp, he⟩ | ⟨_, _, he⟩
  · rw [he]
    simp [settle, hp]
  · rw [he]
    simp [settle, hp]
  · rw [he, he]

/-- Settling moves a row between `todo` and `ready` only, so as a parent it counts
for what it counted before. -/
theorem settle_satisfies {db : Db} {t : Task} {condition : Option String} :
    (settle db t).Satisfies condition ↔ t.Satisfies condition := by
  rcases settle_cases db t with ⟨hs, _, he⟩ | ⟨hs, _, he⟩ | ⟨_, _, he⟩
  · rw [he]
    simp [Task.Satisfies, hs]
  · rw [he]
    simp [Task.Satisfies, hs]
  · rw [he]

/-- The resolver either leaves the database alone, because settling would not move
the row, or writes the settled status and logs it. -/
theorem resolve_cases (db : Db) (clock : Clock) (id : String) :
    (resolveDependencies db clock id = db ∧ ∀ t, db.task? id = some t → settle db t = t) ∨
    ∃ t status payload, db.task? id = some t ∧ settle db t = { t with status := status } ∧
      resolveDependencies db clock id = moveByDependencies db clock id status payload := by
  simp only [resolveDependencies]
  cases ht : db.task? id with
  | none => exact Or.inl ⟨rfl, by simp⟩
  | some t =>
    have hid := Db.task_id ht
    have hempty : (parentRows db id).isEmpty = true → parentsDone db id = true := by
      intro h
      simp [parentsDone, List.isEmpty_iff.mp h]
    have hkeep : settle db t = t → ∀ u, some t = some u → settle db u = u := by
      intro he u hu
      cases hu
      exact he
    have hdone : (parentRows db id).all ParentRow.satisfied = parentsDone db id := rfl
    simp only [hdone]
    split
    · rename_i he
      have hp := hempty he
      split
      · rename_i hs
        exact Or.inr ⟨t, _, _, rfl, by simp [settle, hs, hid, hp], rfl⟩
      · rename_i hs
        exact Or.inl ⟨rfl, hkeep (by simp [settle, hs, hid, hp])⟩
    · split
      · rename_i hp
        split
        · rename_i hs
          exact Or.inr ⟨t, _, _, rfl, by simp [settle, hs, hid, hp], rfl⟩
        · rename_i hs
          exact Or.inl ⟨rfl, hkeep (by simp [settle, hs, hid, hp])⟩
      · rename_i hp
        split
        · rename_i hs
          exact Or.inr ⟨t, _, _, rfl, by simp [settle, hs, hid, hp], rfl⟩
        · rename_i hs
          exact Or.inl ⟨rfl, hkeep (by simp [settle, hs, hid, hp])⟩

theorem resolve_links (db : Db) (clock : Clock) (id : String) :
    (resolveDependencies db clock id).links = db.links := by
  rcases resolve_cases db clock id with ⟨he, _⟩ | ⟨_, _, _, _, _, he⟩
  · rw [he]
  · rw [he]
    rfl

theorem resolve_runs (db : Db) (clock : Clock) (id : String) :
    (resolveDependencies db clock id).runs = db.runs := by
  rcases resolve_cases db clock id with ⟨he, _⟩ | ⟨_, _, _, _, _, he⟩
  · rw [he]
  · rw [he]
    rfl

theorem resolve_task (db : Db) (clock : Clock) (id k : String) :
    (resolveDependencies db clock id).task? k =
      (db.task? k).map (fun t => if k = id then settle db t else t) := by
  rcases resolve_cases db clock id with ⟨he, hs⟩ | ⟨t, status, payload, ht, hs, he⟩
  · rw [he]
    by_cases hk : k = id
    · subst hk
      cases ht : db.task? k with
      | none => rfl
      | some t => simp [hs t ht]
    · simp [hk]
  · rw [he, moveByDependencies, task_emitEvent, Db.task_setTask]
    by_cases hk : k = id
    · simp [hk, ht, hs]
    · simp [hk]

/-- Equal links and parents that count alike give the same verdict. -/
theorem parentsDone_congr {db db' : Db} (hl : db'.links = db.links) (f : Task → Task)
    (hf : ∀ k, db'.task? k = (db.task? k).map f ∨ db'.task? k = db.task? k)
    (hs : ∀ t condition, (f t).Satisfies condition ↔ t.Satisfies condition) (id : String) :
    parentsDone db' id = parentsDone db id := by
  apply Bool.eq_iff_iff.mpr
  rw [parentsDone_iff, parentsDone_iff, hl]
  have hiff : ∀ l : TaskLink, (∀ p, db'.task? l.parentId = some p → p.Satisfies l.condition) ↔
      ∀ p, db.task? l.parentId = some p → p.Satisfies l.condition := by
    intro l
    rcases hf l.parentId with h | h
    · simp [h, hs]
    · rw [h]
  simp only [hiff]

theorem parentsDone_resolve (db : Db) (clock : Clock) (id k : String) :
    parentsDone (resolveDependencies db clock id) k = parentsDone db k := by
  apply parentsDone_congr (resolve_links db clock id) (settle db)
  · intro j
    rw [resolve_task]
    by_cases hj : j = id
    · left; simp [hj]
    · right; simp [hj]
  · intro t condition
    exact settle_satisfies

/-- Resolving a list of tasks settles each of them, and none is disturbed by the others. -/
theorem resolve_fold (cs : List String) (db : Db) (clock : Clock) (k : String) :
    ((cs.foldl (fun db c => resolveDependencies db clock c) db).task? k =
      (db.task? k).map (fun t => if k ∈ cs then settle db t else t)) ∧
    parentsDone (cs.foldl (fun db c => resolveDependencies db clock c) db) k = parentsDone db k ∧
    (cs.foldl (fun db c => resolveDependencies db clock c) db).links = db.links ∧
    (cs.foldl (fun db c => resolveDependencies db clock c) db).runs = db.runs := by
  induction cs generalizing db with
  | nil => simp
  | cons c cs ih =>
    obtain ⟨ht, hp, hl, hr⟩ := ih (resolveDependencies db clock c)
    simp only [List.foldl_cons]
    refine ⟨?_, hp.trans (parentsDone_resolve db clock c k), hl.trans (resolve_links db clock c),
      hr.trans (resolve_runs db clock c)⟩
    rw [ht, resolve_task, Option.map_map]
    congr 1
    funext t
    have hsettle : ∀ u, settle (resolveDependencies db clock c) u = settle db u :=
      fun u => settle_congr (parentsDone_resolve db clock c u.id)
    by_cases hk : k = c <;> by_cases hm : k ∈ cs <;> simp [hk, hm, hsettle]
    all_goals subst hk; simp [hm, settle_idem]

theorem resolveChildren_task (db : Db) (clock : Clock) (id k : String) :
    (resolveChildren db clock id).task? k =
      (db.task? k).map (fun t => if k ∈ childIds db id then settle db t else t) :=
  (resolve_fold (childIds db id) db clock k).1

theorem parentsDone_resolveChildren (db : Db) (clock : Clock) (id k : String) :
    parentsDone (resolveChildren db clock id) k = parentsDone db k :=
  (resolve_fold (childIds db id) db clock k).2.1

theorem resolveChildren_links (db : Db) (clock : Clock) (id : String) :
    (resolveChildren db clock id).links = db.links :=
  (resolve_fold (childIds db id) db clock id).2.2.1

theorem resolveChildren_runs (db : Db) (clock : Clock) (id : String) :
    (resolveChildren db clock id).runs = db.runs :=
  (resolve_fold (childIds db id) db clock id).2.2.2

theorem mem_childIds {db : Db} {p c : String} :
    c ∈ childIds db p ↔ ∃ l ∈ db.links.rows, l.parentId = p ∧ l.childId = c := by
  simp [childIds, Table.mem_select, and_assoc]

end A2ARegistry.Orchestration
