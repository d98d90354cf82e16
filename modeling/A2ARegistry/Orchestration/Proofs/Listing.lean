import A2ARegistry.Base.Paging
import A2ARegistry.Orchestration.Store.Listing
import A2ARegistry.Orchestration.Store.Ops

namespace A2ARegistry.Orchestration
open Base

instance SortColumn.transCmp (column : SortColumn) : Std.TransCmp column.compare := by
  cases column with
  | createdAt => exact inferInstanceAs (Std.TransCmp (compareOn Task.createdAt))
  | priority => exact inferInstanceAs (Std.TransCmp (compareOn Task.priority))
  | startedAt => exact inferInstanceAs (Std.TransCmp (compareOn Task.startedAt))
  | title => exact inferInstanceAs (Std.TransCmp (compareOn Task.title))

section
variable (column : SortColumn)

/-- The order of a listing: the column descending, then the id. -/
def SortColumn.order (a b : Task) : Ordering := compareLex (fun a b => column.compare b a) (compareOn Task.id) a b

instance SortColumn.order_transCmp : Std.TransCmp column.order :=
  inferInstanceAs (Std.TransCmp (compareLex (fun a b => column.compare b a) (compareOn Task.id)))

theorem SortColumn.before_eq (a b : Task) : column.before a b = (column.order a b).isLE := rfl

theorem SortColumn.before_trans (a b c : Task) (hab : column.before a b = true) (hbc : column.before b c = true) :
    column.before a c = true := by
  rw [SortColumn.before_eq] at hab hbc ⊢
  exact Std.TransCmp.isLE_trans hab hbc

theorem SortColumn.before_total (a b : Task) : (column.before a b || column.before b a) = true := by
  rw [Bool.or_eq_true]
  cases h : column.order a b with
  | lt | eq => exact Or.inl (by rw [SortColumn.before_eq, h]; rfl)
  | gt =>
    have hswap : column.order b a = (column.order a b).swap := Std.OrientedCmp.eq_swap
    right
    rw [SortColumn.before_eq, hswap, h]
    rfl

/-- Rows that stand before each other have one id. -/
theorem SortColumn.before_id {a b : Task} (hab : column.before a b = true) (hba : column.before b a = true) :
    a.id = b.id := by
  have heq : column.order a b = .eq := Std.OrientedCmp.isLE_antisymm hab hba
  have hid : Ord.compare a.id b.id = .eq := (compareLex_eq_eq.mp heq).2
  exact Std.LawfulEqCmp.eq_of_compare hid

theorem SortColumn.before_le {a b : Task} (h : column.before a b = true) : (column.compare b a).isLE = true := by
  rw [SortColumn.before_eq] at h
  exact Ordering.isLE_left_of_isLE_then h

end

section
variable (db : Db) (args : ListArgs)

/-- The rows the filters of a listing select. -/
def matching : List Task := db.tasks.select (args.selects db)

/-- The listing without a limit. -/
def everything : List Task := (listTasks db { args with limit := -1, offset := 0 }).1

theorem everything_eq : everything db args = (matching db args).mergeSort (sortColumn args.sort).before := rfl

theorem everything_perm : (everything db args).Perm (matching db args) := List.mergeSort_perm _ _

theorem matching_nodup : (matching db args).Nodup := (Table.select_nodup db.tasks _).of_map _

theorem everything_length : (everything db args).length = (listTasks db args).2 := (everything_perm db args).length_eq

/-- A listing with a limit is a slice of the one without. -/
theorem listTasks_slice (size offset : Nat) :
    (listTasks db { args with limit := size, offset := offset }).1 = slice size offset (everything db args) := by
  have hlimit : ¬ ((size : Int) < 0) := by omega
  simp only [listTasks, page, if_neg hlimit]
  rfl

theorem before_anti {column : SortColumn} {a b : Task} (ha : a ∈ matching db args) (hb : b ∈ matching db args)
    (hab : column.before a b = true) (hba : column.before b a = true) : a = b := by
  have hrow := fun {t} (ht : t ∈ matching db args) => (Table.mem_select.mp ht).1
  exact List.inj_on_of_nodup_map db.tasks.nodup (hrow ha) (hrow hb) (column.before_id hab hba)

end

section
variable (db : Db) (args : ListArgs) (size : Nat)

theorem firstPage_eq :
    (listTasks db { args with limit := size, offset := 0 }).1 = slice size 0 (everything db args) :=
  listTasks_slice db args size 0

theorem firstPage_ids : ((listTasks db { args with limit := size, offset := 0 }).1.map Task.id).Nodup := by
  have hall : ((everything db args).map Task.id).Nodup :=
    ((everything_perm db args).map Task.id).nodup_iff.mpr (Table.select_nodup db.tasks _)
  rw [firstPage_eq]
  exact hall.sublist ((List.take_sublist size _).map Task.id)

theorem firstPage_length_le : (listTasks db { args with limit := size, offset := 0 }).1.length ≤ size := by
  rw [firstPage_eq, slice, List.length_take]
  exact Nat.min_le_left _ _

/-- A row is on the first page exactly when fewer rows that match come before it than the page has room for. -/
theorem mem_firstPage_iff (t : Task) :
    t ∈ (listTasks db { args with limit := size, offset := 0 }).1 ↔
      t ∈ matching db args ∧ rank (sortColumn args.sort).before (matching db args) t < size := by
  rw [firstPage_eq, slice, List.drop_zero, everything_eq]
  exact mem_take_sorted (sortColumn args.sort).before_trans (sortColumn args.sort).before_total
    (fun a ha b hb => before_anti db args ha hb) (matching_nodup db args) size t

@[simp] theorem given_none : given none = none := rfl

/-- A listing by the name of one status selects the rows in this status. -/
theorem selects_status {args : ListArgs} {wanted : TaskStatus} (h : args.status = some wanted.value) (t : Task) :
    args.selects db t = ((t.status == wanted) && { args with status := none }.selects db t) := by
  have hparts : (given (some wanted.value)).map (fun status => (splitAt status ',').map strip) =
      some [wanted.value] := by
    cases wanted <;> decide
  obtain ⟨status, hgiven, hsplit⟩ := Option.map_eq_some_iff.mp hparts
  have hstatus : [wanted.value].contains t.status.value = (t.status == wanted) := by
    rw [Bool.eq_iff_iff, List.contains_eq_mem, decide_eq_true_iff, List.mem_singleton, beq_iff_eq]
    exact ⟨fun hvalue => TaskStatus.value_injective hvalue, congrArg TaskStatus.value⟩
  unfold ListArgs.selects
  rw [h, hgiven, Option.all_some, hsplit, hstatus]
  simp [Bool.and_assoc]

end

/-- The names of the columns a listing can be sorted by. -/
def sortKeys : List String := ["created_at", "priority", "started_at", "title"]

/-- The order a `sort` argument asks for: ascending for the name of a column, descending for a name with a minus
sign, and for anything else the default. -/
def InOrder (sort : String) (a b : Task) : Prop :=
  if sort ∈ sortKeys then ((sortColumn sort).compare a b).isLE = true else ((sortColumn sort).compare b a).isLE = true

theorem everything_descends (db : Db) (args : ListArgs) :
    (everything db args).Pairwise (fun a b => ((sortColumn args.sort).compare b a).isLE = true) := by
  have hsorted := List.pairwise_mergeSort (sortColumn args.sort).before_trans (sortColumn args.sort).before_total
    (matching db args)
  exact hsorted.imp fun h => (sortColumn args.sort).before_le h

/-- The listing is in the order asked for unless an ascending one is asked for and two rows differ in the column. -/
theorem everything_inOrder_iff (db : Db) (args : ListArgs) : (everything db args).Pairwise (InOrder args.sort) ↔
    args.sort ∉ sortKeys ∨ ∀ t ∈ matching db args, ∀ u ∈ matching db args,
      (sortColumn args.sort).compare t u = .eq := by
  have hdown := everything_descends db args
  by_cases hkey : args.sort ∈ sortKeys
  · have hinorder : InOrder args.sort = fun a b => ((sortColumn args.sort).compare a b).isLE = true := by
      funext a b
      rw [InOrder, if_pos hkey]
    rw [hinorder]
    constructor
    · intro hup
      right
      intro t ht u hu
      have hmem : ∀ x, x ∈ everything db args ↔ x ∈ matching db args := fun x => (everything_perm db args).mem_iff
      have hself : ∀ x ∈ everything db args, ((sortColumn args.sort).compare x x).isLE = true := by
        intro x _
        exact Ordering.isLE_of_eq_eq Std.ReflCmp.compare_self
      have hle := hup.forall_of_forall_of_flip hself hdown
      have ht' := (hmem t).mpr ht
      have hu' := (hmem u).mpr hu
      exact Std.OrientedCmp.isLE_antisymm (hle ht' hu') (hle hu' ht')
    · intro h
      have hequal := h.resolve_left (not_not_intro hkey)
      apply List.pairwise_of_forall_mem_list
      intro t ht u hu
      have hmem : ∀ x, x ∈ everything db args ↔ x ∈ matching db args := fun x => (everything_perm db args).mem_iff
      rw [hequal t ((hmem t).mp ht) u ((hmem u).mp hu)]
      rfl
  · have hinorder : InOrder args.sort = fun a b => ((sortColumn args.sort).compare b a).isLE = true := by
      funext a b
      rw [InOrder, if_neg hkey]
    rw [hinorder]
    exact iff_of_true hdown (Or.inl hkey)

/-- A listing has the rows that match, each once, and its pages of any size, one behind the other, are the whole
listing. It is in the order asked for exactly where no ascending order is asked for, or all rows that match are
equal in the column. -/
theorem listing_exact (db : Db) (args : ListArgs) :
    (everything db args).Nodup ∧
    (∀ t, t ∈ everything db args ↔ t ∈ db.tasks.rows ∧ args.selects db t = true) ∧
    (∀ size count : Nat, (listTasks db args).2 ≤ count * size → (List.range count).flatMap (fun i =>
      (listTasks db { args with limit := size, offset := (i * size : Nat) }).1) = everything db args) ∧
    ((everything db args).Pairwise (InOrder args.sort) ↔ args.sort ∉ sortKeys ∨
      ∀ t ∈ matching db args, ∀ u ∈ matching db args, (sortColumn args.sort).compare t u = .eq) := by
  refine ⟨?_, ?_, ?_, everything_inOrder_iff db args⟩
  · exact (everything_perm db args).nodup_iff.mpr (matching_nodup db args)
  · intro t
    exact (everything_perm db args).mem_iff.trans Table.mem_select
  · intro size count hroom
    have hpages : (fun i => (listTasks db { args with limit := size, offset := (i * size : Nat) }).1) =
        fun i => slice size (i * size) (everything db args) := by
      funext i
      exact listTasks_slice db args size (i * size)
    rw [hpages]
    apply slices_all
    rw [everything_length]
    exact hroom

/-- Two tasks, the second more urgent. -/
def twoPriorities : Db := exec step Db.empty
  [.createTask (.fixed 0) "a" { title := "a", priority := 1 },
   .createTask (.fixed 0) "b" { title := "b", priority := 2 }]

/-- Sorted by `priority` they come with the more urgent one first. -/
theorem priority_descends : ¬ (everything twoPriorities { sort := "priority" }).Pairwise (InOrder "priority") := by
  intro hordered
  rcases (everything_inOrder_iff twoPriorities { sort := "priority" }).mp hordered with hkey | hequal
  · exact absurd hkey (by decide)
  · have hrows : (matching twoPriorities { sort := "priority" }).map Task.priority = [1, 2] := by decide
    obtain ⟨t, ht, h1⟩ := List.mem_map.mp (hrows ▸ List.mem_cons_self)
    obtain ⟨u, hu, h2⟩ := List.mem_map.mp (hrows ▸ List.mem_cons_of_mem 1 List.mem_cons_self)
    have hcolumn : sortColumn "priority" = .priority := by decide
    have hsame := hequal t ht u hu
    rw [hcolumn] at hsame
    have hcompare : Ord.compare t.priority u.priority = .eq := hsame
    have hpriority : t.priority = u.priority := Std.LawfulEqCmp.eq_of_compare hcompare
    rw [h1, h2] at hpriority
    cases hpriority

/-- A task without parents is one row more. -/
theorem createTask_alone {db : Db} {hex : String} {args : CreateArgs} (clock : Clock)
    (hfree : db.tasks.find? (freshId hex) = none) (hparents : args.parents = []) :
    (step db (.createTask clock hex args)).tasks.rows = db.tasks.rows ++ [args.row clock.now hex] := by
  obtain ⟨tasks, htasks⟩ := Option.isSome_iff_exists.mp
    (Table.insert_isSome (r := args.row clock.now hex).mpr hfree)
  have hspecs : args.parentSpecs = [] := by rw [CreateArgs.parentSpecs, hparents, List.map_nil]
  have hcreate : createTask db clock hex args = .ok (args.row clock.now hex,
      emitEvent { db with tasks := tasks } clock (args.row clock.now hex).id TaskEventKind.created.value none
        [("assignee", .ofText args.assignee), ("parents", .arr []),
          ("status", .str (args.row clock.now hex).status.value)]) := by
    unfold createTask
    rw [hspecs]
    simp only [List.any_nil, List.find?_nil, htasks, insertLinks]
    rfl
  have hrows := (Table.insert_some htasks).2
  have hstep : step db (.createTask clock hex args) = (db.tx (createTask db clock hex args)).2 := rfl
  rw [hstep, hcreate]
  exact hrows

/-- Ids for as many tasks as there are numbers. -/
def numberedHex (i : Nat) : String := String.ofList (List.replicate i '0')

theorem numberedHex_injective {i j : Nat} (h : freshId (numberedHex i) = freshId (numberedHex j)) : i = j := by
  have hlength := congrArg String.length h
  simpa [freshId, numberedHex] using hlength

/-- A store with `n` tasks that are created alike. -/
def crowd (args : CreateArgs) (n : Nat) : Db :=
  exec step Db.empty ((List.range n).map (fun i => .createTask (.fixed 0) (numberedHex i) args))

theorem crowd_rows {args : CreateArgs} (hparents : args.parents = []) (n : Nat) :
    (crowd args n).tasks.rows = (List.range n).map (fun i => args.row 0 (numberedHex i)) := by
  induction n with
  | zero => rfl
  | succ n ih =>
    have hfree : (crowd args n).tasks.find? (freshId (numberedHex n)) = none := by
      rw [Table.find_none_iff]
      intro row hrow heq
      rw [ih] at hrow
      obtain ⟨i, hi, rfl⟩ := List.mem_map.mp hrow
      have hsame : i = n := numberedHex_injective heq
      rw [hsame] at hi
      exact absurd (List.mem_range.mp hi) (Nat.lt_irrefl n)
    have hstep : crowd args (n + 1) = step (crowd args n) (.createTask (.fixed 0) (numberedHex n) args) := by
      rw [crowd, List.range_succ, List.map_append, exec_append]
      rfl
    rw [hstep, createTask_alone (.fixed 0) hfree hparents, ih, List.range_succ, List.map_append]
    rfl

end A2ARegistry.Orchestration
