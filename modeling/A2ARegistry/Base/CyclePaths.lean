import Mathlib.Data.List.Chain
import Mathlib.Logic.Relation
import A2ARegistry.Base.TopologicalSort

namespace A2ARegistry.Base.Topology

section Walks

variable {α : Type} {R : α → α → Prop} {path : List α}

/-- A walk along `R` that comes back to where it starts. -/
structure ClosedWalk (R : α → α → Prop) (path : List α) : Prop where
  long : 2 ≤ path.length
  closed : path.head? = path.getLast?
  walk : path.IsChain R

/-- No node reaches itself. -/
def Acyclic (R : α → α → Prop) : Prop := ∀ v, ¬ Relation.TransGen R v v

theorem ClosedWalk.mono {S : α → α → Prop} (h : ClosedWalk R path) (hRS : ∀ a b, R a b → S a b) : ClosedWalk S path :=
  ⟨h.long, h.closed, h.walk.imp hRS⟩

theorem ClosedWalk.reaches (h : ClosedWalk R path) : ∃ v, Relation.TransGen R v v := by
  obtain ⟨hlong, hclosed, hwalk⟩ := h
  match path, hlong with
  | v :: w :: rest, _ =>
    obtain ⟨hstep, hrest⟩ := List.isChain_cons_cons.mp hwalk
    have hlast : (w :: rest).getLast (List.cons_ne_nil _ _) = v := by
      have he : some v = (w :: rest).getLast? := by simpa using hclosed
      rw [List.getLast?_eq_some_getLast (List.cons_ne_nil _ _)] at he
      exact (Option.some.inj he).symm
    exact ⟨v, Relation.TransGen.head' hstep (List.relationReflTransGen_of_exists_isChain_cons rest hrest hlast)⟩

theorem Acyclic.no_walk (h : Acyclic R) : ¬ ClosedWalk R path := by
  intro hwalk
  obtain ⟨v, hv⟩ := hwalk.reaches
  exact h v hv

theorem acc_irrefl {v : α} (h : Acc R v) : ¬ R v v := by
  induction h with
  | intro v _ ih => exact fun hv => ih v hv hv

end Walks

section Cycles

variable {α : Type} [DecidableEq α] {rows : Declared α} {s : Search α} {stack : List α} {v d : α} {n : Nat}

/-- Along an edge one comes from a node to one it depends on. -/
def Depends (rows : Declared α) (v d : α) : Prop := d ∈ deps rows v

theorem Depends.mem_keys (h : Depends rows v d) : v ∈ keys rows := by
  unfold Depends deps lookup at h
  cases hfind : rows.reverse.find? (fun r => r.1 == v) with
  | none => simp [hfind] at h
  | some r =>
    have hkey : r.1 = v := by simpa using List.find?_some hfind
    have hmem : r ∈ rows := List.mem_reverse.mp (List.mem_of_find?_eq_some hfind)
    exact hkey ▸ List.mem_map_of_mem hmem

/-- The gray nodes are those between the root of the search and the node it is at, this one first, each with the one
before it on the way as its parent. -/
structure Tracked (rows : Declared α) (s : Search α) (stack : List α) : Prop where
  gray : ∀ v, s.color v = .gray ↔ v ∈ stack
  nodup : stack.Nodup
  keys : ∀ v ∈ stack, v ∈ keys rows
  chain : stack.IsChain (fun a b => s.parent a = some b ∧ Depends rows b a)
  found : ∀ path ∈ s.cycles, ClosedWalk (Depends rows) path

theorem tracked_start (rows : Declared α) : Tracked rows Search.start [] :=
  ⟨by simp [Search.start], List.nodup_nil, by simp, List.isChain_nil, by simp [Search.start]⟩

/-- Going back from the node the search is at, one comes upon the nodes above `stop`. -/
theorem backtrack_front {parent : α → Option α} {front back : List α} {stop : α}
    (hchain : (front ++ stop :: back).IsChain (fun a b => parent a = some b)) (hfresh : stop ∉ front)
    (hn : front.length < n) : backtrack parent stop n (front ++ stop :: back).head? = front := by
  induction front generalizing n with
  | nil =>
    obtain ⟨n, rfl⟩ : ∃ m, n = m + 1 := ⟨n - 1, by simp at hn; omega⟩
    simp [backtrack]
  | cons a front ih =>
    obtain ⟨n, rfl⟩ : ∃ m, n = m + 1 := ⟨n - 1, by simp at hn; omega⟩
    have hne : a ≠ stop := fun he => hfresh (by simp [he])
    have hnext : parent a = (front ++ stop :: back).head? := by
      cases front with
      | nil => exact (List.isChain_cons_cons.mp hchain).1
      | cons b front => exact (List.isChain_cons_cons.mp hchain).1
    have hrest := ih hchain.tail (fun hin => hfresh (List.mem_cons_of_mem _ hin)) (by simpa using hn)
    simp only [List.cons_append, List.head?_cons, backtrack, if_neg hne, hnext, hrest]

/-- The nodes of the path that is reported, from the one at which the cycle closes. -/
theorem report_path (h : Tracked rows s (v :: stack)) (hd : d ∈ v :: stack) :
    ∃ front back, v :: stack = front ++ d :: back ∧ backtrack s.parent d rows.length (some v) = front := by
  obtain ⟨front, back, he, hfresh⟩ := List.eq_append_cons_of_mem hd
  refine ⟨front, back, he, ?_⟩
  have hparents : (front ++ d :: back).IsChain (fun a b => s.parent a = some b) := he ▸ h.chain.imp fun _ _ hab => hab.1
  have hlen : (v :: stack).length ≤ rows.length := by
    have hle := (List.subperm_of_subset h.nodup h.keys).length_le
    rwa [Topology.keys, List.length_map] at hle
  have hfront : front.length < rows.length := by
    rw [he, List.length_append, List.length_cons] at hlen
    omega
  have hback := backtrack_front hparents hfresh hfront
  rwa [← he] at hback

/-- The cycle an edge to a gray node closes is one. -/
theorem report_closed (h : Tracked rows s (v :: stack)) (hd : d ∈ v :: stack) (hedge : Depends rows v d) :
    ClosedWalk (Depends rows) (d :: backtrack s.parent d rows.length (some v) ++ [d]).reverse := by
  obtain ⟨front, back, he, hback⟩ := report_path h hd
  have hway : (front ++ d :: back).IsChain (fun a b => Depends rows b a) := he ▸ h.chain.imp fun _ _ hab => hab.2
  have hhead : (front ++ [d]).head? = some v := by
    have hv : (front ++ d :: back).head? = some v := by rw [← he]; rfl
    cases front with
    | nil => simpa using hv
    | cons a front => simpa using hv
  rw [hback]
  refine ⟨by simp, ?_, List.isChain_reverse.mpr ?_⟩
  · rw [List.head?_reverse, List.getLast?_reverse, List.getLast?_concat]
    rfl
  rw [List.cons_append]
  apply List.isChain_cons.mpr
  refine ⟨fun w hw => ?_, ?_⟩
  · rw [hhead] at hw
    cases hw
    exact hedge
  · exact (List.isChain_split.mp hway).1

theorem tracked_report (h : Tracked rows s (v :: stack)) (hd : d ∈ v :: stack) (hedge : Depends rows v d) :
    Tracked rows (s.report rows v d) (v :: stack) := by
  refine ⟨h.gray, h.nodup, h.keys, h.chain, fun path hpath => ?_⟩
  rcases List.mem_append.mp hpath with hpath | hpath
  · exact h.found path hpath
  · rw [List.mem_singleton.mp hpath]
    exact report_closed h hd hedge

/-- A node on the way keeps its parent when another gets one. -/
theorem tracked_parent (h : Tracked rows s stack) (hd : d ∉ stack) (p : Option α) :
    Tracked rows { s with parent := Function.update s.parent d p } stack := by
  refine ⟨h.gray, h.nodup, h.keys, ?_, h.found⟩
  refine (List.isChain_iff_forall_rel_of_append_cons_cons).mpr fun a b front back he => ?_
  obtain ⟨hparent, hdepends⟩ := List.isChain_iff_forall_rel_of_append_cons_cons.mp h.chain he
  have hne : a ≠ d := fun had => hd (by rw [he, ← had]; simp)
  exact ⟨by simpa [hne] using hparent, hdepends⟩

theorem tracked_push (h : Tracked rows s stack) (hkey : v ∈ keys rows) (hv : v ∉ stack)
    (hparent : ∀ u ∈ stack.head?, s.parent v = some u ∧ Depends rows u v) :
    Tracked rows (s.paint v .gray) (v :: stack) := by
  refine ⟨fun u => ?_, List.nodup_cons.mpr ⟨hv, h.nodup⟩, fun u hu => ?_, List.isChain_cons.mpr ⟨hparent, h.chain⟩,
    h.found⟩
  · rw [paint_color, List.mem_cons, ← h.gray]
    by_cases hu : u = v
    · simp [hu]
    · simp [hu]
  · rcases List.mem_cons.mp hu with rfl | hu
    · exact hkey
    · exact h.keys u hu

theorem tracked_pop (h : Tracked rows s (v :: stack)) : Tracked rows (s.paint v .black) stack := by
  obtain ⟨hv, hnodup⟩ := List.nodup_cons.mp h.nodup
  refine ⟨fun u => ?_, hnodup, fun u hu => h.keys u (List.mem_cons_of_mem _ hu), h.chain.tail, h.found⟩
  have hgray := h.gray u
  rw [paint_color]
  by_cases hu : u = v
  · simp [hu, hv]
  · simpa [hu] using hgray

/-- A search from a node leaves the way to it as it is, and all cycles it reports are cycles. -/
theorem dfs_tracked (rows : Declared α) (n : Nat) : ∀ v s stack, v ∈ keys rows → v ∉ stack → Tracked rows s stack →
    (∀ u ∈ stack.head?, s.parent v = some u ∧ Depends rows u v) → Tracked rows (dfs rows n v s) stack := by
  induction n with
  | zero =>
    intro v s stack _ _ h _
    exact h
  | succ n ih =>
    intro v s stack hkey hv h hparent
    have hpushed := tracked_push h hkey hv hparent
    cases hrow : lookup rows v with
    | none =>
      rw [dfs, hrow]
      exact tracked_pop hpushed
    | some ds =>
      rw [dfs_succ hrow]
      apply tracked_pop
      refine List.foldlRecOn (motive := fun s : Search α => Tracked rows s (v :: stack)) ds (Search.follow rows n v)
        hpushed ?_
      intro s h d hd
      have hedge : Depends rows v d := by
        rw [Depends, deps, hrow]
        exact hd
      unfold Search.follow
      split
      · rename_i hdkey
        split
        · rename_i hcolor
          exact tracked_report h ((h.gray d).mp hcolor) hedge
        · rename_i hcolor
          have hfresh : d ∉ v :: stack := fun hin => by simp [(h.gray d).mpr hin] at hcolor
          apply ih d _ (v :: stack) hdkey hfresh (tracked_parent h hfresh (some v))
          intro u hu
          cases hu
          exact ⟨by simp, hedge⟩
        · exact h
      · exact h

/-- Whatever the rows are, duplicates and dangling ones included, each reported path is a closed walk along them. -/
theorem cycles_closed (rows : Declared α) : ∀ path ∈ cycles rows, ClosedWalk (Depends rows) path := by
  have hend : Tracked rows ((keys rows).foldl
      (fun s v => if s.color v = .white then dfs rows rows.length v s else s) Search.start) [] := by
    refine List.foldlRecOn (motive := fun s : Search α => Tracked rows s []) (keys rows) _ (tracked_start rows) ?_
    intro s h v hv
    split
    · exact dfs_tracked rows rows.length v s [] hv (by simp) h (by simp)
    · exact h
  exact hend.found

/-- Where the nodes have an order, none reaches itself. -/
theorem Ordered.acyclic {order : List α} (h : Ordered rows order) (hall : ∀ v ∈ keys rows, v ∈ order) :
    Acyclic (Depends rows) := by
  have hacc : ∀ v ∈ order, Acc (Function.swap (Depends rows)) v :=
    h.induct fun v _ hdeps => Acc.intro v fun d hd => hdeps d hd
  intro v hv
  obtain ⟨d, hfirst, _⟩ := Relation.TransGen.head'_iff.mp hv
  have hv' : Relation.TransGen (Function.swap (Depends rows)) v v := Relation.transGen_swap.mpr hv
  exact acc_irrefl (hacc v (hall v hfirst.mem_keys)).transGen hv'

/-- The search comes upon a cycle if and only if there is one. -/
theorem cycles_nil_iff (hwf : WellFormed rows) : cycles rows = [] ↔ Acyclic (Depends rows) := by
  constructor
  · intro hnone
    obtain ⟨order, horder, hall⟩ := ordered_of_cycles hwf hnone
    exact horder.acyclic hall
  · intro hacyclic
    apply List.eq_nil_iff_forall_not_mem.mpr
    intro path hpath
    exact hacyclic.no_walk (cycles_closed rows path hpath)

end Cycles

end A2ARegistry.Base.Topology
