import Mathlib.Data.Finset.Card
import Mathlib.Data.List.Induction
import Mathlib.Logic.Function.Basic
import A2ARegistry.Base.Table

namespace A2ARegistry.Base.Topology

/-- Nodes in the order they are declared, each with what it depends on. -/
abbrev Declared (α : Type) := List (α × List α)

section Definitions

variable {α : Type} [DecidableEq α]

def keys (rows : Declared α) : List α := rows.map Prod.fst

/-- The row of a node in the dict of the rows: the last one under its key. -/
def lookup (rows : Declared α) (v : α) : Option (List α) := (rows.reverse.find? (fun r => r.1 == v)).map Prod.snd

def deps (rows : Declared α) (v : α) : List α := (lookup rows v).getD []

inductive Color
  | white
  | gray
  | black
deriving DecidableEq, Repr

/-- A depth-first search under way, with the cycles it has come upon. -/
structure Search (α : Type) where
  color : α → Color
  parent : α → Option α
  cycles : List (List α)

def Search.start : Search α := ⟨fun _ => .white, fun _ => none, []⟩

def Search.paint (s : Search α) (v : α) (c : Color) : Search α := { s with color := Function.update s.color v c }

/-- The nodes from `cur` back to the one at which a cycle closes. The number counts the nodes left. -/
def backtrack (parent : α → Option α) (stop : α) : Nat → Option α → List α
  | 0, _ | _, none => []
  | n + 1, some cur => if cur = stop then [] else cur :: backtrack parent stop n (parent cur)

/-- The edge from `v` to `d` closes a cycle. -/
def Search.report (rows : Declared α) (s : Search α) (v d : α) : Search α :=
  { s with cycles := s.cycles ++ [(d :: backtrack s.parent d rows.length (some v) ++ [d]).reverse] }

/-- Depth-first search from a node, over what it depends on. The number bounds the depth. -/
def dfs (rows : Declared α) : Nat → α → Search α → Search α
  | 0, _, s => s
  | n + 1, v, s =>
    let s := s.paint v .gray
    match lookup rows v with
    | none => s.paint v .black
    | some ds => (ds.foldl (fun s d =>
        if d ∈ keys rows then match s.color d with
          | .gray => s.report rows v d
          | .white => dfs rows n d { s with parent := Function.update s.parent d (some v) }
          | .black => s
        else s) s).paint v .black

/-- The cycles a search from every node comes upon. -/
def cycles (rows : Declared α) : List (List α) :=
  ((keys rows).foldl (fun s v => if s.color v = .white then dfs rows rows.length v s else s) Search.start).cycles

/-- Kahn's algorithm under way: how much each node still waits for, and the nodes that wait for nothing. -/
structure Kahn (α : Type) where
  degree : α → Int
  queue : List α

def inDegree (rows : Declared α) : α → Int :=
  rows.foldl (fun degree r => r.2.foldl
    (fun degree d => if d ∈ keys rows then Function.update degree r.1 (degree r.1 + 1) else degree) degree) (fun _ => 0)

/-- Node `v` is sorted, and `t` depends on `d`. -/
def Kahn.release (v t : α) (s : Kahn α) (d : α) : Kahn α :=
  if d = v then
    let degree := Function.update s.degree t (s.degree t - 1)
    ⟨degree, if degree t = 0 then s.queue ++ [t] else s.queue⟩
  else s

def Kahn.visit (rows : Declared α) (v : α) (s : Kahn α) : Kahn α :=
  rows.foldl (fun s r => r.2.foldl (Kahn.release v r.1) s) s

/-- The loop over the queue. The number bounds its iterations. -/
def kahnLoop (rows : Declared α) : Nat → Kahn α → List α → List α
  | 0, _, sorted | _, ⟨_, []⟩, sorted => sorted
  | n + 1, ⟨degree, v :: queue⟩, sorted => kahnLoop rows n (Kahn.visit rows v ⟨degree, queue⟩) (sorted ++ [v])

/-- Kahn's topological sort. Nodes that are on a cycle or behind one come last. -/
def sort (rows : Declared α) : List α :=
  let degree := inDegree rows
  let sorted := kahnLoop rows rows.length ⟨degree, (keys rows).eraseDups.filter (fun v => degree v = 0)⟩ []
  if sorted.length < rows.length then sorted ++ (keys rows).filter (fun v => v ∉ sorted) else sorted

end Definitions

theorem mem_keys {α : Type} {rows : Declared α} {v : α} : v ∈ keys rows ↔ ∃ ds, (v, ds) ∈ rows := by
  simp [keys]

section Order

variable {α : Type} [DecidableEq α] {rows : Declared α} {order : List α} {v : α} {ds : List α}

/-- What a node depends on comes before it. -/
def Ordered (rows : Declared α) (order : List α) : Prop :=
  ∀ front v back, order = front ++ v :: back → ∀ d ∈ deps rows v, d ∈ front

theorem Ordered.nil : Ordered rows [] := by
  intro front v back he
  cases front <;> cases he

theorem Ordered.snoc (h : Ordered rows order) (hv : ∀ d ∈ deps rows v, d ∈ order) : Ordered rows (order ++ [v]) := by
  intro front u back he d hd
  rcases List.eq_nil_or_concat back with rfl | ⟨back, w, rfl⟩
  · obtain ⟨rfl, hu⟩ := List.append_inj' he rfl
    cases hu
    exact hv d hd
  · have he' : order ++ [v] = (front ++ u :: back) ++ [w] := by simpa using he
    obtain ⟨rfl, _⟩ := List.append_inj' he' rfl
    exact h front u back rfl d hd

theorem Ordered.left {more : List α} (h : Ordered rows (order ++ more)) : Ordered rows order := by
  intro front u back he d hd
  exact h front u (back ++ more) (by simp [he]) d hd

/-- The rule of induction along an order: what holds of a node when it holds of all that it depends on holds of all. -/
theorem Ordered.induct {S : α → Prop} (h : Ordered rows order)
    (hS : ∀ v ∈ order, (∀ d ∈ deps rows v, S d) → S v) : ∀ v ∈ order, S v := by
  induction order using List.reverseRecOn with
  | nil => simp
  | append_singleton order u ih =>
    have hfront := ih h.left (fun v hv => hS v (List.mem_append_left _ hv))
    intro v hv
    rcases List.mem_append.mp hv with hv | hv
    · exact hfront v hv
    · rw [List.mem_singleton.mp hv]
      exact hS u (List.mem_append_right _ (List.mem_singleton.mpr rfl)) (fun d hd => hfront d (h order u [] rfl d hd))

/-- Each node has one row, and depends on nodes only. -/
structure WellFormed (rows : Declared α) : Prop where
  nodup : (keys rows).Nodup
  closed : ∀ r ∈ rows, ∀ d ∈ r.2, d ∈ keys rows

theorem lookup_mem (hnodup : (keys rows).Nodup) (h : (v, ds) ∈ rows) : lookup rows v = some ds := by
  have hsome : (rows.reverse.find? (fun r => r.1 == v)).isSome :=
    List.find?_isSome.mpr ⟨(v, ds), List.mem_reverse.mpr h, by simp⟩
  obtain ⟨r, hr⟩ := Option.isSome_iff_exists.mp hsome
  have hmem : r ∈ rows := List.mem_reverse.mp (List.mem_of_find?_eq_some hr)
  have hkey : r.1 = v := by simpa using List.find?_some hr
  have he : r = (v, ds) := List.inj_on_of_nodup_map hnodup hmem h hkey
  rw [lookup, hr, he]
  rfl

theorem deps_mem (hnodup : (keys rows).Nodup) (h : (v, ds) ∈ rows) : deps rows v = ds := by
  rw [deps, lookup_mem hnodup h]
  rfl

end Order

section Search

variable {α : Type} [DecidableEq α] {rows : Declared α} {s s' : Search α} {order order' ds : List α} {v d : α} {n : Nat}

/-- The finished nodes, in the order in which they were, have all they depend on among those before them. -/
structure Explored (rows : Declared α) (s : Search α) (order : List α) : Prop where
  black : ∀ v, s.color v = .black ↔ v ∈ order
  ordered : Ordered rows order

/-- A part of a search that comes upon no cycle finishes more nodes, and leaves the unfinished ones as they are. -/
structure Extends (rows : Declared α) (s s' : Search α) (order : List α) : Prop where
  explored : ∃ more, Explored rows s' (order ++ more)
  gray : ∀ u, s'.color u = .gray ↔ s.color u = .gray

/-- The nodes that have not been reached. -/
def Search.whites (rows : Declared α) (s : Search α) : Finset α := (keys rows).toFinset.filter (fun v => s.color v = .white)

theorem Extends.black (h : Extends rows s s' order) (hs : Explored rows s order) (hv : s.color v = .black) :
    s'.color v = .black := by
  obtain ⟨more, hmore⟩ := h.explored
  exact (hmore.black v).mpr (List.mem_append_left _ ((hs.black v).mp hv))

theorem Extends.whites (h : Extends rows s s' order) (hs : Explored rows s order) :
    (s'.whites rows).card ≤ (s.whites rows).card := by
  apply Finset.card_le_card
  intro u hu
  obtain ⟨hkey, hwhite⟩ := Finset.mem_filter.mp hu
  refine Finset.mem_filter.mpr ⟨hkey, ?_⟩
  cases hcolor : s.color u with
  | white => rfl
  | gray => rw [(h.gray u).mpr hcolor] at hwhite; cases hwhite
  | black => rw [h.black hs hcolor] at hwhite; cases hwhite

theorem paint_color (s : Search α) (v : α) (c : Color) (u : α) :
    (s.paint v c).color u = if u = v then c else s.color u := by
  by_cases hu : u = v
  · rw [hu, if_pos rfl]
    exact Function.update_self v c s.color
  · rw [if_neg hu]
    exact Function.update_of_ne hu c s.color

/-- Painting a node that has not been reached leaves fewer of them. -/
theorem paint_whites (hkey : v ∈ keys rows) (hwhite : s.color v = .white) :
    ((s.paint v .gray).whites rows).card < (s.whites rows).card := by
  apply Finset.card_lt_card
  refine Finset.ssubset_iff_subset_ne.mpr ⟨fun u hu => ?_, fun he => ?_⟩
  · obtain ⟨hu, hcolor⟩ := Finset.mem_filter.mp hu
    rw [paint_color] at hcolor
    split at hcolor
    · cases hcolor
    · exact Finset.mem_filter.mpr ⟨hu, hcolor⟩
  · have hv : v ∈ s.whites rows := Finset.mem_filter.mpr ⟨List.mem_toFinset.mpr hkey, hwhite⟩
    rw [← he] at hv
    have hcolor := (Finset.mem_filter.mp hv).2
    rw [paint_color, if_pos rfl] at hcolor
    cases hcolor

theorem Extends.refl (hs : Explored rows s order) : Extends rows s s order :=
  ⟨⟨[], by simpa using hs⟩, fun _ => Iff.rfl⟩

theorem Extends.trans {s'' : Search α} (h : Extends rows s s' order)
    (h' : ∀ more, Explored rows s' (order ++ more) → Extends rows s' s'' (order ++ more)) : Extends rows s s'' order := by
  obtain ⟨more, hmore⟩ := h.explored
  have h'' := h' more hmore
  obtain ⟨rest, hrest⟩ := h''.explored
  exact ⟨⟨more ++ rest, by rw [← List.append_assoc]; exact hrest⟩, fun u => (h''.gray u).trans (h.gray u)⟩

/-- What the search does with one of the nodes that `v` depends on. -/
def Search.follow (rows : Declared α) (n : Nat) (v : α) (s : Search α) (d : α) : Search α :=
  if d ∈ keys rows then match s.color d with
    | .gray => s.report rows v d
    | .white => dfs rows n d { s with parent := Function.update s.parent d (some v) }
    | .black => s
  else s

theorem dfs_succ (hrow : lookup rows v = some ds) (n : Nat) (s : Search α) :
    dfs rows (n + 1) v s = (ds.foldl (Search.follow rows n v) (s.paint v .gray)).paint v .black := by
  rw [dfs, hrow]
  rfl

/-- A cycle that was come upon stays. -/
theorem dfs_cycles (rows : Declared α) (n : Nat) (v : α) (s : Search α) (h : s.cycles ≠ []) :
    (dfs rows n v s).cycles ≠ [] := by
  induction n generalizing v s with
  | zero => exact h
  | succ n ih =>
    cases hrow : lookup rows v with
    | none =>
      rw [dfs, hrow]
      exact h
    | some ds =>
      rw [dfs_succ hrow]
      refine List.foldlRecOn (motive := fun s : Search α => s.cycles ≠ []) ds (Search.follow rows n v) h ?_
      intro s hs d _
      unfold Search.follow
      split
      · split
        · simp [Search.report]
        · exact ih d _ hs
        · exact hs
      · exact hs

theorem follow_cycles (h : s.cycles ≠ []) : (Search.follow rows n v s d).cycles ≠ [] := by
  unfold Search.follow
  split
  · split
    · simp [Search.report]
    · exact dfs_cycles rows n d _ h
    · exact h
  · exact h

/-- A search from a node that comes upon no cycle finishes the node. -/
def Finishes (rows : Declared α) (n : Nat) : Prop :=
  ∀ v s order, v ∈ keys rows → s.color v = .white → (s.whites rows).card ≤ n → Explored rows s order →
    (dfs rows n v s).cycles = [] → Extends rows s (dfs rows n v s) order ∧ (dfs rows n v s).color v = .black

theorem follow_extends (hfinishes : Finishes rows n) (hd : d ∈ keys rows) (hn : (s.whites rows).card ≤ n)
    (hs : Explored rows s order) (hnone : (Search.follow rows n v s d).cycles = []) :
    Extends rows s (Search.follow rows n v s d) order ∧ (Search.follow rows n v s d).color d = .black := by
  unfold Search.follow at hnone ⊢
  rw [if_pos hd] at hnone ⊢
  cases hcolor : s.color d with
  | gray =>
    rw [hcolor] at hnone
    simp [Search.report] at hnone
  | white =>
    rw [hcolor] at hnone
    obtain ⟨hextends, hblack⟩ := hfinishes d { s with parent := Function.update s.parent d (some v) } order hd hcolor hn
      ⟨hs.black, hs.ordered⟩ hnone
    exact ⟨⟨hextends.explored, hextends.gray⟩, hblack⟩
  | black => exact ⟨Extends.refl hs, hcolor⟩

/-- A loop of parts of a search. `Q` is what each of them makes of the color of its node. -/
theorem foldl_extends {f : Search α → α → Search α} {Q : Color → Prop}
    (hkeeps : ∀ s d, s.cycles ≠ [] → (f s d).cycles ≠ [])
    (hstep : ∀ s order, ∀ d ∈ ds, (s.whites rows).card ≤ n → Explored rows s order → (f s d).cycles = [] →
      Extends rows s (f s d) order ∧ Q ((f s d).color d))
    (hQ : ∀ s s' order u, Extends rows s s' order → Explored rows s order → Q (s.color u) → Q (s'.color u))
    (hn : (s.whites rows).card ≤ n) (hs : Explored rows s order) (hnone : (ds.foldl f s).cycles = []) :
    Extends rows s (ds.foldl f s) order ∧ ∀ d ∈ ds, Q ((ds.foldl f s).color d) := by
  induction ds generalizing s order with
  | nil => exact ⟨Extends.refl hs, by simp⟩
  | cons d ds ih =>
    have hclean : (f s d).cycles = [] := by
      by_contra hfound
      exact List.foldlRecOn (motive := fun s : Search α => s.cycles ≠ []) ds f hfound
        (fun s hs d _ => hkeeps s d hs) hnone
    obtain ⟨hextends, hcolor⟩ := hstep s order d List.mem_cons_self hn hs hclean
    have hrest := fun more (hmore : Explored rows (f s d) (order ++ more)) =>
      ih (fun s order d hd => hstep s order d (List.mem_cons_of_mem _ hd)) (Nat.le_trans (hextends.whites hs) hn)
        hmore hnone
    refine ⟨hextends.trans fun more hmore => (hrest more hmore).1, fun u hu => ?_⟩
    obtain ⟨more, hmore⟩ := hextends.explored
    rcases List.mem_cons.mp hu with rfl | hu
    · exact hQ _ _ _ _ (hrest more hmore).1 hmore hcolor
    · exact (hrest more hmore).2 u hu

/-- With a level for each node that has not been reached, the search finishes all that the node depends on, and then
the node. -/
theorem dfs_finishes (hwf : WellFormed rows) (n : Nat) : Finishes rows n := by
  induction n with
  | zero =>
    intro v s order hkey hwhite hn
    have hlt := paint_whites hkey hwhite
    omega
  | succ n ih =>
    intro v s order hkey hwhite hn hs hnone
    obtain ⟨ds, hmem⟩ := mem_keys.mp hkey
    have hrow := lookup_mem hwf.nodup hmem
    rw [dfs_succ hrow] at hnone ⊢
    have hpainted : Explored rows (s.paint v .gray) order := by
      refine ⟨fun u => ?_, hs.ordered⟩
      rw [paint_color, ← hs.black]
      by_cases hu : u = v
      · rw [if_pos hu, hu, hwhite]
        exact ⟨fun h => (nomatch h), fun h => (nomatch h)⟩
      · rw [if_neg hu]
    have hle : ((s.paint v .gray).whites rows).card ≤ n := by
      have hlt := paint_whites hkey hwhite
      omega
    obtain ⟨hextends, hblack⟩ := foldl_extends (Q := fun c => c = .black) (fun _ _ h => follow_cycles h)
      (fun s order d hd hn hs => follow_extends ih (hwf.closed (v, ds) hmem d hd) hn hs)
      (fun _ _ _ _ h hs => h.black hs) hle hpainted hnone
    obtain ⟨more, hmore⟩ := hextends.explored
    refine ⟨⟨⟨more ++ [v], ?_⟩, fun u => ?_⟩, by rw [paint_color, if_pos rfl]⟩
    · rw [← List.append_assoc]
      refine ⟨fun u => ?_, hmore.ordered.snoc fun d hd => ?_⟩
      · rw [paint_color, List.mem_append, ← hmore.black]
        by_cases hu : u = v
        · simp [hu]
        · simp [hu]
      · rw [deps_mem hwf.nodup hmem] at hd
        exact (hmore.black d).mp (hblack d hd)
    · rw [paint_color]
      by_cases hu : u = v
      · rw [if_pos hu, hu, hwhite]
        exact ⟨fun h => (nomatch h), fun h => (nomatch h)⟩
      · rw [if_neg hu, hextends.gray, paint_color, if_neg hu]

/-- Where the search from every node comes upon no cycle, the nodes have an order. -/
theorem ordered_of_cycles (hwf : WellFormed rows) (hnone : cycles rows = []) :
    ∃ order, Ordered rows order ∧ ∀ v ∈ keys rows, v ∈ order := by
  have hstart : Explored rows Search.start [] := ⟨fun v => by simp [Search.start], Ordered.nil⟩
  have hle : ((Search.start : Search α).whites rows).card ≤ rows.length := by
    refine Nat.le_trans (Finset.card_filter_le _ _) (Nat.le_trans (List.toFinset_card_le _) ?_)
    rw [keys, List.length_map]
  have hstep : ∀ s order, ∀ v ∈ keys rows, (s.whites rows).card ≤ rows.length → Explored rows s order →
      (if s.color v = .white then dfs rows rows.length v s else s).cycles = [] →
      Extends rows s (if s.color v = .white then dfs rows rows.length v s else s) order ∧
        (if s.color v = .white then dfs rows rows.length v s else s).color v ≠ .white := by
    intro s order v hv hn hs hnone
    split
    · rename_i hwhite
      rw [if_pos hwhite] at hnone
      obtain ⟨hextends, hblack⟩ := dfs_finishes hwf rows.length v s order hv hwhite hn hs hnone
      exact ⟨hextends, by simp [hblack]⟩
    · rename_i hreached
      exact ⟨Extends.refl hs, hreached⟩
  have hkeeps : ∀ (s : Search α) v, s.cycles ≠ [] →
      (if s.color v = .white then dfs rows rows.length v s else s).cycles ≠ [] := by
    intro s v hs
    split
    · exact dfs_cycles rows rows.length v s hs
    · exact hs
  have hQ : ∀ (s s' : Search α) order u, Extends rows s s' order → Explored rows s order → s.color u ≠ .white →
      s'.color u ≠ .white := by
    intro s s' order u hextends hs hreached
    cases hcolor : s.color u with
    | white => exact absurd hcolor hreached
    | gray => simp [(hextends.gray u).mpr hcolor]
    | black => simp [hextends.black hs hcolor]
  obtain ⟨hextends, hreached⟩ := foldl_extends (Q := fun c => c ≠ .white) hkeeps hstep hQ hle hstart hnone
  obtain ⟨order, horder⟩ := hextends.explored
  refine ⟨order, horder.ordered, fun v hv => (horder.black v).mp ?_⟩
  have hreached' := hreached v hv
  have hgray := mt (hextends.gray v).mp (by simp [Search.start])
  generalize hcolor : Search.color _ v = c at hreached' hgray ⊢
  cases c with
  | white => exact absurd rfl hreached'
  | gray => exact absurd rfl hgray
  | black => rfl

end Search

section Sorting

variable {α : Type} [DecidableEq α] {rows : Declared α} {s : Kahn α} {sorted ds : List α} {v t d : α} {n : Nat}

local instance : Keyed α (α × List α) := ⟨Prod.fst⟩

theorem find_row (hnodup : (keys rows).Nodup) (h : (v, ds) ∈ rows) : rows.find? (fun r => key r == v) = some (v, ds) :=
  Table.find_some_iff (t := ⟨rows, hnodup⟩).mpr ⟨h, rfl⟩

theorem degree_foldl (rows : Declared α) (ds : List α) (degree : α → Int) (t u : α) :
    (ds.foldl (fun degree d => if d ∈ keys rows then Function.update degree t (degree t + 1) else degree) degree) u =
      if u = t then degree u + ds.countP (fun d => d ∈ keys rows) else degree u := by
  induction ds generalizing degree with
  | nil => simp
  | cons d ds ih =>
    rw [List.foldl_cons, ih, List.countP_cons]
    by_cases hu : u = t
    · subst hu
      by_cases hd : d ∈ keys rows
      · simp [hd]
        omega
      · simp [hd]
    · by_cases hd : d ∈ keys rows <;> simp [hd, hu]

theorem inDegree_mem (hwf : WellFormed rows) (hv : (v, ds) ∈ rows) : inDegree rows v = ds.length := by
  have hloop := Table.foldl_update (fun (degree : α → Int) u => degree u)
    (fun (r : α × List α) k => k + (r.2.countP (fun d => d ∈ keys rows) : Int))
    (fun degree r u => degree_foldl rows r.2 degree r.1 u) hwf.nodup (fun _ => 0) v
  rw [find_row hwf.nodup hv] at hloop
  have hall : ds.countP (fun d => d ∈ keys rows) = ds.length :=
    List.countP_eq_length.mpr fun d hd => decide_eq_true (hwf.closed (v, ds) hv d hd)
  simp only [Option.map_some, Option.getD_some, hall] at hloop
  rw [inDegree, hloop]
  omega

/-- What a node that depends on `v` so often does to its degree and to the queue when `v` is sorted. -/
theorem release_foldl (v t : α) (s : Kahn α) (ds : List α) :
    ds.foldl (Kahn.release v t) s = ⟨Function.update s.degree t (s.degree t - ds.count v),
      s.queue ++ if 0 < s.degree t ∧ s.degree t ≤ ds.count v then [t] else []⟩ := by
  induction ds generalizing s with
  | nil =>
    have hnone : ¬ (0 < s.degree t ∧ s.degree t ≤ 0) := by omega
    simp [hnone]
  | cons d ds ih =>
    rw [List.foldl_cons, ih]
    unfold Kahn.release
    by_cases hd : d = v
    · simp only [hd, if_true, List.count_cons_self, Function.update_self, Function.update_idem]
      have hdegree : s.degree t - 1 - (ds.count v : Int) = s.degree t - ((ds.count v + 1 : Nat) : Int) := by omega
      rw [hdegree]
      by_cases hone : s.degree t = 1
      · rw [if_pos (by omega), if_neg (by omega), if_pos (by omega), List.append_nil]
      · rw [if_neg (by omega)]
        by_cases hlast : 0 < s.degree t ∧ s.degree t ≤ ((ds.count v + 1 : Nat) : Int)
        · rw [if_pos hlast, if_pos (by omega)]
        · rw [if_neg hlast, if_neg (by omega)]
    · simp [hd]

theorem visit_degree (hnodup : (keys rows).Nodup) (v : α) (s : Kahn α) (ht : (t, ds) ∈ rows) :
    (Kahn.visit rows v s).degree t = s.degree t - ds.count v := by
  have hbody : ∀ (s : Kahn α) (r : α × List α) u, (r.2.foldl (Kahn.release v r.1) s).degree u =
      if u = key r then s.degree u - (r.2.count v : Int) else s.degree u := by
    intro s r u
    rw [release_foldl]
    by_cases hu : u = r.1
    · subst hu
      simp [Keyed.key]
    · have hu' : ¬ u = key r := hu
      simp [hu, hu']
  have hloop := Table.foldl_update (fun (s : Kahn α) u => s.degree u)
    (fun (r : α × List α) k => k - (r.2.count v : Int)) hbody hnodup s t
  rw [find_row hnodup ht] at hloop
  exact hloop

theorem visit_queue (hnodup : (keys rows).Nodup) (v : α) (s : Kahn α) : (Kahn.visit rows v s).queue =
    s.queue ++ (rows.filter (fun r => 0 < s.degree r.1 ∧ s.degree r.1 ≤ r.2.count v)).map Prod.fst := by
  unfold Kahn.visit
  induction rows generalizing s with
  | nil => simp
  | cons r rows ih =>
    obtain ⟨hr, hnodup⟩ := List.nodup_cons.mp hnodup
    rw [List.foldl_cons, ih hnodup, release_foldl, List.filter_cons]
    have hothers : rows.filter (fun q => 0 < Function.update s.degree r.1 (s.degree r.1 - r.2.count v) q.1 ∧
        Function.update s.degree r.1 (s.degree r.1 - r.2.count v) q.1 ≤ q.2.count v) =
        rows.filter (fun q => 0 < s.degree q.1 ∧ s.degree q.1 ≤ q.2.count v) := by
      apply List.filter_congr
      intro q hq
      have hne : q.1 ≠ r.1 := fun he => hr (List.mem_map.mpr ⟨q, hq, he⟩)
      rw [Function.update_of_ne hne]
    rw [hothers]
    by_cases hready : 0 < s.degree r.1 ∧ s.degree r.1 ≤ r.2.count v
    · simp [hready]
    · simp [hready]

theorem eraseDups_of_nodup {l : List α} (h : l.Nodup) : l.eraseDups = l := by
  induction l with
  | nil => rfl
  | cons a l ih =>
    obtain ⟨ha, hl⟩ := List.nodup_cons.mp h
    have hfilter : l.filter (fun b => !b == a) = l := by
      apply List.filter_eq_self.mpr
      intro b hb
      have hne : b ≠ a := fun he => ha (he ▸ hb)
      simp [hne]
    rw [List.eraseDups_cons, hfilter, ih hl]

theorem countP_snoc (hv : v ∉ sorted) (ds : List α) :
    ds.countP (fun d => d ∉ sorted) = ds.countP (fun d => d ∉ sorted ++ [v]) + ds.count v := by
  induction ds with
  | nil => rfl
  | cons d ds ih =>
    rw [List.countP_cons, List.countP_cons, List.count_cons, ih]
    by_cases hd : d = v
    · subst hd
      simp [hv]
      omega
    · simp [hd]
      omega

theorem countP_zero : ds.countP (fun d => d ∉ sorted) = 0 ↔ ∀ d ∈ ds, d ∈ sorted := by
  simp [List.countP_eq_zero]

/-- What holds when some nodes are sorted: a node is sorted or in the queue if all that it depends on is sorted. -/
structure Sorted (rows : Declared α) (sorted : List α) (s : Kahn α) : Prop where
  degree : ∀ v ds, (v, ds) ∈ rows → s.degree v = ds.countP (fun d => d ∉ sorted)
  mem : ∀ v, v ∈ sorted ++ s.queue ↔ ∃ ds, (v, ds) ∈ rows ∧ ∀ d ∈ ds, d ∈ sorted
  nodup : (sorted ++ s.queue).Nodup
  ordered : Ordered rows sorted

theorem sorted_start (hwf : WellFormed rows) :
    Sorted rows [] ⟨inDegree rows, (keys rows).eraseDups.filter (fun v => inDegree rows v = 0)⟩ := by
  refine ⟨fun v ds hv => ?_, fun v => ?_, ?_, Ordered.nil⟩
  · refine (inDegree_mem hwf hv).trans ?_
    simp
  · rw [List.nil_append, eraseDups_of_nodup hwf.nodup, List.mem_filter, mem_keys]
    constructor
    · intro h
      obtain ⟨⟨ds, hv⟩, hzero⟩ := h
      rw [inDegree_mem hwf hv] at hzero
      have hnil : ds = [] := by simpa using hzero
      exact ⟨ds, hv, by simp [hnil]⟩
    · intro h
      obtain ⟨ds, hv, hnone⟩ := h
      have hnil : ds = [] := List.eq_nil_iff_forall_not_mem.mpr fun d hd => by simpa using hnone d hd
      exact ⟨⟨ds, hv⟩, by simp [inDegree_mem hwf hv, hnil]⟩
  · rw [List.nil_append, eraseDups_of_nodup hwf.nodup]
    exact hwf.nodup.filter _

theorem sorted_step {queue : List α} {degree : α → Int} (hwf : WellFormed rows)
    (h : Sorted rows sorted ⟨degree, v :: queue⟩) :
    Sorted rows (sorted ++ [v]) (Kahn.visit rows v ⟨degree, queue⟩) := by
  have hfresh : v ∉ sorted := by
    intro hin
    exact (List.nodup_append.mp h.nodup).2.2 v hin v List.mem_cons_self rfl
  have hsame : (sorted ++ [v]) ++ queue = sorted ++ v :: queue := by simp
  have hdegree : ∀ t ds, (t, ds) ∈ rows → (Kahn.visit rows v ⟨degree, queue⟩).degree t =
      ds.countP (fun d => d ∉ sorted ++ [v]) := by
    intro t ds ht
    rw [visit_degree hwf.nodup v _ ht]
    have hold := h.degree t ds ht
    have hcount := countP_snoc hfresh ds
    simp only at hold ⊢
    omega
  have hnew : ∀ t ds, (t, ds) ∈ rows → (0 < degree t ∧ degree t ≤ ds.count v ↔
      (∀ d ∈ ds, d ∈ sorted ++ [v]) ∧ ¬ ∀ d ∈ ds, d ∈ sorted) := by
    intro t ds ht
    have hold := h.degree t ds ht
    have hcount := countP_snoc hfresh ds
    rw [← countP_zero, ← countP_zero]
    simp only at hold
    omega
  refine ⟨hdegree, fun t => ?_, ?_, ?_⟩
  · rw [visit_queue hwf.nodup, ← List.append_assoc, hsame, List.mem_append, h.mem]
    constructor
    · intro ht
      rcases ht with ⟨ds, ht, hall⟩ | ht
      · exact ⟨ds, ht, fun d hd => List.mem_append_left _ (hall d hd)⟩
      · obtain ⟨⟨t', ds⟩, hr, rfl⟩ := List.mem_map.mp ht
        obtain ⟨ht, hready⟩ := List.mem_filter.mp hr
        exact ⟨ds, ht, ((hnew t' ds ht).mp (by simpa using hready)).1⟩
    · intro ht
      obtain ⟨ds, ht, hall⟩ := ht
      by_cases hold : ∀ d ∈ ds, d ∈ sorted
      · exact Or.inl ⟨ds, ht, hold⟩
      · have hready := (hnew t ds ht).mpr ⟨hall, hold⟩
        exact Or.inr (List.mem_map.mpr ⟨(t, ds), List.mem_filter.mpr ⟨ht, by simpa using hready⟩, rfl⟩)
  · rw [visit_queue hwf.nodup, ← List.append_assoc, hsame, List.nodup_append]
    refine ⟨h.nodup, (hwf.nodup).sublist (List.Sublist.map _ List.filter_sublist), ?_⟩
    intro a ha b hb he
    subst he
    obtain ⟨ds, ht, hall⟩ := (h.mem a).mp ha
    obtain ⟨⟨t, ds'⟩, hr, rfl⟩ := List.mem_map.mp hb
    obtain ⟨ht', hready⟩ := List.mem_filter.mp hr
    have hds := (deps_mem hwf.nodup ht).symm.trans (deps_mem hwf.nodup ht')
    subst hds
    exact ((hnew t ds ht').mp (by simpa using hready)).2 hall
  · apply h.ordered.snoc
    obtain ⟨ds, hv, hall⟩ := (h.mem v).mp (by simp)
    rw [deps_mem hwf.nodup hv]
    exact hall

theorem Sorted.length_le (h : Sorted rows sorted s) : (sorted ++ s.queue).length ≤ rows.length := by
  have hsub : sorted ++ s.queue ⊆ keys rows := by
    intro v hv
    obtain ⟨ds, hrow, _⟩ := (h.mem v).mp hv
    exact mem_keys.mpr ⟨ds, hrow⟩
  have hle := (List.subperm_of_subset h.nodup hsub).length_le
  rwa [keys, List.length_map] at hle

/-- The loop before its first iteration, with nothing sorted. -/
def Kahn.start (rows : Declared α) : Kahn α × List α :=
  (⟨inDegree rows, (keys rows).eraseDups.filter (fun v => inDegree rows v = 0)⟩, [])

/-- One iteration of the loop. An empty queue is its end. -/
def Kahn.iteration (rows : Declared α) : Kahn α × List α → Kahn α × List α
  | (⟨degree, []⟩, sorted) => (⟨degree, []⟩, sorted)
  | (⟨degree, v :: queue⟩, sorted) => (Kahn.visit rows v ⟨degree, queue⟩, sorted ++ [v])

theorem kahnLoop_iterate (rows : Declared α) (n : Nat) (s : Kahn α) (sorted : List α) :
    kahnLoop rows n s sorted = ((Kahn.iteration rows)^[n] (s, sorted)).2 := by
  induction n generalizing s sorted with
  | zero => simp [kahnLoop]
  | succ n ih =>
    obtain ⟨degree, queue⟩ := s
    rw [Function.iterate_succ_apply]
    cases queue with
    | nil =>
      have hstill : Kahn.iteration rows (⟨degree, []⟩, sorted) = (⟨degree, []⟩, sorted) := rfl
      rw [kahnLoop, hstill, Function.iterate_fixed hstill]
      exact Nat.succ_ne_zero n
    | cons v queue => rw [kahnLoop, ih]; rfl

/-- With an iteration for each node that is not sorted the loop gets to the end of its queue. -/
theorem iterate_sorted (hwf : WellFormed rows) (h : Sorted rows sorted s) (hn : rows.length ≤ sorted.length + n) :
    ∃ degree done, (Kahn.iteration rows)^[n] (s, sorted) = (⟨degree, []⟩, done) ∧ Sorted rows done ⟨degree, []⟩ := by
  induction n generalizing s sorted with
  | zero =>
    have hle := h.length_le
    rw [List.length_append] at hle
    have hqueue : s.queue = [] := List.eq_nil_of_length_eq_zero (by omega)
    obtain ⟨degree, queue⟩ := s
    cases hqueue
    exact ⟨degree, sorted, rfl, h⟩
  | succ n ih =>
    obtain ⟨degree, queue⟩ := s
    rw [Function.iterate_succ_apply]
    cases queue with
    | nil => exact ⟨degree, sorted, Function.iterate_fixed rfl n, h⟩
    | cons v queue =>
      apply ih (sorted_step hwf h)
      rw [List.length_append, List.length_singleton]
      omega

/-- When the queue is empty, all nodes of an order are sorted. -/
theorem Sorted.all {degree : α → Int} (hwf : WellFormed rows) (h : Sorted rows sorted ⟨degree, []⟩) {order : List α}
    (horder : Ordered rows order) : ∀ v ∈ order, v ∈ keys rows → v ∈ sorted := by
  refine horder.induct (S := fun v => v ∈ keys rows → v ∈ sorted) fun v _ hdeps hkey => ?_
  obtain ⟨ds, hrow⟩ := mem_keys.mp hkey
  rw [deps_mem hwf.nodup hrow] at hdeps
  have hin := (h.mem v).mpr ⟨ds, hrow, fun d hd => hdeps d hd (hwf.closed (v, ds) hrow d hd)⟩
  rwa [List.append_nil] at hin

/-- Where the search comes upon no cycle, all nodes are sorted when the queue is empty. -/
theorem Sorted.perm {degree : α → Int} (hwf : WellFormed rows) (h : Sorted rows sorted ⟨degree, []⟩)
    (hnone : cycles rows = []) : sorted.Perm (keys rows) := by
  obtain ⟨order, horder, hall⟩ := ordered_of_cycles hwf hnone
  have hnodup := h.nodup
  rw [List.append_nil] at hnodup
  apply (List.perm_ext_iff_of_nodup hnodup hwf.nodup).mpr
  intro v
  constructor
  · intro hv
    obtain ⟨ds, hrow, _⟩ := (h.mem v).mp (List.mem_append_left _ hv)
    exact mem_keys.mpr ⟨ds, hrow⟩
  · intro hv
    exact h.all hwf horder v (hall v hv) hv

/-- Where the search comes upon no cycle, the loop comes to its end, and what is sorted then is the result. -/
theorem sort_terminates (hwf : WellFormed rows) (hnone : cycles rows = []) :
    ∃ degree, (Kahn.iteration rows)^[rows.length] (Kahn.start rows) = (⟨degree, []⟩, sort rows) ∧
      Sorted rows (sort rows) ⟨degree, []⟩ := by
  obtain ⟨degree, done, hiterate, hdone⟩ := iterate_sorted (n := rows.length) hwf (sorted_start hwf) (by simp)
  have hloop : kahnLoop rows rows.length ⟨inDegree rows,
      (keys rows).eraseDups.filter (fun v => inDegree rows v = 0)⟩ [] = done := by
    rw [kahnLoop_iterate, hiterate]
  have hlen := (hdone.perm hwf hnone).length_eq
  rw [keys, List.length_map] at hlen
  have hsort : sort rows = done := by
    unfold sort
    dsimp only
    rw [hloop]
    exact if_neg (by rw [hlen]; exact Nat.lt_irrefl _)
  rw [hsort]
  exact ⟨degree, hiterate, hdone⟩

/-- Where the search comes upon no cycle, the sort puts every node behind those it depends on, and leaves none out. -/
theorem sort_ordered (hwf : WellFormed rows) (hnone : cycles rows = []) :
    (sort rows).Perm (keys rows) ∧ Ordered rows (sort rows) := by
  obtain ⟨degree, _, h⟩ := sort_terminates hwf hnone
  exact ⟨h.perm hwf hnone, h.ordered⟩

end Sorting

end A2ARegistry.Base.Topology
