import Mathlib.Logic.Relation
import Mathlib.Order.WellFoundedSet

namespace A2ARegistry.Base.Graph

variable {V : Type}

/-- A relation without cycles, loops included. -/
def Acyclic (r : V → V → Prop) : Prop := ∀ v, ¬ Relation.TransGen r v v

/-- `b` can be reached from `a` in any number of steps, zero included. -/
def Reaches (r : V → V → Prop) : V → V → Prop := Relation.ReflTransGen r

section
variable {r r' : V → V → Prop}

theorem Acyclic.mono (h : Acyclic r) (hr : ∀ a b, r' a b → r a b) : Acyclic r' := by
  intro v hv
  exact h v (Relation.TransGen.mono (p := r) hr v v hv)

/-- Induction from the sources of a finite graph without cycles. -/
theorem Acyclic.induction (h : Acyclic r) {s : Set V} (hs : s.Finite) {P : V → Prop}
    (hP : ∀ v ∈ s, (∀ u ∈ s, r u v → P u) → P v) : ∀ v ∈ s, P v := by
  have hstrict : IsStrictOrder V (Relation.TransGen r) :=
    { irrefl := h, trans := fun _ _ _ => Relation.TransGen.trans }
  intro v hv
  refine hs.wellFoundedOn.induction (r := Relation.TransGen r) hv fun v hv ih => ?_
  exact hP v hv fun u hu huv => ih u hu (.single huv)

/-- A path along old edges and new ones from `p` to `c` either uses old ones only, or it
gets to `p` and on from `c` by old ones. -/
theorem path_insert {p c : V} (hr : ∀ a b, r' a b → r a b ∨ a = p ∧ b = c) {a b : V}
    (h : Relation.TransGen r' a b) :
    Relation.TransGen r a b ∨ Reaches r a p ∧ Reaches r c b := by
  induction h with
  | single hab =>
    rcases hr _ _ hab with hab | ⟨rfl, rfl⟩
    · exact Or.inl (.single hab)
    · exact Or.inr ⟨.refl, .refl⟩
  | tail _ hbc ih =>
    rcases hr _ _ hbc with hbc | ⟨rfl, rfl⟩
    · rcases ih with hab | ⟨hap, hcb⟩
      · exact Or.inl (hab.tail hbc)
      · exact Or.inr ⟨hap, hcb.tail hbc⟩
    · rcases ih with hab | ⟨hap, _⟩
      · exact Or.inr ⟨hab.to_reflTransGen, .refl⟩
      · exact Or.inr ⟨hap, .refl⟩

/-- An edge may be added unless its end already reaches its start. -/
theorem Acyclic.insert (h : Acyclic r) {p c : V} (hr : ∀ a b, r' a b → r a b ∨ a = p ∧ b = c)
    (hn : ¬ Reaches r c p) : Acyclic r' := by
  intro v hv
  rcases path_insert hr hv with hv | ⟨hvp, hcv⟩
  · exact h v hv
  · exact hn (hcv.trans hvp)

/-- The same for new edges into one vertex from any number of others. -/
theorem path_insertAll {P : V → Prop} {c : V} {a b : V}
    (h : Relation.TransGen (fun a b => r a b ∨ P a ∧ b = c) a b) :
    Relation.TransGen r a b ∨ ∃ p, P p ∧ Reaches r a p ∧ Reaches r c b := by
  induction h with
  | single hab =>
    rcases hab with hab | ⟨hp, rfl⟩
    · exact Or.inl (.single hab)
    · exact Or.inr ⟨_, hp, .refl, .refl⟩
  | tail _ hbc ih =>
    rcases hbc with hbc | ⟨hp, rfl⟩
    · rcases ih with hab | ⟨p, hp, hap, hcb⟩
      · exact Or.inl (hab.tail hbc)
      · exact Or.inr ⟨p, hp, hap, hcb.tail hbc⟩
    · rcases ih with hab | ⟨q, hq, haq, _⟩
      · exact Or.inr ⟨_, hp, hab.to_reflTransGen, .refl⟩
      · exact Or.inr ⟨q, hq, haq, .refl⟩

/-- Edges into one vertex may be added at once where each of them may be added alone. -/
theorem Acyclic.insertAll_iff (h : Acyclic r) {P : V → Prop} {c : V} :
    Acyclic (fun a b => r a b ∨ P a ∧ b = c) ↔ ∀ p, P p → ¬ Reaches r c p := by
  constructor
  · intro hnew p hp hcp
    have hold : Reaches (fun a b => r a b ∨ P a ∧ b = c) c p :=
      Relation.ReflTransGen.mono (fun _ _ hab => Or.inl hab) c p hcp
    exact hnew c (Relation.TransGen.tail' hold (Or.inr ⟨hp, rfl⟩))
  · intro hnone v hv
    rcases path_insertAll hv with hv | ⟨p, hp, hvp, hcv⟩
    · exact h v hv
    · exact hnone p hp (hcv.trans hvp)

/-- Any edges into a vertex with no edge out of it may be added. -/
theorem Acyclic.sink (h : Acyclic r) {c : V} (hr : ∀ a b, r' a b → r a b ∨ b = c)
    (hc : ∀ b, ¬ r' c b) : Acyclic r' := by
  have hpath : ∀ {a b}, Relation.TransGen r' a b → Relation.TransGen r a b ∨ b = c := by
    intro a b hab
    induction hab with
    | single hab =>
      rcases hr _ _ hab with hab | hb
      · exact Or.inl (.single hab)
      · exact Or.inr hb
    | tail _ hbc ih =>
      rcases ih with hab | rfl
      · rcases hr _ _ hbc with hbc | hb
        · exact Or.inl (hab.tail hbc)
        · exact Or.inr hb
      · exact absurd hbc (hc _)
  intro v hv
  rcases hpath hv with hv | rfl
  · exact h v hv
  · obtain ⟨b, hvb, _⟩ := Relation.TransGen.head'_iff.mp hv
    exact hc b hvb

/-- A walk of `n` steps. -/
inductive Walk (r : V → V → Prop) : Nat → V → V → Prop
  | refl (v : V) : Walk r 0 v v
  | tail {n : Nat} {a b c : V} (walk : Walk r n a b) (step : r b c) : Walk r (n + 1) a c

theorem Walk.mono (hr : ∀ a b, r a b → r' a b) {n : Nat} {a b : V} (h : Walk r n a b) : Walk r' n a b := by
  induction h with
  | refl v => exact .refl v
  | tail _ hstep ih => exact ih.tail (hr _ _ hstep)

/-- Where edges into a vertex with no edge out of it are added, a walk to any other vertex uses old ones. -/
theorem Walk.sink {c : V} (hr : ∀ a b, r' a b → r a b ∨ b = c) (hc : ∀ b, ¬ r' c b) {n : Nat} {a b : V}
    (h : Walk r' n a b) (hb : b ≠ c) : Walk r n a b := by
  induction h with
  | refl v => exact .refl v
  | @tail n a v b _ hstep ih =>
    have hv : v ≠ c := fun he => hc b (he ▸ hstep)
    exact (ih hv).tail ((hr v b hstep).resolve_right hb)

/-- A relation with an edge more. -/
def insertEdge (r : V → V → Prop) (p c : V) (a b : V) : Prop := r a b ∨ a = p ∧ b = c

/-- The edge from `p` to `c` would lie on a cycle. -/
def Closes (r : V → V → Prop) (p c : V) : Prop := Reaches (insertEdge r p c) c p

/-- It would exactly where its end reaches its start without it. -/
theorem closes_iff {p c : V} : Closes r p c ↔ Reaches r c p := by
  constructor
  · intro h
    rcases Relation.reflTransGen_iff_eq_or_transGen.mp h with rfl | h
    · exact .refl
    · rcases path_insert (fun _ _ hab => hab) h with hcp | ⟨hcp, _⟩
      · exact hcp.to_reflTransGen
      · exact hcp
  · intro h
    exact Relation.ReflTransGen.mono (fun _ _ hab => Or.inl hab) _ _ h

end

section
variable [DecidableEq V]

/-- The ends of the edges that start at `v`. -/
def succs (edges : List (V × V)) (v : V) : List V :=
  (edges.filter (fun e => e.1 == v)).map Prod.snd

def Edge (edges : List (V × V)) (a b : V) : Prop := (a, b) ∈ edges

/-- Depth-first search with a stack and a set of visited vertices. The first number
counts the iterations left. -/
def search (edges : List (V × V)) (goal : V) : Nat → List V → List V → Bool
  | 0, _, _ => false
  | _ + 1, _, [] => false
  | n + 1, visited, v :: stack =>
    if v = goal then true
    else if v ∈ visited then search edges goal n visited stack
    else search edges goal n (v :: visited) ((succs edges v).reverse ++ stack)

/-- The same search where it is not known to end: `none` when the iterations do not end it. -/
def walk (next : V → List V) (goal : V) : Nat → List V → List V → Option Bool
  | 0, _, _ => none
  | _ + 1, _, [] => some false
  | n + 1, visited, v :: stack =>
    if v = goal then some true
    else if v ∈ visited then walk next goal n visited stack
    else walk next goal n (v :: visited) ((next v).reverse ++ stack)

variable {edges : List (V × V)} {goal : V}

theorem mem_succs {a b : V} : b ∈ succs edges a ↔ Edge edges a b := by
  simp [succs, Edge]

/-- How many edges start at a vertex still to be visited. -/
def pending (edges : List (V × V)) (visited : List V) : Nat :=
  edges.countP (fun e => decide (e.1 ∉ visited))

/-- Visiting a vertex takes its edges off the pending ones. -/
theorem pending_visit (edges : List (V × V)) {visited : List V} {v : V} (hv : v ∉ visited) :
    pending edges (v :: visited) + (succs edges v).length = pending edges visited := by
  have hlen : (succs edges v).length = edges.countP (fun e => e.1 == v) := by
    rw [succs, List.length_map, List.countP_eq_length_filter]
  rw [hlen, pending, pending]
  clear hlen
  induction edges with
  | nil => rfl
  | cons e edges ih =>
    have hhead : (if decide (e.1 ∉ v :: visited) = true then 1 else 0) +
        (if (e.1 == v) = true then 1 else 0) = if decide (e.1 ∉ visited) = true then 1 else 0 := by
      by_cases he : e.1 = v
      · simp [he, hv]
      · simp [he]
    rw [List.countP_cons, List.countP_cons, List.countP_cons]
    omega

/-- What the search finds is reached from the stack. -/
theorem search_sound {n : Nat} {visited stack : List V} (h : search edges goal n visited stack = true) :
    ∃ v ∈ stack, Reaches (Edge edges) v goal := by
  induction n generalizing visited stack with
  | zero => cases h
  | succ n ih =>
    cases stack with
    | nil => cases h
    | cons v stack =>
      unfold search at h
      split at h
      · rename_i hv
        exact ⟨v, List.mem_cons_self, hv ▸ .refl⟩
      split at h
      · obtain ⟨w, hw, hreach⟩ := ih h
        exact ⟨w, List.mem_cons_of_mem _ hw, hreach⟩
      · obtain ⟨w, hw, hreach⟩ := ih h
        rcases List.mem_append.mp hw with hw | hw
        · have hvw : Edge edges v w := mem_succs.mp (List.mem_reverse.mp hw)
          exact ⟨v, List.mem_cons_self, hreach.head hvw⟩
        · exact ⟨w, List.mem_cons_of_mem _ hw, hreach⟩

/-- Every edge out of the visited vertices leads to a visited or a stacked one. -/
def Closed (edges : List (V × V)) (visited stack : List V) : Prop :=
  ∀ a ∈ visited, ∀ b, Edge edges a b → b ∈ visited ∨ b ∈ stack

/-- A path that leaves the visited vertices does so over the stack. -/
theorem Closed.leaves {visited stack : List V} (h : Closed edges visited stack)
    (hg : goal ∉ visited) {a : V} (ha : a ∈ visited) (hreach : Reaches (Edge edges) a goal) :
    ∃ v ∈ stack, v ∉ visited ∧ Reaches (Edge edges) v goal := by
  induction hreach using Relation.ReflTransGen.head_induction_on with
  | refl => exact absurd ha hg
  | @head a b hab hb ih =>
    by_cases hv : b ∈ visited
    · exact ih hv
    · rcases h a ha b hab with hb' | hb'
      · exact absurd hb' hv
      · exact ⟨b, hb', hv, hb⟩

/-- With an iteration for each pending edge and each stacked vertex, the search finds what
the stack reaches. -/
theorem search_complete {n : Nat} {visited stack : List V} (hn : pending edges visited + stack.length ≤ n)
    (hc : Closed edges visited stack) (hg : goal ∉ visited)
    (h : ∃ v ∈ stack, Reaches (Edge edges) v goal) : search edges goal n visited stack = true := by
  induction n generalizing visited stack with
  | zero =>
    obtain ⟨v, hv, _⟩ := h
    have := List.length_pos_of_mem hv
    omega
  | succ n ih =>
    cases stack with
    | nil =>
      obtain ⟨v, hv, _⟩ := h
      cases hv
    | cons v stack =>
      rw [List.length_cons] at hn
      unfold search
      split
      · rfl
      rename_i hne
      split
      · rename_i hv
        have hc' : Closed edges visited stack := by
          intro a ha b hab
          rcases hc a ha b hab with hb | hb
          · exact Or.inl hb
          · rcases List.mem_cons.mp hb with rfl | hb
            · exact Or.inl hv
            · exact Or.inr hb
        apply ih (by omega) hc' hg
        obtain ⟨w, hw, hreach⟩ := h
        rcases List.mem_cons.mp hw with rfl | hw
        · obtain ⟨u, hu, _, hreach⟩ := hc'.leaves hg hv hreach
          exact ⟨u, hu, hreach⟩
        · exact ⟨w, hw, hreach⟩
      · rename_i hv
        have hp := pending_visit edges hv
        apply ih
        · rw [List.length_append, List.length_reverse]
          omega
        · intro a ha b hab
          rcases List.mem_cons.mp ha with rfl | ha
          · exact Or.inr (List.mem_append_left _ (List.mem_reverse.mpr (mem_succs.mpr hab)))
          · rcases hc a ha b hab with hb | hb
            · exact Or.inl (List.mem_cons_of_mem _ hb)
            · rcases List.mem_cons.mp hb with rfl | hb
              · exact Or.inl List.mem_cons_self
              · exact Or.inr (List.mem_append_right _ hb)
        · intro hm
          rcases List.mem_cons.mp hm with he | hm
          · exact hne he.symm
          · exact hg hm
        · obtain ⟨w, hw, hreach⟩ := h
          rcases List.mem_cons.mp hw with rfl | hw
          · rcases Relation.ReflTransGen.cases_head hreach with he | ⟨u, hu, hreach⟩
            · exact absurd he hne
            · exact ⟨u, List.mem_append_left _ (List.mem_reverse.mpr (mem_succs.mpr hu)), hreach⟩
          · exact ⟨w, List.mem_append_right _ hw, hreach⟩

theorem pending_nil (edges : List (V × V)) : pending edges [] = edges.length := by simp [pending]

/-- A search from one vertex with an iteration for each edge and one for the start decides
reachability. -/
theorem search_decides {start : V} {n : Nat} (hn : edges.length + 1 ≤ n) :
    search edges goal n [] [start] = true ↔ Reaches (Edge edges) start goal := by
  constructor
  · intro h
    obtain ⟨v, hv, hreach⟩ := search_sound h
    rw [List.mem_singleton.mp hv] at hreach
    exact hreach
  · intro h
    apply search_complete
    · rw [pending_nil, List.length_singleton]
      exact hn
    · intro a ha
      cases ha
    · simp
    · exact ⟨start, List.mem_singleton_self _, h⟩

theorem search_iff {start : V} :
    search edges goal (edges.length + 1) [] [start] = true ↔ Reaches (Edge edges) start goal :=
  search_decides (Nat.le_refl _)

/-- With an iteration for each pending edge and each stacked vertex, and one that finds the stack empty, the
search ends. -/
theorem walk_search {n : Nat} {visited stack : List V} (h : pending edges visited + stack.length < n) :
    walk (succs edges) goal n visited stack = some (search edges goal (n - 1) visited stack) := by
  induction n generalizing visited stack with
  | zero => omega
  | succ n ih =>
    cases stack with
    | nil =>
      rw [walk]
      cases n <;> rfl
    | cons v stack =>
      rw [List.length_cons] at h
      obtain ⟨n, rfl⟩ : ∃ m, n = m + 1 := ⟨n - 1, by omega⟩
      rw [walk, Nat.add_sub_cancel, search]
      split
      · rfl
      split
      · exact ih (by omega)
      · rename_i hv
        have hp := pending_visit edges hv
        apply ih
        rw [List.length_append, List.length_reverse]
        omega

/-- A search from one vertex ends, and its answer is whether the vertex reaches the goal. -/
theorem walk_decides (edges : List (V × V)) (goal start : V) :
    ∃ answer, (answer = true ↔ Reaches (Edge edges) start goal) ∧
      ∀ n, edges.length + 2 ≤ n → walk (succs edges) goal n [] [start] = some answer := by
  refine ⟨search edges goal (edges.length + 1) [] [start], search_iff, fun n hn => ?_⟩
  have hend : walk (succs edges) goal n [] [start] = some (search edges goal (n - 1) [] [start]) := by
    apply walk_search
    rw [pending_nil, List.length_singleton]
    omega
  have hsame : search edges goal (n - 1) [] [start] = true ↔
      search edges goal (edges.length + 1) [] [start] = true :=
    (search_decides (by omega)).trans search_iff.symm
  rw [hend, Bool.eq_iff_iff.mpr hsame]

/-- It may be left out where it starts at the goal. -/
theorem walk_unless_decides (edges : List (V × V)) (goal start : V) (same : Prop) [Decidable same]
    (h : same → start = goal) :
    ∃ answer, (answer = true ↔ Reaches (Edge edges) start goal) ∧ ∀ n, edges.length + 2 ≤ n →
      (if same then some true else walk (succs edges) goal n [] [start]) = some answer := by
  by_cases hsame : same
  · obtain rfl := h hsame
    exact ⟨true, iff_of_true rfl .refl, fun n _ => if_pos hsame⟩
  · obtain ⟨answer, hanswer, hends⟩ := walk_decides edges goal start
    exact ⟨answer, hanswer, fun n hn => (if_neg hsame).trans (hends n hn)⟩

end

end A2ARegistry.Base.Graph
