import Mathlib.Data.List.Nodup
import Mathlib.Data.List.TakeWhile
import Mathlib.Logic.Function.Basic

namespace A2ARegistry.Base

section Assign

variable {K V A : Type} (parse : K → V → A → Option V)

/-- Assigns values as they were written, in order, each parsed beside the value it replaces. One that is refused ends
the assignment; what was assigned before stays. -/
def assign [DecidableEq K] : List (K × A) → (K → V) → Except (K → V) (K → V)
  | [], c => .ok c
  | (k, a) :: layer, c =>
    match parse k (c k) a with
    | none => .error c
    | some v => assign layer (Function.update c k v)

/-- The assignments before the first one that is refused. -/
def applied (c : K → V) (layer : List (K × A)) : List (K × A) :=
  layer.takeWhile (fun e => (parse e.1 (c e.1) e.2).isSome)

/-- What is left, whether the computation went through or not. -/
def settled {σ : Type} : Except σ σ → σ
  | .ok s => s
  | .error s => s

variable {parse} {c : K → V} {layer : List (K × A)} {k : K} {a : A} {v : V}

theorem applied_cons_some (h : parse k (c k) a = some v) :
    applied parse c ((k, a) :: layer) = (k, a) :: applied parse c layer :=
  List.takeWhile_cons_of_pos (by simp [h])

theorem applied_cons_none (h : parse k (c k) a = none) : applied parse c ((k, a) :: layer) = [] :=
  List.takeWhile_cons_of_neg (by simp [h])

theorem assigned_key (h : (k, a) ∈ layer) : k ∈ layer.map Prod.fst := List.mem_map.mpr ⟨(k, a), h, rfl⟩

theorem mem_of_applied {e : K × A} (h : e ∈ applied parse c layer) : e ∈ layer := (List.takeWhile_sublist _).mem h

theorem applied_all (h : ∀ e ∈ layer, parse e.1 (c e.1) e.2 ≠ none) : applied parse c layer = layer := by
  rw [applied, List.takeWhile_eq_self_iff]
  intro e he
  exact Option.isSome_iff_ne_none.mpr (h e he)

variable [DecidableEq K]

theorem assign_append (layer later : List (K × A)) :
    assign parse (layer ++ later) c = assign parse layer c >>= assign parse later := by
  induction layer generalizing c with
  | nil => rfl
  | cons e layer ih =>
    obtain ⟨k, a⟩ := e
    rw [List.cons_append, assign, assign]
    cases parse k (c k) a with
    | none => rfl
    | some v => exact ih

/-- An assignment to another key does not matter to which are refused. -/
theorem applied_update (hk : k ∉ layer.map Prod.fst) :
    applied parse (Function.update c k v) layer = applied parse c layer := by
  induction layer with
  | nil => rfl
  | cons e layer ih =>
    simp only [List.map_cons, List.mem_cons, not_or] at hk
    have hother : Function.update c k v e.1 = c e.1 := Function.update_of_ne (Ne.symm hk.1) v c
    have hrest := ih hk.2
    simp only [applied] at hrest
    rw [applied, applied, List.takeWhile_cons, List.takeWhile_cons, hother, hrest]

theorem settled_unassigned (hk : ∀ a, (k, a) ∉ applied parse c layer) (hnodup : (layer.map Prod.fst).Nodup) :
    settled (assign parse layer c) k = c k := by
  induction layer generalizing c with
  | nil => rfl
  | cons e layer ih =>
    obtain ⟨k', a⟩ := e
    rw [List.map_cons, List.nodup_cons] at hnodup
    cases hparse : parse k' (c k') a with
    | none =>
      rw [assign, hparse]
      rfl
    | some v =>
      rw [applied_cons_some hparse] at hk
      have hne : k ≠ k' := fun h => hk a (h ▸ List.mem_cons_self)
      rw [assign, hparse]
      change settled (assign parse layer (Function.update c k' v)) k = c k
      rw [ih _ hnodup.2, Function.update_of_ne hne]
      intro b hb
      rw [applied_update hnodup.1] at hb
      exact hk b (List.mem_cons_of_mem _ hb)

theorem settled_applied (h : (k, a) ∈ applied parse c layer) (hnodup : (layer.map Prod.fst).Nodup) :
    parse k (c k) a = some (settled (assign parse layer c) k) := by
  induction layer generalizing c with
  | nil => cases h
  | cons e layer ih =>
    obtain ⟨k', b⟩ := e
    rw [List.map_cons, List.nodup_cons] at hnodup
    cases hparse : parse k' (c k') b with
    | none =>
      rw [applied_cons_none hparse] at h
      cases h
    | some v =>
      rw [applied_cons_some hparse] at h
      rw [assign, hparse]
      change parse k (c k) a = some (settled (assign parse layer (Function.update c k' v)) k)
      obtain hhead | htail := List.mem_cons.mp h
      · cases hhead
        have hlater : settled (assign parse layer (Function.update c k v)) k = Function.update c k v k := by
          apply settled_unassigned _ hnodup.2
          intro b hb
          exact hnodup.1 (assigned_key (mem_of_applied hb))
        rw [hparse, hlater, Function.update_self]
      · have hne : k ≠ k' := fun he => hnodup.1 (he ▸ assigned_key (mem_of_applied htail))
        rw [← ih (by rwa [applied_update hnodup.1]) hnodup.2, Function.update_of_ne hne]

/-- An assignment goes through if nothing is refused. -/
theorem assign_ok_iff (hnodup : (layer.map Prod.fst).Nodup) :
    (∃ c', assign parse layer c = .ok c') ↔ ∀ e ∈ layer, parse e.1 (c e.1) e.2 ≠ none := by
  induction layer generalizing c with
  | nil => exact iff_of_true ⟨c, rfl⟩ (fun _ he => absurd he List.not_mem_nil)
  | cons e layer ih =>
    obtain ⟨k, a⟩ := e
    rw [List.map_cons, List.nodup_cons] at hnodup
    rw [List.forall_mem_cons, assign]
    cases hparse : parse k (c k) a with
    | none => exact iff_of_false (fun ⟨c', h⟩ => by cases h) (fun h => h.1 rfl)
    | some v =>
      have hrest : ∀ e ∈ layer, Function.update c k v e.1 = c e.1 := by
        intro e he
        apply Function.update_of_ne
        rintro rfl
        exact hnodup.1 (assigned_key he)
      change (∃ c', assign parse layer (Function.update c k v) = .ok c') ↔ _
      rw [ih hnodup.2]
      constructor
      · intro h
        refine ⟨Option.some_ne_none v, fun e he => ?_⟩
        rw [← hrest e he]
        exact h e he
      · intro h e he
        rw [hrest e he]
        exact h.2 e he

end Assign

/-- Unique keys make the lookup of one the same thing as membership. -/
theorem lookup_eq_some_iff_mem {K A : Type} [BEq K] [LawfulBEq K] {layer : List (K × A)} {k : K} {a : A}
    (hnodup : (layer.map Prod.fst).Nodup) : layer.lookup k = some a ↔ (k, a) ∈ layer := by
  induction layer with
  | nil => exact iff_of_false (fun h => by cases h) List.not_mem_nil
  | cons e layer ih =>
    obtain ⟨k', b⟩ := e
    rw [List.map_cons, List.nodup_cons] at hnodup
    rw [List.lookup_cons, List.mem_cons]
    by_cases hk : k = k'
    · subst hk
      have hrest : (k, a) ∉ layer := fun h => hnodup.1 (assigned_key h)
      simp [hrest, eq_comm]
    · rw [beq_eq_false_iff_ne.mpr hk]
      change layer.lookup k = some a ↔ _
      rw [ih hnodup.2]
      simp [hk]

end A2ARegistry.Base
