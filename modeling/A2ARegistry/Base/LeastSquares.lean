import Mathlib.Algebra.BigOperators.Group.List.Basic
import Mathlib.Algebra.Order.BigOperators.Group.List
import Mathlib.Algebra.Order.Field.Basic
import Mathlib.Tactic.FieldSimp
import Mathlib.Tactic.Linarith
import Mathlib.Tactic.Ring

namespace A2ARegistry.Base.LeastSquares

variable {K : Type} [Field K]

section Definitions

/-- The sum of what is computed of each point. -/
def total (f : K × K → K) (points : List (K × K)) : K := (points.map f).sum

/-- The sum of the squares by which a line misses the points. -/
def residual (slope intercept : K) (points : List (K × K)) : K :=
  total (fun p => (p.2 - (slope * p.1 + intercept)) ^ 2) points

/-- The points seen from a centre. -/
def centred (x y : K) (points : List (K × K)) : List (K × K) := points.map (fun p => (p.1 - x, p.2 - y))

/-- The sums of squares and products. -/
def sxx (points : List (K × K)) : K := total (fun d => d.1 * d.1) points

def sxy (points : List (K × K)) : K := total (fun d => d.1 * d.2) points

def syy (points : List (K × K)) : K := total (fun d => d.2 * d.2) points

/-- The coordinates add up to nothing. -/
def Balanced (points : List (K × K)) : Prop := total Prod.fst points = 0 ∧ total Prod.snd points = 0

end Definitions

section Sums

variable (f g : K × K → K) (p : K × K) (points : List (K × K))

@[simp] theorem total_nil : total f [] = 0 := rfl

@[simp] theorem total_cons : total f (p :: points) = f p + total f points := List.sum_cons

/-- The residual is a quadratic form in the line. -/
theorem residual_expand (slope intercept : K) : residual slope intercept points =
    syy points - 2 * slope * sxy points + slope ^ 2 * sxx points - 2 * intercept * total Prod.snd points +
      2 * slope * intercept * total Prod.fst points + points.length * intercept ^ 2 := by
  induction points with
  | nil => simp [residual, syy, sxy, sxx]
  | cons p points ih =>
    have hrest : residual slope intercept (p :: points) =
        (p.2 - (slope * p.1 + intercept)) ^ 2 + residual slope intercept points := total_cons _ p points
    rw [hrest, ih]
    simp only [syy, sxy, sxx, total_cons, List.length_cons, Nat.cast_add, Nat.cast_one]
    ring

/-- A line misses the points by what the line moved along misses them seen from the centre. -/
theorem residual_centred (x y slope intercept : K) : residual slope intercept points =
    residual slope (intercept + slope * x - y) (centred x y points) := by
  unfold residual total centred
  rw [List.map_map]
  refine congrArg List.sum (List.map_congr_left fun p _ => ?_)
  simp only [Function.comp_apply]
  ring

theorem total_centred_fst (x y : K) : total Prod.fst (centred x y points) =
    total Prod.fst points - points.length * x := by
  induction points with
  | nil => simp [centred]
  | cons p points ih =>
    rw [centred, List.map_cons, total_cons, ← centred, ih, total_cons, List.length_cons, Nat.cast_add, Nat.cast_one]
    ring

theorem total_centred_snd (x y : K) : total Prod.snd (centred x y points) =
    total Prod.snd points - points.length * y := by
  induction points with
  | nil => simp [centred]
  | cons p points ih =>
    rw [centred, List.map_cons, total_cons, ← centred, ih, total_cons, List.length_cons, Nat.cast_add, Nat.cast_one]
    ring

end Sums

section Balance

variable {points : List (K × K)} {x y : K}

/-- Seen from their mean the points are balanced. -/
theorem balanced_mean (hx : total Prod.fst points = points.length * x) (hy : total Prod.snd points = points.length * y) :
    Balanced (centred x y points) := by
  constructor
  · rw [total_centred_fst, hx, sub_self]
  · rw [total_centred_snd, hy, sub_self]

theorem residual_balanced (h : Balanced points) (slope intercept : K) : residual slope intercept points =
    syy points - 2 * slope * sxy points + slope ^ 2 * sxx points + points.length * intercept ^ 2 := by
  rw [residual_expand, h.1, h.2]
  ring

/-- What the best line through the centre misses. -/
theorem residual_best (h : Balanced points) (hx : sxx points ≠ 0) :
    residual (sxy points / sxx points) 0 points = syy points - sxy points ^ 2 / sxx points := by
  rw [residual_balanced h]
  field_simp
  ring

/-- The share of the squares that the best line explains. -/
theorem explained_eq (h : Balanced points) (hx : sxx points ≠ 0) (hy : syy points ≠ 0) :
    sxy points ^ 2 / (sxx points * syy points) = 1 - residual (sxy points / sxx points) 0 points / syy points := by
  rw [residual_best h hx]
  field_simp
  ring

end Balance

section Order

variable [LinearOrder K] [IsStrictOrderedRing K] {points : List (K × K)}

theorem total_nonneg {f : K × K → K} (hf : ∀ p ∈ points, 0 ≤ f p) : 0 ≤ total f points := by
  apply List.sum_nonneg
  intro v hv
  obtain ⟨p, hp, rfl⟩ := List.mem_map.mp hv
  exact hf p hp

/-- A sum of squares is zero where each is. -/
theorem total_square_eq_zero {f : K × K → K} (h : total (fun p => f p * f p) points = 0) :
    ∀ p ∈ points, f p = 0 := by
  induction points with
  | nil => exact fun p hp => absurd hp List.not_mem_nil
  | cons q points ih =>
    rw [total_cons] at h
    have hfirst : 0 ≤ f q * f q := mul_self_nonneg (f q)
    have hrest : 0 ≤ total (fun p => f p * f p) points := total_nonneg fun p _ => mul_self_nonneg (f p)
    have hq : f q * f q = 0 := by linarith
    intro p hp
    rcases List.mem_cons.mp hp with rfl | hp
    · exact mul_self_eq_zero.mp hq
    · exact ih (by linarith) p hp

theorem sxx_nonneg : 0 ≤ sxx points := total_nonneg fun p _ => mul_self_nonneg p.1

theorem syy_nonneg : 0 ≤ syy points := total_nonneg fun p _ => mul_self_nonneg p.2

theorem residual_nonneg (slope intercept : K) : 0 ≤ residual slope intercept points :=
  total_nonneg fun _ _ => sq_nonneg _

/-- No line misses balanced points by less: it adds a square for its slope and one for where it passes the centre. -/
theorem residual_least (h : Balanced points) (hx : sxx points ≠ 0) (slope intercept : K) :
    residual (sxy points / sxx points) 0 points ≤ residual slope intercept points := by
  have hsplit : residual slope intercept points = residual (sxy points / sxx points) 0 points +
      sxx points * (slope - sxy points / sxx points) ^ 2 + points.length * intercept ^ 2 := by
    rw [residual_best h hx, residual_balanced h]
    field_simp
    ring
  have hslope : 0 ≤ sxx points * (slope - sxy points / sxx points) ^ 2 := mul_nonneg sxx_nonneg (sq_nonneg _)
  have hoffset : 0 ≤ (points.length : K) * intercept ^ 2 := mul_nonneg (Nat.cast_nonneg _) (sq_nonneg _)
  linarith

/-- It is a share by the inequality of Cauchy and Schwarz, as no residual is negative. -/
theorem explained_le_one (h : Balanced points) (hx : sxx points ≠ 0) (hy : syy points ≠ 0) :
    sxy points ^ 2 / (sxx points * syy points) ≤ 1 := by
  rw [explained_eq h hx hy]
  have hpart : 0 ≤ residual (sxy points / sxx points) 0 points / syy points :=
    div_nonneg (residual_nonneg _ _) syy_nonneg
  linarith

theorem explained_nonneg : 0 ≤ sxy points ^ 2 / (sxx points * syy points) :=
  div_nonneg (sq_nonneg _) (mul_nonneg sxx_nonneg syy_nonneg)

end Order

end A2ARegistry.Base.LeastSquares
