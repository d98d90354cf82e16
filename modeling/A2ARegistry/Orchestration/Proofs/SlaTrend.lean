import Mathlib.Algebra.BigOperators.Group.List.Basic
import Mathlib.Tactic.FieldSimp
import A2ARegistry.Base.LeastSquares
import A2ARegistry.Orchestration.Sla

namespace A2ARegistry.Orchestration.Sla
open Base LeastSquares

/-- The sum of the squares by which the values miss their mean. -/
def totalSquares (ys : List Rat) : Rat := (ys.map (fun y => (y - ys.sum / ys.length) ^ 2)).sum

/-- Not all values are the same. -/
def Varied (vs : List Rat) : Prop := ∃ v ∈ vs, ∃ w ∈ vs, v ≠ w

section Loop

variable (meanX meanY : Rat)

/-- The loop adds up the products of the deviations. -/
theorem foldl_accumulate (sums : Rat × Rat × Rat) (points : List (Rat × Rat)) :
    points.foldl (accumulate meanX meanY) sums =
      (sums.1 + sxy (centred meanX meanY points), sums.2.1 + sxx (centred meanX meanY points),
        sums.2.2 + syy (centred meanX meanY points)) := by
  induction points generalizing sums with
  | nil => simp [centred, sxx, sxy, syy]
  | cons p points ih =>
    rw [List.foldl_cons, ih]
    simp only [accumulate, centred, List.map_cons, sxx, sxy, syy, total_cons, add_assoc]

end Loop

section Fit

variable {xs ys : List Rat}

/-- The points, seen from the means. -/
def deviations (xs ys : List Rat) : List (Rat × Rat) := centred (xs.sum / xs.length) (ys.sum / xs.length) (xs.zip ys)

theorem linearRegression_eq (hn : 2 ≤ xs.length) : linearRegression xs ys =
    if sxx (deviations xs ys) = 0 then (0, ys.sum / xs.length, 0)
    else
      (sxy (deviations xs ys) / sxx (deviations xs ys),
        ys.sum / xs.length - sxy (deviations xs ys) / sxx (deviations xs ys) * (xs.sum / xs.length),
        if 0 < syy (deviations xs ys) then
          sxy (deviations xs ys) ^ 2 / (sxx (deviations xs ys) * syy (deviations xs ys))
        else 0) := by
  unfold linearRegression
  rw [if_neg (Nat.not_lt.mpr hn)]
  rfl

theorem divide_some {a b : Rat} (h : b ≠ 0) : divide a b = some (a / b) := if_neg h

/-- No division raises, on lists of any lengths. -/
theorem regression_divides (xs ys : List Rat) : linearRegression? xs ys = some (linearRegression xs ys) := by
  by_cases hn : xs.length < 2
  · simp [linearRegression?, linearRegression, hn]
  · have hlength : (xs.length : Rat) ≠ 0 := by
      have hpos : xs.length ≠ 0 := by omega
      exact_mod_cast hpos
    rw [linearRegression_eq (Nat.not_lt.mp hn)]
    simp only [linearRegression?, if_neg hn, divide_some hlength, Option.bind_some, foldl_accumulate, zero_add]
    rw [← deviations]
    split
    · rfl
    · rename_i hx
      rw [divide_some hx, Option.bind_some]
      split
      · rename_i hy
        rw [divide_some (mul_ne_zero hx (ne_of_gt hy)), Option.map_some]
      · rfl

variable (hlen : xs.length = ys.length)

include hlen

theorem deviations_balanced (hn : 2 ≤ xs.length) : Balanced (deviations xs ys) := by
  have hlength : (xs.length : Rat) ≠ 0 := by
    have hpos : xs.length ≠ 0 := by omega
    exact_mod_cast hpos
  have hzip : (xs.zip ys).length = xs.length := by
    rw [List.length_zip, ← hlen, min_self]
  apply balanced_mean
  · rw [total, List.map_fst_zip (le_of_eq hlen), hzip]
    field_simp
  · rw [total, List.map_snd_zip (le_of_eq hlen.symm), hzip]
    field_simp

theorem sxx_varied (h : Varied xs) : sxx (deviations xs ys) ≠ 0 := by
  intro hzero
  have hmean : ∀ x ∈ xs, x = xs.sum / xs.length := by
    intro x hx
    rw [← List.map_fst_zip (le_of_eq hlen)] at hx
    obtain ⟨p, hp, rfl⟩ := List.mem_map.mp hx
    exact sub_eq_zero.mp (total_square_eq_zero hzero _ (List.mem_map_of_mem hp))
  obtain ⟨v, hv, w, hw, hne⟩ := h
  exact hne ((hmean v hv).trans (hmean w hw).symm)

theorem syy_varied (h : Varied ys) : syy (deviations xs ys) ≠ 0 := by
  intro hzero
  have hmean : ∀ y ∈ ys, y = ys.sum / xs.length := by
    intro y hy
    rw [← List.map_snd_zip (le_of_eq hlen.symm)] at hy
    obtain ⟨p, hp, rfl⟩ := List.mem_map.mp hy
    exact sub_eq_zero.mp (total_square_eq_zero hzero _ (List.mem_map_of_mem hp))
  obtain ⟨v, hv, w, hw, hne⟩ := h
  exact hne ((hmean v hv).trans (hmean w hw).symm)

theorem syy_total : syy (deviations xs ys) = totalSquares ys := by
  have hpoints : ∀ f : Rat → Rat, ys.map f = (xs.zip ys).map (fun p => f p.2) := by
    intro f
    conv_lhs => rw [← List.map_snd_zip (le_of_eq hlen.symm), List.map_map]
    rfl
  rw [syy, total, deviations, centred, List.map_map, totalSquares, hpoints, hlen]
  refine congrArg List.sum (List.map_congr_left fun p _ => ?_)
  exact (pow_two _).symm

end Fit

/-- The regression of at least two points divides by nothing that is zero; where they do not stand one above the
other its line misses them by the least sum of squares, and where they do not stand side by side either, R² is the
share of the squares that it explains. -/
theorem regression_least (xs ys : List Rat) (hlen : xs.length = ys.length) (hn : 2 ≤ xs.length) :
    ∃ slope intercept r2, linearRegression? xs ys = some (slope, intercept, r2) ∧ (Varied xs →
      (∀ a b, residual slope intercept (xs.zip ys) ≤ residual a b (xs.zip ys)) ∧
      (Varied ys → r2 = 1 - residual slope intercept (xs.zip ys) / totalSquares ys ∧ 0 ≤ r2 ∧ r2 ≤ 1)) := by
  refine ⟨(linearRegression xs ys).1, (linearRegression xs ys).2.1, (linearRegression xs ys).2.2,
    regression_divides xs ys, fun hx => ?_⟩
  have hbalanced := deviations_balanced hlen hn
  have hxx := sxx_varied hlen hx
  have hbest : residual (sxy (deviations xs ys) / sxx (deviations xs ys))
      (ys.sum / xs.length - sxy (deviations xs ys) / sxx (deviations xs ys) * (xs.sum / xs.length)) (xs.zip ys) =
      residual (sxy (deviations xs ys) / sxx (deviations xs ys)) 0 (deviations xs ys) := by
    rw [residual_centred (xs.zip ys) (xs.sum / xs.length) (ys.sum / xs.length)]
    congr 1
    ring
  rw [linearRegression_eq hn, if_neg hxx]
  refine ⟨fun a b => ?_, fun hy => ?_⟩
  · rw [hbest, residual_centred (xs.zip ys) (xs.sum / xs.length) (ys.sum / xs.length) a b]
    exact residual_least hbalanced hxx a _
  · have hyy := syy_varied hlen hy
    have hpos : 0 < syy (deviations xs ys) := lt_of_le_of_ne syy_nonneg hyy.symm
    simp only [if_pos hpos]
    rw [hbest, ← syy_total hlen]
    exact ⟨explained_eq hbalanced hxx hyy, explained_nonneg, explained_le_one hbalanced hxx hyy⟩

theorem regression_three : ∃ slope intercept r2,
    linearRegression? [0, 1, 2] [0, 2, 1] = some (slope, intercept, r2) ∧
      (∀ a b, residual slope intercept [(0, 0), (1, 2), (2, 1)] ≤ residual a b [(0, 0), (1, 2), (2, 1)]) ∧
      r2 = 1 - residual slope intercept [(0, 0), (1, 2), (2, 1)] / totalSquares [0, 2, 1] ∧ 0 ≤ r2 ∧ r2 ≤ 1 := by
  obtain ⟨slope, intercept, r2, hfit, hleast⟩ := regression_least [0, 1, 2] [0, 2, 1] rfl (by decide)
  have hx : Varied [0, 1, 2] := ⟨0, by decide, 1, by decide, by decide⟩
  have hy : Varied [0, 2, 1] := ⟨0, by decide, 2, by decide, by decide⟩
  exact ⟨slope, intercept, r2, hfit, (hleast hx).1, (hleast hx).2 hy⟩

section Definitions

variable (db : Db) (now : Rat) (windows : List (String × Int))

/-- The success rate of a configured window, where something was finished in it. -/
def rateOf (w : String × Int) : Option Rat := (windowStat db w.1 (now - w.2) now).successRate

/-- Things were finished in two windows of different lengths, and of any two such windows the shorter one has a rate
in the given relation to that of the longer one. -/
def Trends (related : Rat → Rat → Prop) : Prop :=
  (∃ v ∈ windows, ∃ w ∈ windows, (rateOf db now v).isSome ∧ (rateOf db now w).isSome ∧ v.2 < w.2) ∧
    ∀ v ∈ windows, ∀ w ∈ windows, v.2 < w.2 → ∀ short ∈ rateOf db now v, ∀ long ∈ rateOf db now w, related short long

/-- The reported trend has the sign of the change: positive where the rates increase toward the shorter windows, and
negative where they decrease. -/
def TrendSigned : Prop :=
  (Trends db now windows (fun short long => long < short) →
    ∃ slope, (snapshot db now windows).trendSlope = some slope ∧ 0 < slope) ∧
  (Trends db now windows (fun short long => short < long) →
    ∃ slope, (snapshot db now windows).trendSlope = some slope ∧ slope < 0)

end Definitions

section Regression

/-- There is no slope through points one above the other. -/
theorem regression_vertical {xs : List Rat} {x : Rat} (h : ∀ y ∈ xs, y = x) (ys : List Rat) :
    (linearRegression xs ys).1 = 0 := by
  by_cases hn : xs.length < 2
  · simp [linearRegression, hn]
  · have hsum : xs.sum = xs.length * x := by
      rw [List.eq_replicate_of_mem h, List.sum_replicate, List.length_replicate, nsmul_eq_mul]
    have hpos : (xs.length : Rat) ≠ 0 := by
      have hlength : xs.length ≠ 0 := by omega
      exact_mod_cast hlength
    have hmean : xs.sum / xs.length = x := by
      rw [hsum]
      field_simp
    have hflat : ∀ square ∈ (((xs.zip ys).map (fun p => (p.1 - xs.sum / xs.length, p.2 - ys.sum / xs.length))).map
        (fun d => d.1 * d.1)), square = 0 := by
      intro square hsquare
      simp only [List.mem_map] at hsquare
      obtain ⟨d, ⟨p, hp, rfl⟩, rfl⟩ := hsquare
      have hx := h p.1 (List.of_mem_zip hp).1
      rw [hmean, hx, sub_self, mul_zero]
    have hden := List.sum_eq_zero hflat
    simp only [linearRegression, hn, if_false, hden, if_true]

end Regression

section Snapshot

variable (db : Db) (now : Rat) (windows : List (String × Int))

/-- All windows end at the moment of the snapshot. -/
theorem points_now : ∀ p ∈ trendPoints (windows.map (fun w => windowStat db w.1 (now - w.2) now)), p.1 = now := by
  intro p hp
  simp only [trendPoints, List.mem_filterMap, List.mem_map] at hp
  obtain ⟨_, ⟨w, _, rfl⟩, hpoint⟩ := hp
  obtain ⟨rate, _, hsome⟩ := Option.bind_eq_some_iff.mp hpoint
  split at hsome
  · cases hsome
    rfl
  · cases hsome

/-- Whatever the table has, no trend but a flat one is reported. -/
theorem trend_flat {slope : Rat} (h : (snapshot db now windows).trendSlope = some slope) : slope = 0 := by
  unfold snapshot at h
  dsimp only at h
  split at h
  · cases h
    apply regression_vertical (x := now)
    intro x hx
    obtain ⟨p, hp, rfl⟩ := List.mem_map.mp hx
    exact points_now db now windows p hp
  · cases h

/-- The trend has the sign of the change only where there is none to report. -/
theorem trend_signed_iff : TrendSigned db now windows ↔
    ¬ Trends db now windows (fun short long => long < short) ∧ ¬ Trends db now windows (fun short long => short < long) := by
  constructor
  · rintro ⟨hrising, hfalling⟩
    constructor
    · intro h
      obtain ⟨slope, hslope, hpos⟩ := hrising h
      rw [trend_flat db now windows hslope] at hpos
      exact lt_irrefl 0 hpos
    · intro h
      obtain ⟨slope, hslope, hneg⟩ := hfalling h
      rw [trend_flat db now windows hslope] at hneg
      exact lt_irrefl 0 hneg
  · rintro ⟨hrising, hfalling⟩
    exact ⟨fun h => absurd h hrising, fun h => absurd h hfalling⟩

end Snapshot

section Sample

/-- A task that ended at a time. -/
def ended (hex : String) (status : TaskStatus) (time : Int) : Task :=
  { CreateArgs.row { title := "report" } 0 hex with status := status, completedAt := some time }

/-- Failures two days, twelve hours and two hours ago, and a success since. -/
def recovering : Db :=
  { Db.empty with
    tasks := ⟨[ended "00000000" .failed 827200, ended "00000001" .failed 956800, ended "00000002" .failed 992800,
      ended "00000003" .completed 999400], by decide⟩ }

/-- The rates of the default windows rise from a quarter to one, and the slope is zero. -/
theorem recovery_flat : ¬ TrendSigned recovering 1000000 defaultWindows := by
  intro h
  have hrising : Trends recovering 1000000 defaultWindows (fun short long => long < short) := by
    unfold Trends
    decide +kernel
  obtain ⟨slope, hslope, hpos⟩ := h.1 hrising
  have hflat : (snapshot recovering 1000000 defaultWindows).trendSlope = some 0 := by decide +kernel
  rw [hflat] at hslope
  cases hslope
  exact lt_irrefl 0 hpos

end Sample

end A2ARegistry.Orchestration.Sla
