import Mathlib.Order.Lattice
import A2ARegistry.Base.Run

namespace A2ARegistry.Base

/-- A circuit breaker: the failures it has counted, and the time it stays open to. -/
structure Breaker (τ : Type) where
  failures : Nat := 0
  deadline : Option τ := none
deriving DecidableEq, Repr

/-- What a breaker is told: a success, a failure at a time, a question at a time. -/
inductive Signal (τ : Type)
  | success
  | failure (now : τ)
  | query (now : τ)
deriving DecidableEq, Repr

namespace Breaker

variable {τ : Type} [LinearOrder τ]

/-- The breaker is open at a time before its deadline. -/
def tripped (b : Breaker τ) (now : τ) : Bool := b.deadline.any (fun d => now < d)

/-- The deadline has come: the next question resets the breaker. -/
def lapsed (b : Breaker τ) (now : τ) : Bool := b.deadline.any (fun d => d ≤ now)

section
variable (limit : Nat → Bool) (arm : τ → Option τ)

/-- One signal. A failure that brings the count to the limit sets the deadline. -/
def step (b : Breaker τ) : Signal τ → Breaker τ
  | .success => { b with failures := 0 }
  | .failure now =>
    { failures := b.failures + 1
      deadline := if limit (b.failures + 1) then arm now else b.deadline }
  | .query now => if b.lapsed now then {} else b

/-- The signal is a failure that brings the count to the limit. -/
def Trips (b : Breaker τ) : Signal τ → Prop
  | .failure _ => limit (b.failures + 1) = true
  | _ => False

/-- The signal sets the count back to zero. -/
def Resets (b : Breaker τ) : Signal τ → Prop
  | .success => True
  | .failure _ => False
  | .query now => b.lapsed now = true

/-- The question comes at or after `d`. -/
def AsksFrom (d : τ) : Signal τ → Prop
  | .query now => d ≤ now
  | _ => False

/-- How many of the signals are failures. -/
def failuresIn (signals : List (Signal τ)) : Nat :=
  signals.countP fun
    | .failure _ => true
    | _ => false

end

variable {limit : Nat → Bool} {arm : τ → Option τ} {b : Breaker τ}

theorem step_trips {now : τ} (h : Trips limit b (.failure now)) :
    (step limit arm b (.failure now)).deadline = arm now := by
  have htrips : limit (b.failures + 1) = true := h
  rw [step, if_pos htrips]

/-- Only a trip, or a question after the deadline, moves the deadline. -/
theorem step_deadline {s : Signal τ} (hs : ¬ Trips limit b s)
    (hlapse : ∀ now, s = .query now → b.lapsed now = false) :
    (step limit arm b s).deadline = b.deadline := by
  cases s with
  | success => rfl
  | failure now =>
    have hcount : ¬ limit (b.failures + 1) = true := hs
    rw [step, if_neg hcount]
  | query now => simp [step, hlapse now rfl]

/-- A deadline stays as long as no failure trips the breaker again and nobody asks after it. -/
theorem deadline_kept {d : Option τ} {signals : List (Signal τ)} (hb : b.deadline = d)
    (hquiet : EachStep (step limit arm) (fun b s => ¬ Trips limit b s) b signals)
    (hasks : ∀ s ∈ signals, ∀ u, d = some u → ¬ AsksFrom u s) :
    (exec (step limit arm) b signals).deadline = d := by
  induction signals generalizing b with
  | nil => exact hb
  | cons s signals ih =>
    apply ih _ hquiet.2 (fun i hi => hasks i (List.mem_cons_of_mem s hi))
    rw [step_deadline hquiet.1, hb]
    intro now he
    rw [Breaker.lapsed, hb]
    cases d with
    | none => rfl
    | some u =>
      have hnot := hasks s List.mem_cons_self u rfl
      rw [he] at hnot
      simpa [AsksFrom] using hnot

theorem tripped_of_deadline {d now : τ} (hb : b.deadline = some d) (h : now < d) : b.tripped now = true := by
  simp [tripped, hb, h]

/-- The first question from the deadline on closes the breaker and forgets its failures. -/
theorem query_resets {d now : τ} (hb : b.deadline = some d) (h : d ≤ now) :
    step limit arm b (.query now) = {} := by
  simp [step, lapsed, hb, h]

theorem query_closed {now : τ} (hb : b.deadline = none) : step limit arm b (.query now) = b := by
  simp [step, lapsed, hb]

theorem step_failures {s : Signal τ} (h : ¬ Resets b s) :
    (step limit arm b s).failures = b.failures + failuresIn [s] := by
  cases s with
  | success => exact absurd trivial h
  | failure now => rfl
  | query now =>
    have hlapse : ¬ b.lapsed now = true := h
    rw [step, if_neg hlapse]
    rfl

theorem step_resets {s : Signal τ} (h : Resets b s) : (step limit arm b s).failures = 0 := by
  cases s with
  | success => rfl
  | failure now => cases h
  | query now =>
    have hlapse : b.lapsed now = true := h
    rw [step, if_pos hlapse]

/-- The count is the number of failures since the last signal that reset it. -/
theorem failures_since_reset (limit : Nat → Bool) (arm : τ → Option τ) (signals : List (Signal τ)) :
    ∃ before since, signals = before ++ since ∧
    EachStep (step limit arm) (fun b s => ¬ Resets b s) (exec (step limit arm) {} before) since ∧
    (exec (step limit arm) {} signals).failures = failuresIn since := by
  induction signals using List.reverseRecOn with
  | nil => exact ⟨[], [], rfl, trivial, rfl⟩
  | append_singleton signals s ih =>
    obtain ⟨before, since, he, hquiet, hcount⟩ := ih
    by_cases hr : Resets (exec (step limit arm) {} signals) s
    · refine ⟨signals ++ [s], [], by simp, trivial, ?_⟩
      rw [exec_append]
      exact step_resets hr
    · refine ⟨before, since ++ [s], by rw [he, List.append_assoc], ?_, ?_⟩
      · apply eachStep_append.mpr
        refine ⟨hquiet, ?_, trivial⟩
        rw [← exec_append, ← he]
        exact hr
      · rw [exec_append, exec_cons, exec_nil, step_failures hr, hcount, failuresIn, failuresIn, failuresIn,
          List.countP_append]

end Breaker

end A2ARegistry.Base
