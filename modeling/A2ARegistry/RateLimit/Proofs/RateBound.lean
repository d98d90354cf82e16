import Mathlib.Data.Rat.Lemmas
import Mathlib.Algebra.Order.Ring.Rat
import A2ARegistry.Base.TokenBucket
import A2ARegistry.RateLimit.Buckets

namespace A2ARegistry.RateLimit
open Base

/-- Every call on the key asks for one token, at one rate and burst. -/
def UsedWith (key : String) (rate burst : Int) (calls : List Call) : Prop :=
  ∀ c ∈ calls, c.key = key → c.tokens = 1 ∧ c.rate = rate ∧ c.burst = burst

/-- The times of the calls on a key. -/
def times (key : String) (calls : List Call) : List Rat := (calls.filter (fun c => c.key == key)).map Call.now

theorem times_cons_self {key : String} {c : Call} (h : c.key = key) (calls : List Call) :
    times key (c :: calls) = c.now :: times key calls := by
  simp [times, h]

theorem times_cons_other {key : String} {c : Call} (h : c.key ≠ key) (calls : List Call) :
    times key (c :: calls) = times key calls := by
  simp [times, h]

namespace MemoryTokenBucket

/-- Both maps of the bucket have the same keys. -/
def Paired (m : MemoryTokenBucket) : Prop := ∀ key, (m.buckets key).isSome = (m.lastRefill key).isSome

/-- What the two maps hold under a key. -/
def bucket (m : MemoryTokenBucket) (key : String) : Option (Bucket Rat) :=
  match m.buckets key, m.lastRefill key with
  | some level, some stamp => some ⟨level, stamp⟩
  | _, _ => none

/-- The call is on the key, is admitted, and falls into the window. -/
def admits (key : String) (start stop : Rat) (m : MemoryTokenBucket) (c : Call) : Bool :=
  c.key == key && ((m.consume c).1.allowed && (start ≤ c.now && c.now ≤ stop))

theorem paired_step {m : MemoryTokenBucket} (h : m.Paired) (c : Call) : (m.step c).Paired := by
  intro key
  unfold step consume
  dsimp only
  by_cases hk : key = c.key
  · rw [hk, Function.update_self, Function.update_self]
    rfl
  · rw [Function.update_of_ne hk, Function.update_of_ne hk]
    exact h key

theorem bucket_other {m : MemoryTokenBucket} {c : Call} {key : String} (h : c.key ≠ key) :
    (m.step c).bucket key = m.bucket key := by
  unfold bucket step consume
  dsimp only
  rw [Function.update_of_ne h.symm, Function.update_of_ne h.symm]

theorem bucket_some {m : MemoryTokenBucket} (h : m.Paired) {key : String} {level : Rat}
    (hlevel : m.buckets key = some level) : ∃ stamp, m.lastRefill key = some stamp ∧ m.bucket key = some ⟨level, stamp⟩ := by
  have hpaired := h key
  rw [hlevel] at hpaired
  obtain ⟨stamp, hstamp⟩ := Option.isSome_iff_exists.mp hpaired.symm
  exact ⟨stamp, hstamp, by simp [bucket, hlevel, hstamp]⟩

theorem refilled_eq {m : MemoryTokenBucket} (h : m.Paired) (c : Call) :
    m.refilled c = Bucket.filled ((c.rate : Rat) / 60) c.burst c.now (m.bucket c.key) := by
  cases hlevel : m.buckets c.key with
  | none => simp [refilled, bucket, hlevel, Bucket.filled]
  | some level =>
    obtain ⟨stamp, hstamp, hbucket⟩ := bucket_some h hlevel
    simp [refilled, hlevel, hstamp, hbucket, Bucket.filled]

theorem bucket_self (m : MemoryTokenBucket) (c : Call) : (m.step c).bucket c.key =
    some ⟨if (c.tokens : Rat) ≤ m.refilled c then m.refilled c - c.tokens else m.refilled c, c.now⟩ := by
  simp [bucket, step, consume]

/-- The refinement step: one call on a key takes from its bucket as the token bucket does. -/
theorem consume_take {m : MemoryTokenBucket} (h : m.Paired) {c : Call} (hone : c.tokens = 1) :
    (m.consume c).1.allowed = (Bucket.take ((c.rate : Rat) / 60) c.burst (m.bucket c.key) c.now).1 ∧
      (m.step c).bucket c.key = some (Bucket.take ((c.rate : Rat) / 60) c.burst (m.bucket c.key) c.now).2 := by
  rw [bucket_self, hone, Bucket.take, ← refilled_eq h c, Int.cast_one]
  by_cases hallowed : 1 ≤ m.refilled c
  · simp [consume, hone, hallowed]
  · simp [consume, hone, hallowed]

/-- What a run admits on a key in a window is what the bucket of the key admits at the times of its calls. -/
theorem tally_admits {m : MemoryTokenBucket} (h : m.Paired) {key : String} {rate burst : Int} {calls : List Call}
    (hused : UsedWith key rate burst calls) (start stop : Rat) :
    tally step (admits key start stop) m calls =
      Bucket.admitted ((rate : Rat) / 60) burst (fun now => start ≤ now && now ≤ stop) (m.bucket key)
        (times key calls) := by
  induction calls generalizing m with
  | nil => rfl
  | cons c calls ih =>
    have hrest := ih (paired_step h c) (fun d hd => hused d (List.mem_cons_of_mem c hd))
    by_cases hk : c.key = key
    · obtain ⟨hone, hrate, hburst⟩ := hused c (List.mem_cons_self ..) hk
      obtain ⟨hallowed, hbucket⟩ := consume_take h hone
      rw [hk, hrate, hburst] at hallowed hbucket
      rw [tally, hrest, times_cons_self hk, Bucket.admitted, hbucket]
      simp [admits, hk, hallowed]
    · rw [tally, hrest, times_cons_other hk, bucket_other hk]
      simp [admits, hk]

/-- The tokens of a key are within its bounds in every state. -/
theorem always_within {m : MemoryTokenBucket} (h : m.Paired) {key : String} {rate burst : Int} (hrate : 0 ≤ rate)
    (hburst : 0 ≤ burst) {calls : List Call} (hused : UsedWith key rate burst calls)
    (hsorted : (times key calls).Pairwise (· ≤ ·)) (hwithin : Bucket.Within (burst : Rat) (m.bucket key))
    (hbefore : Bucket.UsedBefore (times key calls) (m.bucket key)) :
    Always step (fun m => m.Paired ∧ Bucket.Within (burst : Rat) (m.bucket key)) m calls := by
  have hrate' : (0 : Rat) ≤ (rate : Rat) / 60 := div_nonneg (Int.cast_nonneg hrate) (by norm_num)
  have hburst' : (0 : Rat) ≤ (burst : Rat) := Int.cast_nonneg hburst
  induction calls generalizing m with
  | nil => exact ⟨h, hwithin⟩
  | cons c calls ih =>
    have hrest := fun d hd => hused d (List.mem_cons_of_mem c hd)
    refine ⟨⟨h, hwithin⟩, ?_⟩
    by_cases hk : c.key = key
    · obtain ⟨hone, hr, hb⟩ := hused c (List.mem_cons_self ..) hk
      obtain ⟨-, hbucket⟩ := consume_take h hone
      rw [hk, hr, hb] at hbucket
      rw [times_cons_self hk] at hsorted hbefore
      obtain ⟨hfirst, hsorted⟩ := List.pairwise_cons.mp hsorted
      apply ih (paired_step h c) hrest hsorted
      · rw [hbucket]
        exact Bucket.take_within hrate' hburst' hwithin hbefore.head
      · rw [hbucket]
        exact Bucket.take_usedBefore hfirst
    · rw [times_cons_other hk] at hsorted hbefore
      apply ih (paired_step h c) hrest hsorted
      · rw [bucket_other hk]
        exact hwithin
      · rw [bucket_other hk]
        exact hbefore

theorem paired_init : init.Paired := fun _ => rfl

/-- A key that is used with one rate and burst, at times that do not decrease: it never holds less than no tokens or
more than the burst, and in no window it admits more than the burst and what comes in while the window lasts. -/
theorem rate_bound (key : String) (rate burst : Int) (hrate : 1 ≤ rate) (hburst : 1 ≤ burst) (calls : List Call)
    (hused : UsedWith key rate burst calls) (hsorted : (times key calls).Pairwise (· ≤ ·)) :
    Always step (fun m => ∀ tokens, m.buckets key = some tokens → 0 ≤ tokens ∧ tokens ≤ burst) init calls ∧
      ∀ start d : Rat, 0 ≤ d →
        (tally step (admits key start (start + d)) init calls : Rat) ≤ burst + rate * d / 60 := by
  have hrate' : (0 : Rat) ≤ (rate : Rat) / 60 := div_nonneg (Int.cast_nonneg (by omega)) (by norm_num)
  have hburst' : (0 : Rat) ≤ (burst : Rat) := Int.cast_nonneg (by omega)
  have hnone : init.bucket key = none := rfl
  have hwithin : Bucket.Within (burst : Rat) (init.bucket key) := fun b hb => (nomatch hnone.symm.trans hb)
  have hbefore : Bucket.UsedBefore (times key calls) (init.bucket key) := fun b hb => (nomatch hnone.symm.trans hb)
  constructor
  · have halways := always_within paired_init (by omega) (by omega) hused hsorted hwithin hbefore
    refine halways.imp fun m ⟨hpaired, hm⟩ tokens htokens => ?_
    obtain ⟨stamp, -, hbucket⟩ := bucket_some hpaired htokens
    exact hm _ hbucket
  · intro start d hd
    have hwindow := Bucket.admitted_window hrate' hburst' hsorted (le_add_of_nonneg_right hd : start ≤ start + d)
      hwithin hbefore
    rw [tally_admits paired_init hused]
    calc (Bucket.admitted ((rate : Rat) / 60) burst (fun now => start ≤ now && now ≤ start + d) (init.bucket key)
          (times key calls) : Rat) ≤ burst + (start + d - start) * (rate / 60) := hwindow
      _ = burst + rate * d / 60 := by ring

/-- Five requests at once, and five a second later, on a bucket of two tokens that gains one a second. -/
def bursts : List Call := List.replicate 5 ⟨"ip:10.0.0.1", 1, 60, 2, 0⟩ ++ List.replicate 5 ⟨"ip:10.0.0.1", 1, 60, 2, 1⟩

/-- No more than three of them get through. -/
theorem bursts_bounded : (tally step (admits "ip:10.0.0.1" 0 (0 + 1)) init bursts : Rat) ≤ 3 := by
  have hused : UsedWith "ip:10.0.0.1" 60 2 bursts := by
    intro c hc _
    rcases List.mem_append.mp hc with hc | hc
    · rw [List.eq_of_mem_replicate hc]
      exact ⟨rfl, rfl, rfl⟩
    · rw [List.eq_of_mem_replicate hc]
      exact ⟨rfl, rfl, rfl⟩
  have hsorted : (times "ip:10.0.0.1" bursts).Pairwise (· ≤ ·) := by decide +kernel
  have hbound := (rate_bound "ip:10.0.0.1" 60 2 (by omega) (by omega) bursts hused hsorted).2 0 1 zero_le_one
  norm_num at hbound ⊢
  exact hbound

end MemoryTokenBucket

end A2ARegistry.RateLimit
