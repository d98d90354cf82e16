import Mathlib.Algebra.Order.Field.Basic
import Mathlib.Algebra.Order.Floor.Ring
import Mathlib.Tactic.Linarith
import Mathlib.Tactic.Ring

namespace A2ARegistry.Base

/-- A bucket: the tokens it holds, and since when. -/
structure Bucket (K : Type) where
  level : K
  stamp : K

namespace Bucket

variable {K : Type} [Field K] [LinearOrder K]

section Operations

variable (rate cap : K)

/-- The tokens at a time: those there were and those that came since, up to the capacity. A bucket that was not used
is full. -/
def filled (now : K) : Option (Bucket K) → K
  | none => cap
  | some bucket => min (bucket.level + (now - bucket.stamp) * rate) cap

/-- A request takes a token, if there is one. -/
def take (bucket : Option (Bucket K)) (now : K) : Bool × Bucket K :=
  let level := filled rate cap now bucket
  if 1 ≤ level then (true, ⟨level - 1, now⟩) else (false, ⟨level, now⟩)

/-- How many of the requests at these times are admitted, of those that `p` picks out. -/
def admitted (p : K → Bool) : Option (Bucket K) → List K → Nat
  | _, [] => 0
  | bucket, now :: later =>
    (if (take rate cap bucket now).1 && p now then 1 else 0) + admitted p (some (take rate cap bucket now).2) later

end Operations

/-- No fewer than no tokens, and no more than there is room for. -/
def Within (cap : K) (bucket : Option (Bucket K)) : Prop := ∀ b, bucket = some b → 0 ≤ b.level ∧ b.level ≤ cap

/-- The bucket was last used before all of these times. -/
def UsedBefore (times : List K) (bucket : Option (Bucket K)) : Prop :=
  ∀ b, bucket = some b → ∀ now ∈ times, b.stamp ≤ now

section Taking

variable (rate cap : K)

@[simp] theorem take_stamp (bucket : Option (Bucket K)) (now : K) : (take rate cap bucket now).2.stamp = now := by
  unfold take
  dsimp only
  split
  · rfl
  · rfl

/-- What is left and what was taken is what there was. -/
theorem take_level (bucket : Option (Bucket K)) (now : K) :
    (take rate cap bucket now).2.level + (if (take rate cap bucket now).1 then 1 else 0) =
      filled rate cap now bucket := by
  unfold take
  dsimp only
  split
  · rw [if_pos rfl]
    exact sub_add_cancel _ 1
  · exact add_zero _

theorem filled_le (bucket : Option (Bucket K)) (now : K) : filled rate cap now bucket ≤ cap := by
  cases bucket with
  | none => exact le_refl cap
  | some bucket => exact min_le_right _ cap

variable {rate cap}

/-- Nothing is picked out of requests at times that `p` leaves out. -/
theorem admitted_none {p : K → Bool} {times : List K} (h : ∀ now ∈ times, p now = false)
    (bucket : Option (Bucket K)) : admitted rate cap p bucket times = 0 := by
  induction times generalizing bucket with
  | nil => rfl
  | cons now later ih =>
    have hnow := h now (List.mem_cons_self ..)
    rw [admitted, hnow, ih (fun t ht => h t (List.mem_cons_of_mem now ht)), Bool.and_false]
    rfl

theorem admitted_congr {p q : K → Bool} {times : List K} (h : ∀ now ∈ times, p now = q now)
    (bucket : Option (Bucket K)) : admitted rate cap p bucket times = admitted rate cap q bucket times := by
  induction times generalizing bucket with
  | nil => rfl
  | cons now later ih =>
    rw [admitted, admitted, h now (List.mem_cons_self ..), ih (fun t ht => h t (List.mem_cons_of_mem now ht))]

/-- A request at a time before all the others leaves the bucket used before them. -/
theorem take_usedBefore {bucket : Option (Bucket K)} {now : K} {later : List K} (h : ∀ t ∈ later, now ≤ t) :
    UsedBefore later (some (take rate cap bucket now).2) := by
  rintro _ ⟨⟩ t ht
  rw [take_stamp]
  exact h t ht

omit [Field K] in
theorem UsedBefore.head {bucket : Option (Bucket K)} {now : K} {later : List K}
    (h : UsedBefore (now :: later) bucket) : UsedBefore [now] bucket := by
  intro b hb t ht
  exact h b hb t (List.mem_singleton.mp ht ▸ List.mem_cons_self ..)

end Taking

variable [IsStrictOrderedRing K] {rate cap : K}

theorem filled_nonneg (hrate : 0 ≤ rate) (hcap : 0 ≤ cap) {bucket : Option (Bucket K)} (h : Within cap bucket)
    {now : K} (hbefore : UsedBefore [now] bucket) : 0 ≤ filled rate cap now bucket := by
  cases bucket with
  | none => exact hcap
  | some b =>
    have hsince : 0 ≤ now - b.stamp := sub_nonneg.mpr (hbefore b rfl now (List.mem_singleton_self now))
    exact le_min (add_nonneg (h b rfl).1 (mul_nonneg hsince hrate)) hcap

/-- The step lemma: taking keeps the tokens within bounds. -/
theorem take_within (hrate : 0 ≤ rate) (hcap : 0 ≤ cap) {bucket : Option (Bucket K)} (h : Within cap bucket)
    {now : K} (hbefore : UsedBefore [now] bucket) : Within cap (some (take rate cap bucket now).2) := by
  rintro _ ⟨⟩
  have hlow := filled_nonneg hrate hcap h hbefore
  have hhigh := filled_le rate cap bucket now
  unfold take
  dsimp only
  split
  · rename_i hone
    exact ⟨sub_nonneg.mpr hone, by linarith⟩
  · exact ⟨hlow, hhigh⟩

/-- Up to a time no more is admitted than there are tokens, and will have come by then. -/
theorem admitted_until (hrate : 0 ≤ rate) (hcap : 0 ≤ cap) {times : List K} (hsorted : times.Pairwise (· ≤ ·))
    {stop : K} {bucket : Bucket K} (hwithin : Within cap (some bucket)) (hbefore : UsedBefore times (some bucket))
    (hstop : bucket.stamp ≤ stop) :
    (admitted rate cap (fun now => now ≤ stop) (some bucket) times : K) ≤
      bucket.level + (stop - bucket.stamp) * rate := by
  have hcome : 0 ≤ (stop - bucket.stamp) * rate := mul_nonneg (sub_nonneg.mpr hstop) hrate
  induction times generalizing bucket with
  | nil =>
    rw [admitted, Nat.cast_zero]
    exact add_nonneg (hwithin bucket rfl).1 hcome
  | cons now later ih =>
    obtain ⟨hfirst, hsorted⟩ := List.pairwise_cons.mp hsorted
    by_cases hnow : now ≤ stop
    · -- What is left after the first request bounds those that follow.
      have hleft := take_within hrate hcap hwithin hbefore.head
      have hstamp := take_stamp rate cap (some bucket) now
      have hrest := ih hsorted hleft (take_usedBefore hfirst) (hstamp.le.trans hnow)
        (mul_nonneg (sub_nonneg.mpr (hstamp.le.trans hnow)) hrate)
      have hfilled : filled rate cap now (some bucket) ≤ bucket.level + (now - bucket.stamp) * rate := min_le_left ..
      have hsplit := take_level rate cap (some bucket) now
      rw [hstamp] at hrest
      rw [admitted, Nat.cast_add, decide_eq_true hnow, Bool.and_true, Nat.cast_ite, Nat.cast_one, Nat.cast_zero]
      have hsum : (now - bucket.stamp) * rate + (stop - now) * rate = (stop - bucket.stamp) * rate := by ring
      linarith
    · have hlate : ∀ t ∈ now :: later, decide (t ≤ stop) = false := by
        intro t ht
        rcases List.mem_cons.mp ht with rfl | ht
        · exact decide_eq_false hnow
        · exact decide_eq_false (fun hle => hnow ((hfirst t ht).trans hle))
      rw [admitted_none hlate, Nat.cast_zero]
      exact add_nonneg (hwithin bucket rfl).1 hcome

/-- In no window more is admitted than the capacity, and what comes in while it lasts. -/
theorem admitted_window (hrate : 0 ≤ rate) (hcap : 0 ≤ cap) {times : List K} (hsorted : times.Pairwise (· ≤ ·))
    {start stop : K} (hwindow : start ≤ stop) {bucket : Option (Bucket K)} (hwithin : Within cap bucket)
    (hbefore : UsedBefore times bucket) :
    (admitted rate cap (fun now => start ≤ now && now ≤ stop) bucket times : K) ≤ cap + (stop - start) * rate := by
  have hcome : 0 ≤ (stop - start) * rate := mul_nonneg (sub_nonneg.mpr hwindow) hrate
  induction times generalizing bucket with
  | nil =>
    rw [admitted, Nat.cast_zero]
    exact add_nonneg hcap hcome
  | cons now later ih =>
    obtain ⟨hfirst, hsorted⟩ := List.pairwise_cons.mp hsorted
    have hleft := take_within hrate hcap hwithin hbefore.head
    by_cases hearly : now < start
    · -- The window has not opened.
      have hrest := ih hsorted hleft (take_usedBefore hfirst)
      rw [admitted, decide_eq_false (not_le.mpr hearly), Bool.false_and, Bool.and_false]
      simpa using hrest
    · have hopen := not_lt.mp hearly
      have hsame : ∀ t ∈ later, (decide (start ≤ t) && decide (t ≤ stop)) = decide (t ≤ stop) := by
        intro t ht
        rw [decide_eq_true (hopen.trans (hfirst t ht)), Bool.true_and]
      rw [admitted, admitted_congr hsame, decide_eq_true hopen, Bool.true_and]
      by_cases hnow : now ≤ stop
      · have hstamp := take_stamp rate cap bucket now
        have hrest := admitted_until hrate hcap hsorted hleft (take_usedBefore hfirst) (hstamp.le.trans hnow)
        have hfull := filled_le rate cap bucket now
        have hsplit := take_level rate cap bucket now
        have hless : (stop - now) * rate ≤ (stop - start) * rate :=
          mul_le_mul_of_nonneg_right (sub_le_sub_left hopen stop) hrate
        rw [hstamp] at hrest
        rw [Nat.cast_add, decide_eq_true hnow, Bool.and_true, Nat.cast_ite, Nat.cast_one, Nat.cast_zero]
        linarith
      · have hlate : ∀ t ∈ later, decide (t ≤ stop) = false :=
          fun t ht => decide_eq_false (fun hle => hnow ((hfirst t ht).trans hle))
        rw [admitted_none hlate, decide_eq_false hnow, Bool.and_false]
        simpa using add_nonneg hcap hcome

omit [IsStrictOrderedRing K] in
/-- There is a token at a later time when it was there or has come since. -/
theorem filled_later_iff (hcap : 1 ≤ cap) (level stamp now : K) :
    1 ≤ filled rate cap now (some ⟨level, stamp⟩) ↔ 1 ≤ level + (now - stamp) * rate := by
  unfold filled
  rw [le_min_iff]
  exact and_iff_left hcap

section Waiting

variable [FloorRing K]

/-- The whole units of time until a bucket is full are enough for one token, when all but one of the tokens need a unit
or more. -/
theorem floor_full_enough (hrate : 0 < rate) (hslow : rate ≤ cap - 1) (level : K) :
    1 ≤ level + ⌊(cap - level) / rate⌋ * rate := by
  have hfloor : (cap - level) / rate - 1 < ⌊(cap - level) / rate⌋ := Int.sub_one_lt_floor _
  have hfull : ((cap - level) / rate - 1) * rate = cap - level - rate := by
    rw [sub_mul, div_mul_cancel₀ _ hrate.ne', one_mul]
  have htokens := mul_lt_mul_of_pos_right hfloor hrate
  linarith

/-- A wait is covered by its whole units, at least one, when it is no longer than that or is whole itself. -/
theorem le_whole_iff (wait : K) : wait ≤ (max 1 ⌊wait⌋ : ℤ) ↔ wait ≤ 1 ∨ ∃ n : ℤ, wait = n := by
  rw [Int.cast_max, Int.cast_one, le_max_iff]
  constructor
  · intro h
    rcases h with hone | hwhole
    · exact Or.inl hone
    · exact Or.inr ⟨⌊wait⌋, le_antisymm hwhole (Int.floor_le wait)⟩
  · intro h
    rcases h with hone | ⟨n, hn⟩
    · exact Or.inl hone
    · right
      rw [hn, Int.floor_intCast]

end Waiting

end Bucket

end A2ARegistry.Base
