import Mathlib
import A2ARegistry.Base.TokenBucket
import A2ARegistry.RateLimit.Middleware
import A2ARegistry.RateLimit.Proofs.Backends

namespace A2ARegistry.RateLimit
open Base Orchestration

/-- One token is asked for, of a bucket that holds what comes in a minute. -/
def Call.minute (c : Call) : Prop := c.tokens = 1 ∧ 1 ≤ c.rate ∧ c.burst = c.rate

/-- A client that is refused and makes no request for the seconds of the `Retry-After` header is let through by its next
one at that rate, whatever the others do meanwhile. -/
def HonestRetry {β : Type} (config : RateLimitConfig) (consume : β → Call → Option Answer × β) (buckets : β)
    (request : HttpRequest) (now : Rat) : Prop :=
  ∀ handler (retryAfter : Int), (rateLimit config consume buckets ⟨request, now, now⟩).1.admits = false →
    ("Retry-After", toString retryAfter) ∈
      (rateLimitMiddleware config consume handler buckets ⟨request, now, now⟩).1.headers →
    ∀ others : List Visit, (∀ v ∈ others, getClientKey v.request ≠ getClientKey request) →
    ∀ next : Visit, getClientKey next.request = getClientKey request →
      config.rate next.request = config.rate request → now + retryAfter ≤ next.now →
      (rateLimit config consume (exec (fun b v => (rateLimit config consume b v).2)
        (rateLimit config consume buckets ⟨request, now, now⟩).2 others) next).1.admits = true

/-- A wait that its whole seconds cover, at least one. -/
def Covered (wait : Rat) : Prop := wait ≤ 1 ∨ ∃ n : ℤ, wait = n

/-- A backend with the tokens there are at a call: a call takes one of them or is refused, and leaves the buckets of
the other keys alone. -/
structure Backend (β : Type) where
  consume : β → Call → Option Answer × β
  level : β → Call → Rat
  admitted : ∀ s c, c.minute → 1 ≤ level s c → ∃ answer, (consume s c).1 = some answer ∧ answer.allowed = true
  refused : ∀ s c, c.minute → level s c < 1 → ∃ answer, (consume s c).1 = some answer ∧ answer.allowed = false ∧
    answer.resetAt = c.now + (c.rate - level s c) / (c.rate / 60)
  waited : ∀ s c, c.minute → level s c < 1 → ∀ d, d.key = c.key → d.rate = c.rate → d.burst = c.burst →
    level (consume s c).2 d = Bucket.filled ((c.rate : Rat) / 60) c.rate d.now (some ⟨level s c, c.now⟩)
  other : ∀ s c d, d.key ≠ c.key → level (consume s c).2 d = level s d

/-- The seconds that a refused request is told, and nothing else, are in its `Retry-After` header. -/
theorem retryAfter_header {β : Type} {config : RateLimitConfig} {consume : β → Call → Option Answer × β} {buckets : β}
    {visit : Visit} {quota : Quota} {retryAfter : Int}
    (h : (rateLimit config consume buckets visit).1 = .refused quota retryAfter) (handler : HttpRequest → Response)
    (n : Int) :
    ("Retry-After", toString n) ∈ (rateLimitMiddleware config consume handler buckets visit).1.headers ↔
      n = retryAfter := by
  have hanswer : (rateLimitMiddleware config consume handler buckets visit).1 = tooManyRequests quota retryAfter := by
    change (rateLimit config consume buckets visit).1.respond _ = _
    rw [h]
    rfl
  rw [hanswer]
  simp [tooManyRequests, Quota.headers, Int.repr_inj]

theorem truncate_floor {x : Rat} (h : 0 ≤ x) : truncate x = ⌊x⌋ := by
  rw [truncate, Rat.floor_def', Int.tdiv_eq_ediv_of_nonneg (Rat.num_nonneg.mpr h)]

section Hint

variable {rate : Int} {level : Rat}

/-- The whole seconds until the bucket is full bring a token at every rate above one a minute; at a rate of one they
are those until the token is there. -/
theorem hint_enough_iff (hrate : 1 ≤ rate) (hlevel : level < 1) :
    1 ≤ level + ((max 1 (truncate (((rate : Rat) - level) / (rate / 60))) : ℤ) : Rat) * (rate / 60) ↔
      rate ≠ 1 ∨ Covered (60 * (1 - level)) := by
  have hpos : (1 : Rat) ≤ rate := by exact_mod_cast hrate
  have hgain : (0 : Rat) < rate / 60 := by linarith
  rw [truncate_floor (div_nonneg (by linarith) hgain.le)]
  by_cases hone : rate = 1
  · have hwait : ((rate : Rat) - level) / (rate / 60) = 60 * (1 - level) := by
      rw [hone, Int.cast_one, one_div, div_inv_eq_mul, mul_comm]
    rw [hwait, hone, Int.cast_one, Covered, ← Bucket.le_whole_iff]
    simp only [ne_eq, not_true_eq_false, false_or]
    constructor
    · intro h
      linarith
    · intro h
      linarith
  · have htwo : (2 : Rat) ≤ rate := by exact_mod_cast (by omega : 2 ≤ rate)
    have hfull := Bucket.floor_full_enough hgain (by linarith : (rate : Rat) / 60 ≤ rate - 1) level
    have hhint : (⌊((rate : Rat) - level) / (rate / 60)⌋ : Rat) ≤
        ((max 1 ⌊((rate : Rat) - level) / (rate / 60)⌋ : ℤ) : Rat) := Int.cast_le.mpr (le_max_right _ _)
    have hmore := mul_le_mul_of_nonneg_right hhint hgain.le
    exact iff_of_true (by linarith) (Or.inl hone)

end Hint

namespace Backend

variable {β : Type} (b : Backend β) {config : RateLimitConfig} {request : HttpRequest}

theorem minute_call {visit : Visit} (hrate : 1 ≤ config.rate visit.request) : (visit.call config).minute :=
  ⟨rfl, hrate, rfl⟩

/-- The requests of the other clients leave the bucket of a call alone. -/
theorem level_others (d : Call) (others : List Visit) (hothers : ∀ v ∈ others, getClientKey v.request ≠ d.key)
    (s : β) : b.level (exec (fun s v => (rateLimit config b.consume s v).2) s others) d = b.level s d := by
  induction others generalizing s with
  | nil => rfl
  | cons v others ih =>
    rw [exec_cons, ih fun w hw => hothers w (List.mem_cons_of_mem v hw)]
    have hkey : d.key ≠ (v.call config).key := (hothers v List.mem_cons_self).symm
    have hother := b.other s (v.call config) d hkey
    unfold rateLimit
    split
    · rfl
    · split
      · rename_i hconsume
        rw [hconsume] at hother
        exact hother
      · rename_i hconsume
        rw [hconsume] at hother
        split <;> exact hother

variable {b} {s : β} {visit : Visit}

theorem rateLimit_exempt (h : config.exempts visit.request = true) :
    rateLimit config b.consume s visit = (.exempt, s) := by
  rw [rateLimit, if_pos h]

theorem rateLimit_bucket (h : config.exempts visit.request = false) {answer : Answer}
    (hanswer : (b.consume s (visit.call config)).1 = some answer) :
    rateLimit config b.consume s visit =
      (if answer.allowed then .admitted ⟨config.rate visit.request, answer.remaining, answer.resetAt⟩
        else .refused ⟨config.rate visit.request, answer.remaining, answer.resetAt⟩
          (max 1 (truncate (answer.resetAt - visit.later))), (b.consume s (visit.call config)).2) := by
  have hconsume : b.consume s (visit.call config) = (some answer, (b.consume s (visit.call config)).2) :=
    Prod.ext hanswer rfl
  rw [rateLimit, if_neg (by simp [h]), hconsume]
  dsimp only
  split <;> rfl

/-- A request gets through where it is exempt, or where there is a token. -/
theorem admits_iff (hrate : 1 ≤ config.rate visit.request) : (rateLimit config b.consume s visit).1.admits = true ↔
    config.exempts visit.request = true ∨ 1 ≤ b.level s (visit.call config) := by
  cases hexempt : config.exempts visit.request with
  | true => simp [rateLimit_exempt hexempt, Verdict.admits]
  | false =>
    by_cases hlevel : 1 ≤ b.level s (visit.call config)
    · obtain ⟨answer, hanswer, hallowed⟩ := b.admitted s _ (minute_call hrate) hlevel
      simp [rateLimit_bucket hexempt hanswer, hallowed, Verdict.admits, hlevel]
    · obtain ⟨answer, hanswer, hallowed, _⟩ := b.refused s _ (minute_call hrate) (not_le.mp hlevel)
      simp [rateLimit_bucket hexempt hanswer, hallowed, Verdict.admits, hlevel]

/-- What a refused client is told: the seconds until its bucket is full, rounded down. -/
theorem refused_hint {now : Rat} (hrate : 1 ≤ config.rate request) (hexempt : config.exempts request = false)
    (hlevel : b.level s (Visit.call config ⟨request, now, now⟩) < 1) :
    ∃ quota, rateLimit config b.consume s ⟨request, now, now⟩ =
      (.refused quota (max 1 (truncate (((config.rate request : Rat) -
        b.level s (Visit.call config ⟨request, now, now⟩)) / (config.rate request / 60)))),
        (b.consume s (Visit.call config ⟨request, now, now⟩)).2) := by
  obtain ⟨answer, hanswer, hallowed, hreset⟩ := b.refused s _ (minute_call hrate) hlevel
  have hverdict := @rateLimit_bucket _ _ _ _ ⟨request, now, now⟩ hexempt _ hanswer
  rw [hallowed, hreset] at hverdict
  simp only [Bool.false_eq_true, if_false, Visit.call, add_sub_cancel_left] at hverdict
  exact ⟨_, hverdict⟩

/-- After a refusal and what the others did, the client's next request gets through where the tokens that came since make
one. -/
theorem next_admits_iff {now : Rat} (hrate : 1 ≤ config.rate request)
    (hlevel : b.level s (Visit.call config ⟨request, now, now⟩) < 1) {others : List Visit}
    (hothers : ∀ v ∈ others, getClientKey v.request ≠ getClientKey request) {next : Visit}
    (hkey : getClientKey next.request = getClientKey request) (hsame : config.rate next.request = config.rate request) :
    (rateLimit config b.consume (exec (fun s v => (rateLimit config b.consume s v).2)
        (b.consume s (Visit.call config ⟨request, now, now⟩)).2 others) next).1.admits = true ↔
      config.exempts next.request = true ∨ 1 ≤ b.level s (Visit.call config ⟨request, now, now⟩) +
        (next.now - now) * (config.rate request / 60) := by
  have hpos : (1 : Rat) ≤ config.rate request := by exact_mod_cast hrate
  have hlater := b.waited s _ (minute_call hrate) hlevel (next.call config) hkey hsame hsame
  rw [admits_iff (by rw [hsame]; exact hrate), b.level_others _ others (by rw [Visit.call, hkey]; exact hothers), hlater]
  exact or_congr_right (Bucket.filled_later_iff hpos _ now next.now)

/-- The hint is honest at every rate above one a minute, and at a rate of one where it covers the wait for the token. -/
theorem honest_iff (b : Backend β) (s : β) (request : HttpRequest) (now : Rat) (hrate : 1 ≤ config.rate request) :
    HonestRetry config b.consume s request now ↔ config.exempts request = true ∨ config.rate request ≠ 1 ∨
      Covered (60 * (1 - b.level s (Visit.call config ⟨request, now, now⟩))) := by
  cases hexempt : config.exempts request with
  | true =>
    refine iff_of_true (fun handler retryAfter hrefused => ?_) (Or.inl rfl)
    rw [@rateLimit_exempt _ _ _ _ ⟨request, now, now⟩ hexempt] at hrefused
    cases hrefused
  | false =>
    simp only [Bool.false_eq_true, false_or]
    by_cases hlevel : 1 ≤ b.level s (Visit.call config ⟨request, now, now⟩)
    · have hadmits := (@admits_iff _ b _ s ⟨request, now, now⟩ hrate).mpr (Or.inr hlevel)
      refine iff_of_true (fun handler retryAfter hrefused => ?_) (Or.inr (Or.inl (by linarith)))
      rw [hrefused] at hadmits
      cases hadmits
    · have hlow := not_le.mp hlevel
      obtain ⟨quota, hverdict⟩ := refused_hint hrate hexempt hlow
      have hrefused := congrArg Prod.fst hverdict
      rw [← hint_enough_iff hrate hlow]
      constructor
      · intro hhonest
        have hnobody : ∀ v ∈ ([] : List Visit), getClientKey v.request ≠ getClientKey request :=
          fun v hv => absurd hv List.not_mem_nil
        have hheader := (retryAfter_header hrefused (fun _ => serverError) _).mpr rfl
        have hadmits := hhonest _ _ (by rw [hrefused]; rfl) hheader [] hnobody ⟨request, _, now⟩ rfl rfl le_rfl
        rw [hverdict] at hadmits
        have htoken := (next_admits_iff hrate hlow hnobody rfl rfl).mp hadmits
        simpa [hexempt] using htoken
      · intro henough handler retryAfter _ hheader others hothers next hkey hsame hlater
        obtain rfl := (retryAfter_header hrefused handler retryAfter).mp hheader
        rw [hverdict]
        apply (next_admits_iff hrate hlow hothers hkey hsame).mpr
        have hpos : (1 : Rat) ≤ config.rate request := by exact_mod_cast hrate
        have hgain : (0 : Rat) ≤ config.rate request / 60 := by linarith
        have hmore := mul_le_mul_of_nonneg_right (le_sub_iff_add_le'.mpr hlater) hgain
        right
        linarith

end Backend

section Backends

/-- `consume` of the bucket in memory, which never raises. -/
def MemoryTokenBucket.answer (m : MemoryTokenBucket) (c : Call) : Option Answer × MemoryTokenBucket :=
  (some (m.consume c).1, (m.consume c).2)

namespace MemoryTokenBucket

variable (m : MemoryTokenBucket) (c : Call)

theorem answer_admitted (hc : c.minute) (hlevel : 1 ≤ m.refilled c) :
    ∃ answer, (m.answer c).1 = some answer ∧ answer.allowed = true := by
  refine ⟨_, rfl, ?_⟩
  simp [consume, hc.1, hlevel]

theorem answer_refused (hc : c.minute) (hlevel : m.refilled c < 1) : ∃ answer, (m.answer c).1 = some answer ∧
    answer.allowed = false ∧ answer.resetAt = c.now + (c.rate - m.refilled c) / (c.rate / 60) := by
  have hrate : 0 < c.rate := by have := hc.2.1; omega
  refine ⟨_, rfl, ?_, ?_⟩
  · simp [consume, hc.1, hlevel]
  · simp [consume, hc.1, hc.2.2, not_le.mpr hlevel, resetAt, hrate]

theorem answer_waited (hc : c.minute) (hlevel : m.refilled c < 1) (d : Call) (hkey : d.key = c.key)
    (hrate : d.rate = c.rate) (hburst : d.burst = c.burst) : (m.answer c).2.refilled d =
      Bucket.filled ((c.rate : Rat) / 60) c.rate d.now (some ⟨m.refilled c, c.now⟩) := by
  have hleft : (m.consume c).2.buckets d.key = some (m.refilled c) := by
    simp [consume, hc.1, not_le.mpr hlevel, hkey]
  have hstamp : (m.consume c).2.lastRefill d.key = some c.now := by simp [consume, hkey]
  rw [answer, refilled, hleft, hstamp, hrate, hburst, hc.2.2]
  rfl

theorem answer_other (d : Call) (hkey : d.key ≠ c.key) : (m.answer c).2.refilled d = m.refilled d := by
  simp [answer, consume, refilled, hkey]

def backend : Backend MemoryTokenBucket where
  consume := answer
  level := refilled
  admitted := answer_admitted
  refused := answer_refused
  waited := answer_waited
  other := answer_other

end MemoryTokenBucket

namespace MySQLTokenBucket

/-- The tokens there are at a call. -/
def refilled (table : Table BucketRow) (c : Call) : Rat :=
  match table.find? c.key with
  | none => c.burst
  | some row => min (row.tokens + (c.now - row.lastRefill) * (c.rate / 60)) c.burst

theorem consume_some {table : Table BucketRow} {c : Call} {row : BucketRow} (hrow : table.find? c.key = some row)
    (hc : c.minute) (hlevel : refilled table c < 1) : consume table c =
      (some ⟨false, truncate (refilled table c), resetAt c.now c.rate c.burst (refilled table c)⟩,
        table.modify (fun row => row.bucketKey == c.key)
          (fun row => { row with tokens := refilled table c, lastRefill := c.now, updatedAt := c.now })) := by
  have hrate : 0 < c.rate := by have := hc.2.1; omega
  have hburst : 0 < c.burst := by have := hc.2.2; omega
  have hfilled : refilled table c = min (row.tokens + (c.now - row.lastRefill) * (c.rate / 60)) c.burst := by
    rw [refilled, hrow]
  have hfew : ¬ (c.tokens : Rat) ≤ refilled table c := by
    rw [hc.1, Int.cast_one]
    exact not_le.mpr hlevel
  simp only [consume, hrow, decideCall, if_pos hrate, if_pos hburst, ← hfilled, decide_eq_false hfew,
    Bool.false_eq_true, if_false, execute]

/-- A bucket without a token has a row. -/
theorem row_of_low {table : Table BucketRow} {c : Call} (hc : c.minute) (hlevel : refilled table c < 1) :
    ∃ row, table.find? c.key = some row := by
  cases hrow : table.find? c.key with
  | none =>
    have hburst : (1 : Rat) ≤ c.burst := by
      rw [hc.2.2]
      exact_mod_cast hc.2.1
    rw [refilled, hrow] at hlevel
    exact absurd hburst (not_le.mpr hlevel)
  | some row => exact ⟨row, rfl⟩

variable (table : Table BucketRow) (c : Call)

theorem consume_admitted (hc : c.minute) (hlevel : 1 ≤ refilled table c) :
    ∃ answer, (consume table c).1 = some answer ∧ answer.allowed = true := by
  have hrate : 0 < c.rate := by have := hc.2.1; omega
  have hburst : 0 < c.burst := by have := hc.2.2; omega
  unfold consume
  cases hrow : table.find? c.key with
  | none =>
    obtain ⟨table', hinsert⟩ := Option.isSome_iff_exists.mp (Table.insert_isSome
      (r := (⟨c.key, c.burst - c.tokens, c.rate, c.burst, c.now, c.now⟩ : BucketRow)) |>.mpr hrow)
    refine ⟨_, by simp only [decideCall, execute, hinsert]; rfl, ?_⟩
    simp [hc.1]
    omega
  | some row =>
    rw [refilled, hrow] at hlevel
    refine ⟨_, rfl, ?_⟩
    simp only [if_pos hrate, if_pos hburst, hc.1, Int.cast_one]
    exact decide_eq_true hlevel

theorem consume_refused (hc : c.minute) (hlevel : refilled table c < 1) : ∃ answer,
    (consume table c).1 = some answer ∧ answer.allowed = false ∧
      answer.resetAt = c.now + (c.rate - refilled table c) / (c.rate / 60) := by
  obtain ⟨row, hrow⟩ := row_of_low hc hlevel
  have hrate : 0 < c.rate := by have := hc.2.1; omega
  rw [consume_some hrow hc hlevel]
  refine ⟨_, rfl, rfl, ?_⟩
  rw [resetAt, if_pos hrate, hc.2.2]

theorem consume_waited (hc : c.minute) (hlevel : refilled table c < 1) (d : Call) (hkey : d.key = c.key)
    (hrate : d.rate = c.rate) (hburst : d.burst = c.burst) : refilled (consume table c).2 d =
      Bucket.filled ((c.rate : Rat) / 60) c.rate d.now (some ⟨refilled table c, c.now⟩) := by
  obtain ⟨row, hrow⟩ := row_of_low hc hlevel
  rw [consume_some hrow hc hlevel, refilled, find_update, hkey, if_pos rfl, hrow, hrate, hburst, hc.2.2]
  rfl

theorem refilled_other (d : Call) (hkey : d.key ≠ c.key) :
    refilled (consume table c).2 d = refilled table d := by
  have hfind : (consume table c).2.find? d.key = table.find? d.key := by
    unfold consume
    cases hexecute : execute table c.key (decideCall (table.find? c.key) c).1 with
    | none => simp [hexecute]
    | some table' =>
      simp only [hexecute]
      exact execute_other hexecute hkey
  rw [refilled, refilled, hfind]

def backend : Backend (Table BucketRow) where
  consume := consume
  level := refilled
  admitted := consume_admitted
  refused := consume_refused
  waited := consume_waited
  other := refilled_other

end MySQLTokenBucket

end Backends

section Claim

variable (config : RateLimitConfig)

/-- At a rate of one a minute a bucket with a token needs no wait, and one with less needs it until the token is
there. -/
theorem covered_filled (level elapsed : Rat) :
    Covered (60 * (1 - min (level + elapsed * (1 / 60)) 1)) ↔ Covered (60 * (1 - level) - elapsed) := by
  rcases le_total (level + elapsed * (1 / 60)) 1 with hlow | hfull
  · rw [min_eq_left hlow]
    have hsame : 60 * (1 - (level + elapsed * (1 / 60))) = 60 * (1 - level) - elapsed := by ring
    rw [hsame]
  · rw [min_eq_right hfull]
    exact iff_of_true (Or.inl (by norm_num)) (Or.inl (by linarith))

/-- A client that waits as it is told gets through, with either backend, at every rate above one a minute. At a rate of
one it does where its bucket is new, or the time until the token is there is no longer than a second or a whole number
of seconds: the advertised seconds are rounded down. -/
theorem retry_honest_iff (request : HttpRequest) (now : Rat) (hrate : 1 ≤ config.rate request) :
    (∀ m : MemoryTokenBucket, HonestRetry config MemoryTokenBucket.answer m request now ↔
      config.exempts request = true ∨ config.rate request ≠ 1 ∨
        ∀ level, m.buckets (getClientKey request) = some level →
          Covered (60 * (1 - level) - (now - (m.lastRefill (getClientKey request)).getD now))) ∧
    ∀ table : Table BucketRow, HonestRetry config MySQLTokenBucket.consume table request now ↔
      config.exempts request = true ∨ config.rate request ≠ 1 ∨
        ∀ row, table.find? (getClientKey request) = some row →
          Covered (60 * (1 - row.tokens) - (now - row.lastRefill)) := by
  have hfull : Covered 0 := Or.inl zero_le_one
  constructor
  · intro m
    refine (Backend.honest_iff MemoryTokenBucket.backend m request now hrate).trans (or_congr_right ?_)
    by_cases hone : config.rate request = 1
    · refine or_congr_right ?_
      change Covered (60 * (1 - m.refilled (Visit.call config ⟨request, now, now⟩))) ↔ _
      cases hlevel : m.buckets (getClientKey request) with
      | none => simp [MemoryTokenBucket.refilled, Visit.call, hlevel, hone, hfull]
      | some level =>
        simp only [MemoryTokenBucket.refilled, Visit.call, hlevel, hone, Int.cast_one, Option.some.injEq, forall_eq']
        exact covered_filled level _
    · simp [hone]
  · intro table
    refine (Backend.honest_iff MySQLTokenBucket.backend table request now hrate).trans (or_congr_right ?_)
    by_cases hone : config.rate request = 1
    · refine or_congr_right ?_
      change Covered (60 * (1 - MySQLTokenBucket.refilled table (Visit.call config ⟨request, now, now⟩))) ↔ _
      cases hrow : table.find? (getClientKey request) with
      | none => simp [MySQLTokenBucket.refilled, Visit.call, hrow, hone, hfull]
      | some row =>
        simp only [MySQLTokenBucket.refilled, Visit.call, hrow, hone, Int.cast_one, Option.some.injEq, forall_eq']
        exact covered_filled row.tokens _
    · simp [hone]

end Claim

section Sample

def perMinute (rate : Int) : RateLimitConfig := { enabled := true, defaultUnauthenticated := rate }

def health : HttpRequest := { path := "/health", remote := some "10.0.0.1" }

/-- At sixty a minute a client that has used up its tokens is told the truth. -/
theorem sixty_honest : HonestRetry (perMinute 60) MemoryTokenBucket.answer
    ⟨fun _ => some (1 / 2), fun _ => some 0, fun _ => some (60, 60)⟩ health (1 / 4) :=
  ((retry_honest_iff (perMinute 60) health (1 / 4) (by decide)).1 _).mpr (Or.inr (Or.inl (by decide)))

/-- At one a minute a client that comes half a second after its first request is told to wait for 59 seconds, and half
a second is missing then. -/
theorem half_second_missing : ¬ HonestRetry (perMinute 1) MemoryTokenBucket.answer
    (rateLimit (perMinute 1) MemoryTokenBucket.answer MemoryTokenBucket.init ⟨health, 0, 0⟩).2 health (1 / 2) := by
  intro h
  have hnext := h (fun _ => serverError) 59 (by decide +kernel) (by decide +kernel) []
    (fun v hv => absurd hv List.not_mem_nil) ⟨health, 119 / 2, 119 / 2⟩ rfl rfl (by norm_num)
  exact absurd hnext (by decide +kernel)

end Sample

end A2ARegistry.RateLimit
