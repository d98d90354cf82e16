import Mathlib.Algebra.Group.Nat.Defs
import A2ARegistry.Client.Reconnect

open A2ARegistry.Base

namespace A2ARegistry.Client.ReconnectLoop

/-- The failures since the last connection, for the attempts before a sleep, the latest first. Where the loop has had no
connection since it began or registered the agent anew, they are counted behind its first failure. -/
def failures : List Attempt → Nat
  | .failed :: .failed :: earlier => failures (.failed :: earlier) + 1
  | .failed :: .dropped :: _ => 1
  | _ => 0

/-- The seconds to sleep before the next attempt: none before the first one, and none after a registration. -/
def backoff : List Attempt → Nat
  | [] | .registered :: _ => 0
  | attempts => min wsReconnectMax (wsReconnectBase * wsReconnectFactor ^ failures attempts)

/-- Each attempt was begun after the seconds of sleep that are due before it, as is the sleep the loop is in; and when
it has been cancelled, the loop is over, unless it still closes its connection, and has begun no other attempt. -/
structure Lawful (s : ReconnectLoop) : Prop where
  slept : ∀ round ∈ s.rounds, round.2 = backoff round.1
  sleeping : s.phase = .sleeping → s.delay = backoff s.attempts
  cancelled : ∀ begun, s.cancelledAt = some begun →
    (s.phase = .closing ∨ s.phase.over) ∧ s.rounds.length = begun

/-- A connection is dropped while the delay is that of the start, and no cancellation meets the listening, unless
another one meets the close of the connection after it. -/
def Keeps (s : ReconnectLoop) (event : LoopEvent) : Prop :=
  match s.phase, event with
  | .listening, .listenEnds true => s.delay = wsReconnectBase
  | .listening, .cancel closed => closed = false
  | .closing, .closes => s.cancelledAt = none ∧ s.delay = wsReconnectBase
  | _, _ => True

/-- What the delay is: in a round it is the one due if the round fails, and in a sleep the one that is slept. -/
def Due : Phase → List Attempt → Nat → Prop
  | .created, attempts, delay => attempts = [] ∧ delay = wsReconnectBase
  | .sleeping, attempts, delay =>
    (∃ attempt earlier, attempts = attempt :: earlier ∧ attempt ≠ .registered) ∧ delay = backoff attempts
  | .returned, _, _ | .raised, _, _ => True
  | _, attempts, delay => delay = backoff (.failed :: attempts)

/-- What steps that keep the law preserve. -/
structure Steady (s : ReconnectLoop) : Prop where
  slept : ∀ round ∈ s.rounds, round.2 = backoff round.1
  due : Due s.phase s.attempts s.delay
  cancelled : ∀ begun, s.cancelledAt = some begun →
    (s.phase = .closing ∨ s.phase.over) ∧ s.rounds.length = begun

variable {s : ReconnectLoop}

theorem Steady.lawful (h : Steady s) : Lawful s := by
  refine ⟨h.slept, fun hphase => ?_, h.cancelled⟩
  have hdue := h.due
  rw [hphase] at hdue
  exact hdue.2

/-- A failure after another attempt doubles the delay, up to the longest one. -/
theorem backoff_failed {attempt : Attempt} (earlier : List Attempt) (h : attempt ≠ .registered) :
    min (backoff (attempt :: earlier) * wsReconnectFactor) wsReconnectMax =
      backoff (.failed :: attempt :: earlier) := by
  cases attempt with
  | failed =>
    simp only [backoff, failures, wsReconnectBase, wsReconnectFactor, wsReconnectMax, Nat.pow_succ]
    omega
  | dropped => rfl
  | registered => exact absurd rfl h

theorem slept_connect (h : ∀ round ∈ s.rounds, round.2 = backoff round.1) {slept : Nat}
    (hslept : slept = backoff s.attempts) : ∀ round ∈ (s.connect slept).rounds, round.2 = backoff round.1 := by
  intro round hround
  obtain hbefore | hnow := List.mem_append.mp hround
  · exact h round hbefore
  · rw [List.mem_singleton.mp hnow]
    exact hslept

/-- A loop that can still begin a round has not been cancelled. -/
theorem Steady.running (h : Steady s) (hclosing : s.phase ≠ .closing) (hover : s.phase.over = false) :
    s.cancelledAt = none := by
  cases hcancelled : s.cancelledAt with
  | none => rfl
  | some begun =>
    obtain ⟨hphase | hphase, -⟩ := h.cancelled begun hcancelled
    · exact absurd hphase hclosing
    · rw [hover] at hphase
      exact absurd hphase Bool.false_ne_true

theorem Steady.of_running (hslept : ∀ round ∈ s.rounds, round.2 = backoff round.1)
    (hdue : Due s.phase s.attempts s.delay) (hrunning : s.cancelledAt = none) : Steady s := by
  refine ⟨hslept, hdue, fun begun hcancelled => ?_⟩
  rw [hrunning] at hcancelled
  cases hcancelled

theorem Steady.sleep (h : Steady s) (hrunning : s.cancelledAt = none) {attempt : Attempt}
    (hattempt : attempt ≠ .registered) (hdelay : s.delay = backoff (attempt :: s.attempts)) :
    Steady (s.sleep attempt) := by
  refine Steady.of_running h.slept ?_ hrunning
  exact ⟨⟨attempt, s.attempts, rfl, hattempt⟩, hdelay⟩

theorem Steady.afterFailure (h : Steady s) (hphase : s.phase = .connecting) (notFound : Bool) :
    Steady (s.afterConnect .failed (if notFound then .notFoundError else .exception)) := by
  have hdue := h.due
  have hrunning : s.cancelledAt = none := h.running (by simp [hphase]) (by rw [hphase]; rfl)
  rw [hphase] at hdue
  cases notFound with
  | false => exact h.sleep hrunning (by decide) hdue
  | true => exact Steady.of_running h.slept hdue hrunning

/-- A connection that is dropped while the delay is at its start is slept over for the time due. -/
theorem Steady.drop (h : Steady s) (hrunning : s.cancelledAt = none) (hdelay : s.delay = wsReconnectBase)
    (ending : Ending) : Steady (s.afterConnect .dropped (finallyRaises ending)) :=
  h.sleep hrunning (by decide) hdelay

theorem Steady.wake (h : Steady s) (hphase : s.phase = .sleeping) :
    Steady { s.connect s.delay with delay := min (s.delay * wsReconnectFactor) wsReconnectMax } := by
  have hdue := h.due
  have hrunning : s.cancelledAt = none := h.running (by simp [hphase]) (by rw [hphase]; rfl)
  rw [hphase] at hdue
  obtain ⟨⟨attempt, earlier, hattempts, hattempt⟩, hdelay⟩ := hdue
  refine Steady.of_running ?_ ?_ hrunning
  · exact slept_connect h.slept hdelay
  · change min (s.delay * wsReconnectFactor) wsReconnectMax = backoff (.failed :: s.attempts)
    rw [hdelay, hattempts]
    exact backoff_failed earlier hattempt

/-- The first cancellation is noted with the rounds begun by then; none has been begun between it and a later one. -/
theorem Steady.noted (h : Steady s) {begun : Nat}
    (hnoted : (s.cancelledAt.orElse fun _ => some s.rounds.length) = some begun) : s.rounds.length = begun := by
  cases hcancelled : s.cancelledAt with
  | none =>
    rw [hcancelled] at hnoted
    exact Option.some.inj hnoted
  | some first =>
    rw [hcancelled] at hnoted
    exact (h.cancelled begun (hcancelled.trans hnoted)).2

theorem Steady.cancelAt (h : Steady s) {closed : Bool} (hopen : s.phase = .listening → closed = false) :
    Steady (s.cancelAt closed) := by
  obtain ⟨agentId, delay, phase, attempts, rounds, cancelledAt⟩ := s
  cases phase with
  | created | registering | sleeping | connecting | greeting | closing =>
    exact ⟨h.slept, trivial, fun begun hnoted => ⟨Or.inr rfl, h.noted hnoted⟩⟩
  | listening =>
    cases hopen rfl
    exact ⟨h.slept, h.due, fun begun hnoted => ⟨Or.inl rfl, h.noted hnoted⟩⟩
  | returned | raised => exact h

theorem Steady.step (h : Steady s) (event : LoopEvent) (hkeeps : Keeps s event) : Steady (s.step event) := by
  have hdue := h.due
  have hrunning := h.running
  fun_cases ReconnectLoop.step s event with
  | case1 hphase =>
    rw [hphase] at hdue hrunning
    refine Steady.of_running ?_ ?_ (hrunning (by decide) rfl)
    · apply slept_connect h.slept
      rw [hdue.1]
      rfl
    · change s.delay = backoff (.failed :: s.attempts)
      rw [hdue.1, hdue.2]
      rfl
  | case2 notFound hphase => exact h.afterFailure hphase notFound
  | case3 hphase | case4 hphase =>
    rw [hphase] at hdue hrunning
    exact Steady.of_running h.slept hdue (hrunning (by decide) rfl)
  | case5 => exact h
  | case6 closed hphase =>
    rw [hphase] at hdue hrunning
    cases closed with
    | false => exact Steady.of_running h.slept hdue (hrunning (by decide) rfl)
    | true =>
      simp only [Keeps, hphase] at hkeeps
      exact h.drop (hrunning (by decide) rfl) hkeeps .returned
  | case7 hphase =>
    simp only [Keeps, hphase] at hkeeps
    exact h.drop hkeeps.1 hkeeps.2 .returned
  | case8 newId hphase =>
    rw [hphase] at hrunning
    refine Steady.of_running ?_ rfl (hrunning (by decide) rfl)
    apply slept_connect
    · exact h.slept
    · rfl
  | case9 hphase =>
    rw [hphase] at hdue hrunning
    exact h.sleep (hrunning (by decide) rfl) (by decide) hdue
  | case10 hphase => exact h.wake hphase
  | case11 closed =>
    apply h.cancelAt
    intro hphase
    simpa only [Keeps, hphase] using hkeeps
  | case12 => exact h

/-- Where a step does not keep the law the loop goes to sleep, for longer than is due or although it was cancelled. -/
theorem Steady.broken (h : Steady s) (event : LoopEvent) (hbroken : ¬ Keeps s event) : ¬ Lawful (s.step event) := by
  intro hlawful
  apply hbroken
  fun_cases Keeps s event with
  | case1 hphase =>
    have hstep : s.step (.listenEnds true) = s.sleep .dropped := by
      simp only [ReconnectLoop.step, hphase]
      rfl
    rw [hstep] at hlawful
    exact hlawful.sleeping rfl
  | case2 closed hphase =>
    cases closed with
    | false => rfl
    | true =>
      have hstep : s.step (.cancel true) = { s with cancelledAt := some s.rounds.length }.sleep .dropped := by
        have hrunning := h.running (by rw [hphase]; decide) (by rw [hphase]; rfl)
        simp only [ReconnectLoop.step, hphase]
        simp only [ReconnectLoop.cancelAt, hphase, hrunning]
        rfl
      rw [hstep] at hlawful
      obtain ⟨hphase | hover, -⟩ := hlawful.cancelled s.rounds.length rfl
      · cases hphase
      · cases hover
  | case3 hphase =>
    have hstep : s.step .closes = s.sleep .dropped := by
      simp only [ReconnectLoop.step, hphase]
      rfl
    rw [hstep] at hlawful
    refine ⟨?_, hlawful.sleeping rfl⟩
    by_contra hcancelled
    obtain ⟨begun, hbegun⟩ := Option.ne_none_iff_exists'.mp hcancelled
    obtain ⟨hphase | hover, -⟩ := hlawful.cancelled begun hbegun
    · cases hphase
    · cases hover
  | case4 => trivial

theorem steady_start (agentId : String) : Steady (start agentId) :=
  Steady.of_running (fun _ hround => absurd hround List.not_mem_nil) ⟨rfl, rfl⟩ rfl

/-- The loop keeps to the law, over finite and over infinite runs, as long as every connection is dropped while the
delay is that of the start and no cancellation meets the listening. -/
theorem reconnect_lawful_iff (agentId : String) :
    (∀ events : List LoopEvent,
      Always ReconnectLoop.step Lawful (start agentId) events ↔
        EachStep ReconnectLoop.step Keeps (start agentId) events) ∧
    ∀ events : Nat → LoopEvent,
      (∀ n, Lawful (trace ReconnectLoop.step (start agentId) events n)) ↔
        ∀ n, Keeps (trace ReconnectLoop.step (start agentId) events n) (events n) := by
  have hstep : ∀ s event, Steady s → Keeps s event → Steady (s.step event) := fun _ event h => h.step event
  have hbroken : ∀ s event, Steady s → ¬ Keeps s event → ¬ Lawful (s.step event) := fun _ event h => h.broken event
  constructor
  · intro events
    exact always_iff_kept (fun _ h => h.lawful) hstep hbroken (steady_start agentId) events
  · intro events
    exact trace_iff_kept (fun _ h => h.lawful) hstep hbroken (steady_start agentId) events

/-- Two connections that are dropped: the second one, too, should be slept over for one second. And a loop that is
cancelled while it listens goes on to sleep. -/
theorem dropped_and_cancelled :
    ¬ Lawful (exec ReconnectLoop.step (start "scout")
      [.begins, .connects, .greeted, .listenEnds true, .wakes, .connects, .greeted, .listenEnds true]) ∧
    ¬ Lawful (exec ReconnectLoop.step (start "scout") [.begins, .connects, .greeted, .cancel true]) := by
  constructor
  · intro h
    exact absurd (h.sleeping rfl) (by decide)
  · intro h
    exact absurd (h.cancelled 1 rfl).1 (by decide)

end A2ARegistry.Client.ReconnectLoop
