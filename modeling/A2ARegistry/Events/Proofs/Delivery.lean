import Mathlib.Data.List.DropRight
import A2ARegistry.Events.EventBus

namespace A2ARegistry.Events
open Base

section

variable {ε : Type} {capacity : Nat} {published received pending : List ε}

/-- What a subscriber has received, and what is pending for it. Of what was published, `past` ends with the event
that it read last; pending is the end of the rest, as far as the capacity goes. -/
def Delivered (capacity : Nat) (published received pending : List ε) : Prop :=
  ∃ past rest, published = past ++ rest ∧ received.Sublist past ∧ past.getLast? = received.getLast? ∧
    pending = rest.rtake capacity

theorem rtake_length (n : Nat) (l : List ε) : (l.rtake n).length ≤ n := by
  rw [List.rtake, List.length_drop]
  omega

theorem rtake_of_le {n : Nat} {l : List ε} (h : l.length ≤ n) : l.rtake n = l := by
  rw [List.rtake, Nat.sub_eq_zero_of_le h, List.drop_zero]

/-- The end of a list and one more element. -/
theorem rtake_concat {n : Nat} (hn : 1 ≤ n) (l : List ε) (a : ε) :
    (l ++ [a]).rtake n = (l.rtake n ++ [a]).rtake n := by
  obtain ⟨m, rfl⟩ : ∃ m, n = m + 1 := ⟨n - 1, by omega⟩
  rw [List.rtake_concat_succ, List.rtake_concat_succ]
  congr 1
  rw [List.rtake, List.rtake, List.rtake, List.drop_drop, List.length_drop]
  congr 1
  omega

theorem Delivered.fresh : Delivered capacity ([] : List ε) [] [] :=
  ⟨[], [], rfl, List.Sublist.refl _, rfl, by simp⟩

theorem Delivered.sublist (h : Delivered capacity published received pending) : received.Sublist published := by
  obtain ⟨past, rest, rfl, hsub, _⟩ := h
  exact hsub.trans (List.sublist_append_left past rest)

/-- What is read and pending is in the order in which it was published. -/
theorem Delivered.kept (h : Delivered capacity published received pending) : (received ++ pending).Sublist published := by
  obtain ⟨past, rest, rfl, hsub, _, rfl⟩ := h
  exact hsub.append (List.drop_sublist _ rest)

theorem Delivered.length_le (h : Delivered capacity published received pending) : pending.length ≤ capacity := by
  obtain ⟨past, rest, _, _, _, rfl⟩ := h
  exact rtake_length capacity rest

/-- One more event is published. -/
theorem Delivered.publish (hcap : 1 ≤ capacity) (h : Delivered capacity published received pending) (event : ε) :
    Delivered capacity (published ++ [event]) received ((pending ++ [event]).rtake capacity) := by
  obtain ⟨past, rest, rfl, hsub, hlast, rfl⟩ := h
  exact ⟨past, rest ++ [event], List.append_assoc .., hsub, hlast, (rtake_concat hcap rest event).symm⟩

/-- The first pending event is read. -/
theorem Delivered.read {event : ε} (h : Delivered capacity published received (event :: pending)) :
    Delivered capacity published (received ++ [event]) pending := by
  have hlen : pending.length ≤ capacity := Nat.le_of_succ_le h.length_le
  obtain ⟨past, rest, rfl, hsub, _, hrest⟩ := h
  -- what was dropped of the rest is past now
  have hsplit : rest = (rest.take (rest.length - capacity) ++ [event]) ++ pending := by
    have htail : rest.drop (rest.length - capacity) = event :: pending := hrest.symm
    rw [List.append_assoc, List.singleton_append, ← htail, List.take_append_drop]
  refine ⟨past ++ (rest.take (rest.length - capacity) ++ [event]), pending, ?_, ?_, ?_, (rtake_of_le hlen).symm⟩
  · rw [List.append_assoc, ← hsplit]
  · exact hsub.append (List.sublist_append_right _ _)
  · rw [← List.append_assoc, List.getLast?_concat, List.getLast?_concat]

/-- The queue of a subscriber takes a new event, and drops the oldest for it when it is full. -/
theorem offer_dropOldest {q : Queue ε} (hcap : 1 ≤ capacity) (hlen : q.items.length ≤ capacity) (event : ε) :
    (q.offer capacity .dropOldest event).items = (q.items ++ [event]).rtake capacity := by
  by_cases hfull : q.items.length = capacity
  · have hput : q.put capacity event = none := Queue.put_full ⟨by omega, by omega⟩ event
    cases hq : q.items with
    | nil =>
      rw [hq, List.length_nil] at hfull
      omega
    | cons oldest rest =>
      rw [hq, List.length_cons] at hfull
      obtain ⟨q', htake, hrest⟩ := Queue.take_cons hq
      have hroom : ¬ (0 < (capacity : Int) ∧ (capacity : Int) ≤ q'.items.length) := by
        rw [hrest]
        omega
      obtain ⟨q'', hput', hitems⟩ := Queue.put_room hroom event
      simp only [Queue.offer, hput, htake, hput', Option.getD_some]
      rw [hitems, hrest, ← hfull]
      simp [List.rtake]
  · have hroom : ¬ (0 < (capacity : Int) ∧ (capacity : Int) ≤ q.items.length) := by omega
    obtain ⟨q', hput, hitems⟩ := Queue.put_room hroom event
    simp only [Queue.offer, hput]
    rw [hitems, rtake_of_le]
    rw [List.length_append, List.length_singleton]
    omega

/-- It drops what it gives up and nothing else. -/
theorem offer_evicts {q : Queue ε} (hcap : 1 ≤ capacity) (hlen : q.items.length ≤ capacity) (event : ε) :
    q.items ++ [event] = q.evicts capacity .dropOldest ++ (q.offer capacity .dropOldest event).items := by
  rw [offer_dropOldest hcap hlen, List.rtake, List.length_append, List.length_singleton, Queue.evicts]
  by_cases hfull : q.items.length = capacity
  · have hone : capacity + 1 - capacity = 1 := by omega
    cases hq : q.items with
    | nil =>
      rw [hq, List.length_nil] at hfull
      omega
    | cons oldest rest =>
      rw [hq] at hfull
      rw [hfull, hone, if_pos ⟨by omega, by omega, rfl⟩]
      rfl
  · have hzero : q.items.length + 1 - capacity = 0 := by omega
    rw [hzero, if_neg (by omega), List.drop_zero, List.nil_append]

/-- What the queue drops for a new event is no longer pending. -/
theorem perm_offer {items items' evicted dropped : List ε} {event : ε}
    (hcount : published.Perm (received ++ items ++ evicted)) (hoffer : items ++ [event] = dropped ++ items') :
    (published ++ [event]).Perm (received ++ items' ++ (evicted ++ dropped)) := by
  have hnew : (received ++ items ++ evicted ++ [event]).Perm (received ++ (items ++ [event]) ++ evicted) := by
    simp only [List.append_assoc]
    exact (List.perm_append_comm.append_left items).append_left received
  have hmoved : (received ++ (dropped ++ items') ++ evicted).Perm (received ++ items' ++ (evicted ++ dropped)) := by
    simp only [List.append_assoc]
    rw [← List.append_assoc items']
    exact List.perm_append_comm.append_left received
  exact (hcount.append_right [event]).trans (hnew.trans (hoffer ▸ hmoved))

end

/-- The bus as one subscriber sees it. -/
structure Client (ε : Type) where
  closed : Bool
  queue : Option (Queue ε)
  published : List ε
  received : List ε
  evicted : List ε

namespace Client

variable {ε : Type}

/-- The subscriber reads from its queue. -/
def read (c : Client ε) : Client ε :=
  if c.closed then c
  else match c.queue.bind Queue.take with
    | none => c
    | some (event, rest) => { c with queue := some rest, received := c.received ++ [event] }

/-- A step on the bus, for the subscriber `id`. -/
def step (maxsize : Int) (policy : BackpressurePolicy) (id : String) (c : Client ε) : BusStep ε → Client ε
  | .subscribe k => if k = id ∧ c.closed = false then ⟨false, some .empty, [], [], []⟩ else c
  | .unsubscribe k => if k = id then { c with queue := none } else c
  | .publish event =>
    if c.closed then c
    else { c with
      queue := c.queue.map (Queue.offer maxsize policy event)
      published := if c.queue.isSome then c.published ++ [event] else c.published
      evicted := c.evicted ++ (c.queue.map (Queue.evicts maxsize policy)).getD [] }
  | .read k => if k = id then c.read else c
  | .close => { c with closed := true, queue := none }

end Client

section Clients

variable {ε : Type} (s : Traffic ε) (id : String)

def Traffic.client : Client ε := ⟨s.closed, s.queues id, s.published id, s.received id, s.evicted id⟩

theorem client_read (k : String) :
    (s.step (.read k)).client id = if k = id then (s.client id).read else s.client id := by
  unfold Traffic.step
  dsimp only
  split
  · rename_i hnone
    have hsame : (s.client k).read = s.client k := by
      unfold Client.read
      split
      · rfl
      · rename_i hopen
        have hempty : (s.client k).queue.bind Queue.take = none :=
          (EventBus.next_none.mp hnone).resolve_left hopen
        rw [hempty]
    split
    · rename_i hk
      rw [← hk, hsame]
    · rfl
  · rename_i event bus hsome
    obtain ⟨hopen, rest, htake, rfl⟩ := EventBus.next_some hsome
    by_cases hk : k = id
    · subst hk
      have hopen : (s.client k).closed = false := hopen
      have htake : (s.client k).queue.bind Queue.take = some (event, rest) := htake
      simp only [if_true, Client.read, hopen, htake, Bool.false_eq_true, if_false]
      simp [Traffic.client, show s.closed = false from hopen]
    · have hk' : id ≠ k := fun he => hk he.symm
      simp [Traffic.client, hk, Function.update_of_ne hk']

/-- The bus runs every subscriber on its own. -/
theorem client_step (st : BusStep ε) :
    (s.step st).client id = (s.client id).step s.maxQueueSize s.backpressure id st := by
  cases st with
  | subscribe k =>
    unfold Traffic.step Client.step
    cases hc : s.closed with
    | true => simp [Traffic.client, hc]
    | false =>
      by_cases hk : k = id
      · subst hk
        simp [Traffic.client, EventBus.subscribe, hc]
      · have hk' : id ≠ k := fun he => hk he.symm
        simp [Traffic.client, EventBus.subscribe, hc, hk, Function.update_of_ne hk']
  | unsubscribe k =>
    unfold Traffic.step Client.step
    by_cases hk : k = id
    · subst hk
      simp [Traffic.client, EventBus.unsubscribe]
    · have hk' : id ≠ k := fun he => hk he.symm
      simp [Traffic.client, EventBus.unsubscribe, hk, Function.update_of_ne hk']
  | publish event =>
    unfold Traffic.step Client.step
    cases hc : s.closed with
    | true => simp [Traffic.client, hc]
    | false => simp [Traffic.client, EventBus.publish, hc]
  | read k => exact client_read s id k
  | close => rfl

theorem step_policy (st : BusStep ε) :
    (s.step st).maxQueueSize = s.maxQueueSize ∧ (s.step st).backpressure = s.backpressure := by
  cases st with
  | subscribe k =>
    unfold Traffic.step
    dsimp only
    split
    · exact ⟨rfl, rfl⟩
    · unfold EventBus.subscribe
      split
      · exact ⟨rfl, rfl⟩
      · exact ⟨rfl, rfl⟩
  | publish event =>
    unfold Traffic.step
    dsimp only
    split
    · exact ⟨rfl, rfl⟩
    · unfold EventBus.publish
      split
      · exact ⟨rfl, rfl⟩
      · exact ⟨rfl, rfl⟩
  | read k =>
    unfold Traffic.step
    dsimp only
    split
    · exact ⟨rfl, rfl⟩
    · rename_i hnext
      obtain ⟨_, _, _, rfl⟩ := EventBus.next_some hnext
      exact ⟨rfl, rfl⟩
  | unsubscribe | close => exact ⟨rfl, rfl⟩

/-- So it does over a whole run. -/
theorem client_exec (steps : List (BusStep ε)) :
    (exec Traffic.step s steps).client id =
      exec (Client.step s.maxQueueSize s.backpressure id) (s.client id) steps := by
  induction steps generalizing s with
  | nil => rfl
  | cons st steps ih =>
    obtain ⟨hsize, hpolicy⟩ := step_policy s st
    rw [exec_cons, exec_cons, ih, client_step, hsize, hpolicy]

end Clients

namespace Client

variable {ε : Type} {capacity : Nat} {id : String} {c : Client ε}

/-- What is pending for a subscriber, and what it has received. What is neither was given up by its queue. -/
structure Served (capacity : Nat) (c : Client ε) : Prop where
  pending : ∀ q, c.queue = some q → Delivered capacity c.published c.received q.items
  accounted : ∀ q, c.queue = some q → c.published.Perm (c.received ++ q.items ++ c.evicted)
  ordered : c.received.Sublist c.published

theorem absent_served (capacity : Nat) : Served capacity (⟨false, none, [], [], []⟩ : Client ε) :=
  ⟨fun _ hq => (nomatch (show none = some _ from hq)), fun _ hq => (nomatch (show none = some _ from hq)),
    List.Sublist.refl _⟩

theorem read_served (hc : Served capacity c) : Served capacity c.read := by
  unfold read
  split
  · exact hc
  · split
    · exact hc
    · rename_i event rest htake
      obtain ⟨q, hq, htake⟩ := Option.bind_eq_some_iff.mp htake
      have hitems : q.items = event :: rest.items := Queue.take_some htake
      have hread : Delivered capacity c.published (c.received ++ [event]) rest.items :=
        Delivered.read (hitems ▸ hc.pending q hq)
      constructor
      case pending =>
        intro q' hq'
        cases hq'
        exact hread
      case accounted =>
        intro q' hq'
        cases hq'
        have hcount := hc.accounted q hq
        rw [hitems] at hcount
        simpa using hcount
      case ordered => exact hread.sublist

theorem publish_served (hcap : 1 ≤ capacity) (hc : Served capacity c) (event : ε) :
    Served capacity (c.step capacity .dropOldest id (.publish event)) := by
  unfold step
  dsimp only
  split
  · exact hc
  · constructor
    case pending =>
      intro q' hq'
      obtain ⟨q, hq, rfl⟩ := Option.map_eq_some_iff.mp hq'
      have hpending := hc.pending q hq
      rw [hq, Option.isSome_some, if_pos rfl, offer_dropOldest hcap hpending.length_le]
      exact hpending.publish hcap event
    case accounted =>
      intro q' hq'
      obtain ⟨q, hq, rfl⟩ := Option.map_eq_some_iff.mp hq'
      have hoffer := offer_evicts hcap (hc.pending q hq).length_le event
      have hcount := hc.accounted q hq
      rw [hq]
      exact perm_offer hcount hoffer
    case ordered =>
      dsimp only
      split
      · exact hc.ordered.trans (List.sublist_append_left _ _)
      · exact hc.ordered

theorem step_served (hcap : 1 ≤ capacity) (c : Client ε) (st : BusStep ε) (hc : Served capacity c) :
    Served capacity (c.step capacity .dropOldest id st) := by
  cases st with
  | subscribe k =>
    unfold step
    dsimp only
    split
    · constructor
      case pending =>
        intro q hq
        cases hq
        exact Delivered.fresh
      case accounted =>
        intro q hq
        cases hq
        exact List.Perm.refl _
      case ordered => exact List.Sublist.refl _
    · exact hc
  | unsubscribe k =>
    unfold step
    dsimp only
    split
    · exact ⟨fun _ hq => (nomatch hq), fun _ hq => (nomatch hq), hc.ordered⟩
    · exact hc
  | publish event => exact publish_served hcap hc event
  | read k =>
    unfold step
    dsimp only
    split
    · exact read_served hc
    · exact hc
  | close => exact ⟨fun _ hq => (nomatch hq), fun _ hq => (nomatch hq), hc.ordered⟩

/-- A step of the subscriber `id`, or one that every subscriber sees. -/
def concerns (id : String) : BusStep ε → Bool
  | .subscribe k | .unsubscribe k | .read k => k == id
  | .publish _ | .close => true

/-- The steps of the others pass a subscriber by. -/
theorem step_other {maxsize : Int} {policy : BackpressurePolicy} (c : Client ε) {st : BusStep ε}
    (h : concerns id st = false) : c.step maxsize policy id st = c := by
  cases st with
  | subscribe k =>
    have hk : k ≠ id := by simpa [concerns] using h
    simp [step, hk]
  | unsubscribe k | read k =>
    have hk : k ≠ id := by simpa [concerns] using h
    simp [step, hk]
  | publish | close => cases h

theorem exec_own {maxsize : Int} {policy : BackpressurePolicy} (c : Client ε) (steps : List (BusStep ε)) :
    exec (Client.step maxsize policy id) c steps = exec (Client.step maxsize policy id) c (steps.filter (concerns id)) := by
  induction steps generalizing c with
  | nil => rfl
  | cons st steps ih =>
    cases hst : concerns id st with
    | true => rw [List.filter_cons_of_pos hst, exec_cons, exec_cons, ih]
    | false => rw [List.filter_cons_of_neg (by simp [hst]), exec_cons, step_other c hst, ih]

end Client

/-- A bus that drops the oldest events. -/
def dropOldestBus (ε : Type) (capacity : Nat) : Traffic ε := .start (.create capacity .dropOldest)

/-- The queue of each subscriber has the last of the events that were published since it subscribed and after the
one it read last; every event since then is read, pending, or was given up by the queue while it was full; what is read
and pending is in order, and what is read is what it would read whatever the others do. -/
theorem delivery {ε : Type} {capacity : Nat} (hcap : 1 ≤ capacity) (steps : List (BusStep ε)) (id : String) :
    let s := exec Traffic.step (dropOldestBus ε capacity) steps
    (∀ q, s.queues id = some q → Delivered capacity (s.published id) (s.received id) q.items ∧
        (s.published id).Perm (s.received id ++ q.items ++ s.evicted id) ∧
        (s.received id ++ q.items).Sublist (s.published id)) ∧
      (s.received id).Sublist (s.published id) ∧
      ∀ steps', steps'.filter (Client.concerns id) = steps.filter (Client.concerns id) →
        (exec Traffic.step (dropOldestBus ε capacity) steps').received id = s.received id := by
  have hrun : ∀ steps : List (BusStep ε), (exec Traffic.step (dropOldestBus ε capacity) steps).client id =
      exec (Client.step capacity .dropOldest id) ⟨false, none, [], [], []⟩ steps :=
    fun steps => client_exec (dropOldestBus ε capacity) id steps
  have hserved : Client.Served capacity ((exec Traffic.step (dropOldestBus ε capacity) steps).client id) := by
    rw [hrun]
    exact exec_invariant (Client.step_served hcap) (Client.absent_served capacity) steps
  refine ⟨fun q hq => ?_, hserved.ordered, fun steps' hsame => ?_⟩
  · have hpending := hserved.pending q hq
    exact ⟨hpending, hserved.accounted q hq, hpending.kept⟩
  · have hview : (exec Traffic.step (dropOldestBus ε capacity) steps').client id =
        (exec Traffic.step (dropOldestBus ε capacity) steps).client id := by
      rw [hrun, hrun, Client.exec_own, hsame, ← Client.exec_own]
    exact congrArg Client.received hview

/-- Three events for a subscriber with room for two, which then reads one. -/
def threeEvents : List (BusStep Nat) := [.subscribe "a", .publish 1, .publish 2, .publish 3, .read "a"]

theorem delivery_sample :
    (exec Traffic.step (dropOldestBus Nat 2) threeEvents).received "a" = [2] ∧
      (exec Traffic.step (dropOldestBus Nat 2) threeEvents).received "a" =
        (exec Traffic.step (dropOldestBus Nat 2) (threeEvents ++ [.subscribe "b"])).received "a" := by
  have hcap : 1 ≤ 2 := by decide
  obtain ⟨_, _, hothers⟩ := delivery hcap (threeEvents ++ [.subscribe "b"]) "a"
  have hread := hothers threeEvents rfl
  refine ⟨?_, hread⟩
  decide

/-- The first event was dropped and never read, but it does not come back when there is room for it. -/
theorem dropped_not_pending : ¬ ∀ (capacity : Nat) (steps : List (BusStep Nat)) (id : String), 1 ≤ capacity →
    let s := exec Traffic.step (dropOldestBus Nat capacity) steps
    ∀ q, s.queues id = some q → q.items = ((s.published id).filter (fun e => e ∉ s.received id)).rtake capacity := by
  intro h
  have hqueue : ((exec Traffic.step (dropOldestBus Nat 2) threeEvents).queues "a").map Queue.items = some [3] := by
    decide
  obtain ⟨q, hq, hitems⟩ := Option.map_eq_some_iff.mp hqueue
  have hclaim := h 2 threeEvents "a" (by decide) q hq
  rw [hitems] at hclaim
  exact absurd hclaim (by decide)

end A2ARegistry.Events
