import Mathlib.Logic.Function.Basic
import A2ARegistry.Base.Dumps
import A2ARegistry.Base.Run
import A2ARegistry.Base.Text

namespace A2ARegistry.Events
open Base

/-- An `asyncio.Queue`: its items, and the number of items for which `task_done` was not called. Every item that
is taken out is done at once, so `task_done` never raises. -/
structure Queue (ε : Type) where
  items : List ε
  unfinished : Nat
  counted : unfinished = items.length

namespace Queue

variable {ε : Type}

def empty : Queue ε := ⟨[], 0, rfl⟩

/-- `put_nowait`; `none` when it raises `QueueFull`. A size that is not positive is no bound. -/
def put (maxsize : Int) (q : Queue ε) (event : ε) : Option (Queue ε) :=
  if 0 < maxsize ∧ maxsize ≤ q.items.length then none
  else some ⟨q.items ++ [event], q.unfinished + 1, by simp [q.counted]⟩

/-- `get_nowait` and `task_done`; `none` when it raises `QueueEmpty`. -/
def take (q : Queue ε) : Option (ε × Queue ε) :=
  match h : q.items with
  | [] => none
  | event :: rest => some (event, ⟨rest, q.unfinished - 1, by simp [q.counted, h]⟩)

theorem put_full {maxsize : Int} {q : Queue ε} (h : 0 < maxsize ∧ maxsize ≤ q.items.length) (event : ε) :
    q.put maxsize event = none :=
  if_pos h

theorem put_room {maxsize : Int} {q : Queue ε} (h : ¬ (0 < maxsize ∧ maxsize ≤ q.items.length)) (event : ε) :
    ∃ q', q.put maxsize event = some q' ∧ q'.items = q.items ++ [event] :=
  ⟨_, if_neg h, rfl⟩

theorem take_cons {q : Queue ε} {event : ε} {rest : List ε} (h : q.items = event :: rest) :
    ∃ q', q.take = some (event, q') ∧ q'.items = rest := by
  unfold take
  split
  · simp_all
  · rename_i hcons
    rw [hcons] at h
    cases h
    exact ⟨_, rfl, rfl⟩

theorem take_some {q q' : Queue ε} {event : ε} (h : q.take = some (event, q')) : q.items = event :: q'.items := by
  unfold take at h
  split at h
  · cases h
  · rename_i hitems
    cases h
    exact hitems

end Queue

/-- What is done with an event when the queue of a subscriber is full. -/
inductive BackpressurePolicy
  | dropOldest | dropNewest | block
deriving DecidableEq, Repr

/-- What `publish` does with one queue. -/
def Queue.offer {ε : Type} (maxsize : Int) (policy : BackpressurePolicy) (event : ε) (q : Queue ε) : Queue ε :=
  match q.put maxsize event with
  | some q' => q'
  | none => match policy with
    | .dropOldest => match q.take with
      | some (_, rest) => (rest.put maxsize event).getD rest
      | none => q
    | .dropNewest | .block => q

/-- The event that a full queue gives up for a new one. -/
def Queue.evicts {ε : Type} (maxsize : Int) (policy : BackpressurePolicy) (q : Queue ε) : List ε :=
  if 0 < maxsize ∧ maxsize ≤ q.items.length ∧ policy = .dropOldest then q.items.take 1 else []

structure EventBus (ε : Type) where
  maxQueueSize : Int
  backpressure : BackpressurePolicy
  queues : String → Option (Queue ε)
  closed : Bool

/-- `DEFAULT_MAX_QUEUE_SIZE`. -/
def defaultMaxQueueSize : Int := 1024

namespace EventBus

variable {ε : Type}

/-- `EventBus(max_queue_size, backpressure)`. -/
def create (maxQueueSize : Int) (backpressure : BackpressurePolicy) : EventBus ε :=
  ⟨maxQueueSize, backpressure, fun _ => none, false⟩

variable (bus : EventBus ε)

/-- `subscribe`, which raises on a closed bus. -/
def subscribe (id : String) : EventBus ε :=
  if bus.closed then bus else { bus with queues := Function.update bus.queues id (some .empty) }

/-- `unsubscribe`. -/
def unsubscribe (id : String) : EventBus ε := { bus with queues := Function.update bus.queues id none }

/-- `publish`. The loop over the queues is not interrupted. -/
def publish (event : ε) : EventBus ε :=
  if bus.closed then bus
  else { bus with queues := fun id => (bus.queues id).map (Queue.offer bus.maxQueueSize bus.backpressure event) }

/-- One event that `events` yields, or none for now. -/
def next (id : String) : Option (ε × EventBus ε) :=
  if bus.closed then none
  else match (bus.queues id).bind Queue.take with
    | none => none
    | some (event, rest) => some (event, { bus with queues := Function.update bus.queues id (some rest) })

/-- `close`. -/
def close : EventBus ε := { bus with closed := true, queues := fun _ => none }

variable {bus}

theorem next_none {id : String} :
    bus.next id = none ↔ bus.closed = true ∨ (bus.queues id).bind Queue.take = none := by
  unfold next
  split
  · rename_i hclosed
    exact iff_of_true rfl (Or.inl hclosed)
  · rename_i hopen
    rw [or_iff_right hopen]
    split
    · rename_i hempty
      exact iff_of_true rfl hempty
    · rename_i htake
      rw [htake]
      exact iff_of_false nofun nofun

theorem next_some {id : String} {event : ε} {bus' : EventBus ε} (h : bus.next id = some (event, bus')) :
    bus.closed = false ∧ ∃ rest, (bus.queues id).bind Queue.take = some (event, rest) ∧
      bus' = { bus with queues := Function.update bus.queues id (some rest) } := by
  unfold next at h
  split at h
  · cases h
  · rename_i hopen
    split at h
    · cases h
    · rename_i rest htake
      cases h
      exact ⟨Bool.eq_false_iff.mpr hopen, rest, htake, rfl⟩

end EventBus

/-- A step on the bus; `read` is one of the loop in `events`. -/
inductive BusStep (ε : Type)
  | subscribe (id : String)
  | unsubscribe (id : String)
  | publish (event : ε)
  | read (id : String)
  | close

/-- The bus, with the events that were published since each subscriber subscribed, those that it read since, and those
that its queue gave up while it was full. A subscriber reads the queue that is registered under its id, which is its own
as ids are distinct. -/
structure Traffic (ε : Type) extends EventBus ε where
  published : String → List ε
  received : String → List ε
  evicted : String → List ε

namespace Traffic

variable {ε : Type}

def start (bus : EventBus ε) : Traffic ε := ⟨bus, fun _ => [], fun _ => [], fun _ => []⟩

def step (s : Traffic ε) : BusStep ε → Traffic ε
  | .subscribe id =>
    if s.closed then s
    else {
      toEventBus := s.subscribe id
      published := Function.update s.published id []
      received := Function.update s.received id []
      evicted := Function.update s.evicted id [] }
  | .unsubscribe id => { s with toEventBus := s.unsubscribe id }
  | .publish event =>
    if s.closed then s
    else { s with
      toEventBus := s.publish event
      published := fun id => if (s.queues id).isSome then s.published id ++ [event] else s.published id
      evicted := fun id =>
        s.evicted id ++ ((s.queues id).map (Queue.evicts s.maxQueueSize s.backpressure)).getD [] }
  | .read id =>
    match s.next id with
    | none => s
    | some (event, bus) => { s with
        toEventBus := bus
        received := Function.update s.received id (s.received id ++ [event]) }
  | .close => { s with toEventBus := s.close }

end Traffic

/-- An event on the bus. `__post_init__` draws the id and the timestamp. -/
structure EventBusEvent where
  eventType : String
  data : List (String × Json)
  eventId : String
  timestamp : String
  tenant : String := ""

def EventBusEvent.toDict (event : EventBusEvent) : Json :=
  .obj [("event_id", .str event.eventId), ("event_type", .str event.eventType), ("timestamp", .float event.timestamp),
    ("tenant", .str event.tenant), ("data", .obj event.data)]

/-- The lines of `_sse_format`. -/
def sseLines (eventType data eventId : String) : List String :=
  ["event: " ++ eventType] ++ (if eventId = "" then [] else ["id: " ++ eventId]) ++
    (splitAt data '\n').map (fun line => "data: " ++ line)

/-- `_sse_format`. -/
def sseFormat (eventType data eventId : String) : String := joinBy "\n" (sseLines eventType data eventId ++ [""])

/-- The query of `GET /v2/events`. -/
structure SseQuery where
  eventType : Option String := none
  tenant : Option String := none

/-- The set of types a client asks for; `none` is all of them. -/
def SseQuery.eventTypeFilter (query : SseQuery) : Option (List String) :=
  let rawTypes := query.eventType.getD ""
  if rawTypes = "" then none
  else some (((splitAt rawTypes ',').map strip).filter (· ≠ ""))

def SseQuery.tenantFilter (query : SseQuery) : Option String := query.tenant.filter (· ≠ "")

/-- The filters of `handle_sse_stream`. -/
def SseQuery.passes (query : SseQuery) (event : EventBusEvent) : Bool :=
  (match query.eventTypeFilter with
    | none => true
    | some types => types.contains event.eventType) &&
  (match query.tenantFilter with
    | none => true
    | some tenant => event.tenant == tenant)

/-- What `handle_sse_stream` writes for an event that passes. -/
def EventBusEvent.message (event : EventBusEvent) : String :=
  sseFormat event.eventType (Json.dumps event.toDict) event.eventId

/-- An event about a task, as the handlers broadcast it. `tenant` is that of the task. -/
structure TaskEvent where
  eventType : String
  data : List (String × Json)
  tenant : String
  eventId : String
  timestamp : String

/-- What `_event_bus_bridge` publishes of a task event. -/
def TaskEvent.bridged (event : TaskEvent) : EventBusEvent where
  eventType := "task." ++ event.eventType
  data := event.data
  eventId := event.eventId
  timestamp := event.timestamp

/-- The task events of which the stream of a client tells, of those its subscriber has received. -/
def SseQuery.streamed (query : SseQuery) (received : List TaskEvent) : List TaskEvent :=
  received.filter (fun event => query.passes event.bridged)

/-- The body of the stream. -/
def SseQuery.body (query : SseQuery) (received : List TaskEvent) : List String :=
  (query.streamed received).map (fun event => event.bridged.message)

end A2ARegistry.Events
