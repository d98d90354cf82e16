import A2ARegistry.Base.Run
import A2ARegistry.Webhooks.Store

namespace A2ARegistry.Webhooks
open Base

/-- What comes of a POST: the status of an answer, or the exception it raises. -/
inductive Answer
  | status (code : Nat)
  | timeout
  | clientError (text : String)
  | error (text : String)
deriving DecidableEq, Repr

/-- `200 <= status_code < 300`. -/
def Answer.succeeded : Answer → Bool
  | .status code => decide (200 ≤ code) && decide (code < 300)
  | _ => false

/-- What one attempt meets: the answer, what the writes about a success draw, and what those about a failure draw. -/
structure Attempt where
  answer : Answer
  logSuccess : WebhookStore.Draw := {}
  resetFailures : WebhookStore.Draw := {}
  logFailed : WebhookStore.Draw := {}
  countFailure : WebhookStore.Draw := {}

/-- The event that is delivered. -/
structure Event where
  eventType : String
  payload : List (String × Json)
  tenant : String := ""

/-- `max_attempts`. -/
def maxAttempts : Nat := retryDelays.length + 1

/-- The result of a delivery to a subscription. -/
structure Result where
  subscriptionId : String
  status : String
  responseCode : Nat
  error : Option String := none
deriving DecidableEq, Repr

/-- How an attempt ends: the delivery returns, goes on, or raises. -/
inductive Ended
  | succeeded (code : Nat)
  | next (statusCode : Nat) (lastError : String)
  | raised (e : String)

section Attempts

variable (event : Event) (sub : WebhookSubscription)

/-- Behind an answer that is no success, and behind an exception. -/
def failAttempt (store : WebhookStore) (attempt statusCode : Nat) (a : Attempt) (errorMsg : String) :
    Ended × WebhookStore :=
  match store.logDelivery a.logFailed sub.id event.eventType event.payload "failed" statusCode attempt errorMsg with
  | .error e => (.raised e, store)
  | .ok store' => (.next statusCode errorMsg, store')

/-- One turn of the loop of `_deliver_to_subscription`. `status_code` is that of the last answer there was. -/
def attemptDelivery (store : WebhookStore) (attempt statusCode : Nat) (a : Attempt) : Ended × WebhookStore :=
  match a.answer with
  | .status code =>
    if a.answer.succeeded then
      -- The bookkeeping stands inside the `try`: what it raises is caught as an error of the attempt.
      match store.logDelivery a.logSuccess sub.id event.eventType event.payload "success" code attempt "" with
      | .error e => failAttempt event sub store attempt code a s!"unexpected: {e}"
      | .ok store' => match store'.updateConsecutiveFailures a.resetFailures sub.id true with
        | .error e => failAttempt event sub store' attempt code a s!"unexpected: {e}"
        | .ok (_, store'') => (.succeeded code, store'')
    else failAttempt event sub store attempt code a s!"HTTP {code}"
  | .timeout => failAttempt event sub store attempt statusCode a "timeout"
  | .clientError text => failAttempt event sub store attempt statusCode a s!"connection_error: {text}"
  | .error text => failAttempt event sub store attempt statusCode a s!"unexpected: {text}"

/-- A POST that was made. -/
structure Post where
  subscriptionId : String
  url : String
  event : Event
  attempt : Nat
  answer : Answer

/-- What the attempts on a subscription meet; other handlers go on while one waits for its answer. -/
structure Script where
  attempts : Nat → Attempt
  meanwhile : Nat → WebhookStore → WebhookStore

/-- The loop of `_deliver_to_subscription`, from its attempts that are left, with the POSTs it makes. -/
def deliverAttempts (script : Script) (store : WebhookStore) (statusCode : Nat) (lastError : String) :
    List Nat → Except String Result × WebhookStore × List Post
  | [] => match store.updateConsecutiveFailures (script.attempts maxAttempts).countFailure sub.id false with
    | .error e => (.error e, store, [])
    | .ok (_, store') => (.ok ⟨sub.id, "failed", statusCode, some lastError⟩, store', [])
  | attempt :: attempts =>
    let a := script.attempts attempt
    let post : Post := ⟨sub.id, sub.url, event, attempt, a.answer⟩
    match attemptDelivery event sub (script.meanwhile attempt store) attempt statusCode a with
    | (.succeeded code, store') => (.ok ⟨sub.id, "success", code, none⟩, store', [post])
    | (.raised e, store') => (.error e, store', [post])
    | (.next code errorMsg, store') =>
      let (result, store'', posts) := deliverAttempts script store' code errorMsg attempts
      (result, store'', post :: posts)

/-- `_deliver_to_subscription`. -/
def deliverToSubscription (script : Script) (store : WebhookStore) : Except String Result × WebhookStore × List Post :=
  if !sub.enabled then (.ok ⟨sub.id, "skipped", 0, none⟩, store, [])
  else deliverAttempts event sub script store 0 "" (List.range' 1 maxAttempts)

end Attempts

/-- The loop of `deliver_event`. -/
def deliverToAll (event : Event) (script : String → Script) (store : WebhookStore) :
    List WebhookSubscription → Except String (List Result) × WebhookStore × List Post
  | [] => (.ok [], store, [])
  | sub :: subs =>
    match deliverToSubscription event sub (script sub.id) store with
    | (.error e, store', posts) => (.error e, store', posts)
    | (.ok result, store', posts) =>
      let (results, store'', later) := deliverToAll event script store' subs
      (results.map (result :: ·), store'', posts ++ later)

/-- `deliver_event`. -/
def deliverEvent (event : Event) (script : String → Script) (store : WebhookStore) :
    Except String (List Result) × WebhookStore × List Post :=
  deliverToAll event script store (store.getSubscriptionsForEvent event.eventType event.tenant)

/-- A call of `deliver_event` that waits for the answer to its POST: to the first of these subscriptions. -/
structure Flight where
  event : Event
  subs : List WebhookSubscription
  attempt : Nat := 1
  statusCode : Nat := 0
  lastError : String := ""

/-- The result for the first subscription is there; the delivery turns to the others. -/
def Flight.turn (f : Flight) (rest : List WebhookSubscription) : Option Flight :=
  match rest.filter WebhookSubscription.enabled with
  | [] => none
  | subs => some { event := f.event, subs := subs }

/-- What has happened to a subscription. -/
inductive Entry
  | created (id : String)
  | enabled (id : String)
  | succeeded (id : String)
  | failed (id : String)
  | autoDisabled (id : String)
deriving DecidableEq, Repr

/-- The store, the calls that are under way, and what has happened, the latest first. -/
structure Engine (ι : Type) where
  store : WebhookStore
  flights : ι → Option Flight
  history : List Entry

/-- Calls of the store by the handlers, the start of a delivery, and the answer to a POST. -/
inductive Input (ι : Type)
  | create (now : Rat) (id generated url : String) (events : List String) (secret tenant : String)
  | delete (id : String)
  | disable (id : String)
  | enable (id : String)
  | deliver (i : ι) (event : Event)
  | answer (i : ι) (a : Attempt)

namespace Engine

variable {ι : Type} [DecidableEq ι]

def init : Engine ι := ⟨.empty, fun _ => none, []⟩

/-- The flight goes on, or is over. -/
def fly (s : Engine ι) (i : ι) (flight : Option Flight) : Engine ι :=
  { s with flights := fun j => if j = i then flight else s.flights j }

/-- What runs from the answer to a POST to the next `await`. -/
def onAnswer (s : Engine ι) (i : ι) (f : Flight) (sub : WebhookSubscription) (rest : List WebhookSubscription)
    (a : Attempt) : Engine ι :=
  match attemptDelivery f.event sub s.store f.attempt f.statusCode a with
  | (.succeeded _, store) =>
    { s with store := store, history := .succeeded sub.id :: s.history }.fly i (f.turn rest)
  | (.raised _, store) => { s with store := store }.fly i none
  | (.next code errorMsg, store) =>
    if f.attempt < maxAttempts then
      { s with store := store }.fly i
        (some { f with subs := sub :: rest, attempt := f.attempt + 1, statusCode := code, lastError := errorMsg })
    else match store.updateConsecutiveFailures a.countFailure sub.id false with
      | .error _ => { s with store := store, history := .failed sub.id :: s.history }.fly i none
      | .ok (false, store') => { s with store := store', history := .failed sub.id :: s.history }.fly i (f.turn rest)
      | .ok (true, store') =>
        { s with store := store', history := .autoDisabled sub.id :: .failed sub.id :: s.history }.fly i (f.turn rest)

def step (s : Engine ι) : Input ι → Engine ι
  | .create now id generated url events secret tenant =>
    match s.store.createSubscription now id generated url events secret tenant with
    | none => s
    | some store => { s with store := store, history := .created id :: s.history }
  | .delete id => { s with store := s.store.deleteSubscription id }
  | .disable id => { s with store := s.store.disableSubscription id }
  | .enable id => { s with store := s.store.enableSubscription id, history := .enabled id :: s.history }
  | .deliver i event => match s.flights i with
    | some _ => s
    | none => s.fly i (Flight.turn { event := event, subs := [] }
        (s.store.getSubscriptionsForEvent event.eventType event.tenant))
  | .answer i a => match s.flights i with
    | some f => match f.subs with
      | sub :: rest => s.onAnswer i f sub rest a
      | [] => s.fly i none
    | none => s

end Engine

end A2ARegistry.Webhooks
