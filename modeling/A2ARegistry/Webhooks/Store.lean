import Mathlib.Data.List.Sort
import A2ARegistry.Base.Json
import A2ARegistry.Base.Table

namespace A2ARegistry.Webhooks
open Base

/-- `MAX_CONSECUTIVE_FAILURES`. -/
def maxConsecutiveFailures : Nat := 10

/-- `RETRY_DELAYS`. -/
def retryDelays : List Nat := [2, 4, 8]

/-- `WebhookSubscription`, a row of `webhook_subscriptions`. -/
structure WebhookSubscription where
  id : String
  url : String
  events : List String
  secret : String
  enabled : Bool := true
  retryCount : Nat := 0
  consecutiveFailures : Nat := 0
  lastFailureAt : Option Rat := none
  createdAt : Rat
  tenant : String := ""

instance : Keyed String WebhookSubscription := ⟨WebhookSubscription.id⟩

namespace WebhookSubscription

/-- `enabled = 0`. -/
def disable (row : WebhookSubscription) : WebhookSubscription := { row with enabled := false }

/-- `enabled = 1, consecutive_failures = 0`. -/
def enable (row : WebhookSubscription) : WebhookSubscription := { row with enabled := true, consecutiveFailures := 0 }

/-- One failure more, and one retry. -/
def countFailure (now : Rat) (row : WebhookSubscription) : WebhookSubscription :=
  { row with
    consecutiveFailures := row.consecutiveFailures + 1
    retryCount := row.retryCount + 1
    lastFailureAt := some now }

end WebhookSubscription

/-- `WebhookDelivery`, a row of `webhook_deliveries`. -/
structure WebhookDelivery where
  id : String
  subscriptionId : String
  eventType : String
  payload : Option (List (String × Json))
  status : String
  responseCode : Nat
  attempt : Nat
  errorMessage : String
  deliveredAt : Option Rat

/-- The tables of `WebhookStore`. -/
structure WebhookStore where
  subscriptions : Table WebhookSubscription
  deliveries : List WebhookDelivery

namespace WebhookStore

def empty : WebhookStore := ⟨Table.empty, []⟩

variable (store : WebhookStore)

/-- `create_subscription`, with the id and the secret it generates; `none` when the insert raises. -/
def createSubscription (now : Rat) (id generated url : String) (events : List String) (secret tenant : String) :
    Option WebhookStore :=
  let secretVal := if secret = "" then generated else secret
  (store.subscriptions.insert? {
    id := id
    url := url
    events := events
    secret := secretVal
    createdAt := now
    tenant := tenant }).map (fun subscriptions => { store with subscriptions := subscriptions })

/-- `get_subscription`. -/
def getSubscription (id : String) : Option WebhookSubscription := store.subscriptions.find? id

/-- `delete_subscription`. -/
def deleteSubscription (id : String) : WebhookStore where
  subscriptions := store.subscriptions.delete (fun row => row.id == id)
  deliveries := store.deliveries.filter (fun delivery => delivery.subscriptionId != id)

/-- `UPDATE webhook_subscriptions SET ... WHERE id = ?`. -/
def update (id : String) (f : WebhookSubscription → WebhookSubscription)
    (hf : ∀ row, key (f row) = key row := by intro _; rfl) : WebhookStore :=
  { store with subscriptions := store.subscriptions.modify (fun row => row.id == id) f hf }

/-- `disable_subscription`. -/
def disableSubscription (id : String) : WebhookStore := store.update id .disable

/-- `enable_subscription`. -/
def enableSubscription (id : String) : WebhookStore := store.update id .enable

/-- `get_subscriptions_for_event`. -/
def getSubscriptionsForEvent (eventType tenant : String) : List WebhookSubscription :=
  ((store.subscriptions.select (fun row => row.enabled && (tenant == "" || row.tenant == tenant))).insertionSort
    (fun a b => a.createdAt ≤ b.createdAt)).filter (fun sub => sub.events.contains eventType)

/-- What a write to the tables draws: the clock and an id, and the error the database raises if there is one. A write
that raises is rolled back. -/
structure Draw where
  now : Rat := 0
  id : String := ""
  error : Option String := none

/-- `log_delivery`. -/
def logDelivery (draw : Draw) (subscriptionId eventType : String) (payload : List (String × Json)) (status : String)
    (responseCode attempt : Nat) (errorMessage : String) : Except String WebhookStore :=
  match draw.error with
  | some e => .error e
  | none => .ok { store with deliveries := store.deliveries ++ [{
      id := draw.id
      subscriptionId := subscriptionId
      eventType := eventType
      payload := if payload.isEmpty then none else some payload
      status := status
      responseCode := responseCode
      attempt := attempt
      errorMessage := errorMessage
      deliveredAt := if status = "pending" then none else some draw.now }] }

/-- `_update_consecutive_failures`, with whether it has disabled the subscription. -/
def updateConsecutiveFailures (draw : Draw) (id : String) (succeeded : Bool) : Except String (Bool × WebhookStore) :=
  match draw.error with
  | some e => .error e
  | none =>
    match store.getSubscription id with
    | none => .ok (false, store)
    | some _ =>
      if succeeded then .ok (false, store.update id (fun row => { row with consecutiveFailures := 0 }))
      else
        let counted := store.update id (.countFailure draw.now)
        if (counted.getSubscription id).any (fun row => decide (maxConsecutiveFailures ≤ row.consecutiveFailures)) then
          .ok (true, counted.disableSubscription id)
        else .ok (false, counted)

end WebhookStore

end A2ARegistry.Webhooks
