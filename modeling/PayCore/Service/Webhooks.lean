import PayCore.Service.Support

/- app/workers/webhook_tasks.py. The payload and its signature are fixed by the record, so that a
   POST is described by the URL and the record it is for. -/
namespace PayCoreWebhooks
open SessionProgram PayCoreTables PayCoreWrites PayCoreSessions PayCoreSupport

def retryDelaysMinutes : List Nat := [0, 2, 4, 8, 16, 32]

def maxAttempts : Nat := retryDelaysMinutes.length

def minutes (n : Nat) : Timestamp := seconds (n * 60)

def isSuccess (statusCode : Nat) : Bool := 200 ≤ statusCode && statusCode ≤ 299

inductive Outcome where
  | response (statusCode : Nat)
  | exception (text : String)
  deriving DecidableEq, Repr

def Outcome.succeeded : Outcome → Bool
  | .response statusCode => isSuccess statusCode
  | .exception _ => false

/-- The columns whose values differ from the ones that were loaded. -/
def dirtyColumns (loaded delivery : WebhookDelivery) : DeliveryUpdate where
  status := if delivery.status = loaded.status then none else some delivery.status
  attemptCount := if delivery.attemptCount = loaded.attemptCount then none else some delivery.attemptCount
  nextRetryAt := if delivery.nextRetryAt = loaded.nextRetryAt then none else some delivery.nextRetryAt
  lastResponseCode :=
    if delivery.lastResponseCode = loaded.lastResponseCode then none else some delivery.lastResponseCode
  lastError := if delivery.lastError = loaded.lastError then none else some delivery.lastError

/-- `session.commit()`: the flush writes the columns of the object that changed, if any did. -/
def save (loaded delivery : WebhookDelivery) : Tx Unit := do
  if dirtyColumns loaded delivery = {} then .ret () else
    Prog.stmt [] (fun _ _ => [.updateDelivery loaded.id (dirtyColumns loaded delivery)]) (fun _ m => m)
      (fun _ _ => .ret ()) (.raise .database)
  commit

/-- The record where there is something to do for it, with the URL of its merchant. -/
def loadDelivery (deliveryId : Uuid) : Tx (Option (WebhookDelivery × Option String)) := do
  let delivery ← query fun db => db.webhookDeliveries.find? deliveryId
  match delivery with
  | none => pure none
  | some delivery =>
    if delivery.status = .delivered then pure none else do
      let merchant ← query fun db => db.merchants.find? delivery.merchantId
      let webhookUrl := (merchant.bind Merchant.webhookUrl).filter (· ≠ "")
      pure (some (delivery, webhookUrl))

def withoutUrl (delivery : WebhookDelivery) : WebhookDelivery :=
  { delivery with status := .failed, lastError := some "Merchant has no webhook URL configured." }

def delivered (delivery : WebhookDelivery) (statusCode : Nat) : WebhookDelivery :=
  { delivery with
    status := .delivered
    attemptCount := delivery.attemptCount + 1
    lastResponseCode := some statusCode
    nextRetryAt := none }

def exhausted (delivery : WebhookDelivery) (responseCode : Option Nat) (errorMsg : String) :
    WebhookDelivery :=
  { delivery with
    status := .failed
    attemptCount := delivery.attemptCount + 1
    lastResponseCode := responseCode
    lastError := some errorMsg
    nextRetryAt := none }

def scheduled (delivery : WebhookDelivery) (responseCode : Option Nat) (errorMsg : String)
    (nextRetry : Timestamp) : WebhookDelivery :=
  { delivery with
    attemptCount := delivery.attemptCount + 1
    lastResponseCode := responseCode
    lastError := some errorMsg
    nextRetryAt := some nextRetry }

def attemptFailed (delivery : WebhookDelivery) (responseCode : Option Nat) (errorMsg : String)
    (utcNow : Timestamp) : Tx Unit :=
  let attempt := delivery.attemptCount + 1
  if more : attempt < maxAttempts then
    let delayMinutes := retryDelaysMinutes[attempt]
    save delivery (scheduled delivery responseCode errorMsg (utcNow + minutes delayMinutes))
  else do
    save delivery (exhausted delivery responseCode errorMsg)
    auditLog { actorId := none, actorType := .system, action := "webhook_delivery.failed",
               targetType := some "webhook_delivery", targetId := some delivery.id }

/-- What follows the POST. A commit that fails after a success is caught too, but the session then
   needs a rollback: the commit of the failed attempt raises as well. -/
def attemptMade (delivery : WebhookDelivery) (outcome : Outcome) (utcNow : Timestamp) : Tx Unit :=
  match outcome with
  | .response statusCode =>
    if isSuccess statusCode then save delivery (delivered delivery statusCode)
    else attemptFailed delivery (some statusCode) ("HTTP " ++ toString statusCode) utcNow
  | .exception text => attemptFailed delivery none text utcNow

/-- `failure` is the text of the exception, should client.post raise one. -/
def deliverMerchantWebhook (deliveryId : Uuid) (failure : String) (utcNow : Timestamp) : Tx Unit := do
  let loaded ← loadDelivery deliveryId
  match loaded with
  | none => pure ()
  | some (delivery, none) => save delivery (withoutUrl delivery)
  | some (delivery, some webhookUrl) =>
    .call (.postWebhook webhookUrl deliveryId)
      (fun resp => attemptMade delivery (.response resp.statusCode) utcNow)
      (attemptMade delivery (.exception failure) utcNow)

def due (now : Timestamp) (delivery : WebhookDelivery) : Bool :=
  delivery.status = .pending && delivery.nextRetryAt.any (· ≤ now)

/-- The order in which a SELECT without ORDER BY returns its rows. -/
structure RowOrder where
  arrange : List WebhookDelivery → List WebhookDelivery
  perm : ∀ rows, (arrange rows).Perm rows

def dueForRetry (order : RowOrder) (now : Timestamp) (db : Database) : List Uuid :=
  ((order.arrange (db.webhookDeliveries.rows.filter (due now))).take 100).map WebhookDelivery.id

def enqueueAll : List Uuid → Tx Unit
  | [] => pure ()
  | deliveryId :: rest => do
    enqueue (.deliverMerchantWebhook deliveryId)
    enqueueAll rest

def retryPendingWebhooks (order : RowOrder) (now : Timestamp) : Tx Unit := do
  let deliveryIds ← query (dueForRetry order now)
  enqueueAll deliveryIds

end PayCoreWebhooks
