import PayCore.Library.GuardedRuns
import PayCore.Service.Webhooks

/- Deliveries at work: the table, the delivery tasks that wait at the broker and the executions
   that workers have begun, each of which goes through its load, its POST and its commit. -/
namespace PayCoreDeliveryQueue
open SessionProgram GuardedRuns KeyedTable PayCoreTables PayCoreWrites PayCoreSessions
open PayCoreSupport PayCoreWebhooks

structure Execution where
  delivery : WebhookDelivery
  webhookUrl : Option String
  outcome : Option Outcome := none
  deriving DecidableEq, Repr

def Execution.succeeded (e : Execution) : Bool := e.outcome.any Outcome.succeeded

def Execution.toPost (e : Execution) : Bool := e.webhookUrl.isSome && e.outcome.isNone

/-- A POST, with the row as it was committed when the POST was sent. -/
structure Post where
  row : WebhookDelivery
  sentAt : Timestamp
  outcome : Outcome
  deriving DecidableEq, Repr

structure World where
  db : Database
  queue : List Uuid := []
  running : List Execution := []
  posts : List Post := []

def World.row (w : World) (deliveryId : Uuid) : Option WebhookDelivery :=
  w.db.webhookDeliveries.find? deliveryId

def World.own (w : World) (deliveryId : Uuid) : List Execution :=
  w.running.filter fun e => e.delivery.id = deliveryId

def World.postsOf (w : World) (deliveryId : Uuid) : List Post :=
  w.posts.filter fun p => p.row.id = deliveryId

inductive Move where
  | create (merchant : Merchant) (transactionId deliveryId : Uuid) (eventType : String) (reachable : Bool)
  | configure (merchants : Table Merchant)
  | sweep (order : RowOrder) (now : Timestamp) (reachable : Uuid → Bool)
  | load (k : Nat)
  | post (k : Nat) (sentAt : Timestamp) (outcome : Outcome)
  | commit (k : Nat) (utcNow : Timestamp)
  | fail (k : Nat) (redelivered : Bool)

def broker (reachable : Uuid → Bool) : Request → Option PaystackData
  | .delay (.deliverMerchantWebhook deliveryId) => if reachable deliveryId then some {} else none
  | _ => none

def accepted (reachable : Uuid → Bool) : Request → Option Uuid
  | .delay (.deliverMerchantWebhook deliveryId) => if reachable deliveryId then some deliveryId else none
  | _ => none

/-- A program that runs on its own and leaves its tasks in the queue. -/
def World.perform (w : World) (reachable : Uuid → Bool) (p : Tx Unit) : World :=
  let finish := (exec (broker reachable) p (start w.db)).2
  { w with db := finish.db, queue := w.queue ++ finish.calls.filterMap (accepted reachable) }

/-- The id is drawn at random. The primary key refuses one that is taken. -/
def World.create (w : World) (merchant : Merchant) (transactionId deliveryId : Uuid) (eventType : String)
    (reachable : Bool) : World :=
  if (w.row deliveryId).isSome then w else
    w.perform (fun _ => reachable) (createAndEnqueue merchant transactionId deliveryId eventType)

def World.load (w : World) (k : Nat) : World :=
  match w.queue[k]? with
  | none => w
  | some deliveryId =>
    let taken := { w with queue := w.queue.eraseIdx k }
    match (runAlone (broker fun _ => false) (loadDelivery deliveryId) w.db).1 with
    | .ok (some (delivery, webhookUrl)) =>
        { taken with running := w.running ++ [{ delivery, webhookUrl }] }
    | _ => taken

def World.post (w : World) (k : Nat) (sentAt : Timestamp) (outcome : Outcome) : World :=
  match w.running[k]? with
  | none => w
  | some e =>
    if e.toPost then
      { w with
        running := w.running.eraseIdx k ++ [{ e with outcome := some outcome }]
        posts := w.posts ++ [{ row := (w.row e.delivery.id).getD e.delivery, sentAt, outcome }] }
    else w

def Execution.conclusion (e : Execution) (utcNow : Timestamp) : Tx Unit :=
  match e.outcome with
  | some outcome => attemptMade e.delivery outcome utcNow
  | none => save e.delivery (withoutUrl e.delivery)

def World.commit (w : World) (k : Nat) (utcNow : Timestamp) : World :=
  match w.running[k]? with
  | none => w
  | some e =>
    if e.toPost then w else
      { w.perform (fun _ => false) (e.conclusion utcNow) with running := w.running.eraseIdx k }

/-- An exception ends the execution, and its task is acknowledged all the same. The task of a worker
   that is lost is handed out again. -/
def World.fail (w : World) (k : Nat) (redelivered : Bool) : World :=
  match w.running[k]? with
  | none => w
  | some e =>
    { w with
      running := w.running.eraseIdx k
      queue := if redelivered then w.queue ++ [e.delivery.id] else w.queue }

def step (w : World) : Move → World
  | .create merchant transactionId deliveryId eventType reachable =>
      w.create merchant transactionId deliveryId eventType reachable
  | .configure merchants => { w with db := { w.db with merchants := merchants } }
  | .sweep order now reachable => w.perform reachable (retryPendingWebhooks order now)
  | .load k => w.load k
  | .post k sentAt outcome => w.post k sentAt outcome
  | .commit k utcNow => w.commit k utcNow
  | .fail k redelivered => w.fail k redelivered

def World.Unused (w : World) : Prop :=
  w.db.webhookDeliveries.rows = [] ∧ w.queue = [] ∧ w.running = [] ∧ w.posts = []

end PayCoreDeliveryQueue
