import PayCore.Service.Endpoints

/- app/workers/reconciliation_tasks.py, and everything that the API and the workers run. -/
namespace PayCoreReconciliation
open SessionProgram PayCoreTables PayCoreSessions PayCoreFunding PayCoreWithdrawals PayCoreEndpoints

/-- BATCH_LIMIT and STALE_THRESHOLD_MINUTES -/
def batchLimit : Nat := 50

def staleThreshold : Nat := 30 * 60 * 1000000

/-- A SELECT without ORDER BY hands its rows back in any order. -/
structure Plan where
  order : List Transaction → List Transaction
  perm : ∀ rows, (order rows).Perm rows

def tableOrder : Plan := ⟨fun rows => rows, fun _ => .refl _⟩

def staleFunding (cutoff : Timestamp) (t : Transaction) : Bool :=
  t.type == .funding && t.status == .pending && t.providerReference.isSome && decide (t.createdAt ≤ cutoff)

def staleWithdrawal (cutoff : Timestamp) (t : Transaction) : Bool :=
  t.type == .withdrawal && t.status == .pending && decide (t.createdAt ≤ cutoff)

def batch (plan : Plan) (stale : Transaction → Bool) (db : Database) : List Transaction :=
  (plan.order (db.transactions.rows.filter stale)).take batchLimit

def referred (t : Transaction) : Option (Uuid × String) := t.providerReference.map (Prod.mk t.id)

structure Sweep where
  utcNow : Timestamp
  fundings : Plan := tableOrder
  withdrawals : Plan := tableOrder

def Sweep.cutoff (sweep : Sweep) : Timestamp := sweep.utcNow - staleThreshold

def Sweep.staleFundings (sweep : Sweep) (db : Database) : List (Uuid × String) :=
  (batch sweep.fundings (staleFunding sweep.cutoff) db).filterMap referred

def Sweep.staleWithdrawalIds (sweep : Sweep) (db : Database) : List Uuid :=
  (batch sweep.withdrawals (staleWithdrawal sweep.cutoff) db).map (·.id)

/-- A session of its own for each transaction: what is not committed is gone when it is closed. -/
def reconcileAll : List (Uuid × String) → Tx Unit
  | [] => .ret ()
  | (transactionId, providerReference) :: rest => do
    reconcileFunding transactionId providerReference
    rollback
    reconcileAll rest

def enqueueAll : List Uuid → Tx Unit
  | [] => .ret ()
  | transactionId :: rest => do
    enqueue (.processWithdrawal transactionId)
    enqueueAll rest

def reconcile (sweep : Sweep) : Tx Unit := do
  let staleFunding ← query sweep.staleFundings
  rollback
  reconcileAll staleFunding
  let staleWithdrawalIds ← query sweep.staleWithdrawalIds
  rollback
  enqueueAll staleWithdrawalIds

/-- What the platform runs: the requests, and the tasks of the workers. deliver_merchant_webhook and
   retry_pending_webhooks are not here, they are the moves of `PayCoreDeliveryQueue`; nor is
   flag_transaction_risk, which sets the risk flag of a transaction and writes an audit log. -/
inductive Work where
  | endpoint (e : Endpoint)
  | processPaystackWebhook (eventType : String) (data : PaystackData)
  | processWithdrawal (transactionId : Uuid)
  | checkStaleTransactions (sweep : Sweep)

def Work.program : Work → Tx Unit
  | .endpoint e => e.program
  | .processPaystackWebhook eventType data => dispatch eventType data
  | .processWithdrawal transactionId => executePayout transactionId
  | .checkStaleTransactions sweep => reconcile sweep

end PayCoreReconciliation
