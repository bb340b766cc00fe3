import PayCore.Service.Reconciliation

/- The platform as its routers wire it: money is moved for the user that the token of the
request names, and a review is made by the admin that it names. -/
namespace PayCoreTraffic
open SessionProgram PayCoreTables PayCoreSessions PayCoreSupport PayCoreAccounts PayCorePayments
open PayCoreWithdrawals PayCoreJobs PayCoreReconciliation

inductive Order where
  | fundWallet (amount : Int) (idempotencyKey : Option String) (draws : WithdrawalDraws)
  | initiateTransfer (normalize : String → String) (recipient : Recipient) (amount : Int)
      (idempotencyKey : Option String) (draws : Draws)
  | payMerchant (merchantId : Uuid) (amount : Int) (idempotencyKey : Option String) (draws : Draws)
  | initiateWithdrawal (bankAccountId : Uuid) (amount : Int) (draws : WithdrawalDraws)

def Order.job (cfg : Settings) (currentUser : User) : Order → Job
  | .fundWallet amount key draws => .initiateFunding currentUser amount key draws
  | .initiateTransfer normalize recipient amount key draws =>
      .initiateTransfer normalize currentUser cfg recipient amount key draws
  | .payMerchant merchantId amount key draws => .initiatePayment currentUser cfg merchantId amount key draws
  | .initiateWithdrawal bankAccountId amount draws =>
      .initiateWithdrawal cfg currentUser bankAccountId amount draws

def Order.program (cfg : Settings) (currentUserId : Uuid) (order : Order) : Tx Unit := do
  let currentUser ← getCurrentUser currentUserId
  (order.job cfg currentUser).program

/-- Works that are reached without an `Order`: no money request on behalf of a user of one's
choice, no review by a reviewer of one's choice, and no handler but through its task. -/
def routed : Work → Bool
  | .endpoint (.request (.money (.register ..))) => true
  | .endpoint (.request (.money _)) => false
  | .endpoint (.request (.approveKyc ..)) => false
  | .endpoint (.request (.rejectKyc ..)) => false
  | _ => true

inductive Traffic where
  | ordered (currentUserId : Uuid) (order : Order)
  | other (work : Work) (reachable : routed work = true)

def Traffic.program (cfg : Settings) : Traffic → Tx Unit
  | .ordered currentUserId order => order.program cfg currentUserId
  | .other work _ => work.program

end PayCoreTraffic
