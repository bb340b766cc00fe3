import PayCore.Library.SessionSystem
import PayCore.Service.Funding
import PayCore.Service.Payments
import PayCore.Service.Registration

/- The operations as jobs that sessions run: requests, Celery tasks and webhook handlers. -/
namespace PayCoreJobs
open SessionProgram SessionSystem PayCoreTables PayCoreWrites PayCoreSessions PayCoreSupport
open PayCorePayments PayCoreWithdrawals PayCoreRegistration

inductive Job where
  | register (cfg : Settings) (normalize : String → String) (email hashedPassword fullName : String)
      (phone : Option String) (draws : RegistrationDraws)
  | initiateFunding (user : User) (amount : Int) (idempotencyKey : Option String)
      (draws : WithdrawalDraws)
  | initiateTransfer (normalize : String → String) (sender : User) (cfg : Settings)
      (recipient : Recipient) (amount : Int) (idempotencyKey : Option String) (draws : Draws)
  | initiatePayment (payer : User) (cfg : Settings) (merchantId : Uuid) (amount : Int)
      (idempotencyKey : Option String) (draws : Draws)
  | initiateWithdrawal (cfg : Settings) (user : User) (bankAccountId : Uuid) (amount : Int)
      (draws : WithdrawalDraws)
  | processChargeSuccess (data : PaystackData)
  | reconcileFunding (transactionId : Uuid) (providerReference : String)
  | executePayout (transactionId : Uuid)
  | processPayoutSuccess (reference : String)
  | processPayoutFailure (reference transferCode : String)

def quietly {α : Type} (p : Tx α) : Tx Unit := do
  let _ ← p
  .ret ()

def Job.program : Job → Tx Unit
  | .register cfg normalize email hashedPassword fullName phone draws =>
      quietly (PayCoreRegistration.register cfg normalize email hashedPassword fullName phone draws)
  | .initiateFunding user amount key draws =>
      quietly (PayCoreFunding.initiateFunding user amount key draws)
  | .initiateTransfer normalize sender cfg recipient amount key draws =>
      quietly (PayCorePayments.initiateTransfer normalize sender cfg recipient amount key draws)
  | .initiatePayment payer cfg merchantId amount key draws =>
      quietly (PayCorePayments.initiatePayment payer cfg merchantId amount key draws)
  | .initiateWithdrawal cfg user bankAccountId amount draws =>
      quietly (PayCoreWithdrawals.initiateWithdrawal cfg user bankAccountId amount draws)
  | .processChargeSuccess data => PayCoreFunding.processChargeSuccess data
  | .reconcileFunding transactionId providerReference =>
      PayCoreFunding.reconcileFunding transactionId providerReference
  | .executePayout transactionId => PayCoreWithdrawals.executePayout transactionId
  | .processPayoutSuccess reference => PayCoreWithdrawals.processPayoutSuccess reference
  | .processPayoutFailure reference transferCode =>
      PayCoreWithdrawals.processPayoutFailure reference transferCode

abbrev Machine (ι : Type) :=
  System ι Database IdentityMap Write Row Request PaystackData AppError Unit

inductive Reply where
  | transaction (txn : Transaction)
  | funding (out : PayCoreFunding.WalletFundingOut)
  | nothing

def Job.replying : Job → Tx Reply
  | .initiateFunding user amount key draws => do
    let out ← PayCoreFunding.initiateFunding user amount key draws
    .ret (.funding out)
  | .initiateTransfer normalize sender cfg recipient amount key draws => do
    let txn ← PayCorePayments.initiateTransfer normalize sender cfg recipient amount key draws
    .ret (.transaction txn)
  | .initiatePayment payer cfg merchantId amount key draws => do
    let txn ← PayCorePayments.initiatePayment payer cfg merchantId amount key draws
    .ret (.transaction txn)
  | job => do
    job.program
    .ret .nothing

abbrev Answering (ι : Type) :=
  System ι Database IdentityMap Write Row Request PaystackData AppError Reply

def opening {ι : Type} (db : Database) (jobs : ι → Job) : Machine ι :=
  initial db (fun i => (jobs i).program)

def asking {ι : Type} (db : Database) (jobs : ι → Job) : Answering ι :=
  initial db (fun i => (jobs i).replying)

/-- A transfer, payment or withdrawal of the positive amount its request schema demands. -/
def Job.movesMoney : Job → Prop
  | .initiateTransfer _ _ _ _ amount _ _ => 0 < amount
  | .initiatePayment _ _ _ amount _ _ => 0 < amount
  | .initiateWithdrawal _ _ _ amount _ => 0 < amount
  | _ => False

def Job.charges : Job → Prop
  | .processChargeSuccess _ => True
  | .reconcileFunding _ _ => True
  | _ => False

def Job.paysOut : Job → Prop
  | .executePayout _ => True
  | .processPayoutSuccess _ => True
  | .processPayoutFailure _ _ => True
  | _ => False

def Job.setsStatus (job : Job) : Prop := job.charges ∨ job.paysOut

end PayCoreJobs
