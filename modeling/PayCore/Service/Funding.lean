import PayCore.Service.Withdrawals

/- app/services/wallet_funding.py, app/services/paystack_webhook.py and
   app/workers/reconciliation_tasks.py -/
namespace PayCoreFunding
open SessionProgram PayCoreTables PayCoreWrites PayCoreSessions PayCoreRepositories PayCoreSupport
open PayCoreWithdrawals

def minimumFunding : Int := kobo 100

structure WalletFundingOut where
  transactionId : Uuid
  reference : String
  paymentUrl : String
  amount : Int
  currency : String
  deriving DecidableEq, Repr

def resolveFunding (user : User) (amount : Int) : Tx Wallet := do
  let wallet ← WalletRepository.getByUserId user.id
  let wallet ← orRaise wallet (.forbidden "No wallet found for this user.")
  require wallet.isActive (.forbidden "Wallet is deactivated. Please contact support.")
  require (minimumFunding ≤ amount)
    (.validation "Minimum funding amount is 100.00 NGN." "BELOW_MINIMUM_AMOUNT")
  pure wallet

/-- `extra_data.get("payment_url", "") if extra_data else ""` -/
def storedPaymentUrl (t : Transaction) : Option String :=
  match t.extraData with
  | some extra => extra.paymentUrl.get ""
  | none => some ""

/-- The response model refuses a payment URL that is null. -/
def fundingOf (t : Transaction) (paymentUrl : Option String) : Tx WalletFundingOut := do
  let paymentUrl ← orRaise paymentUrl .responseModel
  pure { transactionId := t.id, reference := t.reference, paymentUrl, amount := t.amount,
         currency := t.currency }

def initiateFunding (user : User) (amount : Int) (idempotencyKey : Option String)
    (draws : WithdrawalDraws) : Tx WalletFundingOut := do
  let wallet ← resolveFunding user amount
  let existing ← lookupKey idempotencyKey
  match existing with
  | some txn => fundingOf txn (storedPaymentUrl txn)
  | none => do
    let reference := "txn_" ++ draws.hex
    let data ← paystack (.initializeTransaction user.email amount reference)
    let paymentUrl := data.authorizationUrl.get ""
    let txn ← TransactionRepository.create
      { id := draws.transactionId
        reference
        type := .funding
        status := .pending
        amount
        destinationWalletId := some wallet.id
        initiatedByUserId := user.id
        providerReference := data.reference.get reference
        idempotencyKey
        extraData := some { paymentUrl := (paymentUrl.map Field.str).getD .null }
        createdAt := draws.clock.startedAt }
    commit
    fundingOf txn paymentUrl

/-- Steps 4 to 7 of process_charge_success, on the transaction already PROCESSING. -/
def creditFunding (txn : Transaction) (walletId : Uuid) (amount : Int) : Tx Unit := do
  let wallet ← WalletRepository.lockForUpdate walletId
  match wallet with
  | none => pure ()
  | some wallet => do
    let newBalance := wallet.balance + amount
    let _ ← WalletRepository.updateBalance wallet newBalance
    let _ ← LedgerRepository.createEntry
      { transactionId := txn.id, walletId := wallet.id, entryType := .credit, amount,
        currency := txn.currency, balanceAfter := newBalance }
    let _ ← TransactionRepository.updateStatus txn .completed none
    commit
    auditLog { actorId := some txn.initiatedByUserId, actorType := .user,
               action := "wallet.funded",
               targetType := some "transaction", targetId := some txn.id }

def processChargeSuccess (data : PaystackData) : Tx Unit :=
  if truthy (data.reference.get "") then do
    let amount := data.amount.getD 0
    let txn ← TransactionRepository.getByProviderReference ((data.reference.get "").getD "")
    match txn with
    | none => pure ()
    | some txn =>
      -- COMPLETED is the idempotent skip, every other status is unexpected.
      if txn.status = .pending then do
        let txn ← TransactionRepository.updateStatus txn .processing none
        match txn.destinationWalletId with
        | none => pure ()
        | some walletId => creditFunding txn walletId amount
      else pure ()
  else .ret ()

inductive TransferEvent where
  | success | failed | reversed
  deriving DecidableEq, Repr

def processTransferResult (event : TransferEvent) (data : PaystackData) : Tx Unit :=
  if truthy (data.reference.get "") then
    let reference := (data.reference.get "").getD ""
    match event with
    | .success => processPayoutSuccess reference
    | .failed | .reversed => processPayoutFailure reference ((data.transferCode.get "").getD "None")
  else .ret ()

/-- app/workers/paystack_tasks.py: `_dispatch`, which leaves every commit to the handler. -/
def dispatch (eventType : String) (data : PaystackData) : Tx Unit :=
  if eventType = "charge.success" then processChargeSuccess data
  else if eventType = "transfer.success" then processTransferResult .success data
  else if eventType = "transfer.failed" then processTransferResult .failed data
  else if eventType = "transfer.reversed" then processTransferResult .reversed data
  else .ret ()

def pyRepr : Option String → String
  | none => "None"
  | some s => "'" ++ s ++ "'"

def failFunding (transactionId : Uuid) (status : Option String) : Tx Unit := do
  let txn ← TransactionRepository.getById transactionId
  match txn with
  | none => pure ()
  | some txn =>
    if txn.status = .pending then do
      let txn ← TransactionRepository.updateStatus txn .processing none
      let _ ← TransactionRepository.updateStatus txn .failed
        (some ("Paystack reconciliation: status=" ++ pyRepr status))
      commit
    else pure ()

def applyResult (transactionId : Uuid) (data : PaystackData) : Tx Unit :=
  let status := data.status.get ""
  if status = some "success" then do
    processChargeSuccess data
    commit
  else failFunding transactionId status

/-- `_reconcile_funding`: no exception leaves it. -/
def reconcileFunding (transactionId : Uuid) (providerReference : String) : Tx Unit :=
  Prog.handle
    (do
      let data ← paystack (.verifyTransaction providerReference)
      applyResult transactionId data)
    (fun _ => .ret ())

end PayCoreFunding
