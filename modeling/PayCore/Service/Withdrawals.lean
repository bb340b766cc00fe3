import PayCore.Service.Support

/- app/services/withdrawal.py: the hold, its dispatch to Paystack and its settlement. -/
namespace PayCoreWithdrawals
open SessionProgram PayCoreTables PayCoreWrites PayCoreSessions PayCoreRepositories PayCoreSupport

def isActiveWithdrawal (userId : Uuid) (t : Transaction) : Bool :=
  t.initiatedByUserId == userId && t.type == .withdrawal &&
    (t.status == .pending || t.status == .processing)

/-- `_get_active_withdrawal`: scalar_one_or_none over an unlocked SELECT. -/
def getActiveWithdrawal (userId : Uuid) : Tx (Option Transaction) :=
  TransactionRepository.select fun db =>
    TransactionRepository.scalarOneOrNone (db.transactions.rows.filter (isActiveWithdrawal userId))

/-- `BankAccountVerificationService.verify_account`: no exception leaves it. -/
def verifyAccount (cfg : Settings) (accountNumber bankCode : String) : Tx (Option String) :=
  if cfg.paystackSecretKey = "" then .ret none
  else
    Prog.handle
      (do
        let data ← paystack (.resolveAccount accountNumber bankCode)
        let name : Option String := match data.accountName with
          | .str s => some s
          | _ => none
        pure (name.filter (· ≠ "")))
      (fun _ => .ret none)

def addBankAccount (cfg : Settings) (user : User) (accountName accountNumber bankCode bankName : String)
    (accountId : Uuid) : Tx BankAccount := do
  let verifiedName ← verifyAccount cfg accountNumber bankCode
  let existingCount ← BankAccountRepository.countByUser user.id
  let account ← BankAccountRepository.create
    { id := accountId, userId := user.id, accountName := verifiedName.getD accountName,
      accountNumber, bankCode, bankName, isDefault := existingCount == 0 }
  commit
  pure account

def removeBankAccount (user : User) (bankAccountId : Uuid) (now : Timestamp) : Tx Unit := do
  let account ← BankAccountRepository.getById bankAccountId
  let account ← orRaise (account.filter (·.userId == user.id)) (.notFound "Bank account")
  let active ← getActiveWithdrawal user.id
  require (active.all fun t => (t.extraData.bind (·.bankAccountId)) != some bankAccountId)
    (.forbidden "Cannot remove a bank account with an active withdrawal in progress.")
  BankAccountRepository.softDelete account now
  commit

structure WithdrawalDraws where
  transactionId : Uuid
  hex : String
  clock : Clock

def initiateWithdrawal (cfg : Settings) (user : User) (bankAccountId : Uuid) (amount : Int)
    (draws : WithdrawalDraws) : Tx Transaction := do
  let wallet ← WalletRepository.getByUserId user.id
  let wallet ← orRaise (wallet.filter (·.isActive))
    (.forbidden "Wallet is inactive or does not exist.")
  checkWithdrawal cfg draws.clock.utcNow user amount
  let active ← getActiveWithdrawal user.id
  require active.isNone (.validation ("You already have a withdrawal in progress. " ++
    "Please wait for it to complete before initiating another.") "WITHDRAWAL_ALREADY_PENDING")
  let bankAccount ← BankAccountRepository.getById bankAccountId
  let _ ← orRaise (bankAccount.filter (·.userId == user.id)) (.notFound "Bank account")
  let lockedWallet ← WalletRepository.lockForUpdate wallet.id
  let lockedWallet ← orRaise lockedWallet (.forbidden "Wallet not found.")
  require (amount ≤ lockedWallet.balance) .insufficientBalance
  let txn ← TransactionRepository.create
    { id := draws.transactionId
      reference := "txn_" ++ draws.hex
      type := .withdrawal
      status := .pending
      amount
      currency := lockedWallet.currency
      sourceWalletId := some lockedWallet.id
      initiatedByUserId := user.id
      extraData := some { bankAccountId := some bankAccountId }
      createdAt := draws.clock.startedAt }
  let _ ← WalletRepository.updateBalance lockedWallet (lockedWallet.balance - amount)
  commit
  Prog.handle (enqueue (.processWithdrawal txn.id)) (fun _ => .ret ())
  auditLog { actorId := some user.id, actorType := .user, action := "withdrawal.initiated",
             targetType := some "transaction", targetId := some txn.id }
  pure txn

/-- The tail of process_payout_success, once the guards have passed. -/
def settlePayout (txn : Transaction) (sourceWalletId : Uuid) : Tx Unit := do
  let wallet ← WalletRepository.lockForUpdate sourceWalletId
  match wallet with
  | none => pure ()
  | some wallet => do
    let _ ← LedgerRepository.createEntry
      { transactionId := txn.id, walletId := wallet.id, entryType := .debit,
        amount := txn.amount, currency := txn.currency, balanceAfter := wallet.balance }
    let _ ← TransactionRepository.updateStatus txn .completed none
    commit
    auditLog { actorId := some txn.initiatedByUserId, actorType := .system,
               action := "withdrawal.completed",
               targetType := some "transaction", targetId := some txn.id }

/-- The tail of process_payout_failure: the held amount goes back to the wallet. -/
def refundPayout (txn : Transaction) (sourceWalletId : Uuid) (transferCode : String) :
    Tx Unit := do
  let wallet ← WalletRepository.lockForUpdate sourceWalletId
  match wallet with
  | none => pure ()
  | some wallet => do
    let _ ← WalletRepository.updateBalance wallet (wallet.balance + txn.amount)
    let _ ← TransactionRepository.updateStatus txn .failed
      (some ("Paystack transfer failed or reversed: " ++ transferCode))
    commit
    auditLog { actorId := some txn.initiatedByUserId, actorType := .system,
               action := "withdrawal.failed",
               targetType := some "transaction", targetId := some txn.id }

/-- The guards that process_payout_success and process_payout_failure share: only a
   PROCESSING transaction with a source wallet goes on, every other event is
   logged and counts as handled. The idempotent skip on the handler's own final
   status is one of these. -/
def onProcessing (reference : String) (settle : Transaction → Uuid → Tx Unit) : Tx Unit := do
  let txn ← TransactionRepository.getByReference reference
  match txn with
  | none => pure ()
  | some txn =>
    if txn.status = .processing then
      match txn.sourceWalletId with
      | none => pure ()
      | some sourceWalletId => settle txn sourceWalletId
    else pure ()

def processPayoutSuccess (reference : String) : Tx Unit := onProcessing reference settlePayout

def processPayoutFailure (reference transferCode : String) : Tx Unit :=
  onProcessing reference (fun txn wallet => refundPayout txn wallet transferCode)

def recipientCodeOf (account : BankAccount) : Tx String :=
  if truthy account.paystackRecipientCode then
    .ret (account.paystackRecipientCode.getD "")
  else do
    let recipient ← paystack
      (.createTransferRecipient account.accountName account.accountNumber account.bankCode)
    let code := recipient.recipientCode.get ""
    require (truthy code) (.externalService "Paystack")
    BankAccountRepository.setRecipientCode account (code.getD "")
    pure (code.getD "")

def dispatchPayout (txn : Transaction) (recipientCode : String) : Tx Unit := do
  let txn ← if txn.status = .pending then
      TransactionRepository.updateStatus txn .processing none
    else .ret txn
  let transfer ← paystack (.initiateTransfer txn.amount recipientCode txn.reference
    ("PayCore withdrawal " ++ txn.reference))
  let transferCode := transfer.transferCode.get ""
  -- An unchanged attribute is not dirty: the flush then issues no UPDATE.
  if transferCode = txn.providerReference then commit
  else do
    let _ ← TransactionRepository.flush txn { providerReference := some transferCode }
    commit

def executePayout (transactionId : Uuid) : Tx Unit := do
  let txn ← TransactionRepository.getById transactionId
  match txn with
  | none => pure ()
  | some txn =>
    if txn.status = .completed ∨ txn.status = .failed then pure ()
    else if txn.status = .processing ∧ txn.providerReference.isSome then pure ()
    else match txn.extraData.bind (·.bankAccountId) with
      | none => pure ()
      | some bankAccountId => do
        let bankAccount ← BankAccountRepository.getById bankAccountId
        match bankAccount with
        | none => pure ()
        | some account => do
          let recipientCode ← recipientCodeOf account
          dispatchPayout txn recipientCode

end PayCoreWithdrawals
