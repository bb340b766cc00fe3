import PayCore.Model.Repositories

/- What the money services share: settings, fraud rules, the ledger service and
   the best-effort steps after a commit. -/
namespace PayCoreSupport
open SessionProgram PayCoreTables PayCoreWrites PayCoreSessions PayCoreRepositories

/-- app/core/config.py. Limits are in NGN, windows in seconds. -/
structure Settings where
  kycTier1DailyLimit : Nat := 50000
  kycTier2DailyLimit : Nat := 500000
  kycTier1SingleLimit : Nat := 50000
  kycTier2SingleLimit : Nat := 500000
  fraudDuplicateWindowSeconds : Nat := 60
  fraudRapidTransferCount : Nat := 5
  fraudRapidTransferWindowSeconds : Nat := 600
  fraudMerchantPaymentFlagThreshold : Nat := 100000
  refreshTokenExpireDays : Nat := 1
  accessTokenExpireMinutes : Nat := 30
  paystackSecretKey : String := ""

/-- `startedAt` is the database's now() in the session's transaction, `utcNow`
   the application's clock. -/
structure Clock where
  startedAt : Timestamp
  utcNow : Timestamp

def kobo (ngn : Nat) : Int := (ngn : Int) * 100

def seconds (n : Nat) : Timestamp := n * 1000000

def dayStart (now : Timestamp) : Timestamp := now - now % seconds 86400

/-- `{n:,.0f}` -/
def thousands (n : Nat) : String :=
  String.ofList (grouped (toString n).toList.reverse).reverse
where
  grouped : List Char → List Char
    | a :: b :: c :: d :: rest => a :: b :: c :: ',' :: grouped (d :: rest)
    | short => short

section Fraud
variable (cfg : Settings) (now : Timestamp)

def enforceKycSingleLimit (kycTier : Nat) (amount : Int) : Tx Unit :=
  if kycTier = 0 then
    .raise (.kycTier ("KYC verification is required to initiate transactions. " ++
      "Please complete Tier 1 verification."))
  else
    let limit := if kycTier = 1 then cfg.kycTier1SingleLimit else cfg.kycTier2SingleLimit
    require (amount ≤ kobo limit) (.kycTier ("Amount exceeds the single-transaction limit of " ++
      thousands limit ++ " NGN for KYC Tier " ++ toString kycTier ++ "."))

def enforceDailyLimit (userId : Uuid) (kycTier : Nat) (amount : Int) (type : TransactionType) :
    Tx Unit := do
  let dailyLimit := if kycTier = 1 then cfg.kycTier1DailyLimit else cfg.kycTier2DailyLimit
  let dailySum ← FraudRepository.getDailyOutgoingSum userId type (dayStart now)
  require (dailySum + amount ≤ kobo dailyLimit) .dailyLimit

def enforceNoDuplicateTransfer (sourceWalletId destinationWalletId : Uuid) (amount : Int) :
    Tx Unit := do
  let count ← FraudRepository.countRecentTransfers sourceWalletId destinationWalletId amount
    (now - seconds cfg.fraudDuplicateWindowSeconds)
  require (count = 0) .duplicateTransfer

def checkTransfer (senderUser : User) (senderWallet : Wallet) (recipientWalletId : Uuid)
    (amount : Int) : Tx Unit := do
  enforceKycSingleLimit cfg senderUser.kycTier amount
  enforceDailyLimit cfg now senderUser.id senderUser.kycTier amount .transfer
  enforceNoDuplicateTransfer cfg now senderWallet.id recipientWalletId amount

def checkMerchantPayment (user : User) (amount : Int) : Tx Unit := do
  enforceKycSingleLimit cfg user.kycTier amount
  enforceDailyLimit cfg now user.id user.kycTier amount .merchantPayment

def checkWithdrawal (user : User) (amount : Int) : Tx Unit := do
  require (2 ≤ user.kycTier) (.kycTier ("Withdrawals require KYC Tier 2 verification. " ++
    "Please complete identity verification to unlock withdrawals."))
  enforceKycSingleLimit cfg user.kycTier amount
  enforceDailyLimit cfg now user.id user.kycTier amount .withdrawal

def maybeFlagMerchantPayment (transactionId : Uuid) (user : User) (amount : Int) : Tx Unit :=
  if user.kycTier = 1 ∧ kobo cfg.fraudMerchantPaymentFlagThreshold < amount then
    enqueue (.flagTransactionRisk transactionId)
  else .ret ()

def maybeFlagRapidTransfers (transactionId senderWalletId : Uuid) : Tx Unit := do
  let distinctCount ← FraudRepository.countDistinctRecipientsRecently senderWalletId
    (now - seconds cfg.fraudRapidTransferWindowSeconds)
  if cfg.fraudRapidTransferCount < distinctCount then
    enqueue (.flagTransactionRisk transactionId)
  else .ret ()

end Fraud

def lookupKey (idempotencyKey : Option String) : Tx (Option Transaction) :=
  if truthy idempotencyKey then
    TransactionRepository.getByIdempotencyKey (idempotencyKey.getD "")
  else .ret none

/-- AuditService.log: its own commit, and no exception leaves it. -/
def auditLog (entry : AuditLog) : Tx Unit :=
  Prog.handle
    (do
      Prog.stmt [] (fun _ _ => [.insertAuditLog entry]) (fun _ m => m) (fun _ _ => .ret ())
        (.raise .database)
      commit)
    (fun _ => rollback)

def postDoubleEntry (transactionId debitWalletId creditWalletId : Uuid) (amount : Int)
    (currency : String) (debitBalanceAfter creditBalanceAfter : Int) :
    Tx (LedgerEntry × LedgerEntry) := do
  let debit ← LedgerRepository.createEntry
    { transactionId, walletId := debitWalletId, entryType := .debit, amount, currency,
      balanceAfter := debitBalanceAfter }
  let credit ← LedgerRepository.createEntry
    { transactionId, walletId := creditWalletId, entryType := .credit, amount, currency,
      balanceAfter := creditBalanceAfter }
  pure (debit, credit)

def createAndEnqueue (merchant : Merchant) (transactionId deliveryId : Uuid)
    (eventType : String) : Tx Unit :=
  if truthy merchant.webhookUrl then do
    let delivery : WebhookDelivery :=
      { id := deliveryId, merchantId := merchant.id, transactionId, eventType }
    -- The id is drawn fresh. A record that the database refuses all the same aborts the session.
    Prog.stmt [] (fun _ _ => [.insertDelivery delivery]) (fun _ m => m) (fun _ _ => .ret ())
      (.raise .database)
    commit
    Prog.handle (enqueue (.deliverMerchantWebhook deliveryId)) (fun _ => .ret ())
  else .ret ()

end PayCoreSupport
