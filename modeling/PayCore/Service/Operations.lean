import PayCore.Service.Jobs
import PayCore.Service.Kyc
import PayCore.Service.Merchants

/- The requests that reach a router and change state. The money requests and the registration
   are jobs already; `currentUserId` is whom the access token names. -/
namespace PayCoreOperations
open SessionProgram PayCoreTables PayCoreSessions PayCoreSupport PayCoreAccounts PayCoreMerchants
open PayCoreKyc PayCoreJobs

inductive Operation where
  | money (job : Job)
  | login (cfg : Settings) (normalize : String → String) (verifyPassword : String → String → Bool)
      (email password : String) (draws : TokenDraws)
  | refresh (cfg : Settings) (tokenHash : String) (draws : TokenDraws)
  | logout (tokenHash : String)
  | updateProfile (currentUserId : Uuid) (fullName phone : Option String)
  | createMerchant (currentUserId : Uuid) (businessName : String) (draws : MerchantDraws)
  | rotateApiKey (currentUserId : Uuid) (rawKey apiKeyHash : String)
  | updateWebhookConfig (currentUserId : Uuid) (webhookUrl newSecret : Option String)
  | submitKyc (currentUserId : Uuid) (targetTier : Nat) (fileBytes : List UInt8)
      (submissionId : Uuid) (documentKey : String)
  | approveKyc (submissionId : Uuid) (reviewer : User) (utcNow : Timestamp)
  | rejectKyc (submissionId : Uuid) (reviewer : User) (reason : String) (utcNow : Timestamp)
  | addBankAccount (cfg : Settings) (currentUserId : Uuid)
      (accountName accountNumber bankCode bankName : String) (accountId : Uuid)
  | removeBankAccount (currentUserId bankAccountId : Uuid) (utcNow : Timestamp)

def asUser {α : Type} (currentUserId : Uuid) (service : User → Tx α) : Tx Unit := do
  let user ← getCurrentUser currentUserId
  quietly (service user)

def Operation.program : Operation → Tx Unit
  | .money job => job.program
  | .login cfg normalize verifyPassword email password draws =>
      quietly (PayCoreAccounts.login cfg normalize verifyPassword email password draws)
  | .refresh cfg tokenHash draws => quietly (PayCoreAccounts.refresh cfg tokenHash draws)
  | .logout tokenHash => PayCoreAccounts.logout tokenHash
  | .updateProfile currentUserId fullName phone =>
      asUser currentUserId fun user => PayCoreAccounts.updateProfile user.id fullName phone
  | .createMerchant currentUserId businessName draws =>
      asUser currentUserId fun user => PayCoreMerchants.createMerchant user businessName draws
  | .rotateApiKey currentUserId rawKey apiKeyHash =>
      asUser currentUserId fun user => PayCoreMerchants.rotateApiKey user.id rawKey apiKeyHash
  | .updateWebhookConfig currentUserId webhookUrl newSecret =>
      asUser currentUserId fun user => PayCoreMerchants.updateWebhookConfig user.id webhookUrl newSecret
  | .submitKyc currentUserId targetTier fileBytes submissionId documentKey =>
      asUser currentUserId fun user =>
        PayCoreKyc.submitKyc user targetTier fileBytes submissionId documentKey
  | .approveKyc submissionId reviewer utcNow => quietly (PayCoreKyc.approveKyc submissionId reviewer utcNow)
  | .rejectKyc submissionId reviewer reason utcNow =>
      quietly (PayCoreKyc.rejectKyc submissionId reviewer reason utcNow)
  | .addBankAccount cfg currentUserId accountName accountNumber bankCode bankName accountId =>
      asUser currentUserId fun user =>
        PayCoreWithdrawals.addBankAccount cfg user accountName accountNumber bankCode bankName accountId
  | .removeBankAccount currentUserId bankAccountId utcNow =>
      asUser currentUserId fun user => PayCoreWithdrawals.removeBankAccount user bankAccountId utcNow

inductive Report where
  | user (u : User)
  | refreshToken (tokenHash : String)
  | merchant (m : Merchant)
  | submission (s : KYCSubmission)
  | bankAccount (a : BankAccount)
  | transaction (txn : Transaction)
  | funding (out : PayCoreFunding.WalletFundingOut)
  | nothing

def Report.stands : Report → Database → Prop
  | .user u, db => db.users.find? u.id = some u
  | .refreshToken tokenHash, db =>
      ∃ t, db.refreshTokens.find? tokenHash = some t ∧ t.isRevoked = false
  | .merchant m, db => db.merchants.find? m.id = some m
  | .submission s, db => db.kycSubmissions.find? s.id = some s
  | .bankAccount a, db => db.bankAccounts.find? a.id = some a
  | .transaction txn, db => db.transactions.find? txn.id = some txn
  | .funding out, db =>
      ∃ t, db.transactions.find? out.transactionId = some t ∧ t.reference = out.reference ∧
        t.amount = out.amount ∧ t.currency = out.currency ∧
        PayCoreFunding.storedPaymentUrl t = some out.paymentUrl
  | .nothing, _ => True

def reporting {α : Type} (report : α → Report) (p : Tx α) : Tx Report := do
  let a ← p
  .ret (report a)

def userReporting {α : Type} (report : α → Report) (currentUserId : Uuid) (service : User → Tx α) :
    Tx Report := do
  let user ← getCurrentUser currentUserId
  reporting report (service user)

def Operation.reports : Operation → Tx Report
  | .money (.register cfg normalize email hashedPassword fullName phone draws) =>
      reporting Report.user
        (PayCoreRegistration.register cfg normalize email hashedPassword fullName phone draws)
  | .money (.initiateFunding user amount key draws) =>
      reporting Report.funding (PayCoreFunding.initiateFunding user amount key draws)
  | .money (.initiateTransfer normalize sender cfg recipient amount key draws) =>
      reporting Report.transaction
        (PayCorePayments.initiateTransfer normalize sender cfg recipient amount key draws)
  | .money (.initiatePayment payer cfg merchantId amount key draws) =>
      reporting Report.transaction
        (PayCorePayments.initiatePayment payer cfg merchantId amount key draws)
  | .money (.initiateWithdrawal cfg user bankAccountId amount draws) =>
      reporting Report.transaction
        (PayCoreWithdrawals.initiateWithdrawal cfg user bankAccountId amount draws)
  | .money job => reporting (fun _ => .nothing) job.program
  | .login cfg normalize verifyPassword email password draws =>
      reporting (fun _ => .refreshToken draws.refreshHash)
        (PayCoreAccounts.login cfg normalize verifyPassword email password draws)
  | .refresh cfg tokenHash draws =>
      reporting (fun _ => .refreshToken draws.refreshHash) (PayCoreAccounts.refresh cfg tokenHash draws)
  | .logout tokenHash => reporting (fun _ => .nothing) (PayCoreAccounts.logout tokenHash)
  | .updateProfile currentUserId fullName phone =>
      userReporting Report.user currentUserId fun user =>
        PayCoreAccounts.updateProfile user.id fullName phone
  | .createMerchant currentUserId businessName draws =>
      userReporting (fun created => Report.merchant created.1) currentUserId fun user =>
        PayCoreMerchants.createMerchant user businessName draws
  | .rotateApiKey currentUserId rawKey apiKeyHash =>
      userReporting (fun rotated => Report.merchant rotated.1) currentUserId fun user =>
        PayCoreMerchants.rotateApiKey user.id rawKey apiKeyHash
  | .updateWebhookConfig currentUserId webhookUrl newSecret =>
      userReporting Report.merchant currentUserId fun user =>
        PayCoreMerchants.updateWebhookConfig user.id webhookUrl newSecret
  | .submitKyc currentUserId targetTier fileBytes submissionId documentKey =>
      userReporting Report.submission currentUserId fun user =>
        PayCoreKyc.submitKyc user targetTier fileBytes submissionId documentKey
  | .approveKyc submissionId reviewer utcNow =>
      reporting Report.submission (PayCoreKyc.approveKyc submissionId reviewer utcNow)
  | .rejectKyc submissionId reviewer reason utcNow =>
      reporting Report.submission (PayCoreKyc.rejectKyc submissionId reviewer reason utcNow)
  | .addBankAccount cfg currentUserId accountName accountNumber bankCode bankName accountId =>
      userReporting Report.bankAccount currentUserId fun user =>
        PayCoreWithdrawals.addBankAccount cfg user accountName accountNumber bankCode bankName accountId
  | .removeBankAccount currentUserId bankAccountId utcNow =>
      userReporting (fun _ => .nothing) currentUserId fun user =>
        PayCoreWithdrawals.removeBankAccount user bankAccountId utcNow

/-- The requests of the routers. Their schemas ask for a positive amount. -/
def Operation.requested : Operation → Prop
  | .money (.register ..) => True
  | .money (.initiateFunding ..) => True
  | .money job => job.movesMoney
  | _ => True

section Responses

inductive Answer where
  | transaction (txn : Transaction)
  | error
  deriving DecidableEq, Repr

/-- `model_validate(txn)` reads the attributes of the object that the session holds. A rollback
   expires them, and outside an awaited call an expired attribute raises. -/
def modelValidate (m : IdentityMap) (txn : Transaction) : Answer :=
  match m.transactions txn.id with
  | some held => .transaction held
  | none => .error

def respond (m : IdentityMap) : Except AppError Transaction → Answer
  | .ok txn => modelValidate m txn
  | .error _ => .error

inductive MoneyRequest : Tx Transaction → Prop where
  | transfer (normalize : String → String) (sender : User) (cfg : Settings)
      (recipient : PayCorePayments.Recipient) (amount : Int) (idempotencyKey : Option String)
      (draws : PayCorePayments.Draws) :
      MoneyRequest
        (PayCorePayments.initiateTransfer normalize sender cfg recipient amount idempotencyKey draws)
  | payment (payer : User) (cfg : Settings) (merchantId : Uuid) (amount : Int)
      (idempotencyKey : Option String) (draws : PayCorePayments.Draws) :
      MoneyRequest (PayCorePayments.initiatePayment payer cfg merchantId amount idempotencyKey draws)
  | withdrawal (cfg : Settings) (user : User) (bankAccountId : Uuid) (amount : Int)
      (draws : PayCoreWithdrawals.WithdrawalDraws) :
      MoneyRequest (PayCoreWithdrawals.initiateWithdrawal cfg user bankAccountId amount draws)

end Responses

end PayCoreOperations
