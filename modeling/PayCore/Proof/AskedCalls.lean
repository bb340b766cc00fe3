import PayCore.Proof.AskRules
import PayCore.Service.Traffic

/- Which calls each service may try: most try none, and those that try one name it. -/
namespace PayCoreAskedCalls
open SessionProgram LoneSessions PayCoreTables PayCoreWrites PayCoreSessions PayCoreRepositories
open PayCoreSupport PayCoreAccounts PayCoreRegistration PayCoreMerchants PayCoreKyc PayCorePayments
open PayCoreWithdrawals PayCoreFunding PayCoreJobs PayCoreOperations PayCoreEndpoints
open PayCoreAskRules

variable {α : Type} {P : Request → Prop}

theorem asks_quietly {p : Tx α} (asks : Asks P p) : Asks P (quietly p) := asks_seq asks (fun _ => trivial)

theorem asks_flushAccount (writes : List AccountWrite) : Asks P (flushAccount writes) :=
  asks_statement (fun _ _ => trivial)

theorem asks_flush (txn : Transaction) (set : TransactionUpdate) :
    Asks P (TransactionRepository.flush txn set) :=
  asks_statement (fun _ _ => trivial)

theorem asks_setRecipientCode (account : BankAccount) (code : String) :
    Asks P (BankAccountRepository.setRecipientCode account code) := asks_statement (fun _ _ => trivial)

theorem asks_enqueue {task : Task} (allowed : P (.delay task)) : Asks P (enqueue task) :=
  ⟨allowed, fun _ => trivial, trivial⟩

theorem asks_paystack {request : Request} (allowed : P request) : Asks P (paystack request) :=
  ⟨allowed, fun _ => trivial, trivial⟩

section Movements
variable (cfg : Settings) (now : Timestamp)

theorem asks_lookupKey (key : Option String) : Asks P (lookupKey key) := by
  unfold lookupKey
  split
  · exact asks_selectTransaction _
  · trivial

theorem asks_kycSingleLimit (kycTier : Nat) (amount : Int) :
    Asks P (enforceKycSingleLimit cfg kycTier amount) := by
  unfold enforceKycSingleLimit
  split
  · trivial
  · exact asks_require _ _

theorem asks_dailyLimit (userId : Uuid) (kycTier : Nat) (amount : Int) (type : TransactionType) :
    Asks P (enforceDailyLimit cfg now userId kycTier amount type) :=
  asks_seq (asks_query _) (fun _ => asks_require _ _)

theorem asks_checkTransfer (user : User) (wallet : Wallet) (recipientWalletId : Uuid) (amount : Int) :
    Asks P (checkTransfer cfg now user wallet recipientWalletId amount) := by
  apply asks_seq (asks_kycSingleLimit _ _ _)
  intro _
  apply asks_seq (asks_dailyLimit _ _ _ _ _ _)
  intro _
  exact asks_seq (asks_query _) (fun _ => asks_require _ _)

theorem asks_checkMerchantPayment (user : User) (amount : Int) :
    Asks P (checkMerchantPayment cfg now user amount) :=
  asks_seq (asks_kycSingleLimit _ _ _) (fun _ => asks_dailyLimit _ _ _ _ _ _)

theorem asks_checkWithdrawal (user : User) (amount : Int) :
    Asks P (checkWithdrawal cfg now user amount) := by
  apply asks_seq (asks_require _ _)
  intro _
  exact asks_seq (asks_kycSingleLimit _ _ _) (fun _ => asks_dailyLimit _ _ _ _ _ _)

theorem asks_resolveTransfer (normalize : String → String) (sender : User) (recipient : Recipient) :
    Asks P (resolveTransfer normalize sender recipient) := by
  apply asks_seq (asks_selectWallet _ _)
  intro _
  apply asks_seq (asks_orRaise _ _)
  intro _
  apply asks_seq
  · cases recipient <;> exact asks_query _
  intro _
  apply asks_seq (asks_orRaise _ _)
  intro _
  apply asks_seq (asks_require _ _)
  intro _
  apply asks_seq (asks_selectWallet _ _)
  intro _
  exact asks_seq (asks_orRaise _ _) (fun _ => trivial)

theorem asks_resolvePayment (payer : User) (merchantId : Uuid) :
    Asks P (resolvePayment payer merchantId) := by
  apply asks_seq (asks_query _)
  intro _
  apply asks_seq (asks_orRaise _ _)
  intro _
  apply asks_seq (asks_require _ _)
  intro _
  apply asks_seq (asks_require _ _)
  intro _
  apply asks_seq (asks_selectWallet _ _)
  intro _
  apply asks_seq (asks_orRaise _ _)
  intro _
  apply asks_seq (asks_selectWallet _ _)
  intro _
  exact asks_seq (asks_orRaise _ _) (fun _ => trivial)

theorem asks_createEntry (e : LedgerEntry) : Asks P (LedgerRepository.createEntry e) :=
  asks_statement (fun _ _ => trivial)

variable (type : TransactionType) (initiator : User) (amount : Int) (key : Option String) (draws : Draws)

theorem asks_writeMovement (sender recipient : Wallet) :
    Asks P (writeMovement type initiator amount key draws sender recipient) := by
  apply asks_seq (asks_createTransaction _)
  intro _
  apply asks_seq
  · exact asks_seq (asks_createEntry _) (fun _ => asks_seq (asks_createEntry _) (fun _ => trivial))
  intro _
  apply asks_seq (asks_updateBalance _ _)
  intro _
  apply asks_seq (asks_updateBalance _ _)
  intro _
  exact asks_seq asks_commit (fun _ => trivial)

theorem asks_recoverMovement (error : AppError) : Asks P (recoverMovement key error) := by
  unfold recoverMovement
  split
  · change Asks P (ite _ _ _)
    split
    · apply asks_seq (asks_selectTransaction _)
      intro existing
      cases existing <;> trivial
    · trivial
  · trivial

theorem asks_moveFunds (sender recipient : Wallet) :
    Asks P (moveFunds type initiator amount key draws sender recipient) := by
  apply asks_seq (asks_selectWallet _ _)
  intro _
  apply asks_seq (asks_selectWallet _ _)
  intro _
  apply asks_seq (asks_orRaise _ _)
  intro _
  apply asks_seq (asks_orRaise _ _)
  intro _
  apply asks_seq (asks_require _ _)
  intro _
  exact asks_handle (asks_writeMovement _ _ _ _ _ _ _) (asks_recoverMovement _)

end Movements

section Openings

theorem asks_getActiveWithdrawal (userId : Uuid) : Asks P (getActiveWithdrawal userId) :=
  asks_selectTransaction _

theorem asks_fundingOf (t : Transaction) (url : Option String) : Asks P (fundingOf t url) :=
  asks_seq (asks_orRaise _ _) (fun _ => trivial)

theorem asks_resolveFunding (user : User) (amount : Int) : Asks P (resolveFunding user amount) := by
  apply asks_seq (asks_selectWallet _ _)
  intro _
  apply asks_seq (asks_orRaise _ _)
  intro _
  apply asks_seq (asks_require _ _)
  intro _
  exact asks_seq (asks_require _ _) (fun _ => trivial)

end Openings

section Settlements

theorem asks_creditFunding (txn : Transaction) (walletId : Uuid) (amount : Int) :
    Asks P (creditFunding txn walletId amount) := by
  apply asks_seq (asks_selectWallet _ _)
  intro wallet
  cases wallet with
  | none => trivial
  | some wallet =>
    apply asks_seq (asks_updateBalance _ _)
    intro _
    apply asks_seq (asks_createEntry _)
    intro _
    apply asks_seq (asks_updateStatus _ _ _)
    intro _
    exact asks_seq asks_commit (fun _ => asks_auditLog _)

theorem asks_processChargeSuccess (data : PaystackData) : Asks P (processChargeSuccess data) := by
  unfold processChargeSuccess
  split
  swap
  · trivial
  apply asks_seq (asks_selectTransaction _)
  intro txn
  cases txn with
  | none => trivial
  | some txn =>
    dsimp only
    split
    swap
    · trivial
    apply asks_seq (asks_updateStatus _ _ _)
    intro txn
    split
    · trivial
    · exact asks_creditFunding _ _ _

theorem asks_onProcessing {reference : String} {settle : Transaction → Uuid → Tx Unit}
    (settles : ∀ txn wallet, Asks P (settle txn wallet)) : Asks P (onProcessing reference settle) := by
  apply asks_seq (asks_selectTransaction _)
  intro txn
  cases txn with
  | none => trivial
  | some txn =>
    dsimp only
    split
    swap
    · trivial
    split
    · trivial
    · exact settles _ _

theorem asks_settlePayout (txn : Transaction) (walletId : Uuid) : Asks P (settlePayout txn walletId) := by
  apply asks_seq (asks_selectWallet _ _)
  intro wallet
  cases wallet with
  | none => trivial
  | some wallet =>
    apply asks_seq (asks_createEntry _)
    intro _
    apply asks_seq (asks_updateStatus _ _ _)
    intro _
    exact asks_seq asks_commit (fun _ => asks_auditLog _)

theorem asks_refundPayout (txn : Transaction) (walletId : Uuid) (code : String) :
    Asks P (refundPayout txn walletId code) := by
  apply asks_seq (asks_selectWallet _ _)
  intro wallet
  cases wallet with
  | none => trivial
  | some wallet =>
    apply asks_seq (asks_updateBalance _ _)
    intro _
    apply asks_seq (asks_updateStatus _ _ _)
    intro _
    exact asks_seq asks_commit (fun _ => asks_auditLog _)

theorem asks_dispatch (eventType : String) (data : PaystackData) : Asks P (dispatch eventType data) := by
  have event : ∀ e, Asks P (processTransferResult e data) := by
    intro e
    unfold processTransferResult
    split
    · cases e with
      | success => exact asks_onProcessing (fun _ _ => asks_settlePayout _ _)
      | failed => exact asks_onProcessing (fun _ _ => asks_refundPayout _ _ _)
      | reversed => exact asks_onProcessing (fun _ _ => asks_refundPayout _ _ _)
    · trivial
  unfold dispatch
  split
  · exact asks_processChargeSuccess data
  split
  · exact event .success
  split
  · exact event .failed
  split
  · exact event .reversed
  · trivial

theorem asks_reconcileFunding {transactionId : Uuid} {reference : String}
    (allowed : P (.verifyTransaction reference)) :
    Asks P (reconcileFunding transactionId reference) := by
  apply asks_handle
  swap
  · intro _
    trivial
  apply asks_seq (asks_paystack allowed)
  intro data
  unfold applyResult
  dsimp only
  split
  · exact asks_seq (asks_processChargeSuccess _) (fun _ => asks_commit)
  · apply asks_seq (asks_selectTransaction _)
    intro txn
    cases txn with
    | none => trivial
    | some txn =>
      dsimp only
      split
      swap
      · trivial
      apply asks_seq (asks_updateStatus _ _ _)
      intro _
      exact asks_seq (asks_updateStatus _ _ _) (fun _ => asks_commit)

end Settlements

section Accounts
variable {user : User}

theorem asks_getCurrentUser (userId : Uuid) : Asks P (getCurrentUser userId) := by
  apply asks_seq (asks_query _)
  intro _
  apply asks_seq (asks_orRaise _ _)
  intro _
  exact asks_seq (asks_require _ _) (fun _ => trivial)

theorem asks_asUser {currentUserId : Uuid} {service : User → Tx α}
    (serves : ∀ user, Asks P (service user)) :
    Asks P (asUser currentUserId service) :=
  asks_seq (asks_getCurrentUser _) (fun user => asks_quietly (serves user))

theorem asks_requireRole (roles : List UserRole) (currentUserId : Uuid) :
    Asks P (requireRole roles currentUserId) := by
  apply asks_seq (asks_getCurrentUser _)
  intro _
  exact asks_seq (asks_require _ _) (fun _ => trivial)

theorem asks_storeRefreshToken (cfg : Settings) (userId : Uuid) (hash : String) (now : Timestamp) :
    Asks P (storeRefreshToken cfg userId hash now) := by
  apply asks_statement
  intro s m
  split <;> trivial

theorem asks_createWallet (id userId : Uuid) (currency : String) :
    Asks P (WalletRepository.create id userId currency) := by
  apply asks_statement
  intro s m
  split
  · trivial
  · split <;> trivial

theorem asks_register (cfg : Settings) (normalize : String → String) (email hashed name : String)
    (phone : Option String)
    (draws : RegistrationDraws) : Asks P (register cfg normalize email hashed name phone draws) := by
  apply asks_seq (asks_query _)
  intro _
  apply asks_seq (asks_require _ _)
  intro _
  apply asks_seq
  · apply asks_seq (asks_orRaise _ _)
    intro _
    apply asks_seq (asks_orRaise _ _)
    intro _
    apply asks_statement
    intro s m
    split
    · trivial
    · split
      · trivial
      · split <;> trivial
  intro _
  apply asks_seq
  · apply asks_seq (asks_selectWallet _ _)
    intro _
    exact asks_seq (asks_require _ _) (fun _ => asks_createWallet _ _ _)
  intro _
  apply asks_seq (asks_storeRefreshToken _ _ _ _)
  intro _
  exact asks_seq asks_commit (fun _ => asks_audited _ _)

theorem asks_login (cfg : Settings) (normalize : String → String) (verifyPassword : String → String → Bool)
    (email password : String) (draws : TokenDraws) :
    Asks P (login cfg normalize verifyPassword email password draws) := by
  apply asks_seq (asks_query _)
  intro _
  apply asks_seq (asks_orRaise _ _)
  intro _
  apply asks_seq (asks_require _ _)
  intro _
  apply asks_seq (asks_require _ _)
  intro _
  apply asks_seq (asks_storeRefreshToken _ _ _ _)
  intro _
  exact asks_seq asks_commit (fun _ => asks_audited _ _)

theorem asks_refresh (cfg : Settings) (tokenHash : String) (draws : TokenDraws) :
    Asks P (refresh cfg tokenHash draws) := by
  apply asks_seq (asks_query _)
  intro _
  apply asks_seq (asks_orRaise _ _)
  intro _
  apply asks_seq (asks_require _ _)
  intro _
  apply asks_seq (asks_query _)
  intro _
  apply asks_seq (asks_orRaise _ _)
  intro _
  apply asks_seq (asks_flushAccount _)
  intro _
  apply asks_seq (asks_storeRefreshToken _ _ _ _)
  intro _
  exact asks_seq asks_commit (fun _ => trivial)

theorem asks_logout (tokenHash : String) : Asks P (logout tokenHash) := by
  apply asks_seq (asks_query _)
  intro token
  split
  · trivial
  · exact asks_seq (asks_flushAccount _) (fun _ => asks_commit)

theorem asks_updateUser (user : User) (fullName phone : Option String) :
    Asks P (UserRepository.updateProfile user fullName phone) := by
  apply asks_seq (asks_require _ _)
  intro _
  apply asks_statement
  intro s m
  dsimp only
  split <;> trivial

theorem asks_updateProfile (userId : Uuid) (fullName phone : Option String) :
    Asks P (updateProfile userId fullName phone) := by
  apply asks_seq (asks_query _)
  intro _
  apply asks_seq (asks_orRaise _ _)
  intro user
  cases phone with
  | none => exact asks_updateUser _ _ _
  | some number =>
    dsimp only
    split
    · exact asks_updateUser _ _ _
    · apply asks_seq (asks_query _)
      intro _
      exact asks_seq (asks_require _ _) (fun _ => asks_updateUser _ _ _)

theorem asks_createMerchant (user : User) (businessName : String) (draws : MerchantDraws) :
    Asks P (createMerchant user businessName draws) := by
  apply asks_seq (asks_query _)
  intro _
  apply asks_seq (asks_require _ _)
  intro _
  apply asks_seq
  · exact asks_seq (asks_insertAccount _ _ _) (fun _ => trivial)
  intro _
  apply asks_seq
  · apply asks_seq (asks_selectWallet _ _)
    intro wallet
    cases wallet with
    | none => exact asks_seq (asks_createWallet _ _ _) (fun _ => trivial)
    | some wallet => trivial
  intro _
  apply asks_seq (asks_flushAccount _)
  intro _
  apply asks_seq asks_commit
  intro _
  apply asks_seq (asks_auditLog _)
  intro _
  exact asks_audited _ _

theorem asks_getMerchantProfile (userId : Uuid) : Asks P (getMerchantProfile userId) :=
  asks_seq (asks_query _) (fun _ => asks_orRaise _ _)

theorem asks_updateMerchant (merchant : Merchant) (set : MerchantUpdate) :
    Asks P (MerchantRepository.update merchant set) :=
  asks_seq (asks_flushAccount _) (fun _ => trivial)

theorem asks_rotateApiKey (userId : Uuid) (rawKey apiKeyHash : String) :
    Asks P (rotateApiKey userId rawKey apiKeyHash) := by
  apply asks_seq (asks_getMerchantProfile _)
  intro _
  apply asks_seq (asks_updateMerchant _ _)
  intro _
  exact asks_seq asks_commit (fun _ => asks_audited _ _)

theorem asks_updateWebhookConfig (userId : Uuid) (webhookUrl newSecret : Option String) :
    Asks P (updateWebhookConfig userId webhookUrl newSecret) := by
  apply asks_seq (asks_getMerchantProfile _)
  intro _
  apply asks_seq (asks_updateMerchant _ _)
  intro _
  exact asks_seq asks_commit (fun _ => trivial)

theorem asks_submitKyc {targetTier : Nat} {fileBytes : List UInt8} {submissionId : Uuid}
    {documentKey : String} (allowed : P (.uploadFile fileBytes documentKey)) :
    Asks P (submitKyc user targetTier fileBytes submissionId documentKey) := by
  apply asks_seq (asks_require _ _)
  intro _
  apply asks_seq (asks_require _ _)
  intro _
  apply asks_seq (asks_require _ _)
  intro _
  apply asks_seq (asks_query _)
  intro existing
  cases existing with
  | some active =>
    dsimp only
    split <;> trivial
  | none =>
    have uploads : Asks P (uploadFile fileBytes documentKey) := ⟨allowed, fun _ => trivial, trivial⟩
    apply asks_seq uploads
    intro _
    apply asks_seq
    · exact asks_seq (asks_insertAccount _ _ _) (fun _ => trivial)
    intro _
    exact asks_seq asks_commit (fun _ => asks_audited _ _)

theorem asks_getSubmission (submissionId : Uuid) : Asks P (getSubmission submissionId) :=
  asks_seq (asks_query _) (fun _ => asks_orRaise _ _)

theorem asks_review (submission : KYCSubmission) (review : Review) :
    Asks P (KYCRepository.review submission review) :=
  asks_seq (asks_flushAccount _) (fun _ => trivial)

theorem asks_approveKyc (submissionId : Uuid) (reviewer : User) (utcNow : Timestamp) :
    Asks P (approveKyc submissionId reviewer utcNow) := by
  apply asks_seq (asks_getSubmission _)
  intro _
  apply asks_seq (asks_require _ _)
  intro _
  apply asks_seq (asks_require _ _)
  intro _
  apply asks_seq (asks_require _ _)
  intro _
  apply asks_seq (asks_review _ _)
  intro _
  apply asks_seq
  · apply asks_seq (asks_query _)
    intro _
    apply asks_seq (asks_orRaise _ _)
    intro _
    exact asks_seq (asks_flushAccount _) (fun _ => trivial)
  intro _
  exact asks_seq asks_commit (fun _ => asks_audited _ _)

theorem asks_rejectKyc (submissionId : Uuid) (reviewer : User) (reason : String) (utcNow : Timestamp) :
    Asks P (rejectKyc submissionId reviewer reason utcNow) := by
  apply asks_seq (asks_getSubmission _)
  intro _
  apply asks_seq (asks_require _ _)
  intro _
  apply asks_seq (asks_require _ _)
  intro _
  apply asks_seq (asks_review _ _)
  intro _
  exact asks_seq asks_commit (fun _ => asks_audited _ _)

theorem asks_addBankAccount {cfg : Settings} {accountName accountNumber bankCode bankName : String}
    {accountId : Uuid} (allowed : P (.resolveAccount accountNumber bankCode)) :
    Asks P (addBankAccount cfg user accountName accountNumber bankCode bankName accountId) := by
  apply asks_seq
  · unfold verifyAccount
    split
    · trivial
    · apply asks_handle
      · exact asks_seq (asks_paystack allowed) (fun _ => trivial)
      · intro _
        trivial
  intro _
  apply asks_seq (asks_query _)
  intro _
  apply asks_seq
  · exact asks_seq (asks_insertAccount _ _ _) (fun _ => trivial)
  intro _
  exact asks_seq asks_commit (fun _ => trivial)

theorem asks_softDelete (account : BankAccount) (now : Timestamp) :
    Asks P (BankAccountRepository.softDelete account now) := by
  unfold BankAccountRepository.softDelete
  split
  · apply asks_seq (asks_flushAccount _)
    intro _
    apply asks_seq (asks_query _)
    intro remaining
    cases remaining with
    | nil => trivial
    | cons oldest rest => exact asks_flushAccount _
  · exact asks_flushAccount _

theorem asks_removeBankAccount (user : User) (bankAccountId : Uuid) (now : Timestamp) :
    Asks P (removeBankAccount user bankAccountId now) := by
  apply asks_seq (asks_query _)
  intro _
  apply asks_seq (asks_orRaise _ _)
  intro _
  apply asks_seq (asks_getActiveWithdrawal _)
  intro _
  apply asks_seq (asks_require _ _)
  intro _
  exact asks_seq (asks_softDelete _ _) (fun _ => asks_commit)

end Accounts

end PayCoreAskedCalls
