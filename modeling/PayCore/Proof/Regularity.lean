import PayCore.Proof.Commits
import PayCore.Service.Jobs

/- What each job may write at all, whatever its session has read: a transaction of its own
   kind, a status that is not PENDING, a balance that is not negative. -/
namespace PayCoreRegularity
open SessionProgram RelyGuarantee PayCoreTables PayCoreWrites PayCoreSessions PayCoreRepositories
open PayCoreSupport PayCorePayments PayCoreWithdrawals PayCoreFunding PayCoreRegistration
open PayCorePersistence PayCoreCommits PayCoreJobs

def moves (type : TransactionType) (user : Uuid) (amount : Int) : Write → Prop
  | .insertTransaction t =>
      t.type = type ∧ t.initiatedByUserId = user ∧ t.amount = amount ∧ t.status = .completed
  | .setBalance _ b => 0 ≤ b
  | .insertEntry _ => True
  | .insertDelivery _ => True
  | .insertAuditLog _ => True
  | _ => False

def opens (type : TransactionType) (user : Uuid) (amount : Int) : Write → Prop
  | .insertTransaction t =>
      t.type = type ∧ t.initiatedByUserId = user ∧ t.amount = amount ∧ t.status = .pending
  | .setBalance _ b => 0 ≤ b
  | .insertAuditLog _ => True
  | _ => False

def settles : Write → Prop
  | .updateTransaction _ set => set.status ≠ some .pending ∧ set.status ≠ some .reversed
  | .setBalance _ b => 0 ≤ b
  | .insertEntry _ => True
  | .setRecipientCode _ _ => True
  | .insertAuditLog _ => True
  | _ => False

/-- The writes that a charge, a payout event or a sweep needs. -/
structure Settling (P : Write → Prop) : Prop where
  marks : ∀ id set, set.status ≠ some .pending ∧ set.status ≠ some .reversed →
    P (.updateTransaction id set)
  balances : ∀ id b, 0 ≤ b → P (.setBalance id b)
  entries : ∀ e, P (.insertEntry e)
  audits : ∀ l, P (.insertAuditLog l)

theorem settling_settles : Settling settles where
  marks _ _ marked := marked
  balances _ _ covered := covered
  entries _ := trivial
  audits _ := trivial

def registers : Write → Prop
  | .insertUser _ => True
  | .insertWallet w => w.balance = 0 ∧ w.deletedAt = none
  | .insertRefreshToken _ => True
  | .insertAuditLog _ => True
  | _ => False

def Job.issues : Job → Write → Prop
  | .register .. => registers
  | .initiateFunding user amount .. => opens .funding user.id amount
  | .initiateTransfer _ sender _ _ amount .. => moves .transfer sender.id amount
  | .initiatePayment payer _ _ amount .. => moves .merchantPayment payer.id amount
  | .initiateWithdrawal _ user _ amount .. => opens .withdrawal user.id amount
  | _ => settles

variable {α : Type} {P : Write → Prop}

theorem emits_silent {rows : List Row} {memo : Database → IdentityMap → IdentityMap}
    {next : Database → IdentityMap → Tx α} {x : AppError} (onward : ∀ s m, Emits P (next s m)) :
    Emits P (.stmt rows (fun _ _ => []) memo next (.raise x) : Tx α) := by
  constructor
  · intro s m
    exact ⟨by simp, onward s m⟩
  · trivial

theorem emits_query (f : Database → α) : Emits P (query f) :=
  emits_silent (fun _ _ => trivial)

theorem emits_require (condition : Bool) (error : AppError) : Emits P (require condition error) := by
  unfold require
  split <;> trivial

theorem emits_orRaise (value : Option α) (error : AppError) : Emits P (orRaise value error) := by
  cases value <;> trivial

theorem emits_commit : Emits P commit := ⟨trivial, trivial⟩

theorem emits_paystack (request : Request) : Emits P (paystack request) :=
  ⟨fun _ => trivial, trivial⟩

theorem emits_enqueue (task : Task) : Emits P (enqueue task) := ⟨fun _ => trivial, trivial⟩

theorem emits_selectWallet (rows : List Row) (pick : Database → Option Wallet) :
    Emits P (WalletRepository.select rows pick) :=
  emits_silent (fun _ _ => trivial)

theorem emits_selectTransaction (pick : Database → Except AppError (Option Transaction)) :
    Emits P (TransactionRepository.select pick) := by
  apply emits_silent
  intro s m
  cases pick s <;> trivial

theorem emits_writing {rows : List Row} {writes : Database → IdentityMap → List Write}
    {memo : Database → IdentityMap → IdentityMap} {next : Database → IdentityMap → Tx α} {x : AppError}
    (allowed : ∀ s m, ∀ w ∈ writes s m, P w) (onward : ∀ s m, Emits P (next s m)) :
    Emits P (.stmt rows writes memo next (.raise x) : Tx α) :=
  ⟨fun s m => ⟨allowed s m, onward s m⟩, trivial⟩

theorem emits_updateBalance (allowed : ∀ id b, 0 ≤ b → P (.setBalance id b)) (wallet : Wallet)
    (newBalance : Int) : Emits P (WalletRepository.updateBalance wallet newBalance) := by
  apply emits_writing
  · intro s m w mem
    split at mem
    · rename_i fits
      rw [List.mem_singleton.mp mem]
      exact allowed _ _ fits.1
    · cases mem
  · intro s m
    split
    · trivial
    · split <;> trivial

theorem emits_createWalletRow (allowed : ∀ w, w.balance = 0 → w.deletedAt = none → P (.insertWallet w))
    (id userId : Uuid) (currency : String) : Emits P (WalletRepository.create id userId currency) := by
  apply emits_writing
  · intro s m w mem
    split at mem
    · rw [List.mem_singleton.mp mem]
      exact allowed _ rfl rfl
    · cases mem
  · intro s m
    split
    · trivial
    · split <;> trivial

theorem emits_createTransaction {t : Transaction} (allowed : P (.insertTransaction t)) :
    Emits P (TransactionRepository.create t) := by
  unfold TransactionRepository.create
  split
  swap
  · trivial
  apply emits_writing
  · intro s m w mem
    split at mem
    · rw [List.mem_singleton.mp mem]
      exact allowed
    · cases mem
  · intro s m
    split <;> trivial

theorem emits_createEntry (allowed : ∀ e, P (.insertEntry e)) (e : LedgerEntry) :
    Emits P (LedgerRepository.createEntry e) := by
  apply emits_writing
  · intro s m w mem
    rw [List.mem_singleton.mp mem]
    exact allowed e
  · intro s m
    trivial

theorem emits_flush (txn : Transaction) {set : TransactionUpdate}
    (allowed : P (.updateTransaction txn.id set)) : Emits P (TransactionRepository.flush txn set) := by
  apply emits_writing
  · intro s m w mem
    rw [List.mem_singleton.mp mem]
    exact allowed
  · intro s m
    trivial

theorem emits_updateStatus {newStatus : TransactionStatus}
    (allowed : ∀ id reason, P (.updateTransaction id { status := some newStatus, failureReason := reason }))
    (txn : Transaction) (reason : Option String) :
    Emits P (TransactionRepository.updateStatus txn newStatus reason) := by
  unfold TransactionRepository.updateStatus
  split
  · exact emits_flush txn (allowed txn.id reason)
  · trivial

theorem emits_auditLog (allowed : ∀ l, P (.insertAuditLog l)) (entry : AuditLog) :
    Emits P (auditLog entry) := by
  apply emits_handle
  · apply emits_seq
    · apply emits_writing
      · intro s m w mem
        rw [List.mem_singleton.mp mem]
        exact allowed entry
      · intro s m
        trivial
    · exact fun _ => emits_commit
  · exact fun _ => trivial

theorem emits_audited (allowed : ∀ l, P (.insertAuditLog l)) (entry : AuditLog) (a : α) :
    Emits P (auditLog entry >>= fun _ => (.ret a : Tx α)) :=
  emits_seq (emits_auditLog allowed entry) (fun _ => trivial)

theorem emits_lookupKey (key : Option String) : Emits P (lookupKey key) := by
  unfold lookupKey
  split
  · exact emits_selectTransaction _
  · trivial

section Checks
variable (cfg : Settings) (now : Timestamp)

theorem emits_limits (userId : Uuid) (kycTier : Nat) (amount : Int) (type : TransactionType) :
    Emits P (enforceKycSingleLimit cfg kycTier amount) ∧
      Emits P (enforceDailyLimit cfg now userId kycTier amount type) := by
  constructor
  · unfold enforceKycSingleLimit
    split
    · trivial
    · exact emits_require _ _
  · exact emits_seq (emits_query _) (fun _ => emits_require _ _)

theorem emits_checkTransfer (user : User) (wallet : Wallet) (recipient : Uuid) (amount : Int) :
    Emits P (checkTransfer cfg now user wallet recipient amount) := by
  obtain ⟨single, daily⟩ := emits_limits cfg now user.id user.kycTier amount .transfer
  apply emits_seq single
  intro _
  apply emits_seq daily
  intro _
  exact emits_seq (emits_query _) (fun _ => emits_require _ _)

theorem emits_checkMerchantPayment (user : User) (amount : Int) :
    Emits P (checkMerchantPayment cfg now user amount) := by
  obtain ⟨single, daily⟩ := emits_limits cfg now user.id user.kycTier amount .merchantPayment
  exact emits_seq single (fun _ => daily)

theorem emits_checkWithdrawal (user : User) (amount : Int) :
    Emits P (checkWithdrawal cfg now user amount) := by
  obtain ⟨single, daily⟩ := emits_limits cfg now user.id user.kycTier amount .withdrawal
  exact emits_seq (emits_require _ _) (fun _ => emits_seq single (fun _ => daily))

end Checks

section Movements

theorem emits_moveFunds (type : TransactionType) (initiator : User) (amount : Int) (key : Option String)
    (draws : Draws) (sender recipient : Wallet) :
    Emits (moves type initiator.id amount)
    (moveFunds type initiator amount key draws sender recipient) := by
  unfold moveFunds
  apply emits_seq (emits_selectWallet _ _)
  intro _
  apply emits_seq (emits_selectWallet _ _)
  intro _
  apply emits_seq (emits_orRaise _ _)
  intro _
  apply emits_seq (emits_orRaise _ _)
  intro _
  apply emits_seq (emits_require _ _)
  intro _
  apply emits_handle
  · unfold writeMovement postDoubleEntry
    apply emits_seq (emits_createTransaction ⟨rfl, rfl, rfl, rfl⟩)
    intro _
    apply emits_seq
    · apply emits_seq (emits_createEntry (fun _ => trivial) _)
      intro _
      exact emits_seq (emits_createEntry (fun _ => trivial) _) (fun _ => trivial)
    intro _
    apply emits_seq (emits_updateBalance (fun _ _ h => h) _ _)
    intro _
    apply emits_seq (emits_updateBalance (fun _ _ h => h) _ _)
    intro _
    exact emits_seq emits_commit (fun _ => trivial)
  · intro error
    cases error with
    | integrity c =>
      have undone : Emits (moves type initiator.id amount) rollback := trivial
      apply emits_seq undone
      intro _
      split
      · apply emits_seq (emits_selectTransaction _)
        intro found
        cases found <;> trivial
      · trivial
    | _ => trivial

theorem emits_initiateTransfer (normalize : String → String) (sender : User) (cfg : Settings)
    (recipient : Recipient) (amount : Int) (key : Option String) (draws : Draws) :
    Emits (moves .transfer sender.id amount)
    (initiateTransfer normalize sender cfg recipient amount key draws) := by
  unfold initiateTransfer resolveTransfer
  apply emits_seq
  · apply emits_seq (emits_selectWallet _ _)
    intro _
    apply emits_seq (emits_orRaise _ _)
    intro _
    apply emits_seq
    · cases recipient <;> exact emits_query _
    intro _
    apply emits_seq (emits_orRaise _ _)
    intro _
    apply emits_seq (emits_require _ _)
    intro _
    apply emits_seq (emits_selectWallet _ _)
    intro _
    exact emits_seq (emits_orRaise _ _) (fun _ => trivial)
  rintro ⟨senderWallet, recipientWallet⟩
  apply emits_seq (emits_lookupKey _)
  intro existing
  cases existing with
  | some txn => trivial
  | none =>
    apply emits_seq (emits_checkTransfer _ _ _ _ _ _)
    intro _
    apply emits_seq (emits_moveFunds _ _ _ _ _ _ _)
    intro moved
    cases moved with
    | existing txn => trivial
    | committed txn =>
      apply emits_seq
      · apply emits_seq (emits_query _)
        intro _
        split
        · exact emits_enqueue _
        · trivial
      · exact fun _ => emits_audited (fun _ => trivial) _ _

theorem emits_initiatePayment (payer : User) (cfg : Settings) (merchantId : Uuid) (amount : Int)
    (key : Option String) (draws : Draws) :
    Emits (moves .merchantPayment payer.id amount)
    (initiatePayment payer cfg merchantId amount key draws) := by
  unfold initiatePayment resolvePayment
  apply emits_seq
  · apply emits_seq (emits_query _)
    intro _
    apply emits_seq (emits_orRaise _ _)
    intro _
    apply emits_seq (emits_require _ _)
    intro _
    apply emits_seq (emits_require _ _)
    intro _
    apply emits_seq (emits_selectWallet _ _)
    intro _
    apply emits_seq (emits_orRaise _ _)
    intro _
    apply emits_seq (emits_selectWallet _ _)
    intro _
    exact emits_seq (emits_orRaise _ _) (fun _ => trivial)
  rintro ⟨merchant, payerWallet, merchantWallet⟩
  apply emits_seq (emits_lookupKey _)
  intro existing
  cases existing with
  | some txn => trivial
  | none =>
    apply emits_seq (emits_checkMerchantPayment _ _ _ _)
    intro _
    apply emits_seq (emits_moveFunds _ _ _ _ _ _ _)
    intro moved
    cases moved with
    | existing txn => trivial
    | committed txn =>
      apply emits_seq
      · unfold maybeFlagMerchantPayment
        split
        · exact emits_enqueue _
        · trivial
      intro _
      apply emits_seq
      · apply emits_handle
        · unfold createAndEnqueue
          split
          · apply emits_seq
            · apply emits_writing
              · intro s m w mem
                rw [List.mem_singleton.mp mem]
                trivial
              · exact fun _ _ => trivial
            intro _
            apply emits_seq emits_commit
            intro _
            exact emits_handle (emits_enqueue _) (fun _ => trivial)
          · trivial
        · exact fun _ => trivial
      · exact fun _ => emits_audited (fun _ => trivial) _ _

theorem emits_initiateWithdrawal {user : User} {amount : Int}
    (holds : ∀ t : Transaction, t.type = .withdrawal → t.initiatedByUserId = user.id → t.amount = amount →
      t.status = .pending → t.destinationWalletId = none → P (.insertTransaction t))
    (balances : ∀ id b, 0 ≤ b → P (.setBalance id b)) (audits : ∀ l, P (.insertAuditLog l))
    (cfg : Settings) (bankAccountId : Uuid) (draws : WithdrawalDraws) :
    Emits P (initiateWithdrawal cfg user bankAccountId amount draws) := by
  unfold initiateWithdrawal
  apply emits_seq (emits_selectWallet _ _)
  intro _
  apply emits_seq (emits_orRaise _ _)
  intro _
  apply emits_seq (emits_checkWithdrawal _ _ _ _)
  intro _
  apply emits_seq (emits_selectTransaction _)
  intro _
  apply emits_seq (emits_require _ _)
  intro _
  apply emits_seq (emits_query _)
  intro _
  apply emits_seq (emits_orRaise _ _)
  intro _
  apply emits_seq (emits_selectWallet _ _)
  intro _
  apply emits_seq (emits_orRaise _ _)
  intro _
  apply emits_seq (emits_require _ _)
  intro _
  apply emits_seq (emits_createTransaction (holds _ rfl rfl rfl rfl rfl))
  intro _
  apply emits_seq (emits_updateBalance balances _ _)
  intro _
  apply emits_seq emits_commit
  intro _
  apply emits_seq
  · exact emits_handle (emits_enqueue _) (fun _ => trivial)
  · exact fun _ => emits_audited audits _ _

end Movements

section Fundings

theorem emits_initiateFunding {user : User} {amount : Int}
    (opened : ∀ t : Transaction, t.type = .funding → t.initiatedByUserId = user.id → t.amount = amount →
      t.status = .pending → t.sourceWalletId = none → P (.insertTransaction t))
    (key : Option String) (draws : WithdrawalDraws) : Emits P (initiateFunding user amount key draws) := by
  have responds : ∀ t url, Emits P (fundingOf t url) :=
    fun t url => emits_seq (emits_orRaise _ _) (fun _ => trivial)
  unfold initiateFunding resolveFunding
  apply emits_seq
  · apply emits_seq (emits_selectWallet _ _)
    intro _
    apply emits_seq (emits_orRaise _ _)
    intro _
    apply emits_seq (emits_require _ _)
    intro _
    exact emits_seq (emits_require _ _) (fun _ => trivial)
  intro wallet
  apply emits_seq (emits_lookupKey _)
  intro existing
  cases existing with
  | some txn => exact responds _ _
  | none =>
    apply emits_seq (emits_paystack _)
    intro _
    apply emits_seq (emits_createTransaction (opened _ rfl rfl rfl rfl rfl))
    intro _
    exact emits_seq emits_commit (fun _ => responds _ _)

theorem emits_processChargeSuccess (settling : Settling P) (data : PaystackData) :
    Emits P (processChargeSuccess data) := by
  unfold processChargeSuccess
  split
  swap
  · trivial
  apply emits_seq (emits_selectTransaction _)
  intro found
  cases found with
  | none => trivial
  | some txn =>
    dsimp only
    split
    swap
    · trivial
    apply emits_seq (emits_updateStatus (fun _ _ => settling.marks _ _ ⟨by simp, by simp⟩) _ _)
    intro txn
    cases txn.destinationWalletId with
    | none => trivial
    | some walletId =>
      apply emits_seq (emits_selectWallet _ _)
      intro wallet
      cases wallet with
      | none => trivial
      | some wallet =>
        apply emits_seq (emits_updateBalance settling.balances _ _)
        intro _
        apply emits_seq (emits_createEntry settling.entries _)
        intro _
        apply emits_seq (emits_updateStatus (fun _ _ => settling.marks _ _ ⟨by simp, by simp⟩) _ _)
        intro _
        exact emits_seq emits_commit (fun _ => emits_auditLog settling.audits _)

theorem emits_reconcileFunding (settling : Settling P) (transactionId : Uuid) (providerReference : String) :
    Emits P (reconcileFunding transactionId providerReference) := by
  unfold reconcileFunding
  apply emits_handle
  · apply emits_seq (emits_paystack _)
    intro data
    unfold applyResult
    dsimp only
    split
    · exact emits_seq (emits_processChargeSuccess settling data) (fun _ => emits_commit)
    · apply emits_seq (emits_selectTransaction _)
      intro found
      cases found with
      | none => trivial
      | some txn =>
        dsimp only
        split
        · apply emits_seq (emits_updateStatus (fun _ _ => settling.marks _ _ ⟨by simp, by simp⟩) _ _)
          intro _
          apply emits_seq (emits_updateStatus (fun _ _ => settling.marks _ _ ⟨by simp, by simp⟩) _ _)
          exact fun _ => emits_commit
        · trivial
  · exact fun _ => trivial

end Fundings

section Payouts

theorem emits_onProcessing (reference : String) {settle : Transaction → Uuid → Tx Unit}
    (tail : ∀ txn walletId, Emits P (settle txn walletId)) : Emits P (onProcessing reference settle) := by
  unfold onProcessing
  apply emits_seq (emits_selectTransaction _)
  intro found
  cases found with
  | none => trivial
  | some txn =>
    dsimp only
    split
    · cases txn.sourceWalletId with
      | none => trivial
      | some walletId => exact tail txn walletId
    · trivial

theorem emits_processPayoutSuccess (entries : ∀ e, P (.insertEntry e)) (audits : ∀ l, P (.insertAuditLog l))
    (marks : ∀ id reason, P (.updateTransaction id { status := some .completed, failureReason := reason }))
    (reference : String) : Emits P (processPayoutSuccess reference) := by
  apply emits_onProcessing
  intro txn walletId
  apply emits_seq (emits_selectWallet _ _)
  intro wallet
  cases wallet with
  | none => trivial
  | some wallet =>
    apply emits_seq (emits_createEntry entries _)
    intro _
    apply emits_seq (emits_updateStatus marks _ _)
    intro _
    exact emits_seq emits_commit (fun _ => emits_auditLog audits _)

theorem emits_processPayoutFailure (balances : ∀ id b, 0 ≤ b → P (.setBalance id b))
    (audits : ∀ l, P (.insertAuditLog l))
    (marks : ∀ id reason, P (.updateTransaction id { status := some .failed, failureReason := reason }))
    (reference transferCode : String) : Emits P (processPayoutFailure reference transferCode) := by
  apply emits_onProcessing
  intro txn walletId
  apply emits_seq (emits_selectWallet _ _)
  intro wallet
  cases wallet with
  | none => trivial
  | some wallet =>
    apply emits_seq (emits_updateBalance balances _ _)
    intro _
    apply emits_seq (emits_updateStatus marks _ _)
    intro _
    exact emits_seq emits_commit (fun _ => emits_auditLog audits _)

theorem emits_dispatch (settling : Settling P) (eventType : String) (data : PaystackData) :
    Emits P (dispatch eventType data) := by
  have event : ∀ e, Emits P (processTransferResult e data) := by
    intro e
    unfold processTransferResult
    split
    · cases e with
      | success =>
        exact emits_processPayoutSuccess settling.entries settling.audits
          (fun _ _ => settling.marks _ _ ⟨by simp, by simp⟩) _
      | failed =>
        exact emits_processPayoutFailure settling.balances settling.audits
          (fun _ _ => settling.marks _ _ ⟨by simp, by simp⟩) _ _
      | reversed =>
        exact emits_processPayoutFailure settling.balances settling.audits
          (fun _ _ => settling.marks _ _ ⟨by simp, by simp⟩) _ _
    · trivial
  unfold dispatch
  split
  · exact emits_processChargeSuccess settling data
  split
  · exact event .success
  split
  · exact event .failed
  split
  · exact event .reversed
  · trivial

theorem emits_dispatchPayout (txn : Transaction) (recipientCode : String) :
    Emits settles (dispatchPayout txn recipientCode) := by
  have sends : ∀ t : Transaction, Emits settles (do
      let transfer ← paystack (.initiateTransfer t.amount recipientCode t.reference
        ("PayCore withdrawal " ++ t.reference))
      let transferCode := transfer.transferCode.get ""
      if transferCode = t.providerReference then commit
      else do
        let _ ← TransactionRepository.flush t { providerReference := some transferCode }
        commit) := by
    intro t
    apply emits_seq (emits_paystack _)
    intro transfer
    dsimp only
    split
    · exact emits_commit
    · exact emits_seq (emits_flush _ (by simp [settles])) (fun _ => emits_commit)
  unfold dispatchPayout
  dsimp only
  split
  · exact emits_seq (emits_updateStatus (fun _ _ => ⟨by simp, by simp⟩) _ _) sends
  · exact sends txn

theorem emits_executePayout (transactionId : Uuid) : Emits settles (executePayout transactionId) := by
  unfold executePayout
  apply emits_seq (emits_selectTransaction _)
  intro found
  cases found with
  | none => trivial
  | some txn =>
    dsimp only
    split
    · trivial
    split
    · trivial
    cases txn.extraData.bind (·.bankAccountId) with
    | none => trivial
    | some bankAccountId =>
      apply emits_seq (emits_query _)
      intro found
      cases found with
      | none => trivial
      | some account =>
        apply emits_seq
        · unfold recipientCodeOf
          split
          · trivial
          apply emits_seq (emits_paystack _)
          intro _
          apply emits_seq (emits_require _ _)
          intro _
          apply emits_seq
          · apply emits_writing
            · intro s m w mem
              rw [List.mem_singleton.mp mem]
              trivial
            · intro s m
              trivial
          · exact fun _ => trivial
        · exact fun _ => emits_dispatchPayout txn _

end Payouts

theorem emits_createUser (users : ∀ u, u.kycTier = 0 → u.role = .user → P (.insertUser u))
    (normalize : String → String) (id : Uuid) (email hashed name : String) (phone : Option String) :
    Emits P (UserRepository.create normalize id email hashed name phone) := by
  unfold UserRepository.create
  apply emits_seq (emits_orRaise _ _)
  intro _
  apply emits_seq (emits_orRaise _ _)
  intro _
  apply emits_writing
  · intro s m w mem
    split at mem
    · rw [List.mem_singleton.mp mem]
      exact users _ rfl rfl
    · cases mem
  · intro s m
    split
    · trivial
    · split
      · trivial
      · split <;> trivial

theorem emits_register (users : ∀ u, u.kycTier = 0 → u.role = .user → P (.insertUser u))
    (wallets : ∀ w, w.balance = 0 → w.deletedAt = none → P (.insertWallet w))
    (tokens : ∀ t, P (.insertRefreshToken t))
    (audits : ∀ l, P (.insertAuditLog l)) (cfg : Settings) (normalize : String → String)
    (email hashed name : String) (phone : Option String) (draws : RegistrationDraws) :
    Emits P (register cfg normalize email hashed name phone draws) := by
  unfold register createWallet
  apply emits_seq (emits_query _)
  intro _
  apply emits_seq (emits_require _ _)
  intro _
  apply emits_seq (emits_createUser users _ _ _ _ _ _)
  intro _
  apply emits_seq
  · apply emits_seq (emits_selectWallet _ _)
    intro _
    exact emits_seq (emits_require _ _) (fun _ => emits_createWalletRow wallets _ _ _)
  intro _
  apply emits_seq
  · apply emits_writing
    · intro s m w mem
      split at mem
      · rw [List.mem_singleton.mp mem]
        exact tokens _
      · cases mem
    · intro s m
      split <;> trivial
  intro _
  exact emits_seq emits_commit (fun _ => emits_audited audits _ _)

theorem emits_job (job : Job) : Emits (Job.issues job) job.program := by
  have quiet : ∀ {α : Type} {P : Write → Prop} {p : Tx α}, Emits P p → Emits P (quietly p) :=
    fun h => emits_seq h (fun _ => trivial)
  cases job with
  | register =>
    exact quiet (emits_register (fun _ _ _ => trivial) (fun _ empty live => ⟨empty, live⟩)
      (fun _ => trivial) (fun _ => trivial) _ _ _ _ _ _ _)
  | initiateFunding =>
    exact quiet (emits_initiateFunding (fun _ kind owner sum open' _ => ⟨kind, owner, sum, open'⟩) _ _)
  | initiateTransfer => exact quiet (emits_initiateTransfer _ _ _ _ _ _ _)
  | initiatePayment => exact quiet (emits_initiatePayment _ _ _ _ _ _)
  | initiateWithdrawal =>
    exact quiet (emits_initiateWithdrawal (fun _ kind owner sum open' _ => ⟨kind, owner, sum, open'⟩)
      (fun _ _ h => h) (fun _ => trivial) _ _ _)
  | processChargeSuccess => exact emits_processChargeSuccess settling_settles _
  | reconcileFunding => exact emits_reconcileFunding settling_settles _ _
  | executePayout => exact emits_executePayout _
  | processPayoutSuccess =>
    exact emits_processPayoutSuccess (fun _ => trivial) (fun _ => trivial)
      (fun _ _ => ⟨by simp, by simp⟩) _
  | processPayoutFailure =>
    exact emits_processPayoutFailure (fun _ _ h => h) (fun _ => trivial)
      (fun _ _ => ⟨by simp, by simp⟩) _ _

theorem issues_regular {job : Job} {w : Write} (h : Job.issues job w) : Regular w := by
  have moved : ∀ {type user amount}, moves type user amount w → Regular w := by
    intro type user amount h
    cases w <;> first | exact h | trivial
  have opened : ∀ {type user amount}, opens type user amount w → Regular w := by
    intro type user amount h
    cases w <;> first | exact h | trivial
  have settled : settles w → Regular w := by
    intro h
    cases w <;> first | exact h | exact h.1 | trivial
  cases job with
  | register =>
    cases w with
    | insertWallet w => exact Int.le_of_eq h.1.symm
    | _ => first | exact h.elim | trivial
  | initiateFunding => exact opened h
  | initiateTransfer => exact moved h
  | initiatePayment => exact moved h
  | initiateWithdrawal => exact opened h
  | _ => exact settled h

theorem regular_job (job : Job) : Emits Regular job.program :=
  emits_mono (fun _ => issues_regular) (emits_job job)

/-- All that is known of a commit when nothing is asked of the sessions. -/
def RegularCommit (ws : List Write) (_ : Database) : Prop := ∀ w ∈ ws, Regular w

theorem regular_env : Interference (Rely RegularCommit) := interference_rely fun _ _ h => h

end PayCoreRegularity
