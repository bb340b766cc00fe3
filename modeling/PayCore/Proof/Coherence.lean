import PayCore.Library.SerialRuns
import PayCore.Proof.Openings

/- A session that runs alone never holds a stale object: what its identity map keeps
   is what the rows say, after every statement of every program. -/
namespace PayCoreCoherence
open KeyedTable SessionProgram SessionSystem RelyGuarantee SerialRuns PayCoreTables PayCoreWrites
open PayCoreSessions PayCoreRepositories PayCoreSupport PayCorePayments PayCoreWithdrawals
open PayCoreFunding PayCoreRegistration PayCorePersistence PayCoreStatements PayCoreRequests

variable {α β : Type}

structure Coherent (db : Database) (m : IdentityMap) : Prop where
  wallets : ∀ id w row, m.wallets id = some w → db.wallets.find? id = some row → w = row
  transactions : ∀ id t row, m.transactions id = some t → db.transactions.find? id = some row → t = row

theorem coherent_blank (db : Database) : Coherent db default where
  wallets id w row held := by simp at held
  transactions id t row held := by simp at held

theorem coherent_freshWallets {db : Database} {m : IdentityMap} (h : Coherent db m) (rows : List Row)
    (adds : List Write) : FreshWallets db m rows adds := by
  intro id row wallet _ found held
  rw [h.wallets id wallet row held found]

theorem coherent_freshTransactions {db : Database} {m : IdentityMap} (h : Coherent db m)
    (rows : List Row) (adds : List Write) : FreshTransactions db m rows adds := by
  intro id set row txn _ _ found held
  rw [h.transactions id txn row held found]

theorem keepWallet_at (m : IdentityMap) (w : Wallet) (id : Uuid) :
    (m.keepWallet w).wallets id = if id = w.id then some w else m.wallets id := by
  simp [IdentityMap.keepWallet, Function.update_apply]

theorem keepTransaction_at (m : IdentityMap) (t : Transaction) (id : Uuid) :
    (m.keepTransaction t).transactions id = if id = t.id then some t else m.transactions id := by
  simp [IdentityMap.keepTransaction, Function.update_apply]

/-- Holding on to an object is fine where it agrees with its row. -/
theorem coherent_keepWallet {db t : Database} {m : IdentityMap} {w : Wallet} (h : Coherent db m)
    (transactions : t.transactions = db.transactions)
    (others : ∀ id, id ≠ w.id → t.wallets.find? id = db.wallets.find? id)
    (agrees : ∀ row, t.wallets.find? w.id = some row → w = row) : Coherent t (m.keepWallet w) where
  wallets id v row held found := by
    rw [keepWallet_at] at held
    split at held
    · rename_i same
      cases held
      rw [same] at found
      exact agrees row found
    · rename_i other
      rw [others id other] at found
      exact h.wallets id v row held found
  transactions id v row held found := by
    rw [transactions] at found
    exact h.transactions id v row held found

theorem coherent_keepTransaction {db t : Database} {m : IdentityMap} {a : Transaction}
    (h : Coherent db m) (wallets : t.wallets = db.wallets)
    (others : ∀ id, id ≠ a.id → t.transactions.find? id = db.transactions.find? id)
    (agrees : ∀ row, t.transactions.find? a.id = some row → a = row) :
    Coherent t (m.keepTransaction a) where
  wallets id v row held found := by
    rw [wallets] at found
    exact h.wallets id v row held found
  transactions id v row held found := by
    rw [keepTransaction_at] at held
    split at held
    · rename_i same
      cases held
      rw [same] at found
      exact agrees row found
    · rename_i other
      rw [others id other] at found
      exact h.transactions id v row held found

theorem coherent_elsewhere {db t : Database} {m : IdentityMap} (h : Coherent db m)
    (wallets : t.wallets = db.wallets) (transactions : t.transactions = db.transactions) :
    Coherent t m where
  wallets id w row held found := h.wallets id w row held (by rw [← wallets]; exact found)
  transactions id a row held found :=
    h.transactions id a row held (by rw [← transactions]; exact found)

theorem keeps_seq {p : Tx α} {f : α → Tx β} (first : Keeps Coherent p)
    (rest : ∀ a, Keeps Coherent (f a)) : Keeps Coherent (p >>= f) :=
  keeps_bind first rest

theorem keeps_ret (a : α) : Keeps Coherent (.ret a : Tx α) := trivial

theorem keeps_looks {p : Tx α} (looks : Looks p) : Keeps Coherent p := by
  induction p with
  | ret a => trivial
  | raise x => trivial
  | stmt rows writes memo next fault ihn ihf =>
    intro s m h
    obtain ⟨no_writes, no_memo, onward⟩ := looks.1 s m
    rw [no_writes, no_memo]
    exact ⟨h, ihn s m onward⟩
  | call request next fault _ _ => exact looks.elim
  | commit next fault _ _ => exact looks.elim
  | rollback next _ => exact looks.elim

theorem keeps_require (condition : Bool) (error : AppError) : Keeps Coherent (require condition error) := by
  unfold require
  split <;> trivial

theorem keeps_orRaise (value : Option α) (error : AppError) : Keeps Coherent (orRaise value error) := by
  cases value <;> trivial

theorem keeps_query (f : Database → α) : Keeps Coherent (query f) := fun _ _ h => ⟨h, trivial⟩

theorem keeps_commit : Keeps Coherent commit := trivial

theorem keeps_paystack (request : Request) : Keeps Coherent (paystack request) :=
  ⟨fun _ => trivial, trivial⟩

theorem keeps_enqueue (task : Task) : Keeps Coherent (enqueue task) := ⟨fun _ => trivial, trivial⟩

theorem keeps_aside {rows : List Row} {writes : Database → IdentityMap → List Write}
    {next : Database → IdentityMap → Tx α} {fault : Tx α}
    (aside : ∀ s m, (applyAll (writes s m) s).wallets = s.wallets ∧
      (applyAll (writes s m) s).transactions = s.transactions)
    (onward : ∀ s m, Keeps Coherent (next s m)) :
    Keeps Coherent (.stmt rows writes (fun _ m => m) next fault) :=
  fun s m h => ⟨coherent_elsewhere h (aside s m).1 (aside s m).2, onward s m⟩

section Repositories

theorem keeps_selectWallet {rows : List Row} {pick : Database → Option Wallet}
    (keyed : ∀ db row, pick db = some row → db.wallets.find? row.id = some row) :
    Keeps Coherent (WalletRepository.select rows pick) := by
  intro s m h
  refine ⟨?_, trivial⟩
  cases picked : pick s with
  | none => simpa [picked] using h
  | some row =>
    simp only [applyAll_nil, picked]
    refine coherent_keepWallet h rfl (fun _ _ => rfl) ?_
    intro again found
    rw [wallet_id, keyed s row picked] at found
    cases found
    unfold IdentityMap.wallet
    cases held : m.wallets row.id with
    | none => rfl
    | some w => exact h.wallets _ w row held (keyed s row picked)

theorem keeps_getByUserId (userId : Uuid) : Keeps Coherent (WalletRepository.getByUserId userId) :=
  keeps_selectWallet (fun _ _ picked => find?_some_iff.mpr ⟨List.mem_of_find?_eq_some picked, rfl⟩)

theorem keeps_lockForUpdate (id : Uuid) : Keeps Coherent (WalletRepository.lockForUpdate id) := by
  refine keeps_selectWallet ?_
  intro db row picked
  have found := (Option.filter_eq_some_iff.mp picked).1
  have key : row.id = id := (find?_some_iff.mp found).2
  rw [key]
  exact found

theorem keeps_createWalletRow (id userId : Uuid) (currency : String) :
    Keeps Coherent (WalletRepository.create id userId currency) := by
  intro s m h
  dsimp only
  split
  · rename_i free
    refine ⟨coherent_keepWallet h rfl (fun _ other => find?_insert_other (Ne.symm other)) ?_, trivial⟩
    intro row found
    have inserted := find?_insert free id
    simp only [wallet_key, if_true] at inserted
    have same : some _ = some row := inserted.symm.trans found
    exact Option.some.inj same
  · refine ⟨h, ?_⟩
    split <;> trivial

theorem keeps_updateBalance (wallet : Wallet) (newBalance : Int) :
    Keeps Coherent (WalletRepository.updateBalance wallet newBalance) := by
  intro s m h
  dsimp only
  split
  swap
  · refine ⟨h, ?_⟩
    split <;> trivial
  have key : ((s.wallets.find? wallet.id).getD wallet).id = wallet.id := by
    cases found : s.wallets.find? wallet.id with
    | none => rfl
    | some row => exact (find?_some_iff.mp found).2
  refine ⟨coherent_keepWallet h rfl ?_ ?_, trivial⟩
  · intro id other
    exact find?_update_other (fun same => other (by rw [← same]; exact key.symm))
  · intro row found
    simp only [key, applyAll_cons, applyAll_nil] at found
    have there : (s.wallets.update wallet.id (balanceEdit newBalance)).find? wallet.id = some row := found
    rw [find?_update, if_pos rfl] at there
    cases stored : s.wallets.find? wallet.id with
    | none => simp [stored] at there
    | some old =>
      rw [stored] at there
      simpa [stored] using there

theorem keeps_selectTransaction {pick : Database → Except AppError (Option Transaction)}
    (keyed : ∀ db row, pick db = .ok (some row) → db.transactions.find? row.id = some row) :
    Keeps Coherent (TransactionRepository.select pick) := by
  intro s m h
  cases picked : pick s with
  | error x =>
    refine ⟨by simpa [picked] using h, ?_⟩
    simp only [picked]
    trivial
  | ok found =>
    refine ⟨?_, by simp only [picked]; trivial⟩
    cases found with
    | none => simpa [picked] using h
    | some row =>
      simp only [applyAll_nil, picked]
      refine coherent_keepTransaction h rfl (fun _ _ => rfl) ?_
      intro again found
      rw [transaction_id, keyed s row picked] at found
      cases found
      unfold IdentityMap.transaction
      cases held : m.transactions row.id with
      | none => rfl
      | some t => exact h.transactions _ t row held (keyed s row picked)

theorem keeps_createTransaction (t : Transaction) : Keeps Coherent (TransactionRepository.create t) := by
  unfold TransactionRepository.create
  split
  swap
  · trivial
  intro s m h
  dsimp only
  split
  · rename_i free
    refine ⟨coherent_keepTransaction h rfl (fun _ other => find?_insert_other (Ne.symm other)) ?_, trivial⟩
    intro row found
    have inserted := find?_insert free t.id
    simp only [transaction_key, if_true] at inserted
    exact Option.some.inj (inserted.symm.trans found)
  · exact ⟨h, trivial⟩

theorem keeps_flush (txn : Transaction) (set : TransactionUpdate) :
    Keeps Coherent (TransactionRepository.flush txn set) := by
  intro s m h
  have key : (set.on ((s.transactions.find? txn.id).getD txn)).id = txn.id := by
    cases found : s.transactions.find? txn.id with
    | none => rfl
    | some row => exact (find?_some_iff.mp found).2
  refine ⟨coherent_keepTransaction h rfl ?_ ?_, trivial⟩
  · intro id other
    exact find?_update_other (fun same => other (by rw [← same]; exact key.symm))
  · intro row found
    rw [key] at found
    have there : (s.transactions.update txn.id (transactionEdit set)).find? txn.id = some row := found
    rw [find?_update, if_pos rfl] at there
    cases stored : s.transactions.find? txn.id with
    | none => simp [stored] at there
    | some old =>
      rw [stored] at there
      simpa [stored] using there

theorem keeps_updateStatus (txn : Transaction) (newStatus : TransactionStatus) (reason : Option String) :
    Keeps Coherent (TransactionRepository.updateStatus txn newStatus reason) := by
  unfold TransactionRepository.updateStatus
  split
  · exact keeps_flush txn _
  · trivial

theorem keeps_createEntry (e : LedgerEntry) : Keeps Coherent (LedgerRepository.createEntry e) :=
  keeps_aside (fun _ _ => ⟨rfl, rfl⟩) (fun _ _ => trivial)

theorem keeps_getByIdempotencyKey (key : String) :
    Keeps Coherent (TransactionRepository.getByIdempotencyKey key) := by
  refine keeps_selectTransaction ?_
  intro db row picked
  exact find?_some_iff.mpr ⟨List.mem_of_find?_eq_some (Except.ok.inj picked), rfl⟩

theorem keeps_getByReference (reference : String) :
    Keeps Coherent (TransactionRepository.getByReference reference) := by
  refine keeps_selectTransaction ?_
  intro db row picked
  exact find?_some_iff.mpr ⟨List.mem_of_find?_eq_some (Except.ok.inj picked), rfl⟩

theorem keeps_getById (id : Uuid) : Keeps Coherent (TransactionRepository.getById id) := by
  refine keeps_selectTransaction ?_
  intro db row picked
  have found := Except.ok.inj picked
  have key : row.id = id := (find?_some_iff.mp found).2
  rw [key]
  exact found

theorem keeps_scalar (p : Transaction → Bool) : Keeps Coherent (TransactionRepository.select fun db =>
    TransactionRepository.scalarOneOrNone (db.transactions.rows.filter p)) := by
  refine keeps_selectTransaction ?_
  intro db row picked
  have mem : row ∈ db.transactions.rows.filter p := by
    revert picked
    cases db.transactions.rows.filter p with
    | nil => simp [TransactionRepository.scalarOneOrNone]
    | cons a rest =>
      cases rest with
      | nil =>
        simp only [TransactionRepository.scalarOneOrNone]
        rintro ⟨rfl⟩
        exact List.mem_singleton.mpr rfl
      | cons b more => simp [TransactionRepository.scalarOneOrNone]
  exact find?_some_iff.mpr ⟨(List.mem_filter.mp mem).1, rfl⟩

end Repositories

section Programs

theorem keeps_auditLog (entry : AuditLog) : Keeps Coherent (auditLog entry) := by
  refine keeps_handle ?_ (fun _ => trivial)
  exact keeps_seq (keeps_aside (fun _ _ => ⟨rfl, rfl⟩) (fun _ _ => trivial)) (fun _ => keeps_commit)

theorem keeps_lookupKey (key : Option String) : Keeps Coherent (lookupKey key) := by
  unfold lookupKey
  split
  · exact keeps_getByIdempotencyKey _
  · trivial

theorem keeps_writeMovement (type : TransactionType) (initiator : User) (amount : Int)
    (key : Option String) (draws : Draws) (sender recipient : Wallet) :
    Keeps Coherent (writeMovement type initiator amount key draws sender recipient) := by
  unfold writeMovement postDoubleEntry
  refine keeps_seq (keeps_createTransaction _) (fun _ => ?_)
  refine keeps_seq (keeps_seq (keeps_createEntry _) (fun _ => ?_)) (fun _ => ?_)
  · exact keeps_seq (keeps_createEntry _) (fun _ => trivial)
  refine keeps_seq (keeps_updateBalance _ _) (fun _ => ?_)
  refine keeps_seq (keeps_updateBalance _ _) (fun _ => ?_)
  exact keeps_seq keeps_commit (fun _ => trivial)

theorem keeps_recoverMovement (key : Option String) (error : AppError) :
    Keeps Coherent (recoverMovement key error) := by
  cases error with
  | integrity c =>
    refine keeps_seq trivial (fun _ => ?_)
    split
    · refine keeps_seq (keeps_getByIdempotencyKey _) (fun found => ?_)
      cases found <;> trivial
    · trivial
  | _ => trivial

theorem keeps_moveFunds (type : TransactionType) (initiator : User) (amount : Int)
    (key : Option String) (draws : Draws) (sender recipient : Wallet) :
    Keeps Coherent (moveFunds type initiator amount key draws sender recipient) := by
  unfold moveFunds
  refine keeps_seq (keeps_lockForUpdate _) (fun _ => ?_)
  refine keeps_seq (keeps_lockForUpdate _) (fun _ => ?_)
  refine keeps_seq (keeps_orRaise _ _) (fun _ => ?_)
  refine keeps_seq (keeps_orRaise _ _) (fun _ => ?_)
  refine keeps_seq (keeps_require _ _) (fun _ => ?_)
  exact keeps_handle (keeps_writeMovement _ _ _ _ _ _ _) (fun x => keeps_recoverMovement key x)

theorem keeps_resolveTransfer (normalize : String → String) (sender : User) (recipient : Recipient) :
    Keeps Coherent (resolveTransfer normalize sender recipient) := by
  unfold resolveTransfer
  refine keeps_seq (keeps_getByUserId _) (fun _ => ?_)
  refine keeps_seq (keeps_orRaise _ _) (fun _ => ?_)
  refine keeps_seq (by cases recipient <;> exact keeps_query _) (fun _ => ?_)
  refine keeps_seq (keeps_orRaise _ _) (fun _ => ?_)
  refine keeps_seq (keeps_require _ _) (fun _ => ?_)
  refine keeps_seq (keeps_getByUserId _) (fun _ => ?_)
  exact keeps_seq (keeps_orRaise _ _) (fun _ => trivial)

theorem keeps_resolvePayment (payer : User) (merchantId : Uuid) :
    Keeps Coherent (resolvePayment payer merchantId) := by
  unfold resolvePayment
  refine keeps_seq (keeps_query _) (fun _ => ?_)
  refine keeps_seq (keeps_orRaise _ _) (fun _ => ?_)
  refine keeps_seq (keeps_require _ _) (fun _ => ?_)
  refine keeps_seq (keeps_require _ _) (fun _ => ?_)
  refine keeps_seq (keeps_getByUserId _) (fun _ => ?_)
  refine keeps_seq (keeps_orRaise _ _) (fun _ => ?_)
  refine keeps_seq (keeps_getByUserId _) (fun _ => ?_)
  exact keeps_seq (keeps_orRaise _ _) (fun _ => trivial)

theorem keeps_createAndEnqueue (merchant : Merchant) (transactionId deliveryId : Uuid)
    (eventType : String) :
    Keeps Coherent (createAndEnqueue merchant transactionId deliveryId eventType) := by
  unfold createAndEnqueue
  split
  swap
  · trivial
  refine keeps_seq (keeps_aside (fun _ _ => ⟨rfl, rfl⟩) (fun _ _ => trivial)) (fun _ => ?_)
  exact keeps_seq keeps_commit (fun _ => keeps_handle (keeps_enqueue _) (fun _ => trivial))

theorem keeps_initiateTransfer (normalize : String → String) (sender : User) (cfg : Settings)
    (recipient : Recipient) (amount : Int) (key : Option String) (draws : Draws) :
    Keeps Coherent (initiateTransfer normalize sender cfg recipient amount key draws) := by
  unfold initiateTransfer
  refine keeps_seq (keeps_resolveTransfer _ _ _) (fun wallets => ?_)
  refine keeps_seq (keeps_lookupKey _) (fun found => ?_)
  cases found with
  | some txn => trivial
  | none =>
    refine keeps_seq (keeps_looks (looks_checkTransfer cfg _ _ _ _ _)) (fun _ => ?_)
    refine keeps_seq (keeps_moveFunds _ _ _ _ _ _ _) (fun moved => ?_)
    cases moved with
    | existing txn => trivial
    | committed txn =>
      refine keeps_seq ?_ (fun _ => keeps_seq (keeps_auditLog _) (fun _ => trivial))
      unfold maybeFlagRapidTransfers
      refine keeps_seq (keeps_query _) (fun _ => ?_)
      split
      · exact keeps_enqueue _
      · trivial

theorem keeps_initiatePayment (payer : User) (cfg : Settings) (merchantId : Uuid) (amount : Int)
    (key : Option String) (draws : Draws) :
    Keeps Coherent (initiatePayment payer cfg merchantId amount key draws) := by
  unfold initiatePayment
  refine keeps_seq (keeps_resolvePayment _ _) (fun resolved => ?_)
  refine keeps_seq (keeps_lookupKey _) (fun found => ?_)
  cases found with
  | some txn => trivial
  | none =>
    refine keeps_seq (keeps_looks (looks_checkMerchantPayment cfg _ _ _)) (fun _ => ?_)
    refine keeps_seq (keeps_moveFunds _ _ _ _ _ _ _) (fun moved => ?_)
    cases moved with
    | existing txn => trivial
    | committed txn =>
      refine keeps_seq ?_ (fun _ => keeps_seq ?_ (fun _ => keeps_seq (keeps_auditLog _) (fun _ => trivial)))
      · unfold maybeFlagMerchantPayment
        split
        · exact keeps_enqueue _
        · trivial
      · exact keeps_handle (keeps_createAndEnqueue _ _ _ _) (fun _ => trivial)

theorem keeps_initiateWithdrawal (cfg : Settings) (user : User) (bankAccountId : Uuid) (amount : Int)
    (draws : WithdrawalDraws) :
    Keeps Coherent (initiateWithdrawal cfg user bankAccountId amount draws) := by
  unfold initiateWithdrawal
  refine keeps_seq (keeps_getByUserId _) (fun _ => ?_)
  refine keeps_seq (keeps_orRaise _ _) (fun _ => ?_)
  refine keeps_seq (keeps_looks (looks_checkWithdrawal cfg _ _ _)) (fun _ => ?_)
  refine keeps_seq (keeps_scalar _) (fun _ => ?_)
  refine keeps_seq (keeps_require _ _) (fun _ => ?_)
  refine keeps_seq (keeps_query _) (fun _ => ?_)
  refine keeps_seq (keeps_orRaise _ _) (fun _ => ?_)
  refine keeps_seq (keeps_lockForUpdate _) (fun _ => ?_)
  refine keeps_seq (keeps_orRaise _ _) (fun _ => ?_)
  refine keeps_seq (keeps_require _ _) (fun _ => ?_)
  refine keeps_seq (keeps_createTransaction _) (fun _ => ?_)
  refine keeps_seq (keeps_updateBalance _ _) (fun _ => ?_)
  refine keeps_seq keeps_commit (fun _ => ?_)
  refine keeps_seq (keeps_handle (keeps_enqueue _) (fun _ => trivial)) (fun _ => ?_)
  exact keeps_seq (keeps_auditLog _) (fun _ => trivial)

theorem keeps_resolveFunding (user : User) (amount : Int) :
    Keeps Coherent (resolveFunding user amount) := by
  unfold resolveFunding
  refine keeps_seq (keeps_getByUserId _) (fun _ => ?_)
  refine keeps_seq (keeps_orRaise _ _) (fun _ => ?_)
  refine keeps_seq (keeps_require _ _) (fun _ => ?_)
  exact keeps_seq (keeps_require _ _) (fun _ => trivial)

theorem keeps_initiateFunding (user : User) (amount : Int) (key : Option String)
    (draws : WithdrawalDraws) : Keeps Coherent (initiateFunding user amount key draws) := by
  have answers : ∀ t url, Keeps Coherent (fundingOf t url) :=
    fun t url => keeps_seq (keeps_orRaise _ _) (fun _ => trivial)
  unfold initiateFunding
  refine keeps_seq (keeps_resolveFunding user amount) (fun _ => ?_)
  refine keeps_seq (keeps_lookupKey _) (fun found => ?_)
  cases found with
  | some txn => exact answers _ _
  | none =>
    refine keeps_seq (keeps_paystack _) (fun _ => ?_)
    refine keeps_seq (keeps_createTransaction _) (fun _ => ?_)
    exact keeps_seq keeps_commit (fun _ => answers _ _)

theorem keeps_createUser (normalize : String → String) (id : Uuid) (email hashed name : String)
    (phone : Option String) :
    Keeps Coherent (UserRepository.create normalize id email hashed name phone) := by
  unfold UserRepository.create
  refine keeps_seq (keeps_orRaise _ _) (fun _ => ?_)
  refine keeps_seq (keeps_orRaise _ _) (fun _ => ?_)
  apply keeps_aside
  · intro s m
    split <;> exact ⟨rfl, rfl⟩
  · intro s m
    split
    · trivial
    · split
      · trivial
      · split <;> trivial

theorem keeps_register (cfg : Settings) (normalize : String → String) (email hashed name : String)
    (phone : Option String) (draws : RegistrationDraws) :
    Keeps Coherent (register cfg normalize email hashed name phone draws) := by
  unfold register createWallet storeRefreshToken
  refine keeps_seq (keeps_query _) (fun _ => ?_)
  refine keeps_seq (keeps_require _ _) (fun _ => ?_)
  refine keeps_seq (keeps_createUser _ _ _ _ _ _) (fun _ => ?_)
  refine keeps_seq (keeps_seq (keeps_getByUserId _) (fun _ => ?_)) (fun _ => ?_)
  · exact keeps_seq (keeps_require _ _) (fun _ => keeps_createWalletRow _ _ _)
  refine keeps_seq (keeps_aside ?_ ?_) (fun _ => ?_)
  · intro s m
    split <;> exact ⟨rfl, rfl⟩
  · intro s m
    split <;> trivial
  exact keeps_seq keeps_commit (fun _ => keeps_seq (keeps_auditLog _) (fun _ => trivial))

theorem keeps_processChargeSuccess (data : PaystackData) : Keeps Coherent (processChargeSuccess data) := by
  unfold processChargeSuccess
  split
  swap
  · trivial
  refine keeps_seq (keeps_scalar _) (fun found => ?_)
  cases found with
  | none => trivial
  | some txn =>
    dsimp only
    split
    swap
    · trivial
    refine keeps_seq (keeps_updateStatus _ _ _) (fun txn => ?_)
    cases txn.destinationWalletId with
    | none => trivial
    | some walletId =>
      refine keeps_seq (keeps_lockForUpdate _) (fun found => ?_)
      cases found with
      | none => trivial
      | some wallet =>
        refine keeps_seq (keeps_updateBalance _ _) (fun _ => ?_)
        refine keeps_seq (keeps_createEntry _) (fun _ => ?_)
        refine keeps_seq (keeps_updateStatus _ _ _) (fun _ => ?_)
        exact keeps_seq keeps_commit (fun _ => keeps_auditLog _)

theorem keeps_applyResult (transactionId : Uuid) (data : PaystackData) :
    Keeps Coherent (applyResult transactionId data) := by
  unfold applyResult failFunding
  dsimp only
  split
  · exact keeps_seq (keeps_processChargeSuccess data) (fun _ => keeps_commit)
  refine keeps_seq (keeps_getById _) (fun found => ?_)
  cases found with
  | none => trivial
  | some txn =>
    dsimp only
    split
    · refine keeps_seq (keeps_updateStatus _ _ _) (fun _ => ?_)
      exact keeps_seq (keeps_updateStatus _ _ _) (fun _ => keeps_commit)
    · trivial

theorem keeps_reconcileFunding (transactionId : Uuid) (providerReference : String) :
    Keeps Coherent (reconcileFunding transactionId providerReference) :=
  keeps_handle (keeps_seq (keeps_paystack _) (keeps_applyResult transactionId)) (fun _ => trivial)

theorem keeps_onProcessing (reference : String) {settle : Transaction → Uuid → Tx Unit}
    (settled : ∀ txn wallet, Keeps Coherent (settle txn wallet)) :
    Keeps Coherent (onProcessing reference settle) := by
  unfold onProcessing
  refine keeps_seq (keeps_getByReference _) (fun found => ?_)
  cases found with
  | none => trivial
  | some txn =>
    dsimp only
    split
    · cases txn.sourceWalletId with
      | none => trivial
      | some walletId => exact settled txn walletId
    · trivial

theorem keeps_processPayoutSuccess (reference : String) :
    Keeps Coherent (processPayoutSuccess reference) := by
  refine keeps_onProcessing reference (fun txn walletId => ?_)
  refine keeps_seq (keeps_lockForUpdate _) (fun found => ?_)
  cases found with
  | none => trivial
  | some wallet =>
    refine keeps_seq (keeps_createEntry _) (fun _ => ?_)
    refine keeps_seq (keeps_updateStatus _ _ _) (fun _ => ?_)
    exact keeps_seq keeps_commit (fun _ => keeps_auditLog _)

theorem keeps_processPayoutFailure (reference transferCode : String) :
    Keeps Coherent (processPayoutFailure reference transferCode) := by
  refine keeps_onProcessing reference (fun txn walletId => ?_)
  refine keeps_seq (keeps_lockForUpdate _) (fun found => ?_)
  cases found with
  | none => trivial
  | some wallet =>
    refine keeps_seq (keeps_updateBalance _ _) (fun _ => ?_)
    refine keeps_seq (keeps_updateStatus _ _ _) (fun _ => ?_)
    exact keeps_seq keeps_commit (fun _ => keeps_auditLog _)

theorem keeps_dispatchPayout (txn : Transaction) (recipientCode : String) :
    Keeps Coherent (dispatchPayout txn recipientCode) := by
  have ends : ∀ (t : Transaction) (code : Option String), Keeps Coherent (if code = t.providerReference
      then commit else do
        let _ ← TransactionRepository.flush t { providerReference := some code }
        commit) := by
    intro t code
    split
    · exact keeps_commit
    · exact keeps_seq (keeps_flush _ _) (fun _ => keeps_commit)
  unfold dispatchPayout
  split
  · exact keeps_seq (keeps_updateStatus _ _ _) (fun t => keeps_seq (keeps_paystack _) (fun _ => ends t _))
  · exact keeps_seq (keeps_ret txn) (fun t => keeps_seq (keeps_paystack _) (fun _ => ends t _))

theorem keeps_executePayout (transactionId : Uuid) : Keeps Coherent (executePayout transactionId) := by
  unfold executePayout
  refine keeps_seq (keeps_getById _) (fun found => ?_)
  cases found with
  | none => trivial
  | some txn =>
    dsimp only
    split
    · trivial
    split
    · trivial
    cases txn.extraData.bind (·.bankAccountId) with
    | none => trivial
    | some bankAccountId =>
      refine keeps_seq (keeps_query _) (fun found => ?_)
      cases found with
      | none => trivial
      | some account =>
        refine keeps_seq ?_ (fun code => ?_)
        · unfold recipientCodeOf
          split
          · trivial
          refine keeps_seq (keeps_paystack _) (fun _ => ?_)
          refine keeps_seq (keeps_require _ _) (fun _ => ?_)
          exact keeps_seq (keeps_aside (fun _ _ => ⟨rfl, rfl⟩) (fun _ _ => trivial)) (fun _ => trivial)
        · exact keeps_dispatchPayout txn code

end Programs

end PayCoreCoherence
