import PayCore.Model.Repositories
import PayCore.Proof.Persistence

/- The commits of the application: for each kind, the writes that go in together and
   what holds of the database they are committed to. -/
namespace PayCoreCommits
open KeyedTable SessionProgram PayCoreTables PayCoreWrites PayCoreRepositories PayCorePersistence

def sideWrite : Write → Bool
  | .insertAuditLog _ => true
  | .insertDelivery _ => true
  | .setRecipientCode _ _ => true
  | _ => false

def Side (ws : List Write) : Prop := ∀ w ∈ ws, sideWrite w = true

theorem side_nil : Side [] := by simp [Side]

theorem side_regular {ws : List Write} (side : Side ws) : ∀ w ∈ ws, Regular w := by
  intro w mem
  have := side w mem
  cases w <;> simp_all [sideWrite, Regular]

structure SameMoney (s t : Database) : Prop where
  wallets : t.wallets = s.wallets
  transactions : t.transactions = s.transactions
  ledgerEntries : t.ledgerEntries = s.ledgerEntries

theorem side_money {ws : List Write} (side : Side ws) (db : Database) :
    SameMoney db (applyAll ws db) := by
  induction ws generalizing db with
  | nil => exact ⟨rfl, rfl, rfl⟩
  | cons w ws ih =>
    have step : SameMoney db (applyWrite w db) := by
      have this := side w (by simp)
      cases w <;> simp [sideWrite] at this <;> exact ⟨rfl, rfl, rfl⟩
    have rest := ih (fun v mem => side v (by simp [mem])) (applyWrite w db)
    exact ⟨rest.wallets.trans step.wallets, rest.transactions.trans step.transactions,
      rest.ledgerEntries.trans step.ledgerEntries⟩

def mark (id : Uuid) (status : TransactionStatus) (reason : Option String) : Write :=
  .updateTransaction id { status := some status, failureReason := reason }

def refer (id : Uuid) (code : Option String) : Write :=
  .updateTransaction id { providerReference := some code }

def entryOf (t : Transaction) (walletId : Uuid) (entryType : EntryType) (amount balanceAfter : Int) :
    LedgerEntry :=
  { transactionId := t.id, walletId, entryType, amount, currency := t.currency, balanceAfter }

def movementWrites (t : Transaction) (sender recipient : Wallet) : List Write :=
  [.insertTransaction t,
   .insertEntry (entryOf t sender.id .debit t.amount (sender.balance - t.amount)),
   .insertEntry (entryOf t recipient.id .credit t.amount (recipient.balance + t.amount)),
   .setBalance sender.id (sender.balance - t.amount),
   .setBalance recipient.id (recipient.balance + t.amount)]

/-- initiate_transfer and initiate_payment: a COMPLETED transaction with both entries. -/
inductive MovementCommit (db : Database) : List Write → Prop where
  | posted (t : Transaction) (sender recipient : Wallet)
      (type : t.type = .transfer ∨ t.type = .merchantPayment) (status : t.status = .completed)
      (source : t.sourceWalletId = some sender.id)
      (destination : t.destinationWalletId = some recipient.id)
      (provider : t.providerReference = none) (extra : t.extraData = none)
      (free : db.transactions.admits t = true)
      (payer : db.wallets.find? sender.id = some sender)
      (payee : db.wallets.find? recipient.id = some recipient)
      (apart : sender.id ≠ recipient.id) (covered : t.amount ≤ sender.balance)
      (creditable : WalletRepository.storable (recipient.balance + t.amount)) :
      MovementCommit db (movementWrites t sender recipient)

/-- initiate_withdrawal: the hold, a PENDING transaction without entries. -/
inductive HoldCommit (db : Database) : List Write → Prop where
  | held (t : Transaction) (wallet : Wallet) (type : t.type = .withdrawal)
      (status : t.status = .pending) (source : t.sourceWalletId = some wallet.id)
      (destination : t.destinationWalletId = none) (provider : t.providerReference = none)
      (free : db.transactions.admits t = true)
      (holder : db.wallets.find? wallet.id = some wallet) (covered : t.amount ≤ wallet.balance) :
      HoldCommit db [.insertTransaction t, .setBalance wallet.id (wallet.balance - t.amount)]

inductive RequestCommit (db : Database) : List Write → Prop where
  | requested (t : Transaction) (wallet : Wallet) (type : t.type = .funding)
      (status : t.status = .pending) (source : t.sourceWalletId = none)
      (destination : t.destinationWalletId = some wallet.id)
      (extra : t.extraData.bind (·.bankAccountId) = none)
      (free : db.transactions.admits t = true)
      (holder : db.wallets.find? wallet.id = some wallet) :
      RequestCommit db [.insertTransaction t]

inductive RegistrationCommit (db : Database) : List Write → Prop where
  | registered (u : User) (wallet : Wallet) (token : RefreshToken) (empty : wallet.balance = 0)
      (free : db.wallets.admits wallet = true) :
      RegistrationCommit db [.insertUser u, .insertWallet wallet, .insertRefreshToken token]

def creditWrites (t : Transaction) (wallet : Wallet) (amount : Int) : List Write :=
  [mark t.id .processing none,
   .setBalance wallet.id (wallet.balance + amount),
   .insertEntry (entryOf t wallet.id .credit amount (wallet.balance + amount)),
   mark t.id .completed none]

inductive ChargeCommit (id : Uuid) (db : Database) : List Write → Prop where
  | credited (t : Transaction) (wallet : Wallet) (amount : Int)
      (row : db.transactions.find? id = some t) (status : t.status = .pending)
      (destination : t.destinationWalletId = some wallet.id)
      (holder : db.wallets.find? wallet.id = some wallet)
      (creditable : WalletRepository.storable (wallet.balance + amount)) :
      ChargeCommit id db (creditWrites t wallet amount)

/-- _reconcile_funding where the handler has returned before the credit -/
inductive StartCommit (id : Uuid) (db : Database) : List Write → Prop where
  | started (t : Transaction) (row : db.transactions.find? id = some t)
      (status : t.status = .pending) : StartCommit id db [mark id .processing none]

inductive AbandonCommit (id : Uuid) (db : Database) : List Write → Prop where
  | abandoned (t : Transaction) (reason : Option String)
      (row : db.transactions.find? id = some t) (status : t.status = .pending) :
      AbandonCommit id db [mark id .processing none, mark id .failed reason]

/-- execute_payout. The provider reference alone is rewritten where the status has moved on. -/
inductive DispatchCommit (id : Uuid) (db : Database) : List Write → Prop where
  | dispatched (t : Transaction) (side : List Write) (code : Option (Option String))
      (beside : Side side) (row : db.transactions.find? id = some t) (status : t.status = .pending)
      (account : t.extraData.bind (·.bankAccountId) ≠ none) :
      DispatchCommit id db (side ++ mark id .processing none :: (code.map (refer id)).toList)
  | redispatched (t : Transaction) (side : List Write) (code : Option String)
      (beside : Side side) (row : db.transactions.find? id = some t) (status : t.status ≠ .pending)
      (account : t.extraData.bind (·.bankAccountId) ≠ none) :
      DispatchCommit id db (side ++ [refer id code])

/-- process_payout_success and process_payout_failure -/
inductive SettleCommit (id : Uuid) (db : Database) : List Write → Prop where
  | paid (t : Transaction) (wallet : Wallet) (row : db.transactions.find? id = some t)
      (status : t.status = .processing) (source : t.sourceWalletId = some wallet.id)
      (holder : db.wallets.find? wallet.id = some wallet) :
      SettleCommit id db [.insertEntry (entryOf t wallet.id .debit t.amount wallet.balance),
        mark id .completed none]
  | refunded (t : Transaction) (wallet : Wallet) (reason : Option String)
      (row : db.transactions.find? id = some t) (status : t.status = .processing)
      (source : t.sourceWalletId = some wallet.id)
      (holder : db.wallets.find? wallet.id = some wallet)
      (creditable : WalletRepository.storable (wallet.balance + t.amount)) :
      SettleCommit id db [.setBalance wallet.id (wallet.balance + t.amount), mark id .failed reason]

section Regular
variable {db : Database} {ws : List Write} {id : Uuid}

theorem movementWrites_regular {t : Transaction} {payer payee : Wallet}
    (covered : t.amount ≤ payer.balance) (creditable : 0 ≤ payee.balance + t.amount) :
    ∀ w ∈ movementWrites t payer payee, Regular w := by
  simp [movementWrites, Regular, covered, creditable]

theorem movementWrites_stored {t : Transaction} {payer payee : Wallet}
    (free : db.transactions.admits t = true) :
    Stored t (applyAll (movementWrites t payer payee) db) := by
  refine ⟨t, ?_, revised_refl t⟩
  have found := find?_insert free t.id
  rwa [if_pos (transaction_key t)] at found

theorem movement_regular (h : MovementCommit db ws) : ∀ w ∈ ws, Regular w := by
  cases h with
  | posted t sender recipient _ _ _ _ _ _ _ _ _ _ covered creditable =>
    exact movementWrites_regular covered creditable.1

theorem hold_regular (h : HoldCommit db ws) : ∀ w ∈ ws, Regular w := by
  cases h with
  | held t wallet _ _ _ _ _ _ _ covered =>
    simp [Regular, covered]

theorem request_regular (h : RequestCommit db ws) : ∀ w ∈ ws, Regular w := by
  cases h
  simp [Regular]

theorem registration_regular (h : RegistrationCommit db ws) : ∀ w ∈ ws, Regular w := by
  cases h with
  | registered u wallet token empty _ => simp [Regular, empty]

theorem charge_regular (h : ChargeCommit id db ws) : ∀ w ∈ ws, Regular w := by
  cases h with
  | credited t wallet amount _ _ _ _ creditable =>
    simp [creditWrites, mark, Regular, creditable.1]

theorem start_regular (h : StartCommit id db ws) : ∀ w ∈ ws, Regular w := by
  cases h
  simp [mark, Regular]

theorem abandon_regular (h : AbandonCommit id db ws) : ∀ w ∈ ws, Regular w := by
  cases h
  simp [mark, Regular]

theorem dispatch_regular (h : DispatchCommit id db ws) : ∀ w ∈ ws, Regular w := by
  have referred : ∀ code, Regular (refer id code) := by simp [refer, Regular]
  cases h with
  | dispatched t side code beside _ _ _ =>
    intro w mem
    simp only [List.mem_append, List.mem_cons, Option.mem_toList, Option.map_eq_some_iff] at mem
    rcases mem with h | rfl | ⟨c, _, rfl⟩
    · exact side_regular beside w h
    · simp [mark, Regular]
    · exact referred c
  | redispatched t side code beside _ _ _ =>
    intro w mem
    rcases List.mem_append.mp mem with h | h
    · exact side_regular beside w h
    · rw [List.mem_singleton.mp h]
      exact referred code

theorem settle_regular (h : SettleCommit id db ws) : ∀ w ∈ ws, Regular w := by
  cases h with
  | paid => simp [mark, Regular]
  | refunded t wallet reason _ _ _ _ creditable => simp [mark, Regular, creditable.1]

end Regular

end PayCoreCommits
