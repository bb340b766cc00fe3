import PayCore.Library.SessionProgram
import PayCore.Model.Tables

/- The INSERT and UPDATE statements the application issues, the rows and unique
   index entries each of them locks, and what such a lock protects. -/
namespace PayCoreWrites
open KeyedTable SessionProgram PayCoreTables

inductive Row where
  | user (id : Uuid)
  | email (email : String)
  | phone (phone : String)
  | wallet (id : Uuid)
  | walletOwner (userId : Uuid)
  | transaction (id : Uuid)
  | reference (reference : String)
  | idempotencyKey (key : String)
  | bankAccount (id : Uuid)
  | refreshToken (hash : String)
  | webhookDelivery (id : Uuid)
  | merchant (id : Uuid)
  | merchantOwner (userId : Uuid)
  | submission (id : Uuid)
  deriving DecidableEq, Repr

/-- The columns an UPDATE of a transaction sets; `none` leaves the column out. -/
structure TransactionUpdate where
  status : Option TransactionStatus := none
  failureReason : Option String := none
  providerReference : Option (Option String) := none
  deriving DecidableEq, Repr

structure UserUpdate where
  fullName : Option String := none
  role : Option UserRole := none
  kycTier : Option Nat := none
  deriving DecidableEq, Repr

structure MerchantUpdate where
  apiKeyHash : Option String := none
  apiKeyPrefix : Option String := none
  webhookUrl : Option String := none
  webhookSecret : Option String := none
  deriving DecidableEq, Repr

structure BankAccountUpdate where
  isDefault : Option Bool := none
  deletedAt : Option Timestamp := none
  deriving DecidableEq, Repr

structure Review where
  status : KYCStatus
  reviewerId : Uuid
  rejectionReason : Option String := none
  reviewedAt : Timestamp
  deriving DecidableEq, Repr

structure DeliveryUpdate where
  status : Option WebhookDeliveryStatus := none
  attemptCount : Option Nat := none
  nextRetryAt : Option (Option Timestamp) := none
  lastResponseCode : Option (Option Nat) := none
  lastError : Option (Option String) := none
  deriving DecidableEq, Repr

/-- What the account services write. `changePhone` names the phone that the row holds when the
    UPDATE takes effect, whose index entry it frees. -/
inductive AccountWrite where
  | updateUser (id : Uuid) (set : UserUpdate)
  | changePhone (id : Uuid) (held : Option String) (phone : String)
  | insertMerchant (m : Merchant)
  | updateMerchant (id : Uuid) (set : MerchantUpdate)
  | insertBankAccount (a : BankAccount)
  | updateBankAccount (id : Uuid) (set : BankAccountUpdate)
  | revokeRefreshToken (hash : String)
  | insertSubmission (s : KYCSubmission)
  | reviewSubmission (id : Uuid) (review : Review)
  deriving DecidableEq, Repr

inductive Write where
  | insertUser (u : User)
  | insertWallet (w : Wallet)
  | setBalance (id : Uuid) (balance : Int)
  | insertTransaction (t : Transaction)
  | updateTransaction (id : Uuid) (set : TransactionUpdate)
  | insertEntry (e : LedgerEntry)
  | setRecipientCode (id : Uuid) (code : String)
  | insertRefreshToken (t : RefreshToken)
  | insertDelivery (d : WebhookDelivery)
  | updateDelivery (id : Uuid) (set : DeliveryUpdate)
  | insertAuditLog (l : AuditLog)
  | account (w : AccountWrite)
  deriving DecidableEq, Repr

def TransactionUpdate.on (set : TransactionUpdate) (t : Transaction) : Transaction :=
  { t with
    status := set.status.getD t.status
    failureReason := set.failureReason.or t.failureReason
    providerReference := set.providerReference.getD t.providerReference }

def balanceEdit (balance : Int) : Edit Wallet where
  on w := { w with balance := balance }
  keeps_key _ := rfl
  keeps_clash _ _ := rfl

def transactionEdit (set : TransactionUpdate) : Edit Transaction where
  on := set.on
  keeps_key _ := rfl
  keeps_clash _ _ := rfl

def recipientEdit (code : String) : Edit BankAccount where
  on a := { a with paystackRecipientCode := some code }
  keeps_key _ := rfl
  keeps_clash _ _ := rfl

def userEdit (set : UserUpdate) : Edit User where
  on u := { u with
    fullName := set.fullName.getD u.fullName
    role := set.role.getD u.role
    kycTier := set.kycTier.getD u.kycTier }
  keeps_key _ := rfl
  keeps_clash _ _ := rfl

def merchantEdit (set : MerchantUpdate) : Edit Merchant where
  on m := { m with
    apiKeyHash := set.apiKeyHash.getD m.apiKeyHash
    apiKeyPrefix := set.apiKeyPrefix.getD m.apiKeyPrefix
    webhookUrl := set.webhookUrl.or m.webhookUrl
    webhookSecret := set.webhookSecret.or m.webhookSecret }
  keeps_key _ := rfl
  keeps_clash _ _ := rfl

def bankAccountEdit (set : BankAccountUpdate) : Edit BankAccount where
  on a := { a with isDefault := set.isDefault.getD a.isDefault, deletedAt := set.deletedAt.or a.deletedAt }
  keeps_key _ := rfl
  keeps_clash _ _ := rfl

def revokeEdit : Edit RefreshToken where
  on t := { t with isRevoked := true }
  keeps_key _ := rfl
  keeps_clash _ _ := rfl

def reviewEdit (review : Review) : Edit KYCSubmission where
  on s := { s with
    status := review.status
    reviewerId := some review.reviewerId
    rejectionReason := review.rejectionReason.or s.rejectionReason
    reviewedAt := some review.reviewedAt }
  keeps_key _ := rfl
  keeps_clash _ _ := rfl

def deliveryEdit (set : DeliveryUpdate) : Edit WebhookDelivery where
  on d := { d with
    status := set.status.getD d.status
    attemptCount := set.attemptCount.getD d.attemptCount
    nextRetryAt := set.nextRetryAt.getD d.nextRetryAt
    lastResponseCode := set.lastResponseCode.getD d.lastResponseCode
    lastError := set.lastError.getD d.lastError }
  keeps_key _ := rfl
  keeps_clash _ _ := rfl

def rephone (id : Uuid) (held : Option String) (phone : String) (u : User) : User :=
  if u.id = id ∧ u.phone = held then { u with phone := some phone } else u

@[simp] theorem balanceEdit_on (b : Int) (w : Wallet) :
    (balanceEdit b).on w = { w with balance := b } := rfl

@[simp] theorem transactionEdit_on (set : TransactionUpdate) (t : Transaction) :
    (transactionEdit set).on t = set.on t := rfl

def applyAccount : AccountWrite → Database → Database
  | .updateUser id set, db => { db with users := db.users.update id (userEdit set) }
  | .changePhone id held phone, db => { db with users := db.users.revise (rephone id held phone) }
  | .insertMerchant m, db => { db with merchants := db.merchants.insert m }
  | .updateMerchant id set, db => { db with merchants := db.merchants.update id (merchantEdit set) }
  | .insertBankAccount a, db => { db with bankAccounts := db.bankAccounts.insert a }
  | .updateBankAccount id set, db =>
      { db with bankAccounts := db.bankAccounts.update id (bankAccountEdit set) }
  | .revokeRefreshToken hash, db => { db with refreshTokens := db.refreshTokens.update hash revokeEdit }
  | .insertSubmission s, db => { db with kycSubmissions := db.kycSubmissions.insert s }
  | .reviewSubmission id review, db =>
      { db with kycSubmissions := db.kycSubmissions.update id (reviewEdit review) }

@[simp] theorem account_transactions (w : AccountWrite) (db : Database) :
    (applyAccount w db).transactions = db.transactions := by
  cases w <;> rfl

@[simp] theorem account_wallets (w : AccountWrite) (db : Database) :
    (applyAccount w db).wallets = db.wallets := by
  cases w <;> rfl

@[simp] theorem account_ledgerEntries (w : AccountWrite) (db : Database) :
    (applyAccount w db).ledgerEntries = db.ledgerEntries := by
  cases w <;> rfl

def applyWrite : Write → Database → Database
  | .insertUser u, db => { db with users := db.users.insert u }
  | .insertWallet w, db => { db with wallets := db.wallets.insert w }
  | .setBalance id b, db => { db with wallets := db.wallets.update id (balanceEdit b) }
  | .insertTransaction t, db => { db with transactions := db.transactions.insert t }
  | .updateTransaction id set, db =>
      { db with transactions := db.transactions.update id (transactionEdit set) }
  | .insertEntry e, db => { db with ledgerEntries := db.ledgerEntries ++ [e] }
  | .setRecipientCode id code, db =>
      { db with bankAccounts := db.bankAccounts.update id (recipientEdit code) }
  | .insertRefreshToken t, db => { db with refreshTokens := db.refreshTokens.insert t }
  | .insertDelivery d, db => { db with webhookDeliveries := db.webhookDeliveries.insert d }
  | .updateDelivery id set, db =>
      { db with webhookDeliveries := db.webhookDeliveries.update id (deliveryEdit set) }
  | .insertAuditLog l, db => { db with auditLogs := db.auditLogs ++ [l] }
  | .account w, db => applyAccount w db

def accountTargets : AccountWrite → List Row
  | .updateUser id _ => [.user id]
  | .changePhone id held phone => [.user id, .phone phone] ++ (held.map Row.phone).toList
  | .insertMerchant m => [.merchant m.id, .merchantOwner m.userId]
  | .updateMerchant id _ => [.merchant id]
  | .insertBankAccount a => [.bankAccount a.id]
  | .updateBankAccount id _ => [.bankAccount id]
  | .revokeRefreshToken hash => [.refreshToken hash]
  | .insertSubmission s => [.submission s.id]
  | .reviewSubmission id _ => [.submission id]

def writeTargets : Write → List Row
  | .insertUser u => [.user u.id, .email u.email] ++ (u.phone.map Row.phone).toList
  | .insertWallet w => [.wallet w.id, .walletOwner w.userId]
  | .setBalance id _ => [.wallet id]
  | .insertTransaction t =>
      [.transaction t.id, .reference t.reference] ++ (t.idempotencyKey.map Row.idempotencyKey).toList
  | .updateTransaction id _ => [.transaction id]
  | .insertEntry _ => []
  | .setRecipientCode id _ => [.bankAccount id]
  | .insertRefreshToken t => [.refreshToken t.tokenHash]
  | .insertDelivery d => [.webhookDelivery d.id]
  | .updateDelivery id _ => [.webhookDelivery id]
  | .insertAuditLog _ => []
  | .account w => accountTargets w

/-- A row lock fixes the row; the lock of an index entry fixes whether it is taken. -/
def Same : Row → Database → Database → Prop
  | .user id, a, b => a.users.find? id = b.users.find? id
  | .email e, a, b => a.users.rows.any (·.email == e) = b.users.rows.any (·.email == e)
  | .phone p, a, b =>
      a.users.rows.any (·.phone == some p) = b.users.rows.any (·.phone == some p)
  | .wallet id, a, b => a.wallets.find? id = b.wallets.find? id
  | .walletOwner u, a, b =>
      a.wallets.rows.any (·.userId == u) = b.wallets.rows.any (·.userId == u)
  | .transaction id, a, b => a.transactions.find? id = b.transactions.find? id
  | .reference s, a, b =>
      a.transactions.rows.any (·.reference == s) = b.transactions.rows.any (·.reference == s)
  | .idempotencyKey k, a, b =>
      a.transactions.rows.any (·.idempotencyKey == some k) =
        b.transactions.rows.any (·.idempotencyKey == some k)
  | .bankAccount id, a, b => a.bankAccounts.find? id = b.bankAccounts.find? id
  | .refreshToken h, a, b => a.refreshTokens.find? h = b.refreshTokens.find? h
  | .webhookDelivery id, a, b => a.webhookDeliveries.find? id = b.webhookDeliveries.find? id
  | .merchant id, a, b => a.merchants.find? id = b.merchants.find? id
  | .merchantOwner u, a, b =>
      a.merchants.rows.any (·.userId == u) = b.merchants.rows.any (·.userId == u)
  | .submission id, a, b => a.kycSubmissions.find? id = b.kycSubmissions.find? id

theorem any_insert_other {ρ κ : Type} [Keyed ρ κ] {t : Table ρ} {r : ρ} {p : ρ → Bool}
    (skip : p r = false) : (t.insert r).rows.any p = t.rows.any p := by
  cases free : t.admits r with
  | true => simp [insert_rows free, skip]
  | false => rw [insert_refused free]

theorem frame_changePhone {r : Row} {id : Uuid} {held : Option String} {phone : String} (db : Database)
    (spared : r ∉ accountTargets (.changePhone id held phone)) :
    Same r db (applyAccount (.changePhone id held phone) db) := by
  simp only [accountTargets, List.mem_append, List.mem_cons, List.not_mem_nil, or_false,
    Option.mem_toList, Option.map_eq_some_iff, not_or, not_exists, not_and] at spared
  obtain ⟨⟨row, entry⟩, freed⟩ := spared
  cases r <;> simp only [Same, applyAccount]
  case user k =>
    apply Eq.symm
    apply find?_revise_other
    · intro u
      unfold rephone
      split <;> rfl
    · intro u own
      unfold rephone
      split
      · rename_i here
        exact absurd (by rw [← here.1]; exact congrArg Row.user own.symm) row
      · rfl
  case email e =>
    apply Eq.symm
    apply any_revise
    intro u _
    unfold rephone
    split <;> rfl
  case phone p =>
    apply Eq.symm
    apply any_revise
    intro u _
    unfold rephone
    split
    · rename_i here
      have other : phone ≠ p := fun same => entry (by rw [same])
      have before : u.phone ≠ some p := fun same => freed p (here.2.symm.trans same) rfl
      simp [other, before]
    · rfl

theorem frame_account {r : Row} {w : AccountWrite} (db : Database) (spared : r ∉ accountTargets w) :
    Same r db (applyAccount w db) := by
  cases w with
  | changePhone id held phone => exact frame_changePhone db spared
  | updateUser id set =>
    simp only [accountTargets, List.mem_singleton] at spared
    cases r <;> simp only [Same, applyAccount]
    case user k => exact (find?_update_other (fun same => spared (by rw [same]))).symm
    case email e => exact (any_update _ _ _ _ (fun _ => rfl)).symm
    case phone p => exact (any_update _ _ _ _ (fun _ => rfl)).symm
  | insertMerchant m =>
    simp only [accountTargets, List.mem_cons, List.not_mem_nil, or_false, not_or] at spared
    obtain ⟨id, owner⟩ := spared
    cases r <;> simp only [Same, applyAccount]
    case merchant k => exact (find?_insert_other (fun same => id (by rw [← same]; rfl))).symm
    case merchantOwner u => exact (any_insert_other (by simpa using fun same => owner (by rw [same]))).symm
  | updateMerchant id set =>
    simp only [accountTargets, List.mem_singleton] at spared
    cases r <;> simp only [Same, applyAccount]
    case merchant k => exact (find?_update_other (fun same => spared (by rw [same]))).symm
    case merchantOwner u => exact (any_update _ _ _ _ (fun _ => rfl)).symm
  | insertBankAccount a =>
    simp only [accountTargets, List.mem_singleton] at spared
    cases r <;> simp only [Same, applyAccount]
    case bankAccount k => exact (find?_insert_other (fun same => spared (by rw [← same]; rfl))).symm
  | updateBankAccount id set =>
    simp only [accountTargets, List.mem_singleton] at spared
    cases r <;> simp only [Same, applyAccount]
    case bankAccount k => exact (find?_update_other (fun same => spared (by rw [same]))).symm
  | revokeRefreshToken hash =>
    simp only [accountTargets, List.mem_singleton] at spared
    cases r <;> simp only [Same, applyAccount]
    case refreshToken k => exact (find?_update_other (fun same => spared (by rw [same]))).symm
  | insertSubmission s =>
    simp only [accountTargets, List.mem_singleton] at spared
    cases r <;> simp only [Same, applyAccount]
    case submission k => exact (find?_insert_other (fun same => spared (by rw [← same]; rfl))).symm
  | reviewSubmission id review =>
    simp only [accountTargets, List.mem_singleton] at spared
    cases r <;> simp only [Same, applyAccount]
    case submission k => exact (find?_update_other (fun same => spared (by rw [same]))).symm

theorem frame_write {r : Row} {w : Write} (db : Database) (spared : r ∉ writeTargets w) :
    Same r db (applyWrite w db) := by
  cases w with
  | insertUser u =>
    simp only [writeTargets, List.mem_append, List.mem_cons, List.not_mem_nil, or_false,
      Option.mem_toList, Option.map_eq_some_iff, not_or, not_exists, not_and] at spared
    obtain ⟨⟨id, email⟩, phone⟩ := spared
    cases r <;> simp only [Same, applyWrite]
    case user k => exact (find?_insert_other (fun same => id (by rw [← same]; rfl))).symm
    case email e => exact (any_insert_other (by simpa using fun same => email (by rw [same]))).symm
    case phone p => exact (any_insert_other (by simpa using fun same => phone p same rfl)).symm
  | insertWallet w =>
    simp only [writeTargets, List.mem_cons, List.not_mem_nil, or_false, not_or] at spared
    obtain ⟨id, owner⟩ := spared
    cases r <;> simp only [Same, applyWrite]
    case wallet k => exact (find?_insert_other (fun same => id (by rw [← same]; rfl))).symm
    case walletOwner u => exact (any_insert_other (by simpa using fun same => owner (by rw [same]))).symm
  | setBalance id b =>
    simp only [writeTargets, List.mem_singleton] at spared
    cases r <;> simp only [Same, applyWrite]
    case wallet k => exact (find?_update_other (fun same => spared (by rw [same]))).symm
    case walletOwner u => exact (any_update _ _ _ _ (fun _ => rfl)).symm
  | insertTransaction t =>
    simp only [writeTargets, List.mem_append, List.mem_cons, List.not_mem_nil, or_false,
      Option.mem_toList, Option.map_eq_some_iff, not_or, not_exists, not_and] at spared
    obtain ⟨⟨id, reference⟩, idem⟩ := spared
    cases r <;> simp only [Same, applyWrite]
    case transaction k => exact (find?_insert_other (fun same => id (by rw [← same]; rfl))).symm
    case reference s =>
      exact (any_insert_other (by simpa using fun same => reference (by rw [same]))).symm
    case idempotencyKey k => exact (any_insert_other (by simpa using fun same => idem k same rfl)).symm
  | updateTransaction id set =>
    simp only [writeTargets, List.mem_singleton] at spared
    cases r <;> simp only [Same, applyWrite]
    case transaction k => exact (find?_update_other (fun same => spared (by rw [same]))).symm
    case reference s => exact (any_update _ _ _ _ (fun _ => rfl)).symm
    case idempotencyKey k => exact (any_update _ _ _ _ (fun _ => rfl)).symm
  | insertEntry e => cases r <;> rfl
  | setRecipientCode id code =>
    simp only [writeTargets, List.mem_singleton] at spared
    cases r <;> simp only [Same, applyWrite]
    case bankAccount k => exact (find?_update_other (fun same => spared (by rw [same]))).symm
  | insertRefreshToken t =>
    simp only [writeTargets, List.mem_singleton] at spared
    cases r <;> simp only [Same, applyWrite]
    case refreshToken k => exact (find?_insert_other (fun same => spared (by rw [← same]; rfl))).symm
  | insertDelivery d =>
    simp only [writeTargets, List.mem_singleton] at spared
    cases r <;> simp only [Same, applyWrite]
    case webhookDelivery k => exact (find?_insert_other (fun same => spared (by rw [← same]; rfl))).symm
  | updateDelivery id set =>
    simp only [writeTargets, List.mem_singleton] at spared
    cases r <;> simp only [Same, applyWrite]
    case webhookDelivery k => exact (find?_update_other (fun same => spared (by rw [same]))).symm
  | insertAuditLog l => cases r <;> rfl
  | account w => exact frame_account db spared

instance : Store Write Database Row where
  apply := applyWrite
  targets := writeTargets
  Same := Same
  same_refl r db := by cases r <;> rfl
  same_trans {r} _ _ _ h g := by cases r <;> exact Eq.trans h g
  frame db h := frame_write db h

@[simp] theorem store_apply (w : Write) (db : Database) : Store.apply w db = applyWrite w db := rfl

end PayCoreWrites
