import PayCore.Model.Sessions

/- app/repositories: one statement each. An INSERT or UPDATE is flushed and read
   back at once, as the repositories do. -/
namespace PayCoreRepositories
open KeyedTable SessionProgram PayCoreTables PayCoreWrites PayCoreSessions

namespace WalletRepository

def live (w : Wallet) : Bool := w.deletedAt.isNone

/-- SELECT of one wallet: the row is found in the database, the object may be older. -/
def select (rows : List Row) (pick : Database → Option Wallet) : Tx (Option Wallet) :=
  .stmt rows (fun _ _ => [])
    (fun db m => match pick db with
      | some row => m.keepWallet (m.wallet row)
      | none => m)
    (fun db m => .ret ((pick db).map m.wallet))
    (.raise .database)

def byUserId (userId : Uuid) (db : Database) : Option Wallet :=
  db.wallets.rows.find? (fun w => w.userId == userId && live w)

def byId (id : Uuid) (db : Database) : Option Wallet := (db.wallets.find? id).filter live

def getByUserId (userId : Uuid) : Tx (Option Wallet) := select [] (byUserId userId)

def lockForUpdate (id : Uuid) : Tx (Option Wallet) := select [.wallet id] (byId id)

def create (id userId : Uuid) (currency : String) : Tx Wallet :=
  let wallet : Wallet := { id, userId, currency }
  .stmt []
    (fun db _ => if db.wallets.admits wallet then [.insertWallet wallet] else [])
    (fun db m => if db.wallets.admits wallet then m.keepWallet wallet else m)
    (fun db _ =>
      if db.wallets.admits wallet then .ret wallet
      else if (db.wallets.find? id).isSome then .raise (.integrity .walletsKey)
      else .raise (.integrity .walletsUserId))
    (.raise .database)

/-- What the column takes: a NUMERIC(20, 2), under the CHECK constraint. -/
def storable (newBalance : Int) : Prop := 0 ≤ newBalance ∧ newBalance < 10 ^ 20

instance (newBalance : Int) : Decidable (storable newBalance) := inferInstanceAs (Decidable (_ ∧ _))

/-- The CHECK constraint ck_wallets_balance_non_negative refuses a negative balance, the type of the
column one of more than eighteen digits before the point. -/
def updateBalance (wallet : Wallet) (newBalance : Int) : Tx Wallet :=
  let refreshed := fun (db : Database) =>
    { (db.wallets.find? wallet.id).getD wallet with balance := newBalance }
  .stmt [.wallet wallet.id]
    (fun _ _ => if storable newBalance then [.setBalance wallet.id newBalance] else [])
    (fun db m => if storable newBalance then m.keepWallet (refreshed db) else m)
    (fun db _ =>
      if storable newBalance then .ret (refreshed db)
      else if newBalance.natAbs < 10 ^ 20 then .raise (.integrity .walletsBalanceNonNegative)
      else .raise .database)
    (.raise .database)

end WalletRepository

/-- The value to set, unless the row has it already: an unchanged attribute is not dirty. -/
def changed {α : Type} [DecidableEq α] (value : Option α) (current : Option α) : Option α :=
  if value = current then none else value

/-- What a VARCHAR(width) column makes of a text: blanks beyond the width are cut off, a longer
   text and one with a NUL character are refused. -/
def varchar (width : Nat) (s : String) : Option String :=
  if s.toList.contains (Char.ofNat 0) then none
  else if s.length ≤ width then some s
  else if (s.toList.drop width).all (· == ' ') then some (String.ofList (s.toList.take width))
  else none

def fits (width : Nat) (s : String) : Bool := varchar width s == some s

def flushAccount (writes : List AccountWrite) : Tx Unit :=
  .stmt [] (fun _ _ => writes.map .account) (fun _ m => m) (fun _ _ => .ret ()) (.raise .database)

/-- INSERT of one account row; `refused` names the constraint that stands against it. -/
def insertAccount (write : AccountWrite) (admitted : Database → Bool) (refused : Database → Constraint) :
    Tx Unit :=
  .stmt [] (fun db _ => if admitted db then [.account write] else []) (fun _ m => m)
    (fun db _ => if admitted db then .ret () else .raise (.integrity (refused db)))
    (.raise .database)

namespace UserRepository

def byId (id : Uuid) (db : Database) : Option User :=
  (db.users.find? id).filter (fun u => u.deletedAt.isNone)

def byEmail (email : String) (db : Database) : Option User :=
  db.users.rows.find? (fun u => u.email == email && u.deletedAt.isNone)

def byPhone (phone : String) (db : Database) : Option User :=
  db.users.rows.find? (fun u => u.phone == some phone && u.deletedAt.isNone)

def getById (id : Uuid) : Tx (Option User) := query (byId id)

def getByPhone (phone : String) : Tx (Option User) := query (byPhone phone)

/-- `normalize` is `str.lower().strip()`. -/
def getByEmail (normalize : String → String) (email : String) : Tx (Option User) :=
  query (byEmail (normalize email))

def insert (user : User) : Tx User :=
  .stmt []
    (fun db _ => if db.users.admits user then [.insertUser user] else [])
    (fun _ m => m)
    (fun db _ =>
      if db.users.admits user then .ret user
      else if (db.users.find? user.id).isSome then .raise (.integrity .usersKey)
      else if db.users.rows.any (·.email == user.email) then .raise (.integrity .usersEmail)
      else .raise (.integrity .usersPhone))
    (.raise .database)

/-- The schema's EmailStr keeps an address within its column, and a bcrypt hash has 60 characters. -/
def create (normalize : String → String) (id : Uuid) (email hashedPassword fullName : String)
    (phone : Option String) : Tx User := do
  let fullName ← orRaise (varchar 255 fullName) .database
  let phone ← orRaise (phone.mapM (varchar 20)) .database
  insert { id, email := normalize email, hashedPassword, fullName, phone }

def heldPhone (id : Uuid) (db : Database) : Option String := (db.users.find? id).bind (·.phone)

/-- The values of the dirty columns fit in. The schema strips both, so that no blanks are cut off. -/
def fitting (user : User) (fullName phone : Option String) : Bool :=
  (fullName.bind fun n => changed (some n) (some user.fullName)).all (fits 255) &&
    (phone.bind fun p => changed (some p) user.phone).all (fits 20)

def updateProfile (user : User) (fullName phone : Option String) : Tx User := do
  require (fitting user fullName phone) .database
  let name := fullName.bind fun n => changed (some n) (some user.fullName)
  let number := phone.bind fun p => changed (some p) user.phone
  let profile : User := { user with fullName := fullName.getD user.fullName, phone := phone.or user.phone }
  let fits := fun (db : Database) =>
    number.all fun p => db.users.allows (rephone user.id (heldPhone user.id db) p)
  .stmt []
    (fun db _ =>
      if fits db then
        ((name.map fun n => AccountWrite.updateUser user.id { fullName := some n }).toList ++
          (number.map fun p => AccountWrite.changePhone user.id (heldPhone user.id db)
            p).toList).map .account
      else [])
    (fun _ m => m)
    (fun db _ => if fits db then .ret profile else .raise (.integrity .usersPhone))
    (.raise .database)

def updateKycTier (user : User) (tier : Nat) : Tx User := do
  flushAccount (if user.kycTier = tier then [] else [.updateUser user.id { kycTier := some tier }])
  pure { user with kycTier := tier }

end UserRepository

namespace TransactionRepository

def select (pick : Database → Except AppError (Option Transaction)) : Tx (Option Transaction) :=
  .stmt [] (fun _ _ => [])
    (fun db m => match pick db with
      | .ok (some row) => m.keepTransaction (m.transaction row)
      | _ => m)
    (fun db m => match pick db with
      | .ok found => .ret (found.map m.transaction)
      | .error x => .raise x)
    (.raise .database)

def scalarOneOrNone {α : Type} : List α → Except AppError (Option α)
  | [] => .ok none
  | [a] => .ok (some a)
  | _ => .error .multipleResultsFound

def byReference (reference : String) (db : Database) : Option Transaction :=
  db.transactions.rows.find? (·.reference == reference)

def byIdempotencyKey (idempotencyKey : String) (db : Database) : Option Transaction :=
  db.transactions.rows.find? (·.idempotencyKey == some idempotencyKey)

def byProviderReference (reference : String) (db : Database) :
    Except AppError (Option Transaction) :=
  scalarOneOrNone (db.transactions.rows.filter (·.providerReference == some reference))

def getById (id : Uuid) : Tx (Option Transaction) :=
  select (fun db => .ok (db.transactions.find? id))

def getByReference (reference : String) : Tx (Option Transaction) :=
  select (fun db => .ok (byReference reference db))

/-- Nothing makes provider_reference unique: two rows raise MultipleResultsFound. -/
def getByProviderReference (reference : String) : Tx (Option Transaction) :=
  select (byProviderReference reference)

def getByIdempotencyKey (idempotencyKey : String) : Tx (Option Transaction) :=
  select (fun db => .ok (byIdempotencyKey idempotencyKey db))

def violated (t : Transaction) (db : Database) : Constraint :=
  if (db.transactions.find? t.id).isSome then .transactionsKey
  else if db.transactions.rows.any (·.reference == t.reference) then .transactionsReference
  else .transactionsIdempotencyKey

def insert (t : Transaction) : Tx Transaction :=
  .stmt []
    (fun db _ => if db.transactions.admits t then [.insertTransaction t] else [])
    (fun db m => if db.transactions.admits t then m.keepTransaction t else m)
    (fun db _ =>
      if db.transactions.admits t then .ret t else .raise (.integrity (violated t db)))
    (.raise .database)

/-- The amount goes into a NUMERIC(20, 2). -/
def create (t : Transaction) : Tx Transaction :=
  if t.amount.natAbs < 10 ^ 20 then insert t else .raise .database

def flush (txn : Transaction) (set : TransactionUpdate) : Tx Transaction :=
  let refreshed := fun (db : Database) => set.on ((db.transactions.find? txn.id).getD txn)
  .stmt [.transaction txn.id]
    (fun _ _ => [.updateTransaction txn.id set])
    (fun db m => m.keepTransaction (refreshed db))
    (fun db _ => .ret (refreshed db))
    (.raise .database)

def statusValue : TransactionStatus → String
  | .pending => "pending"
  | .processing => "processing"
  | .completed => "completed"
  | .failed => "failed"
  | .reversed => "reversed"

/-- The transition is checked against the session's object, not against the row. -/
def updateStatus (txn : Transaction) (newStatus : TransactionStatus)
    (failureReason : Option String) : Tx Transaction :=
  if newStatus ∈ validTransitions txn.status then
    flush txn { status := some newStatus, failureReason }
  else
    .raise (.validation ("Cannot transition transaction from '" ++ statusValue txn.status ++
      "' to '" ++ statusValue newStatus ++ "'.") "INVALID_STATUS_TRANSITION")

end TransactionRepository

namespace LedgerRepository

/-- What the columns of an entry cannot take belongs to a balance that `updateBalance` refuses. -/
def createEntry (e : LedgerEntry) : Tx LedgerEntry :=
  .stmt [] (fun _ _ => [.insertEntry e]) (fun _ m => m) (fun _ _ => .ret e) (.raise .database)

end LedgerRepository

namespace MerchantRepository

def byId (id : Uuid) (db : Database) : Option Merchant :=
  (db.merchants.find? id).filter (fun m => m.deletedAt.isNone)

def byUserId (userId : Uuid) (db : Database) : Option Merchant :=
  db.merchants.rows.find? (fun m => m.userId == userId && m.deletedAt.isNone)

def getById (id : Uuid) : Tx (Option Merchant) := query (byId id)

def getByUserId (userId : Uuid) : Tx (Option Merchant) := query (byUserId userId)

def create (merchant : Merchant) : Tx Merchant := do
  insertAccount (.insertMerchant merchant) (fun db => db.merchants.admits merchant)
    (fun db => if (db.merchants.find? merchant.id).isSome then .merchantsKey else .merchantsUserId)
  pure merchant

def update (merchant : Merchant) (set : MerchantUpdate) : Tx Merchant := do
  let dirty : MerchantUpdate :=
    { apiKeyHash := set.apiKeyHash.bind fun h => changed (some h) (some merchant.apiKeyHash)
      apiKeyPrefix := set.apiKeyPrefix.bind fun p => changed (some p) (some merchant.apiKeyPrefix)
      webhookUrl := set.webhookUrl.bind fun u => changed (some u) merchant.webhookUrl
      webhookSecret := set.webhookSecret.bind fun s => changed (some s) merchant.webhookSecret }
  flushAccount (if dirty = {} then [] else [.updateMerchant merchant.id dirty])
  pure ((merchantEdit set).on merchant)

def updateApiKey (merchant : Merchant) (apiKeyHash apiKeyPrefix : String) : Tx Merchant :=
  update merchant { apiKeyHash := some apiKeyHash, apiKeyPrefix := some apiKeyPrefix }

def updateWebhook (merchant : Merchant) (webhookUrl webhookSecret : Option String) : Tx Merchant :=
  update merchant { webhookUrl, webhookSecret }

end MerchantRepository

namespace RefreshTokenRepository

def getByHash (tokenHash : String) : Tx (Option RefreshToken) :=
  query fun db => db.refreshTokens.find? tokenHash

def revoke (token : RefreshToken) : Tx Unit :=
  flushAccount (if token.isRevoked then [] else [.revokeRefreshToken token.tokenHash])

end RefreshTokenRepository

namespace KYCRepository

def activeForTier (userId : Uuid) (requestedTier : Nat) (db : Database) : Option KYCSubmission :=
  db.kycSubmissions.rows.find? (fun s => s.userId == userId && s.requestedTier == requestedTier &&
    s.status != .rejected)

def create (submission : KYCSubmission) : Tx KYCSubmission := do
  insertAccount (.insertSubmission submission) (fun db => db.kycSubmissions.admits submission)
    (fun _ => .kycSubmissionsKey)
  pure submission

def getById (submissionId : Uuid) : Tx (Option KYCSubmission) :=
  query fun db => db.kycSubmissions.find? submissionId

def getActiveForTier (userId : Uuid) (requestedTier : Nat) : Tx (Option KYCSubmission) :=
  query (activeForTier userId requestedTier)

def review (submission : KYCSubmission) (review : Review) : Tx KYCSubmission := do
  flushAccount [.reviewSubmission submission.id review]
  pure ((reviewEdit review).on submission)

end KYCRepository

namespace BankAccountRepository

def byId (id : Uuid) (db : Database) : Option BankAccount :=
  (db.bankAccounts.find? id).filter (fun a => a.deletedAt.isNone)

def getById (id : Uuid) : Tx (Option BankAccount) := query (byId id)

def liveOf (userId : Uuid) (db : Database) : List BankAccount :=
  db.bankAccounts.rows.filter (fun a => a.userId == userId && a.deletedAt.isNone)

/-- ORDER BY created_at: the rows stand in the order of their insertion. -/
def getByUserId (userId : Uuid) : Tx (List BankAccount) := query (liveOf userId)

def countByUser (userId : Uuid) : Tx Nat := query fun db => (liveOf userId db).length

def defaultsOf (userId : Uuid) (db : Database) : List BankAccount := (liveOf userId db).filter (·.isDefault)

def getDefault (userId : Uuid) : Tx (Option BankAccount) := do
  let found ← query fun db => TransactionRepository.scalarOneOrNone (defaultsOf userId db)
  match found with
  | .ok account => pure account
  | .error x => .raise x

def create (account : BankAccount) : Tx BankAccount := do
  insertAccount (.insertBankAccount account) (fun db => db.bankAccounts.admits account)
    (fun _ => .bankAccountsKey)
  pure account

def unsetAllDefaults (userId : Uuid) : Tx Unit :=
  .stmt []
    (fun db _ => (liveOf userId db).map fun a =>
      .account (.updateBankAccount a.id { isDefault := some false }))
    (fun _ m => m) (fun _ _ => .ret ()) (.raise .database)

/-- The bulk UPDATE reaches the loaded object too, so that its flag is dirty in any case. -/
def setDefault (account : BankAccount) : Tx BankAccount := do
  unsetAllDefaults account.userId
  flushAccount [.updateBankAccount account.id { isDefault := some true }]
  pure { account with isDefault := true }

/-- The oldest remaining account becomes the default in the place of a deleted one. -/
def softDelete (account : BankAccount) (now : Timestamp) : Tx Unit :=
  if account.isDefault then do
    flushAccount [.updateBankAccount account.id { isDefault := some false, deletedAt := some now }]
    let remaining ← getByUserId account.userId
    match remaining with
    | [] => pure ()
    | oldest :: _ =>
      flushAccount (if oldest.isDefault then []
        else [.updateBankAccount oldest.id { isDefault := some true }])
  else
    flushAccount [.updateBankAccount account.id { deletedAt := some now }]

def setRecipientCode (account : BankAccount) (code : String) : Tx Unit :=
  .stmt [.bankAccount account.id] (fun _ _ => [.setRecipientCode account.id code])
    (fun _ m => m) (fun _ _ => .ret ()) (.raise .database)

end BankAccountRepository

namespace FraudRepository

def dailyOutgoingSum (userId : Uuid) (type : TransactionType) (dayStart : Timestamp)
    (db : Database) : Int :=
  ((db.transactions.rows.filter (fun t => t.initiatedByUserId == userId && t.type == type &&
    t.status == .completed && decide (dayStart ≤ t.createdAt))).map (·.amount)).sum

def recentTransfers (sourceWalletId destinationWalletId : Uuid) (amount : Int)
    (since : Timestamp) (db : Database) : Nat :=
  (db.transactions.rows.filter (fun t => t.sourceWalletId == some sourceWalletId &&
    t.destinationWalletId == some destinationWalletId && t.amount == amount &&
    t.type == .transfer && decide (since ≤ t.createdAt))).length

/-- COUNT(DISTINCT destination_wallet_id) -/
def distinctRecipients (sourceWalletId : Uuid) (since : Timestamp) (db : Database) : Nat :=
  ((db.transactions.rows.filter (fun t => t.sourceWalletId == some sourceWalletId &&
    t.type == .transfer && decide (since ≤ t.createdAt))).filterMap
      (·.destinationWalletId)).eraseDups.length

def getDailyOutgoingSum (userId : Uuid) (type : TransactionType) (dayStart : Timestamp) :
    Tx Int := query (dailyOutgoingSum userId type dayStart)

def countRecentTransfers (sourceWalletId destinationWalletId : Uuid) (amount : Int)
    (since : Timestamp) : Tx Nat :=
  query (recentTransfers sourceWalletId destinationWalletId amount since)

def countDistinctRecipientsRecently (sourceWalletId : Uuid) (since : Timestamp) : Tx Nat :=
  query (distinctRecipients sourceWalletId since)

end FraudRepository

end PayCoreRepositories
