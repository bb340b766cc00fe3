import PayCore.Model.Writes

/- What one AsyncSession adds to the database: the identity map with the objects
   it has loaded, the exceptions that cross it, and the calls that leave the
   process (the Paystack API, the document storage and the Celery broker). -/
namespace PayCoreSessions
open SessionProgram PayCoreTables PayCoreWrites

/-- The objects a session holds. A row that is read again is handed back as the
    object already loaded, with the attributes it was loaded with. -/
structure IdentityMap where
  wallets : Uuid → Option Wallet
  transactions : Uuid → Option Transaction
  walletsKeyed : ∀ id w, wallets id = some w → w.id = id
  transactionsKeyed : ∀ id t, transactions id = some t → t.id = id

instance : Inhabited IdentityMap where
  default :=
    { wallets := fun _ => none
      transactions := fun _ => none
      walletsKeyed := by simp
      transactionsKeyed := by simp }

def IdentityMap.wallet (m : IdentityMap) (row : Wallet) : Wallet := (m.wallets row.id).getD row

def IdentityMap.transaction (m : IdentityMap) (row : Transaction) : Transaction :=
  (m.transactions row.id).getD row

def IdentityMap.keepWallet (m : IdentityMap) (w : Wallet) : IdentityMap :=
  { m with
    wallets := Function.update m.wallets w.id (some w)
    walletsKeyed := by
      intro id v
      rw [Function.update_apply]
      split
      · rintro ⟨rfl⟩
        exact Eq.symm ‹id = _›
      · exact m.walletsKeyed id v }

def IdentityMap.keepTransaction (m : IdentityMap) (t : Transaction) : IdentityMap :=
  { m with
    transactions := Function.update m.transactions t.id (some t)
    transactionsKeyed := by
      intro id v
      rw [Function.update_apply]
      split
      · rintro ⟨rfl⟩
        exact Eq.symm ‹id = _›
      · exact m.transactionsKeyed id v }

@[simp] theorem wallet_id (m : IdentityMap) (row : Wallet) : (m.wallet row).id = row.id := by
  unfold IdentityMap.wallet
  cases held : m.wallets row.id with
  | none => rfl
  | some w => exact m.walletsKeyed _ _ held

@[simp] theorem transaction_id (m : IdentityMap) (row : Transaction) :
    (m.transaction row).id = row.id := by
  unfold IdentityMap.transaction
  cases held : m.transactions row.id with
  | none => rfl
  | some t => exact m.transactionsKeyed _ _ held

inductive Constraint where
  | usersKey | usersEmail | usersPhone
  | walletsKey | walletsUserId | walletsBalanceNonNegative
  | transactionsKey | transactionsReference | transactionsIdempotencyKey
  | refreshTokensHash
  | merchantsKey | merchantsUserId | bankAccountsKey | kycSubmissionsKey
  deriving DecidableEq, Repr

/-- app/core/exceptions.py, and what SQLAlchemy, the driver, Celery and pydantic raise. -/
inductive AppError where
  | unauthorized (message : String)
  | notFound (resource : String)
  | conflict (message code : String)
  | forbidden (message : String)
  | validation (message code : String)
  | insufficientBalance
  | kycTier (message : String)
  | dailyLimit
  | duplicateTransfer
  | externalService (service : String)
  | integrity (c : Constraint)
  | multipleResultsFound
  | database
  | broker
  | responseModel
  deriving DecidableEq, Repr

inductive Task where
  | processWithdrawal (transactionId : Uuid)
  | flagTransactionRisk (transactionId : Uuid)
  | deliverMerchantWebhook (deliveryId : Uuid)
  | checkStaleTransactions
  deriving DecidableEq, Repr

inductive Request where
  | initializeTransaction (email : String) (amountKobo : Int) (reference : String)
  | verifyTransaction (reference : String)
  | createTransferRecipient (name accountNumber bankCode : String)
  | initiateTransfer (amountKobo : Int) (recipientCode reference reason : String)
  | resolveAccount (accountNumber bankCode : String)
  | uploadFile (fileBytes : List UInt8) (key : String)
  | delay (task : Task)
  | postWebhook (url : String) (deliveryId : Uuid)
  deriving DecidableEq, Repr

/-- `if value:` on an optional string -/
def truthy (s : Option String) : Bool := s.getD "" != ""

theorem truthy_iff {s : Option String} : truthy s = true ↔ ∃ k, s = some k ∧ k ≠ "" := by
  cases s <;> simp [truthy]

/-- The `data` objects of Paystack's replies and events, as far as the code reads them, and the
   status code of a merchant's response. -/
structure PaystackData where
  reference : Field := .absent
  status : Field := .absent
  amount : Option Int := none
  authorizationUrl : Field := .absent
  recipientCode : Field := .absent
  transferCode : Field := .absent
  accountName : Field := .absent
  statusCode : Nat := 0
  deriving DecidableEq, Repr

abbrev Tx (α : Type) := Prog Database IdentityMap Write Row Request PaystackData AppError α

def query {α : Type} (f : Database → α) : Tx α :=
  .stmt [] (fun _ _ => []) (fun _ m => m) (fun db _ => .ret (f db)) (.raise .database)

def commit : Tx Unit := .commit (.ret ()) (.raise .database)

def rollback : Tx Unit := .rollback (.ret ())

def paystack (request : Request) : Tx PaystackData :=
  .call request .ret (.raise (.externalService "Paystack"))

def enqueue (task : Task) : Tx Unit :=
  .call (.delay task) (fun _ => .ret ()) (.raise .broker)

/-- `if not condition: raise error` -/
def require (condition : Bool) (error : AppError) : Tx Unit :=
  if condition then .ret () else .raise error

/-- `if value is None: raise error` -/
def orRaise {α : Type} (value : Option α) (error : AppError) : Tx α :=
  match value with
  | some a => .ret a
  | none => .raise error

end PayCoreSessions
