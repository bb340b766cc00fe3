import Mathlib.Data.List.Basic
import PayCore.Library.KeyedTable

/- The tables of app/models. Amounts and balances are NUMERIC(20, 2) columns in
   NGN and are counted here in kobo, so that NGN 1.00 is 100. UUIDs are numbers:
   the order of their canonical strings is the numeric order. -/
namespace PayCoreTables
open KeyedTable

abbrev Uuid := Nat
/-- Microseconds since the epoch, in UTC. -/
abbrev Timestamp := Nat

inductive UserRole where
  | user | merchant | admin
  deriving DecidableEq, Repr

inductive TransactionType where
  | funding | transfer | merchantPayment | withdrawal | reversal
  deriving DecidableEq, Repr

inductive TransactionStatus where
  | pending | processing | completed | failed | reversed
  deriving DecidableEq, Repr

inductive EntryType where
  | debit | credit
  deriving DecidableEq, Repr

inductive ActorType where
  | user | system | admin
  deriving DecidableEq, Repr

inductive WebhookDeliveryStatus where
  | pending | delivered | failed
  deriving DecidableEq, Repr

inductive KYCStatus where
  | pending | approved | rejected
  deriving DecidableEq, Repr

def validTransitions : TransactionStatus → List TransactionStatus
  | .pending => [.processing]
  | .processing => [.completed, .failed]
  | .completed => [.reversed]
  | .failed => []
  | .reversed => []

structure User where
  id : Uuid
  email : String
  phone : Option String := none
  hashedPassword : String
  fullName : String
  role : UserRole := .user
  kycTier : Nat := 0
  isActive : Bool := true
  deletedAt : Option Timestamp := none
  deriving DecidableEq, Repr

structure Wallet where
  id : Uuid
  userId : Uuid
  currency : String := "NGN"
  balance : Int := 0
  isActive : Bool := true
  deletedAt : Option Timestamp := none
  deriving DecidableEq, Repr

/-- A key of a JSON object that holds a string where it is present and not null. -/
inductive Field where
  | absent
  | null
  | str (s : String)
  deriving DecidableEq, Repr

/-- `data.get(key, default)` -/
def Field.get (f : Field) (default : String) : Option String :=
  match f with
  | .absent => some default
  | .null => none
  | .str s => some s

/-- The JSON objects that the services store in `transactions.metadata`. -/
structure ExtraData where
  paymentUrl : Field := .absent
  bankAccountId : Option Uuid := none
  deriving DecidableEq, Repr

structure Transaction where
  id : Uuid
  reference : String
  type : TransactionType
  status : TransactionStatus := .pending
  amount : Int
  currency : String := "NGN"
  sourceWalletId : Option Uuid := none
  destinationWalletId : Option Uuid := none
  initiatedByUserId : Uuid
  providerReference : Option String := none
  idempotencyKey : Option String := none
  extraData : Option ExtraData := none
  failureReason : Option String := none
  createdAt : Timestamp
  riskFlagged : Bool := false
  deriving DecidableEq, Repr

structure LedgerEntry where
  transactionId : Uuid
  walletId : Uuid
  entryType : EntryType
  amount : Int
  currency : String
  balanceAfter : Int
  deriving DecidableEq, Repr

structure Merchant where
  id : Uuid
  userId : Uuid
  businessName : String
  webhookUrl : Option String := none
  isActive : Bool := true
  deletedAt : Option Timestamp := none
  apiKeyHash : String := ""
  apiKeyPrefix : String := ""
  webhookSecret : Option String := none
  deriving DecidableEq, Repr

structure BankAccount where
  id : Uuid
  userId : Uuid
  accountName : String
  accountNumber : String
  bankCode : String
  bankName : String
  isDefault : Bool := false
  paystackRecipientCode : Option String := none
  deletedAt : Option Timestamp := none
  deriving DecidableEq, Repr

structure RefreshToken where
  userId : Uuid
  tokenHash : String
  expiresAt : Timestamp
  isRevoked : Bool := false
  deriving DecidableEq, Repr

structure WebhookDelivery where
  id : Uuid
  merchantId : Uuid
  transactionId : Uuid
  eventType : String
  status : WebhookDeliveryStatus := .pending
  attemptCount : Nat := 0
  nextRetryAt : Option Timestamp := none
  lastResponseCode : Option Nat := none
  lastError : Option String := none
  deriving DecidableEq, Repr

structure KYCSubmission where
  id : Uuid
  userId : Uuid
  requestedTier : Nat
  status : KYCStatus := .pending
  documentKey : String
  reviewerId : Option Uuid := none
  rejectionReason : Option String := none
  reviewedAt : Option Timestamp := none
  deriving DecidableEq, Repr

structure AuditLog where
  actorId : Option Uuid
  actorType : ActorType
  action : String
  targetType : Option String
  targetId : Option Uuid
  deriving DecidableEq, Repr

/-- UNIQUE on a nullable column: two rows clash only on a value. -/
def sharesSome {α : Type} [BEq α] (a b : Option α) : Bool := a.isSome && a == b

theorem sharesSome_symm {α : Type} [DecidableEq α] (a b : Option α) :
    sharesSome a b = sharesSome b a := by
  cases a <;> cases b <;> simp [sharesSome, Bool.beq_comm]

theorem sharesSome_iff {α : Type} [DecidableEq α] {a b : Option α} :
    sharesSome a b = true ↔ ∃ x, a = some x ∧ b = some x := by
  cases a with
  | none => simp [sharesSome]
  | some x =>
    cases b with
    | none => simp [sharesSome]
    | some y =>
      simp only [sharesSome, Option.isSome_some, Bool.true_and, beq_iff_eq, Option.some.injEq]
      constructor
      · intro same
        exact ⟨x, rfl, same.symm⟩
      · rintro ⟨z, rfl, rfl⟩
        rfl

instance : Keyed User Uuid where
  key := User.id
  clash a b := a.id == b.id || a.email == b.email || sharesSome a.phone b.phone
  clash_symm a b := by rw [Bool.beq_comm, Bool.beq_comm (a := a.email), sharesSome_symm]
  clash_of_key a b h := by simp [h]

instance : Keyed Wallet Uuid where
  key := Wallet.id
  clash a b := a.id == b.id || a.userId == b.userId
  clash_symm a b := by rw [Bool.beq_comm, Bool.beq_comm (a := a.userId)]
  clash_of_key a b h := by simp [h]

instance : Keyed Transaction Uuid where
  key := Transaction.id
  clash a b :=
    a.id == b.id || a.reference == b.reference || sharesSome a.idempotencyKey b.idempotencyKey
  clash_symm a b := by rw [Bool.beq_comm, Bool.beq_comm (a := a.reference), sharesSome_symm]
  clash_of_key a b h := by simp [h]

instance : Keyed Merchant Uuid where
  key := Merchant.id
  clash a b := a.id == b.id || a.userId == b.userId
  clash_symm a b := by rw [Bool.beq_comm, Bool.beq_comm (a := a.userId)]
  clash_of_key a b h := by simp [h]

instance : Keyed BankAccount Uuid where
  key := BankAccount.id
  clash a b := a.id == b.id
  clash_symm a b := Bool.beq_comm
  clash_of_key a b h := by simp [h]

instance : Keyed RefreshToken String where
  key := RefreshToken.tokenHash
  clash a b := a.tokenHash == b.tokenHash
  clash_symm a b := Bool.beq_comm
  clash_of_key a b h := by simp [h]

instance : Keyed WebhookDelivery Uuid where
  key := WebhookDelivery.id
  clash a b := a.id == b.id
  clash_symm a b := Bool.beq_comm
  clash_of_key a b h := by simp [h]

instance : Keyed KYCSubmission Uuid where
  key := KYCSubmission.id
  clash a b := a.id == b.id
  clash_symm a b := Bool.beq_comm
  clash_of_key a b h := by simp [h]

@[simp] theorem wallet_key (w : Wallet) : key w = w.id := rfl

@[simp] theorem transaction_key (t : Transaction) : key t = t.id := rfl

@[simp] theorem bankAccount_key (b : BankAccount) : key b = b.id := rfl

structure Database where
  users : Table User
  wallets : Table Wallet
  transactions : Table Transaction
  ledgerEntries : List LedgerEntry
  merchants : Table Merchant
  bankAccounts : Table BankAccount
  refreshTokens : Table RefreshToken
  webhookDeliveries : Table WebhookDelivery
  auditLogs : List AuditLog
  kycSubmissions : Table KYCSubmission

def emptyDatabase : Database :=
  ⟨.empty, .empty, .empty, [], .empty, .empty, .empty, .empty, [], .empty⟩

end PayCoreTables
