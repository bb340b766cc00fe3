import PayCore.Service.Support

/- app/services/transfer.py and app/services/merchant_payment.py -/
namespace PayCorePayments
open SessionProgram PayCoreTables PayCoreWrites PayCoreSessions PayCoreRepositories PayCoreSupport

inductive Recipient where
  | userId (id : Uuid)
  | email (email : String)
  deriving DecidableEq, Repr

/-- How the locked section of a payment ends: its own transaction is committed, or
   the one that took the idempotency key first is handed back. -/
inductive Movement where
  | committed (txn : Transaction)
  | existing (txn : Transaction)

structure Draws where
  transactionId : Uuid
  hex : String
  deliveryId : Uuid
  clock : Clock

section
variable (type : TransactionType) (initiator : User) (amount : Int)
  (idempotencyKey : Option String) (draws : Draws)

/-- The body of the `try`: transaction, ledger entries, balances, commit. -/
def writeMovement (lockedSender lockedRecipient : Wallet) : Tx Movement := do
  let senderBalanceAfter := lockedSender.balance - amount
  let recipientBalanceAfter := lockedRecipient.balance + amount
  let txn ← TransactionRepository.create
    { id := draws.transactionId
      reference := "txn_" ++ draws.hex
      type
      status := .completed
      amount
      currency := lockedSender.currency
      sourceWalletId := some lockedSender.id
      destinationWalletId := some lockedRecipient.id
      initiatedByUserId := initiator.id
      idempotencyKey
      createdAt := draws.clock.startedAt }
  let _ ← postDoubleEntry txn.id lockedSender.id lockedRecipient.id amount lockedSender.currency
    senderBalanceAfter recipientBalanceAfter
  let _ ← WalletRepository.updateBalance lockedSender senderBalanceAfter
  let _ ← WalletRepository.updateBalance lockedRecipient recipientBalanceAfter
  commit
  pure (.committed txn)

/-- `except IntegrityError` -/
def recoverMovement (error : AppError) : Tx Movement :=
  match error with
  | .integrity c => do
    rollback
    if truthy idempotencyKey then do
      let existing ← TransactionRepository.getByIdempotencyKey (idempotencyKey.getD "")
      match existing with
      | some txn => pure (.existing txn)
      | none => throw (.integrity c)
    else throw (.integrity c)
  | x => throw x

/-- From `sorted([...], key=str)` to the end of the `except` clause, the same lines
   in both services. -/
def moveFunds (senderWallet recipientWallet : Wallet) : Tx Movement := do
  let firstId := min senderWallet.id recipientWallet.id
  let secondId := max senderWallet.id recipientWallet.id
  let lockedFirst ← WalletRepository.lockForUpdate firstId
  let lockedSecond ← WalletRepository.lockForUpdate secondId
  let lockedFirst ← orRaise lockedFirst (.notFound "Wallet")
  let lockedSecond ← orRaise lockedSecond (.notFound "Wallet")
  let lockedSender := if firstId = senderWallet.id then lockedFirst else lockedSecond
  let lockedRecipient := if firstId = senderWallet.id then lockedSecond else lockedFirst
  require (amount ≤ lockedSender.balance) .insufficientBalance
  Prog.handle (writeMovement type initiator amount idempotencyKey draws lockedSender lockedRecipient)
    (recoverMovement idempotencyKey)

end

section Transfer
variable (normalize : String → String) (sender : User)

def findRecipient : Recipient → Tx (Option User)
  | .userId id => UserRepository.getById id
  | .email email => UserRepository.getByEmail normalize email

def resolveTransfer (recipient : Recipient) : Tx (Wallet × Wallet) := do
  let senderWallet ← WalletRepository.getByUserId sender.id
  let senderWallet ← orRaise (senderWallet.filter (·.isActive))
    (.forbidden "Your wallet is inactive.")
  let user ← findRecipient normalize recipient
  let user ← orRaise (user.filter (·.isActive)) (.notFound "Recipient")
  require (sender.id != user.id)
    (.validation "You cannot transfer funds to yourself." "SELF_TRANSFER")
  let recipientWallet ← WalletRepository.getByUserId user.id
  let recipientWallet ← orRaise (recipientWallet.filter (·.isActive))
    (.forbidden "Recipient wallet is inactive.")
  pure (senderWallet, recipientWallet)

def initiateTransfer (cfg : Settings) (recipient : Recipient) (amount : Int)
    (idempotencyKey : Option String) (draws : Draws) : Tx Transaction := do
  let (senderWallet, recipientWallet) ← resolveTransfer normalize sender recipient
  let existing ← lookupKey idempotencyKey
  match existing with
  | some txn => pure txn
  | none => do
    checkTransfer cfg draws.clock.utcNow sender senderWallet recipientWallet.id amount
    let moved ← moveFunds .transfer sender amount idempotencyKey draws senderWallet recipientWallet
    match moved with
    | .existing txn => pure txn
    | .committed txn => do
      maybeFlagRapidTransfers cfg draws.clock.utcNow txn.id senderWallet.id
      auditLog { actorId := some sender.id, actorType := .user, action := "transfer.completed",
                 targetType := some "transaction", targetId := some txn.id }
      pure txn

end Transfer

section MerchantPayment
variable (payer : User)

def resolvePayment (merchantId : Uuid) : Tx (Merchant × Wallet × Wallet) := do
  let merchant ← MerchantRepository.getById merchantId
  let merchant ← orRaise merchant (.notFound "Merchant")
  require merchant.isActive (.forbidden "Merchant account is inactive.")
  require (payer.id != merchant.userId) (.validation "You cannot pay yourself." "SELF_PAYMENT")
  let payerWallet ← WalletRepository.getByUserId payer.id
  let payerWallet ← orRaise (payerWallet.filter (·.isActive))
    (.forbidden "Your wallet is inactive.")
  let merchantWallet ← WalletRepository.getByUserId merchant.userId
  let merchantWallet ← orRaise (merchantWallet.filter (·.isActive))
    (.forbidden "Merchant wallet is inactive.")
  pure (merchant, payerWallet, merchantWallet)

def initiatePayment (cfg : Settings) (merchantId : Uuid) (amount : Int)
    (idempotencyKey : Option String) (draws : Draws) : Tx Transaction := do
  let (merchant, payerWallet, merchantWallet) ← resolvePayment payer merchantId
  let existing ← lookupKey idempotencyKey
  match existing with
  | some txn => pure txn
  | none => do
    checkMerchantPayment cfg draws.clock.utcNow payer amount
    let moved ← moveFunds .merchantPayment payer amount idempotencyKey draws payerWallet
      merchantWallet
    match moved with
    | .existing txn => pure txn
    | .committed txn => do
      maybeFlagMerchantPayment cfg txn.id payer amount
      Prog.handle (createAndEnqueue merchant txn.id draws.deliveryId "payment.received")
        (fun _ => .ret ())
      auditLog { actorId := some payer.id, actorType := .user,
                 action := "merchant_payment.completed",
                 targetType := some "transaction", targetId := some txn.id }
      pure txn

end MerchantPayment

end PayCorePayments
