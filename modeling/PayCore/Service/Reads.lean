import PayCore.Service.Listings
import PayCore.Service.Operations

/- The GET endpoints of app/api/v1 that answer a user. What an answer shows is a projection of the rows
   that stand here. -/
namespace PayCoreReads
open SessionProgram PayCoreTables PayCoreSessions PayCoreRepositories PayCoreAccounts
open PayCoreMerchants PayCoreListings

inductive Response where
  | user (user : User)
  | wallet (wallet : Wallet)
  | transactions (list : Listing Transaction) (limit offset : Nat)
  | transaction (transaction : Transaction)
  | merchant (merchant : Merchant)
  | submission (list : Listing KYCSubmission)
  | bankAccounts (accounts : List BankAccount)

def getWallet (userId : Uuid) : Tx Wallet := do
  let wallet ← WalletRepository.getByUserId userId
  orRaise wallet (.notFound "Wallet")

def getMyWallet (userId : Uuid) : Tx Response := do
  let wallet ← getWallet userId
  require wallet.isActive (.forbidden "Wallet is deactivated. Please contact support.")
  pure (.wallet wallet)

def getStatement (userId : Uuid) (limit offset : Nat) : Tx Response := do
  let wallet ← getWallet userId
  let list ← query (TransactionRepository.getByWallet wallet.id)
  pure (.transactions list limit offset)

def listTransactions (userId : Uuid) (limit offset : Nat) (typeFilter : Option TransactionType)
    (statusFilter : Option TransactionStatus) : Tx Response := do
  let list ← query (TransactionRepository.getByUser userId typeFilter statusFilter)
  pure (.transactions list limit offset)

/-- The transaction of another user is not found, as if there were none. -/
def ownTransaction (resource reference : String) (requestingUserId : Uuid) : Tx Response := do
  let txn ← PayCoreRepositories.TransactionRepository.getByReference reference
  let txn ← orRaise (txn.filter (fun t => t.initiatedByUserId == requestingUserId)) (.notFound resource)
  pure (.transaction txn)

def getTransaction (reference : String) (requestingUserId : Uuid) : Tx Response :=
  ownTransaction "Transaction" reference requestingUserId

def getWithdrawalStatus (reference : String) (currentUserId : Uuid) : Tx Response :=
  ownTransaction "Withdrawal" reference currentUserId

def getMerchant (userId : Uuid) : Tx Response := do
  let merchant ← getMerchantProfile userId
  pure (.merchant merchant)

/-- ORDER BY created_at DESC LIMIT 1. The column is a function here, as in the other lists. -/
def latestForUser (createdAt : KYCSubmission → Timestamp) (userId : Uuid)
    (db : Database) : Listing KYCSubmission :=
  let matched := db.kycSubmissions.rows.filter (·.userId == userId)
  { matched, total := matched.length, createdAt, newestFirst := true }

def getMySubmission (createdAt : KYCSubmission → Timestamp) (userId : Uuid) : Tx Response := do
  let list ← query (latestForUser createdAt userId)
  require (!list.matched.isEmpty) (.notFound "KYC submission")
  pure (.submission list)

def listBankAccounts (userId : Uuid) : Tx Response := do
  let accounts ← BankAccountRepository.getByUserId userId
  pure (.bankAccounts accounts)

inductive Read where
  | getMyProfile
  | getMyWallet
  | getMyTransactions (limit offset : Nat)
  | listTransactions (limit offset : Nat) (type : Option TransactionType)
      (status : Option TransactionStatus)
  | getTransaction (reference : String)
  | getMerchantProfile
  | getMyKyc (createdAt : KYCSubmission → Timestamp)
  | listBankAccounts
  | getWithdrawalStatus (reference : String)

def Read.service (currentUser : User) : Read → Tx Response
  | .getMyProfile => pure (.user currentUser)
  | .getMyWallet => PayCoreReads.getMyWallet currentUser.id
  | .getMyTransactions limit offset => getStatement currentUser.id limit offset
  | .listTransactions limit offset type status =>
      PayCoreReads.listTransactions currentUser.id limit offset type status
  | .getTransaction reference => PayCoreReads.getTransaction reference currentUser.id
  | .getMerchantProfile => getMerchant currentUser.id
  | .getMyKyc createdAt => getMySubmission createdAt currentUser.id
  | .listBankAccounts => PayCoreReads.listBankAccounts currentUser.id
  | .getWithdrawalStatus reference => PayCoreReads.getWithdrawalStatus reference currentUser.id

def Read.program (read : Read) (currentUserId : Uuid) : Tx Response := do
  let currentUser ← getCurrentUser currentUserId
  read.service currentUser

end PayCoreReads
