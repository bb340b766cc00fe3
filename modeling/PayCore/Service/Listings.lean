import PayCore.Library.Paging
import PayCore.Model.Repositories

/- The lists that app/repositories/transaction.py and app/repositories/kyc.py hand out in pages. -/
namespace PayCoreListings
open Paging KeyedTable PayCoreTables PayCoreWrites

/-- What the two queries of a list work on: the rows that pass the WHERE clause, the total that the
   COUNT query returns, and the direction of ORDER BY created_at. -/
structure Listing (α : Type) where
  matched : List α
  total : Nat
  createdAt : α → Timestamp
  newestFirst : Bool

def Listing.key {α : Type} (list : Listing α) (row : α) : Int :=
  if list.newestFirst then -(list.createdAt row : Int) else list.createdAt row

def Listing.Returns {α : Type} (list : Listing α) (limit offset : Nat) (rows : List α) : Prop :=
  ∃ ordered, Arranged list.key list.matched ordered ∧ rows = page limit offset ordered

def narrowed {α β : Type} (value : Option β) (test : β → α → Bool) (rows : List α) : List α :=
  match value with
  | none => rows
  | some v => rows.filter (test v)

namespace TransactionRepository

def newest (matched : List Transaction) (total : Nat) : Listing Transaction :=
  { matched, total, createdAt := (·.createdAt), newestFirst := true }

def getByWallet (walletId : Uuid) (db : Database) : Listing Transaction :=
  let walletFilter := fun (t : Transaction) =>
    t.sourceWalletId == some walletId || t.destinationWalletId == some walletId
  newest (db.transactions.rows.filter walletFilter) (db.transactions.rows.countP walletFilter)

def getByUser (userId : Uuid) (typeFilter : Option TransactionType)
    (statusFilter : Option TransactionStatus) (db : Database) : Listing Transaction :=
  let filters : List (Transaction → Bool) := [fun t => t.initiatedByUserId == userId] ++
    (typeFilter.map fun type (t : Transaction) => t.type == type).toList ++
    (statusFilter.map fun status (t : Transaction) => t.status == status).toList
  let whereClause := fun t => filters.all (· t)
  newest (db.transactions.rows.filter whereClause) (db.transactions.rows.countP whereClause)

structure AdminFilters where
  status : Option TransactionStatus := none
  type : Option TransactionType := none
  riskFlagged : Option Bool := none
  fromDate : Option Int := none
  toDate : Option Int := none

def countAdmin (filters : AdminFilters) (db : Database) : Nat :=
  let stmt := db.transactions.rows
  let stmt := narrowed filters.status (fun status (t : Transaction) => t.status == status) stmt
  let stmt := narrowed filters.type (fun type (t : Transaction) => t.type == type) stmt
  let stmt := narrowed filters.riskFlagged (fun flag (t : Transaction) => t.riskFlagged == flag) stmt
  let stmt := narrowed filters.fromDate (fun date (t : Transaction) => decide (date ≤ t.createdAt)) stmt
  let stmt :=
    narrowed filters.toDate (fun date (t : Transaction) => decide ((t.createdAt : Int) ≤ date)) stmt
  stmt.length

/-- The admin endpoint asks for the total by `count_admin`. -/
def listAdmin (filters : AdminFilters) (db : Database) : Listing Transaction :=
  let stmt := db.transactions.rows
  let stmt := narrowed filters.status (fun status (t : Transaction) => t.status == status) stmt
  let stmt := narrowed filters.type (fun type (t : Transaction) => t.type == type) stmt
  let stmt := narrowed filters.riskFlagged (fun flag (t : Transaction) => t.riskFlagged == flag) stmt
  let stmt := narrowed filters.fromDate (fun date (t : Transaction) => decide (date ≤ t.createdAt)) stmt
  let stmt :=
    narrowed filters.toDate (fun date (t : Transaction) => decide ((t.createdAt : Int) ≤ date)) stmt
  newest stmt (countAdmin filters db)

end TransactionRepository

/-- No other operation reads the column created_at of a submission, so it is a function here. -/
def listByStatus (createdAt : KYCSubmission → Timestamp) (status : Option KYCStatus) (db : Database) :
    Listing KYCSubmission :=
  let base := narrowed status (fun status (s : KYCSubmission) => s.status == status) db.kycSubmissions.rows
  let countBase :=
    narrowed status (fun status (s : KYCSubmission) => s.status == status) db.kycSubmissions.rows
  { matched := base, total := countBase.length, createdAt, newestFirst := false }

inductive Query where
  | getByWallet (walletId : Uuid)
  | getByUser (userId : Uuid) (typeFilter : Option TransactionType)
      (statusFilter : Option TransactionStatus)
  | listAdmin (filters : TransactionRepository.AdminFilters)
  | listByStatus (createdAt : KYCSubmission → Timestamp) (status : Option KYCStatus)

abbrev Query.Entry : Query → Type
  | .listByStatus _ _ => KYCSubmission
  | _ => Transaction

def Query.list (db : Database) : (query : Query) → Listing query.Entry
  | .getByWallet walletId => TransactionRepository.getByWallet walletId db
  | .getByUser userId typeFilter statusFilter =>
      TransactionRepository.getByUser userId typeFilter statusFilter db
  | .listAdmin filters => TransactionRepository.listAdmin filters db
  | .listByStatus createdAt status => PayCoreListings.listByStatus createdAt status db

/-- The rows of the table that pass all filters, said once more without the queries. -/
def Query.asksFor : (query : Query) → query.Entry → Prop
  | .getByWallet walletId =>
      fun t => t.sourceWalletId = some walletId ∨ t.destinationWalletId = some walletId
  | .getByUser userId typeFilter statusFilter => fun t => t.initiatedByUserId = userId ∧
      (∀ type, typeFilter = some type → t.type = type) ∧
      (∀ status, statusFilter = some status → t.status = status)
  | .listAdmin filters => fun t => (∀ status, filters.status = some status → t.status = status) ∧
      (∀ type, filters.type = some type → t.type = type) ∧
      (∀ flag, filters.riskFlagged = some flag → t.riskFlagged = flag) ∧
      (∀ date, filters.fromDate = some date → date ≤ t.createdAt) ∧
      (∀ date, filters.toDate = some date → (t.createdAt : Int) ≤ date)
  | .listByStatus _ status => fun s => ∀ v, status = some v → s.status = v

def Query.table (db : Database) : (query : Query) → List query.Entry
  | .getByWallet _ => db.transactions.rows
  | .getByUser _ _ _ => db.transactions.rows
  | .listAdmin _ => db.transactions.rows
  | .listByStatus _ _ => db.kycSubmissions.rows

end PayCoreListings
