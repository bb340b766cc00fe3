import PayCore.Library.LoneSessions
import PayCore.Service.Support

/- Which calls a program may try, statement by statement: those to the database try none. -/
namespace PayCoreAskRules
open SessionProgram LoneSessions PayCoreTables PayCoreWrites PayCoreSessions PayCoreRepositories
open PayCoreSupport

variable {α : Type} {P : Request → Prop}

theorem asks_statement {rows : List Row} {writes : Database → IdentityMap → List Write}
    {memo : Database → IdentityMap → IdentityMap} {next : Database → IdentityMap → Tx α} {x : AppError}
    (onward : ∀ s m, Asks P (next s m)) : Asks P (.stmt rows writes memo next (.raise x) : Tx α) :=
  ⟨onward, trivial⟩

theorem asks_require (condition : Bool) (error : AppError) : Asks P (require condition error) := by
  unfold require
  split <;> trivial

theorem asks_orRaise (value : Option α) (error : AppError) : Asks P (orRaise value error) := by
  cases value <;> trivial

theorem asks_query (f : Database → α) : Asks P (query f) := asks_statement (fun _ _ => trivial)

theorem asks_commit : Asks P commit := ⟨trivial, trivial⟩

theorem asks_selectWallet (rows : List Row) (pick : Database → Option Wallet) :
    Asks P (WalletRepository.select rows pick) := asks_statement (fun _ _ => trivial)

theorem asks_selectTransaction (pick : Database → Except AppError (Option Transaction)) :
    Asks P (TransactionRepository.select pick) := by
  apply asks_statement
  intro s m
  split <;> trivial

theorem asks_createTransaction (t : Transaction) : Asks P (TransactionRepository.create t) := by
  unfold TransactionRepository.create
  split
  swap
  · trivial
  apply asks_statement
  intro s m
  split <;> trivial

theorem asks_updateBalance (wallet : Wallet) (balance : Int) :
    Asks P (WalletRepository.updateBalance wallet balance) := by
  apply asks_statement
  intro s m
  split
  · trivial
  · split <;> trivial

theorem asks_updateStatus (txn : Transaction) (status : TransactionStatus) (reason : Option String) :
    Asks P (TransactionRepository.updateStatus txn status reason) := by
  unfold TransactionRepository.updateStatus
  split
  · exact asks_statement (fun _ _ => trivial)
  · trivial

theorem asks_insertAccount (write : AccountWrite) (admitted : Database → Bool)
    (refused : Database → Constraint) :
    Asks P (insertAccount write admitted refused) := by
  apply asks_statement
  intro s m
  split <;> trivial

theorem asks_auditLog (entry : AuditLog) : Asks P (auditLog entry) := by
  apply asks_handle
  · exact asks_seq (asks_statement (fun _ _ => trivial)) (fun _ => asks_commit)
  · intro _
    trivial

theorem asks_audited (entry : AuditLog) (a : α) :
    Asks P (auditLog entry >>= fun _ => (.ret a : Tx α)) :=
  asks_seq (asks_auditLog entry) (fun _ => trivial)

end PayCoreAskRules
