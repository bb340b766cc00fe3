import PayCore.Proof.SerialJobs

/- Operations in turn, from the empty database: balances, entries and the ledger. -/
namespace PayCoreSerialBooks
open KeyedTable SessionProgram PayCoreTables PayCoreWrites PayCoreSessions PayCoreSupport
open PayCorePersistence PayCoreCommits PayCoreJobs PayCoreJobRules PayCoreBooks PayCoreSerialJobs

def Explained (db : Database) : Prop :=
  ∀ w ∈ db.wallets.rows, w.balance = ledgerSum .credit w.id db.ledgerEntries -
    ledgerSum .debit w.id db.ledgerEntries - held w.id db.transactions ∧ 0 ≤ w.balance

theorem balances_explained {db : Database} (run : SerialRun emptyDatabase db) :
    Explained db ∧ ∀ (job : Job) (answer : Request → Option PaystackData), job.movesMoney →
      ¬ FailsBalanceCheck (runAlone answer job.program db).1 := by
  have books := books_run run books_empty
  constructor
  · intro w mem
    exact ⟨books.balanced w.id w (find?_some_iff.mpr ⟨mem, rfl⟩), books.solvent w mem⟩
  · intro job answer money
    have admitted : Admitted db job := by
      cases job <;> first | exact money | exact money.elim
    exact (job_alone answer (Q := fun r _ => job.movesMoney → ¬ FailsBalanceCheck r)
      (admitted_wp books admitted)).1 money

theorem entries_match_transactions {db later : Database} (run : SerialRun emptyDatabase db)
    (onward : SerialRun db later) :
    (∀ t ∈ db.transactions.rows, Posted t (entriesOf t.id db.ledgerEntries)) ∧
      db.ledgerEntries <+: later.ledgerEntries := by
  have books := books_run run books_empty
  constructor
  · intro t mem
    exact books.posted t.id t (find?_some_iff.mpr ⟨mem, rfl⟩)
  · exact ledger_run onward books

section Day

def paystackUp : Request → Option PaystackData
  | .initializeTransaction _ _ reference =>
      some { reference := .str reference, authorizationUrl := .str "https://checkout" }
  | _ => none

def inTurn (answer : Request → Option PaystackData) (db : Database) (jobs : List Job) : Database :=
  jobs.foldl (fun s job => (runAlone answer job.program s).2) db

theorem inTurn_run {start db : Database} {answer : Request → Option PaystackData} {jobs : List Job}
    (run : SerialRun start db) (admitted : ∀ job ∈ jobs, ∀ s, Admitted s job) :
    SerialRun start (inTurn answer db jobs) := by
  induction jobs generalizing db with
  | nil => exact run
  | cons job rest ih =>
    exact ih (.operation run answer job (admitted job (by simp) db))
      (fun job mem => admitted job (by simp [mem]))

def alice : User := { id := 1, email := "alice", hashedPassword := "", fullName := "Alice", kycTier := 2 }

/-- Two users, and a funding of NGN 500.00 with its charge. -/
def morning : List Job :=
  [.register {} (fun s => s) "alice" "" "Alice" none ⟨1, 11, "a", 0⟩,
   .register {} (fun s => s) "bob" "" "Bob" none ⟨2, 12, "b", 0⟩,
   .initiateFunding alice 50000 none ⟨100, "f", ⟨0, 0⟩⟩,
   .processChargeSuccess { reference := .str "txn_f", amount := some 50000 }]

def evening : List Job :=
  [.initiateTransfer (fun s => s) alice {} (.userId 2) 10000 none ⟨101, "t", 0, ⟨0, 0⟩⟩,
   .processChargeSuccess { reference := .str "txn_f", amount := some 50000 }]

def atNoon : Database := inTurn paystackUp emptyDatabase morning

def atNight : Database := inTurn paystackUp atNoon evening

theorem noon_run : SerialRun emptyDatabase atNoon := by
  refine inTurn_run .start ?_
  simp [morning, Admitted]

theorem night_run : SerialRun atNoon atNight := by
  refine inTurn_run .start ?_
  simp [evening, Admitted]

theorem noon_explained : atNoon.wallets.rows.map (·.balance) = [50000, 0] ∧ Explained atNoon :=
  ⟨by decide +kernel, (balances_explained noon_run).1⟩

theorem night_keeps_the_ledger : atNight.wallets.rows.map (·.balance) = [40000, 10000] ∧
    atNoon.ledgerEntries <+: atNight.ledgerEntries :=
  ⟨by decide +kernel, (entries_match_transactions noon_run night_run).2⟩

end Day

end PayCoreSerialBooks
