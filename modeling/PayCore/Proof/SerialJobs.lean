import PayCore.Proof.Books
import PayCore.Proof.JobRules

/- Runs in which every operation is executed whole before the next one starts. They keep
   the books, and no ledger entry is ever taken back. -/
namespace PayCoreSerialJobs
open KeyedTable SessionProgram RelyGuarantee SerialRuns PayCoreTables PayCoreWrites PayCoreSessions
open PayCoreRepositories PayCorePersistence PayCoreCommits PayCoreStatements PayCoreRequests
open PayCoreOpenings PayCoreHandlers PayCoreCoherence PayCoreJobs PayCoreJobRules PayCoreBooks

/-- What the caller of a job has checked: request schemas demand a positive amount, and the
   sweep lists fundings with a provider reference. -/
def Admitted (db : Database) : Job → Prop
  | .initiateTransfer _ _ _ _ amount _ _ => 0 < amount
  | .initiatePayment _ _ _ amount _ _ => 0 < amount
  | .initiateWithdrawal _ _ _ amount _ => 0 < amount
  | .reconcileFunding transactionId providerReference =>
      ∃ t, db.transactions.find? transactionId = some t ∧ t.type = .funding ∧
        t.providerReference = some providerReference
  | _ => True

/-- Operations one after the other, each with its own answers from Paystack. `directory` is
    any change of users, merchants, bank accounts and the like in between. -/
inductive SerialRun (db : Database) : Database → Prop where
  | start : SerialRun db db
  | operation {s : Database} (before : SerialRun db s) (answer : Request → Option PaystackData)
      (job : Job) (admitted : Admitted s job) : SerialRun db (runAlone answer job.program s).2
  | directory {s t : Database} (before : SerialRun db s) (same : SameMoney s t) : SerialRun db t

inductive BookCommit (ws : List Write) (db : Database) : Prop where
  | money (h : MoneyCommit ws db)
  | request (h : RequestCommit db ws)
  | registration (h : RegistrationCommit db ws)
  | charge (id : Uuid) (t : Transaction) (found : db.transactions.find? id = some t)
      (funding : t.type = .funding) (h : ChargeCommit id db ws)
  | start (id : Uuid) (t : Transaction) (found : db.transactions.find? id = some t)
      (funding : t.type = .funding) (h : StartCommit id db ws)
  | abandon (id : Uuid) (t : Transaction) (found : db.transactions.find? id = some t)
      (funding : t.type = .funding) (h : AbandonCommit id db ws)
  | payout (h : PayoutCommit ws db)

theorem books_commit {ws : List Write} {db : Database} (h : Books db) (c : BookCommit ws db) :
    Books (applyAll ws db) := by
  cases c with
  | money c =>
    cases c with
    | movement c => exact books_movement h c
    | hold c => exact books_hold h c
    | side c => exact books_same h (side_money c db)
  | request c => exact books_request h c
  | registration c => exact books_registration h c
  | charge id t found funding c => exact books_charge funding h found c
  | start id t found funding c => exact books_start funding h found c
  | abandon id t found funding c => exact books_abandon funding h found c
  | payout c =>
    cases c with
    | dispatch id c => exact books_dispatch h c
    | settle id c => exact books_settle h c
    | side c => exact books_same h (side_money c db)

def isFunding (db : Database) (id : Uuid) : Prop :=
  ∃ t, db.transactions.find? id = some t ∧ t.type = .funding

theorem pending_referred {db : Database} (h : Books db) {reference : String} {row : Transaction}
    (picked : TransactionRepository.byProviderReference reference db = .ok (some row))
    (pending : row.status = .pending) : isFunding db row.id := by
  obtain ⟨found, referred⟩ := byProviderReference_keyed picked
  have shape := h.shaped row.id row found
  have posted := h.posted row.id row found
  refine ⟨row, found, ?_⟩
  cases type : row.type with
  | funding => rfl
  | withdrawal => simp [shape.unreferred type pending] at referred
  | transfer => simp [(posted.moved (Or.inl type)).1] at pending
  | merchantPayment => simp [(posted.moved (Or.inr type)).1] at pending
  | reversal => exact absurd type shape.kind

/-- Both conditions that sessions running side by side may fail to meet. -/
def Fresh (s : Database) (m : IdentityMap) (rows : List Row) (adds : List Write) : Prop :=
  FreshWallets s m rows adds ∧ FreshTransactions s m rows adds

theorem admitted_wp {db : Database} (h : Books db) {job : Job} (admitted : Admitted db job) :
    wp Alone BookCommit Fresh job.program (fun r _ => job.movesMoney → ¬ FailsBalanceCheck r)
      (⟨db, [], default, Nothing⟩ : Window) := by
  have env := interference_alone
  have current : ∀ s m rows adds, Fresh s m rows adds → FreshTransactions s m rows adds :=
    fun _ _ _ _ fresh => fresh.2
  have clean := clean_start env db Nothing
  have sides : ∀ ws s, Side ws → BookCommit ws s := fun ws s side => .payout (.side side)
  have charges : ∀ id ws s, isFunding db id → Alone Nothing db s → ChargeCommit id s ws →
      BookCommit ws s := by
    rintro id ws s ⟨t, found, funding⟩ rfl commit
    exact .charge id t found funding commit
  have picks : ∀ reference s row, Alone Nothing db s →
      TransactionRepository.byProviderReference reference s = .ok (some row) →
      row.status = .pending → isFunding db row.id := by
    rintro reference s row rfl picked pending
    exact pending_referred h picked pending
  have moves : ∀ {job : Job}, job.movesMoney → wp Alone BookCommit Fresh job.program
      (fun r _ => job.movesMoney → ¬ FailsBalanceCheck r) (⟨db, [], default, Nothing⟩ : Window) := by
    intro job money
    have verified := movesMoney_wp env (fun ws s c => BookCommit.money c) money h.solvent
    exact wp_mono (fun r u fine _ => fine) (wp_condition (fun _ _ _ _ fresh => fresh.1) verified)
  have pays : ∀ {job : Job}, job.paysOut → wp Alone BookCommit Fresh job.program
      (fun r _ => job.movesMoney → ¬ FailsBalanceCheck r) (⟨db, [], default, Nothing⟩ : Window) := by
    intro job pays
    have verified := paysOut_wp env (fun ws s c => BookCommit.payout c) pays db
    refine wp_mono ?_ (wp_condition (fun _ _ _ _ fresh => fresh.2) verified)
    intro r u _ money
    cases job <;> first | exact money.elim | exact pays.elim
  cases job with
  | register cfg normalize email hashed name phone draws =>
    refine seq_wp ?_
    refine register_wp env (fun ws s c => .registration c) sides rfl ?_
    intro u r
    cases r <;> exact fun never => never.elim
  | initiateFunding user amount key draws =>
    refine seq_wp ?_
    exact initiateFunding_wp env (fun _ _ _ _ _ c => .request c) clean (fun _ _ _ never => never.elim)
      (fun _ _ _ _ _ _ _ never => never.elim) (fun _ _ _ _ _ _ _ never => never.elim)
  | initiateTransfer => exact moves admitted
  | initiatePayment => exact moves admitted
  | initiateWithdrawal => exact moves admitted
  | processChargeSuccess data =>
    exact processChargeSuccess_wp env current charges sides rfl rfl rfl picks
      (fun _ _ never => never.elim) (fun _ _ never => never.elim) (fun _ _ _ _ _ _ _ never => never.elim)
  | reconcileFunding transactionId providerReference =>
    obtain ⟨t, found, funding, _⟩ := admitted
    refine reconcileFunding_wp env current charges ?_ sides picks ?_ rfl rfl rfl
      (fun _ _ never => never.elim)
    · rintro id row s u ⟨a, there, kind⟩ rfl rfl _ stored pending
      exact .start id a there kind (.started row stored pending)
    · rintro ws s rfl commit
      exact .abandon transactionId t found funding commit
  | executePayout => exact pays trivial
  | processPayoutSuccess => exact pays trivial
  | processPayoutFailure => exact pays trivial

theorem coherent_fresh {s : Database} {m : IdentityMap} (rows : List Row) (adds : List Write)
    (h : Coherent s m) : Fresh s m rows adds :=
  ⟨coherent_freshWallets h rows adds, coherent_freshTransactions h rows adds⟩

theorem job_alone {db : Database} {job : Job} {G : List Write → Database → Prop}
    {Q : Except AppError Unit → Database → Prop} (answer : Request → Option PaystackData)
    (verified : wp Alone G Fresh job.program (fun r v => Q r v.db) (⟨db, [], default, Nothing⟩ : Window)) :
    Q (runAlone answer job.program db).1 (runAlone answer job.program db).2 ∧
      Rely G Nothing db (runAlone answer job.program db).2 :=
  runAlone_sound interference_alone.refl coherent_blank (fun _ _ rows adds => coherent_fresh rows adds)
    answer (keeps_job job) verified

theorem books_operation {db : Database} (h : Books db) {job : Job} (admitted : Admitted db job)
    (answer : Request → Option PaystackData) : Books (runAlone answer job.program db).2 :=
  rely_keeps (job_alone answer (Q := fun r _ => job.movesMoney → ¬ FailsBalanceCheck r)
    (admitted_wp h admitted)).2
    (fun _ _ c books => books_commit books c) h

theorem books_run {db s : Database} (run : SerialRun db s) (h : Books db) : Books s := by
  induction run with
  | start => exact h
  | operation before answer job admitted ih => exact books_operation ih admitted answer
  | directory before same ih => exact books_same ih same

theorem ledger_grows (w : Write) (db : Database) :
    db.ledgerEntries <+: (applyWrite w db).ledgerEntries := by
  cases w with
  | insertEntry e => exact List.prefix_append _ _
  | account w =>
    have same : (applyWrite (.account w) db).ledgerEntries = db.ledgerEntries := by
      rw [applyWrite, account_ledgerEntries]
    exact same ▸ List.prefix_refl _
  | _ => exact List.prefix_refl _

theorem ledger_grows_all (ws : List Write) (db : Database) :
    db.ledgerEntries <+: (applyAll ws db).ledgerEntries := by
  induction ws generalizing db with
  | nil => exact List.prefix_refl _
  | cons w ws ih => exact (ledger_grows w db).trans (ih (applyWrite w db))

/-- No operation takes an entry back, in whatever state it starts. -/
theorem ledger_run {db s : Database} (run : SerialRun db s) (h : Books db) :
    db.ledgerEntries <+: s.ledgerEntries := by
  induction run with
  | start => exact List.prefix_refl _
  | @operation s before answer job admitted ih =>
    have books := books_run before h
    have onward := rely_keeps (P := fun u => s.ledgerEntries <+: u.ledgerEntries)
      (job_alone answer (Q := fun r _ => job.movesMoney → ¬ FailsBalanceCheck r)
        (admitted_wp books admitted)).2
      (fun ws u _ kept => kept.trans (ledger_grows_all ws u)) (List.prefix_refl _)
    exact ih.trans onward
  | directory before same ih =>
    rw [same.ledgerEntries]
    exact ih

end PayCoreSerialJobs
