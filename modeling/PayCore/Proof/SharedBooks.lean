import PayCore.Library.StandingInvariants
import PayCore.Proof.OwnRows
import PayCore.Proof.ProperAccounts
import PayCore.Proof.SerialJobs
import PayCore.Service.Reconciliation

/- The books while requests and tasks run side by side. Each commit of a session that acts on no
   stale object keeps them. -/
namespace PayCoreSharedBooks
open KeyedTable SessionProgram SessionSystem RelyGuarantee StandingInvariants PayCoreTables
open PayCoreWrites PayCoreSessions PayCoreRepositories PayCoreFunding PayCorePersistence
open PayCoreCommits PayCoreStatements PayCoreRequests PayCoreOpenings PayCoreHandlers PayCoreJobs
open PayCoreJobRules PayCoreBooks PayCoreSerialJobs PayCoreEndpoints PayCoreReconciliation
open PayCoreGuaranteeRules PayCoreOwnRows PayCoreKeptRecords PayCoreProperCommits
open PayCoreProperAccounts

def homely : Write → Prop
  | .insertWallet w => w.balance = 0
  | .insertRefreshToken _ => True
  | .insertAuditLog _ => True
  | .account _ => True
  | _ => False

inductive BankCommit (ws : List Write) (db : Database) : Prop where
  | book (h : BookCommit ws db)
  | start (id : Uuid) (h : StartCommit id db ws)
  | home (h : ∀ w ∈ ws, homely w)

section Commits
variable {db : Database} {ws : List Write}

theorem homely_regular {w : Write} (h : homely w) : Regular w := by
  cases w with
  | insertWallet w => exact Int.le_of_eq (Eq.symm h)
  | insertRefreshToken | insertAuditLog | account => trivial
  | _ => exact h.elim

theorem book_regular (h : BookCommit ws db) : ∀ w ∈ ws, Regular w := by
  cases h with
  | money h => exact money_regular h
  | request h => exact request_regular h
  | registration h => exact registration_regular h
  | charge id t found funding h => exact charge_regular h
  | start id t found funding h => exact start_regular h
  | abandon id t found funding h => exact abandon_regular h
  | payout h => exact payout_regular h

theorem bank_regular (h : BankCommit ws db) : ∀ w ∈ ws, Regular w := by
  cases h with
  | book h => exact book_regular h
  | start id h => exact start_regular h
  | home h => exact fun w mem => homely_regular (h w mem)

theorem books_homely {w : Write} (h : Books db) (home : homely w) : Books (applyWrite w db) := by
  cases w with
  | insertWallet w =>
    cases free : db.wallets.admits w with
    | false =>
      have same : applyWrite (.insertWallet w) db = db := by simp [applyWrite, insert_refused free]
      rw [same]
      exact h
    | true =>
      have kept :=
        books_registration h (.registered ⟨0, "", none, "", "", .user, 0, true, none⟩ w
          ⟨0, "", 0, false⟩ home free)
      exact books_same kept ⟨rfl, rfl, rfl⟩
  | insertRefreshToken t => exact books_same h ⟨rfl, rfl, rfl⟩
  | insertAuditLog l => exact books_same h ⟨rfl, rfl, rfl⟩
  | account w =>
      exact books_same h ⟨account_wallets w db, account_transactions w db, account_ledgerEntries w db⟩
  | _ => exact home.elim

theorem books_started (h : Books db) {id : Uuid} (c : StartCommit id db ws) : Books (applyAll ws db) := by
  have later := later_all (start_regular c) db
  cases c with
  | started a row status =>
    have moved := replaced_update row (transactionEdit { status := some .processing })
    have posted := h.posted id a row
    refine books_dispatched h later moved rfl (by simp [TransactionUpdate.on]) ?_ ?_
    · simp [TransactionUpdate.on, status]
    · constructor
      · intro moving
        have settled := (posted.moved moving).1
        rw [status] at settled
        cases settled
      · exact fun _ completed => by cases completed
      · exact fun _ completed => by cases completed
      · exact fun _ => posted.unposted (by simp [status])

theorem books_bank (h : Books db) (c : BankCommit ws db) : Books (applyAll ws db) := by
  cases c with
  | book c => exact books_commit h c
  | start id c => exact books_started h c
  | home c =>
    induction ws generalizing db with
    | nil => exact h
    | cons w ws ih =>
      apply ih (books_homely h (c w List.mem_cons_self))
      exact fun v mem => c v (List.mem_cons_of_mem w mem)

end Commits

/-- A commit that keeps the books and the records. -/
def GoodCommit (ws : List Write) (db : Database) : Prop := BankCommit ws db ∧ ProperCommit ws db

theorem good_env : Interference (Rely GoodCommit) := interference_rely fun _ _ h => bank_regular h.1

section Sessions
variable {F : Database → IdentityMap → List Row → List Write → Prop} {s t : Database}
    {held : Row → Prop} {v u : Window}

theorem books_rely (rely : Rely GoodCommit held s t) (h : Books s) : Books t :=
  rely_keeps rely (fun _ _ c books => books_bank books c.1) h

theorem records_rely (rely : Rely GoodCommit held s t) (h : Sound s) : Sound t :=
  rely_keeps rely (fun _ _ c sound => sound_commit sound c.2) h

theorem funding_stays {id : Uuid} (rely : Rely GoodCommit Nothing s t) (h : isFunding s id) :
    isFunding t id := by
  obtain ⟨a, found, funding⟩ := h
  obtain ⟨b, there, revised, _⟩ := (good_env.later rely).transactions id a found
  exact ⟨b, there, (revised_type revised).trans funding⟩

theorem credited_funding (books : Books s) (sound : Sound s) {id : Uuid} {a : Transaction}
    (found : s.transactions.find? id = some a) (pending : a.status = .pending)
    (credits : a.destinationWalletId ≠ none) :
    a.type = .funding := by
  have posted := books.posted id a found
  cases type : a.type with
  | funding => rfl
  | withdrawal => exact absurd ((sound.righted id a found).held type).1 credits
  | transfer => simp [(posted.moved (.inl type)).1] at pending
  | merchantPayment => simp [(posted.moved (.inr type)).1] at pending
  | reversal => exact absurd type (books.shaped id a found).kind

abbrev Banking (F : Database → IdentityMap → List Row → List Write → Prop) (p : Tx Unit)
    (v : Window) : Prop :=
  Guarantees (Rely GoodCommit) BankCommit F p v

theorem sides_bank (ws : List Write) (db : Database) (h : Side ws) : BankCommit ws db :=
  .book (.payout (.side h))

theorem charge_bank (books : Books v.db) (sound : Sound v.db) (id : Uuid) (ws : List Write)
    (db : Database) (_ : True)
    (rely : Rely GoodCommit Nothing v.db db) (h : ChargeCommit id db ws) : BankCommit ws db := by
  cases h with
  | credited a wallet amount row status destination holder creditable =>
    have funding := credited_funding (books_rely rely books) (records_rely rely sound) row status
        (by simp [destination])
    exact .book
      (.charge id a row funding (.credited a wallet amount row status destination holder creditable))

variable (current : ∀ s m rows adds, F s m rows adds → Fresh s m rows adds)
include current

theorem charge_banking {data : PaystackData} (books : Books v.db) (sound : Sound v.db)
    (bare : v.pending = [])
    (blank : v.memory = default) : Banking F (processChargeSuccess data) v :=
  processChargeSuccess_wp (K := fun _ => True) good_env
    (fun s m rows adds fresh => (current s m rows adds fresh).2)
    (charge_bank books sound) sides_bank (.refl _) bare blank (fun _ _ _ _ _ _ => trivial)
      (fun _ _ => trivial)
    (fun _ _ => trivial) (fun _ _ _ _ _ _ _ => trivial)

theorem reconcile_banking {transactionId : Uuid} {providerReference : String} (books : Books v.db)
    (sound : Sound v.db)
    (bare : v.pending = []) (blank : v.memory = default) (funding : isFunding v.db transactionId) :
    Banking F (reconcileFunding transactionId providerReference) v := by
  apply reconcileFunding_wp (K := fun _ => True) good_env
    (fun s m rows adds fresh => (current s m rows adds fresh).2)
    (charge_bank books sound) _ sides_bank (fun _ _ _ _ _ _ => trivial) _ (.refl _) bare blank
      (fun _ _ => trivial)
  · intro id a s db _ _ _ _ row pending
    exact .start id (.started a row pending)
  · intro ws db rely commit
    obtain ⟨a, found, kind⟩ := funding_stays rely funding
    exact .book (.abandon transactionId a found kind commit)

theorem job_banking {job : Job} (admitted : positive job)
    (other : ∀ id r, job ≠ .reconcileFunding id r) {db : Database}
    (books : Books db) (sound : Sound db) : Banking F job.program ⟨db, [], default, Nothing⟩ := by
  have clean := clean_start good_env db Nothing
  have moves : job.movesMoney → Banking F job.program ⟨db, [], default, Nothing⟩ := by
    intro money
    have verified := movesMoney_wp good_env (fun ws s c => BankCommit.book (.money c)) money books.solvent
    exact wp_mono (fun _ _ _ => trivial)
      (wp_condition (fun s m rows adds fresh => (current s m rows adds fresh).1) verified)
  have pays : job.paysOut → Banking F job.program ⟨db, [], default, Nothing⟩ := by
    intro pays
    have verified := paysOut_wp good_env (fun ws s c => BankCommit.book (.payout c)) pays db
    exact wp_condition (fun s m rows adds fresh => (current s m rows adds fresh).2) verified
  cases job with
  | register cfg normalize email hashed name phone draws =>
    apply quietly_guarantees
    exact register_wp good_env (fun ws s c => .book (.registration c)) sides_bank rfl (fun _ _ => trivial)
  | initiateFunding user amount key draws =>
    apply quietly_guarantees
    exact initiateFunding_wp good_env (fun _ _ _ _ _ c => .book (.request c)) clean (fun _ _ _ => trivial)
      (fun _ _ _ _ _ _ _ => trivial) (fun _ _ _ _ _ _ _ => trivial)
  | initiateTransfer => exact moves admitted
  | initiatePayment => exact moves admitted
  | initiateWithdrawal => exact moves admitted
  | processChargeSuccess data => exact charge_banking current books sound rfl rfl
  | reconcileFunding id reference => exact absurd rfl (other id reference)
  | executePayout => exact pays trivial
  | processPayoutSuccess => exact pays trivial
  | processPayoutFailure => exact pays trivial

end Sessions

section Works
variable {F : Database → IdentityMap → List Row → List Write → Prop} {v : Window}

theorem own_homely {userId : Uuid} {db : Database} {w : Write} (h : Own userId db w) : homely w := by
  cases w with
  | insertWallet w => exact h
  | insertRefreshToken | insertAuditLog | account => trivial
  | _ => exact h.elim

theorem signs_homely {w : Write} (h : signs w) : homely w := by
  cases w with
  | insertRefreshToken | insertAuditLog | account => trivial
  | _ => exact h.elim

theorem reviews_homely {w : Write} (h : reviews w) : homely w := by
  cases w with
  | insertAuditLog | account => trivial
  | _ => exact h.elim

theorem account_banking {endpoint : Endpoint} (other : ¬ isMoney endpoint) (bare : v.pending = []) :
    Banking F endpoint.program v := by
  have verified : Guarantees (Rely BankCommit) BankCommit F endpoint.program v := by
    apply account_guarantees endpoint other bare
    · exact fun _ _ ws db own => .home (fun w mem => own_homely (own w mem))
    · exact fun ws db signed => .home (fun w mem => signs_homely (signed w mem))
    · exact fun _ ws db reviewed => .home (fun w mem => reviews_homely (reviewed w mem))
  exact wp_interference (fun _ _ _ rely => rely_mono (fun _ _ good => good.1) rely) verified

abbrev Good (F : Database → IdentityMap → List Row → List Write → Prop) (p : Tx Unit) (v : Window) : Prop :=
  Guarantees (Rely GoodCommit) GoodCommit F p v

theorem good_of {p : Tx Unit} (banking : Banking F p v) (proper : PayCoreProperRules.Proper F p v) :
    Good F p v := by
  have records : Guarantees (Rely GoodCommit) ProperCommit F p v :=
    wp_interference (fun _ _ _ rely => rely_mono (fun _ _ good => good.2) rely) proper
  exact wp_mono (fun _ _ _ => trivial) (wp_both banking records)

/-- A state whose books are in order and whose records are sound. -/
structure InOrder (db : Database) : Prop where
  books : Books db
  sound : Sound db

theorem inOrder_commit {ws : List Write} {db : Database} (good : GoodCommit ws db) (h : InOrder db) :
    InOrder (applyAll ws db) where
  books := books_bank h.books good.1
  sound := sound_commit h.sound good.2

theorem reconcileAll_good {next : Tx Unit}
    (current : ∀ s m rows adds, F s m rows adds → Fresh s m rows adds)
    (stale : List (Uuid × String)) {db : Database} (order : InOrder db)
    (fundings : ∀ entry ∈ stale, isFunding db entry.1)
    (onward : ∀ db, InOrder db → Good F next ⟨db, [], default, Nothing⟩) :
    Good F (reconcileAll stale >>= fun _ => next) ⟨db, [], default, Nothing⟩ := by
  induction stale generalizing db with
  | nil => exact onward db order
  | cons entry rest ih =>
    unfold reconcileAll
    rw [seq_seq]
    apply closed_then (I := fun s => InOrder s ∧ ∀ entry ∈ rest, isFunding s entry.1)
    · rintro ws s good ⟨here, still⟩
      refine ⟨inOrder_commit good here, ?_⟩
      intro entry mem
      exact funding_stays (.step (.refl s) good (fun _ none => none.elim)) (still entry mem)
    · exact ⟨order, fun entry mem => fundings entry (List.mem_cons_of_mem _ mem)⟩
    · apply good_of
      · exact reconcile_banking current order.books order.sound rfl rfl (fundings entry List.mem_cons_self)
      · exact PayCoreProperHandlers.reconcileFunding_proper ⟨order.sound, rfl⟩ rfl
    · intro s here
      exact ih here.1 here.2

theorem enqueueAll_good (ids : List Uuid) {v : Window} (bare : v.pending = []) :
    Good F (enqueueAll ids) v := by
  induction ids generalizing v with
  | nil => trivial
  | cons id rest ih =>
    apply called_then
    intro _ u first
    exact ih (by rw [first.pending, bare, List.append_nil])

theorem batch_stale {plan : Plan} {stale : Transaction → Bool} {db : Database} {t : Transaction}
    (mem : t ∈ batch plan stale db) : db.transactions.find? t.id = some t ∧ stale t = true := by
  obtain ⟨row, picked⟩ := List.mem_filter.mp ((plan.perm _).mem_iff.mp (List.mem_of_mem_take mem))
  exact ⟨find?_some_iff.mpr ⟨row, rfl⟩, picked⟩

theorem staleFunding_iff {cutoff : Timestamp} {t : Transaction} : staleFunding cutoff t = true ↔
    t.type = .funding ∧ t.status = .pending ∧ t.providerReference.isSome = true ∧ t.createdAt ≤ cutoff := by
  simp [staleFunding, and_assoc]

theorem sweep_fundings (sweep : Sweep) (db : Database) :
    ∀ entry ∈ sweep.staleFundings db, isFunding db entry.1 := by
  intro entry mem
  obtain ⟨t, listed, given⟩ := List.mem_filterMap.mp mem
  obtain ⟨reference, _, same⟩ := Option.map_eq_some_iff.mp given
  obtain ⟨found, stale⟩ := batch_stale listed
  rw [← same]
  exact ⟨t, found, (staleFunding_iff.mp stale).1⟩

theorem reconcile_good (current : ∀ s m rows adds, F s m rows adds → Fresh s m rows adds) (sweep : Sweep)
    {db : Database} (order : InOrder db) : Good F (reconcile sweep) ⟨db, [], default, Nothing⟩ := by
  have keeps : ∀ ws s, GoodCommit ws s → InOrder s → InOrder (applyAll ws s) := fun _ _ => inOrder_commit
  unfold reconcile
  apply read_then
  intro u first db1 rely1
  have bare : u.pending = [] := first.pending
  rw [bare, applyAll_nil]
  have order1 : InOrder db1 := rely_keeps rely1 keeps (rely_keeps first.rely keeps order)
  apply reconcileAll_good current _ order1
  · intro entry mem
    exact funding_stays (rely_weaken rely1 (fun _ none => none.elim)) (sweep_fundings sweep u.db entry mem)
  · intro db2 order2
    apply read_then
    intro v second db3 _
    exact enqueueAll_good _ rfl

/-- What reaches the services through routers and queues; the sweep lists its fundings itself. -/
def admitted : Work → Prop
  | .endpoint (.request (.money (.reconcileFunding _ _))) => False
  | .endpoint e => routed e
  | _ => True

theorem dispatched_job (eventType : String) (data : PaystackData) : dispatch eventType data = .ret () ∨
    ∃ job : Job, positive job ∧ (∀ id r, job ≠ .reconcileFunding id r) ∧
    dispatch eventType data = job.program := by
  have event : ∀ e, processTransferResult e data = .ret () ∨
      ∃ job : Job, positive job ∧ (∀ id r, job ≠ .reconcileFunding id r) ∧
      processTransferResult e data = job.program := by
    intro e
    unfold processTransferResult
    split
    · cases e with
      | success => exact .inr ⟨.processPayoutSuccess _, trivial, by simp, rfl⟩
      | failed | reversed => exact .inr ⟨.processPayoutFailure _ _, trivial, by simp, rfl⟩
    · exact .inl rfl
  unfold dispatch
  split
  · exact .inr ⟨.processChargeSuccess data, trivial, by simp, rfl⟩
  split
  · exact event .success
  split
  · exact event .failed
  split
  · exact event .reversed
  · exact .inl rfl

theorem job_good (current : ∀ s m rows adds, F s m rows adds → Fresh s m rows adds) {job : Job}
    (fine : positive job) (other : ∀ id r, job ≠ .reconcileFunding id r) {db : Database}
    (order : InOrder db) :
    Good F job.program ⟨db, [], default, Nothing⟩ :=
  good_of (job_banking current fine other order.books order.sound) (job_proper fine order.sound)

theorem admitted_job {job : Job} (fine : admitted (.endpoint (.request (.money job)))) :
    positive job ∧ ∀ id r, job ≠ .reconcileFunding id r := by
  cases job with
  | reconcileFunding => exact fine.elim
  | _ =>
    constructor
    · exact fine
    · exact fun _ _ same => by cases same

theorem endpoint_good (current : ∀ s m rows adds, F s m rows adds → Fresh s m rows adds) {e : Endpoint}
    (fine : admitted (.endpoint e)) {db : Database} (order : InOrder db) :
    Good F e.program ⟨db, [], default, Nothing⟩ := by
  by_cases money : isMoney e
  · cases e with
    | request op =>
      cases op with
      | money job => exact job_good current (admitted_job fine).1 (admitted_job fine).2 order
      | _ => exact money.elim
    | _ => exact money.elim
  · apply good_of (account_banking money rfl)
    apply endpoint_proper _ order.sound
    cases e with
    | request op =>
      cases op with
      | money job => exact absurd trivial money
      | _ => exact fine
    | _ => exact fine

theorem work_good (current : ∀ s m rows adds, F s m rows adds → Fresh s m rows adds) {work : Work}
    (fine : admitted work) {db : Database} (order : InOrder db) :
    Good F work.program ⟨db, [], default, Nothing⟩ := by
  cases work with
  | endpoint e => exact endpoint_good current fine order
  | processPaystackWebhook eventType data =>
    rcases dispatched_job eventType data with nothing | ⟨job, right, other, same⟩
    · change Good F (dispatch eventType data) _
      rw [nothing]
      trivial
    · change Good F (dispatch eventType data) _
      rw [same]
      exact job_good current right other order
  | processWithdrawal transactionId =>
    exact @job_good F current (.executePayout transactionId) trivial (by simp) db order
  | checkStaleTransactions sweep => exact reconcile_good current sweep order

end Works

section Runs
variable {ι : Type} {db : Database} {works : ι → Work}

abbrev Running (ι : Type) := System ι Database IdentityMap Write Row Request PaystackData AppError Unit

def platform (db : Database) (works : ι → Work) : Running ι := initial db (fun i => (works i).program)

theorem platform_safe (order : InOrder db) (fine : ∀ i, admitted (works i)) :
    Safe GoodCommit (fun _ => Fresh) (fun _ _ _ => True) (platform db works) := by
  apply initial_safe
  intro i
  exact work_good (fun _ _ _ _ fresh => fresh) (fine i) order

/-- The rule for runs of the platform in which no session acts on a stale object. -/
theorem platform_keeps [DecidableEq ι] (order : InOrder db) (fine : ∀ i, admitted (works i)) {T : Running ι}
    (run : Run (Meets (fun _ => Fresh)) (platform db works) T) {P : List (ι × List Write) → Database → Prop}
    (keeps : ∀ i ws log s, GoodCommit ws s → InOrder s → P log s → P (log ++ [(i, ws)]) (applyAll ws s))
    (initially : P [] db) : InOrder T.db ∧ P T.log T.db := by
  have lasting : Lasting GoodCommit (fun (_ : ι) (_ : Except AppError Unit) (_ : Database) => True) :=
    fun _ _ _ _ _ h => h
  apply run_keeps lasting (platform_safe order fine) run (P := fun log s => InOrder s ∧ P log s)
  · rintro i ws log s good ⟨here, holds⟩
    exact ⟨inOrder_commit good here, keeps i ws log s good here holds⟩
  · exact ⟨order, initially⟩

end Runs

end PayCoreSharedBooks
