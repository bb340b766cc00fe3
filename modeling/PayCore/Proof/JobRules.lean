import PayCore.Proof.Coherence
import PayCore.Proof.Handlers
import PayCore.Service.Jobs

/- What each kind of job commits, and that it never acts on a stale object when it
   runs alone. -/
namespace PayCoreJobRules
open KeyedTable SessionProgram SessionSystem RelyGuarantee SerialRuns PayCoreTables PayCoreWrites
open PayCoreSessions PayCoreRepositories PayCorePersistence PayCoreCommits PayCoreStatements
open PayCoreRequests PayCoreMovements PayCoreOpenings PayCoreHandlers PayCoreCoherence PayCoreJobs

theorem keeps_job (job : Job) : Keeps Coherent job.program := by
  have quiet : ∀ {α : Type} {p : Tx α}, Keeps Coherent p → Keeps Coherent (quietly p) :=
    fun h => keeps_seq h (fun _ => trivial)
  cases job with
  | register => exact quiet (keeps_register _ _ _ _ _ _ _)
  | initiateFunding => exact quiet (keeps_initiateFunding _ _ _ _)
  | initiateTransfer => exact quiet (keeps_initiateTransfer _ _ _ _ _ _ _)
  | initiatePayment => exact quiet (keeps_initiatePayment _ _ _ _ _ _)
  | initiateWithdrawal => exact quiet (keeps_initiateWithdrawal _ _ _ _ _)
  | processChargeSuccess => exact keeps_processChargeSuccess _
  | reconcileFunding => exact keeps_reconcileFunding _ _
  | executePayout => exact keeps_executePayout _
  | processPayoutSuccess => exact keeps_processPayoutSuccess _
  | processPayoutFailure => exact keeps_processPayoutFailure _ _

variable {R : (Row → Prop) → Database → Database → Prop} {G : List Write → Database → Prop}

inductive MoneyCommit (ws : List Write) (db : Database) : Prop where
  | movement (h : MovementCommit db ws)
  | hold (h : HoldCommit db ws)
  | side (h : Side ws)

theorem money_regular {ws : List Write} {db : Database} (h : MoneyCommit ws db) :
    ∀ w ∈ ws, Regular w := by
  cases h with
  | movement h => exact movement_regular h
  | hold h => exact hold_regular h
  | side h => exact side_regular h

theorem money_env : Interference (Rely MoneyCommit) := interference_rely fun _ _ h => money_regular h

/-- The outcome the CHECK on balances would produce. -/
def FailsBalanceCheck (r : Except AppError Unit) : Prop :=
  r = .error (.integrity .walletsBalanceNonNegative)

theorem movesMoney_wp (env : Interference R) (commits : ∀ ws db, MoneyCommit ws db → G ws db)
    {job : Job} (money : job.movesMoney) {db : Database} (solvent : Solvent db) :
    wp R G FreshWallets job.program (fun r _ => ¬ FailsBalanceCheck r)
      (⟨db, [], default, Nothing⟩ : Window) := by
  have clean := clean_start env db Nothing
  have grip : Grip R FreshWallets db Locked := grip_fresh env (fun _ _ _ _ fresh => fresh)
  have moves := fun ws db h => commits ws db (.movement h)
  have holds := fun ws db h => commits ws db (.hold h)
  have sides := fun ws db h => commits ws db (.side h)
  have other : ∀ x, x ≠ .integrity .walletsBalanceNonNegative → ¬ FailsBalanceCheck (.error x) := by
    rintro x differs ⟨⟩
    exact differs rfl
  have fine : ¬ FailsBalanceCheck (.ok ()) := by rintro ⟨⟩
  cases job with
  | initiateTransfer normalize sender cfg recipient amount key draws =>
    refine seq_wp ?_
    refine initiateTransfer_wp env grip ?_ sides (Int.le_of_lt money) clean solvent
      (fun _ x => other x) (fun _ _ _ _ _ => fine) (fun _ _ _ _ _ _ _ _ _ _ _ _ _ => fine)
    intro u source destination payer payee _ poised _ _ _ _
    exact moves _ _ (movement_poised (Or.inl rfl) rfl rfl rfl rfl rfl poised)
  | initiatePayment payer cfg merchantId amount key draws =>
    refine seq_wp ?_
    refine initiatePayment_wp env grip ?_ sides (Int.le_of_lt money) clean solvent
      (fun _ x => other x) (fun _ _ _ _ _ => fine) (fun _ _ _ _ _ _ _ _ _ _ _ _ _ => fine)
    intro u source destination payer payee _ poised _ _ _
    exact moves _ _ (movement_poised (Or.inr rfl) rfl rfl rfl rfl rfl poised)
  | initiateWithdrawal cfg user bankAccountId amount draws =>
    refine seq_wp ?_
    refine initiateWithdrawal_wp env grip ?_ sides clean (fun _ x => other x) (fun _ _ => fine)
    intro u source wallet _ poised _ _ _
    exact holds _ _ (hold_poised rfl rfl rfl rfl rfl poised)
  | _ => exact money.elim

inductive FundingCommit (ws : List Write) (db : Database) : Prop where
  | charge (id : Uuid) (h : ChargeCommit id db ws)
  | start (id : Uuid) (h : StartCommit id db ws)
  | abandon (id : Uuid) (h : AbandonCommit id db ws)
  | side (h : Side ws)

theorem funding_regular {ws : List Write} {db : Database} (h : FundingCommit ws db) :
    ∀ w ∈ ws, Regular w := by
  cases h with
  | charge id h => exact charge_regular h
  | start id h => exact start_regular h
  | abandon id h => exact abandon_regular h
  | side h => exact side_regular h

theorem funding_env : Interference (Rely FundingCommit) := interference_rely fun _ _ h => funding_regular h

theorem charges_wp (env : Interference R) (commits : ∀ ws db, FundingCommit ws db → G ws db)
    {job : Job} (charges : job.charges) (db : Database) :
    wp R G FreshTransactions job.program (fun _ _ => True)
      (⟨db, [], default, Nothing⟩ : Window) := by
  have current : ∀ (s : Database) (m : IdentityMap) (rows : List Row) (adds : List Write),
      FreshTransactions s m rows adds → FreshTransactions s m rows adds := fun _ _ _ _ h => h
  have charged := fun id ws (s : Database) (_ : True) (_ : R Nothing db s) h =>
    commits ws s (.charge id h)
  have sides := fun ws s h => commits ws s (.side h)
  have here := env.refl Nothing db
  cases job with
  | processChargeSuccess data =>
    exact processChargeSuccess_wp (K := fun _ => True) env current charged sides here rfl rfl
      (fun _ _ _ _ _ _ => trivial) (fun _ _ => trivial) (fun _ _ => trivial)
      (fun _ _ _ _ _ _ _ => trivial)
  | reconcileFunding transactionId providerReference =>
    exact reconcileFunding_wp (K := fun _ => True) env current charged
      (fun id t _ s _ _ _ _ found pending => commits _ s (.start id (.started t found pending)))
      sides (fun _ _ _ _ _ _ => trivial) (fun ws s _ h => commits ws s (.abandon _ h)) here rfl rfl
      (fun _ _ => trivial)
  | _ => exact charges.elim

inductive PayoutCommit (ws : List Write) (db : Database) : Prop where
  | dispatch (id : Uuid) (h : DispatchCommit id db ws)
  | settle (id : Uuid) (h : SettleCommit id db ws)
  | side (h : Side ws)

theorem payout_regular {ws : List Write} {db : Database} (h : PayoutCommit ws db) :
    ∀ w ∈ ws, Regular w := by
  cases h with
  | dispatch id h => exact dispatch_regular h
  | settle id h => exact settle_regular h
  | side h => exact side_regular h

theorem payout_env : Interference (Rely PayoutCommit) := interference_rely fun _ _ h => payout_regular h

theorem paysOut_wp (env : Interference R) (commits : ∀ ws db, PayoutCommit ws db → G ws db)
    {job : Job} (pays : job.paysOut) (db : Database) :
    wp R G FreshTransactions job.program (fun _ _ => True)
      (⟨db, [], default, Nothing⟩ : Window) := by
  have current : ∀ (s : Database) (m : IdentityMap) (rows : List Row) (adds : List Write),
      FreshTransactions s m rows adds → FreshTransactions s m rows adds := fun _ _ _ _ h => h
  have settles := fun id ws (s : Database) (_ : True) h => commits ws s (.settle id h)
  have sides := fun ws s h => commits ws s (.side h)
  cases job with
  | executePayout transactionId =>
    exact executePayout_wp env current sides (fun ws s _ h => commits ws s (.dispatch _ h))
      (env.refl Nothing db) rfl rfl (fun _ _ => trivial)
  | processPayoutSuccess reference =>
    exact payoutEvent_wp (K := fun _ => True) (D := fun _ => True) env current settles sides
      (fun _ _ _ _ _ => trivial) persists_true (Or.inl rfl) rfl rfl
      (fun _ _ _ _ => trivial) (fun _ _ => trivial) (fun _ _ _ => trivial)
      (fun _ _ _ _ _ _ _ _ _ => trivial) (fun _ _ => trivial)
  | processPayoutFailure reference transferCode =>
    exact payoutEvent_wp (K := fun _ => True) (D := fun _ => True) env current settles sides
      (fun _ _ _ _ _ => trivial) persists_true (Or.inr ⟨transferCode, rfl⟩) rfl rfl
      (fun _ _ _ _ => trivial) (fun _ _ => trivial) (fun _ _ _ => trivial)
      (fun _ _ _ _ _ _ _ _ _ => trivial) (fun _ _ => trivial)
  | _ => exact pays.elim

inductive StatusCommit (ws : List Write) (db : Database) : Prop where
  | funding (h : FundingCommit ws db)
  | payout (h : PayoutCommit ws db)

theorem status_regular {ws : List Write} {db : Database} (h : StatusCommit ws db) :
    ∀ w ∈ ws, Regular w := by
  cases h with
  | funding h => exact funding_regular h
  | payout h => exact payout_regular h

theorem status_env : Interference (Rely StatusCommit) := interference_rely fun _ _ h => status_regular h

theorem setsStatus_wp (env : Interference R) (commits : ∀ ws db, StatusCommit ws db → G ws db)
    {job : Job} (sets : job.setsStatus) (db : Database) :
    wp R G FreshTransactions job.program (fun _ _ => True)
      (⟨db, [], default, Nothing⟩ : Window) := by
  rcases sets with charges | pays
  · exact charges_wp env (fun ws s h => commits ws s (.funding h)) charges db
  · exact paysOut_wp env (fun ws s h => commits ws s (.payout h)) pays db

section Runs
variable {ι : Type} {db : Database} {jobs : ι → Job}

/-- Sessions whose programs are verified one by one are safe together. -/
theorem opening_safe {F : Database → IdentityMap → List Row → List Write → Prop}
    (verified : ∀ i, wp (Rely G) G F (jobs i).program (fun _ _ => True)
      (⟨db, [], default, Nothing⟩ : Window)) :
    Safe G (fun _ => F) (fun _ _ _ => True) (opening db jobs) :=
  initial_safe verified

theorem lasting_true : Lasting G (fun (_ : ι) (_ : Except AppError Unit) (_ : Database) => True) :=
  fun _ _ _ _ _ h => h

end Runs

end PayCoreJobRules
