import PayCore.Proof.SerialJobs
import PayCore.Result.SharedKeys

/- The daily limit and the duplicate rule over one user's concurrent transfers and
   payments. The checks look at what is committed before the wallets are locked. -/
namespace PayCoreFraudRules
open KeyedTable SessionProgram SessionSystem RelyGuarantee PayCoreTables PayCoreWrites PayCoreSessions
open PayCoreRepositories PayCoreSupport PayCorePayments PayCorePersistence PayCoreCommits PayCoreStatements
open PayCoreRequests PayCoreMovements PayCoreJobs PayCoreJobRules PayCoreSerialJobs PayCoreRegularity
open PayCoreWalletBalances PayCoreIdempotencyKeys PayCoreSharedKeys

variable {ι : Type} {cfg : Settings} {user : User} {day : Timestamp} {db s t : Database}

def onDay (day : Timestamp) (t : Transaction) : Bool := dayStart t.createdAt == day

/-- What the user has sent on the day by one kind of transaction. -/
def counts (userId : Uuid) (type : TransactionType) (day : Timestamp) (t : Transaction) : Bool :=
  t.initiatedByUserId == userId && t.type == type && t.status == .completed && onDay day t

def outgoingOn (userId : Uuid) (type : TransactionType) (day : Timestamp) (db : Database) : Int :=
  ((db.transactions.rows.filter (counts userId type day)).map (·.amount)).sum

/-- Two completed transfers of one amount between the same wallets within the window. -/
def repeats (cfg : Settings) (a b : Transaction) : Bool :=
  a.type == .transfer && b.type == .transfer && a.status == .completed && b.status == .completed &&
    sharesSome a.sourceWalletId b.sourceWalletId &&
    sharesSome a.destinationWalletId b.destinationWalletId && a.amount == b.amount &&
    decide (a.createdAt ≤ b.createdAt + seconds cfg.fraudDuplicateWindowSeconds) &&
    decide (b.createdAt ≤ a.createdAt + seconds cfg.fraudDuplicateWindowSeconds)

structure Rules (cfg : Settings) (user : User) (day : Timestamp) (db : Database) : Prop where
  transfers : outgoingOn user.id .transfer day db ≤ tierDailyLimit cfg user.kycTier
  payments : outgoingOn user.id .merchantPayment day db ≤ tierDailyLimit cfg user.kycTier
  apart : db.transactions.rows.Pairwise (fun a b => repeats cfg a b = false)

/-- The queries of the fraud checks, made once more in `s` for a row that goes in there, with
its created_at for the clock. -/
def recheck (cfg : Settings) (user : User) (s : Database) : Write → Bool
  | .insertTransaction t =>
    decide (FraudRepository.dailyOutgoingSum user.id t.type (dayStart t.createdAt) s + t.amount ≤
        tierDailyLimit cfg user.kycTier) &&
      (t.type != .transfer || t.sourceWalletId.all fun source =>
        t.destinationWalletId.all fun destination =>
        FraudRepository.recentTransfers source destination t.amount
          (t.createdAt - seconds cfg.fraudDuplicateWindowSeconds) s == 0)
  | _ => true

def Rechecked (cfg : Settings) (user : User) (s : Database) (_ : IdentityMap) (_ : List Row)
    (adds : List Write) : Prop :=
  adds.all (recheck cfg user s) = true

instance (s : Database) (m : IdentityMap) (rows : List Row) (adds : List Write) :
    Decidable (Rechecked cfg user s m rows adds) :=
  inferInstanceAs (Decidable (_ = true))

def Unsigned (db : Database) : Prop := ∀ t ∈ db.transactions.rows, 0 ≤ t.amount

/-- A transfer or payment of a positive amount by the user, under one configuration. -/
def sentBy (cfg : Settings) (user : User) : Job → Prop
  | .initiateTransfer _ sender c _ amount _ _ => sender = user ∧ c = cfg ∧ 0 < amount
  | .initiatePayment payer c _ amount _ _ => payer = user ∧ c = cfg ∧ 0 < amount
  | _ => False

/-- What such sessions commit: a movement out of the user's wallet that passed its checks where it
   is committed. -/
inductive RuleCommit (cfg : Settings) (user : User) : List Write → Database → Prop where
  | moved {db t payer payee} (free : db.transactions.admits t = true)
      (regular : ∀ w ∈ movementWrites t payer payee, Regular w) (owned : Owned payer.id user.id db)
      (unsigned : 0 ≤ t.amount) (passes : recheck cfg user db (.insertTransaction t) = true) :
      RuleCommit cfg user (movementWrites t payer payee) db
  | side {ws db} (h : Side ws) : RuleCommit cfg user ws db

theorem rule_regular {ws : List Write} (h : RuleCommit cfg user ws db) : ∀ w ∈ ws, Regular w := by
  cases h with
  | moved _ regular => exact regular
  | side h => exact side_regular h

theorem rule_env : Interference (Rely (RuleCommit cfg user)) :=
  interference_rely fun _ _ h => rule_regular h

theorem outgoingOn_added {a b : Database} {t : Transaction} {userId : Uuid} {type : TransactionType}
    (added : b.transactions.rows = a.transactions.rows ++ [t]) :
    outgoingOn userId type day b =
      outgoingOn userId type day a + if counts userId type day t then t.amount else 0 := by
  unfold outgoingOn
  rw [added, List.filter_append, List.map_append, List.sum_append]
  split
  · rename_i counted
    simp [counted]
  · rename_i skipped
    simp [skipped]

/-- The query of the day sees at least what the user has sent on it. -/
theorem outgoing_le_query (unsigned : Unsigned db) (userId : Uuid) (type : TransactionType) :
    outgoingOn userId type day db ≤ FraudRepository.dailyOutgoingSum userId type day db := by
  have picks : outgoingOn userId type day db =
      (db.transactions.rows.map fun t => if counts userId type day t then t.amount else 0).sum := by
    unfold outgoingOn
    induction db.transactions.rows with
    | nil => rfl
    | cons t rest ih =>
      by_cases counted : counts userId type day t = true
      · simp [counted, ih]
      · simp [counted, ih]
  rw [picks]
  apply sum_le_filter
  intro t mem
  have amount := unsigned t mem
  by_cases counted : counts userId type day t = true
  · simp only [counts, onDay, Bool.and_eq_true, beq_iff_eq] at counted
    obtain ⟨⟨⟨mine, kind⟩, completed⟩, today⟩ := counted
    have since : day ≤ t.createdAt := today ▸ Nat.sub_le _ _
    simp [counts, onDay, mine, kind, completed, today, since]
  · rw [if_neg counted]
    split
    · exact amount
    · exact Int.le_refl 0

theorem limit_kept {t : Transaction} {type : TransactionType} {a b : Database} (unsigned : Unsigned a)
    (added : b.transactions.rows = a.transactions.rows ++ [t])
    (passes : recheck cfg user a (.insertTransaction t) = true)
    (within_limit : outgoingOn user.id type day a ≤ tierDailyLimit cfg user.kycTier) :
    outgoingOn user.id type day b ≤ tierDailyLimit cfg user.kycTier := by
  rw [outgoingOn_added added]
  split
  · rename_i counted
    simp only [counts, onDay, Bool.and_eq_true, beq_iff_eq] at counted
    obtain ⟨⟨⟨_, kind⟩, _⟩, today⟩ := counted
    simp only [recheck, Bool.and_eq_true, decide_eq_true_eq, kind, today] at passes
    have query : outgoingOn user.id type day a ≤ FraudRepository.dailyOutgoingSum user.id type day a :=
      outgoing_le_query unsigned user.id type
    omega
  · omega

theorem repeat_counted {a t : Transaction} (stored : a ∈ db.transactions.rows)
    (again : repeats cfg a t = true) :
    recheck cfg user db (.insertTransaction t) = false := by
  simp only [repeats, Bool.and_eq_true, beq_iff_eq, decide_eq_true_eq] at again
  obtain ⟨⟨⟨⟨⟨⟨⟨⟨kindA, kindT⟩, _⟩, _⟩, sources⟩, destinations⟩, amount⟩, _⟩, recent⟩ :=
    again
  obtain ⟨source, from_a, from_t⟩ := sharesSome_iff.mp sources
  obtain ⟨destination, to_a, to_t⟩ := sharesSome_iff.mp destinations
  have counted : FraudRepository.recentTransfers source destination t.amount
      (t.createdAt - seconds cfg.fraudDuplicateWindowSeconds) db ≠ 0 := by
    apply Nat.ne_of_gt
    apply List.length_pos_of_mem (a := a)
    simp [stored, from_a, to_a, amount, kindA, recent]
  simp [recheck, kindT, from_t, to_t, counted]

theorem unsigned_commit {ws : List Write} (commit : RuleCommit cfg user ws db) (unsigned : Unsigned db) :
    Unsigned (applyAll ws db) := by
  cases commit with
  | side h =>
    unfold Unsigned
    rw [(side_money h db).transactions]
    exact unsigned
  | @moved _ t payer payee free regular owned amount passes =>
    intro a mem
    rw [movement_transactions payer payee free] at mem
    rcases List.mem_append.mp mem with old | new
    · exact unsigned a old
    · rw [List.mem_singleton.mp new]
      exact amount

theorem rules_commit {ws : List Write} (commit : RuleCommit cfg user ws db) (unsigned : Unsigned db)
    (rules : Rules cfg user day db) : Rules cfg user day (applyAll ws db) := by
  cases commit with
  | side h =>
    have aside := (side_money h db).transactions
    constructor
    · unfold outgoingOn
      rw [aside]
      exact rules.transfers
    · unfold outgoingOn
      rw [aside]
      exact rules.payments
    · rw [aside]
      exact rules.apart
  | @moved _ t payer payee free regular owned amount passes =>
    have added := movement_transactions payer payee free
    constructor
    · exact limit_kept unsigned added passes rules.transfers
    · exact limit_kept unsigned added passes rules.payments
    · rw [added, List.pairwise_append]
      refine ⟨rules.apart, List.pairwise_singleton _ _, ?_⟩
      intro a mem b last
      rw [List.mem_singleton.mp last]
      cases again : repeats cfg a t with
      | false => rfl
      | true =>
        rw [repeat_counted mem again] at passes
        cases passes

/-- While a session holds the wallet of the user, nobody adds a transaction. -/
theorem still_while_held {held : Row → Prop} {source : Uuid} (rely : Rely (RuleCommit cfg user) held s t)
    (mine : held (.wallet source)) (owned : Owned source user.id s) : t.transactions = s.transactions := by
  induction rely with
  | refl => rfl
  | step before commit spares ih =>
    cases commit with
    | side h => exact (side_money h _).transactions.trans ih
    | moved _ _ owns _ _ =>
      have here := owned_frame (rely_frame before mine) owned
      rw [owned_unique here owns] at mine
      exact absurd (by simp [movementWrites, Store.targets, writeTargets]) (spares _ mine)

theorem recheck_same (same : t.transactions = s.transactions) (w : Write) :
    recheck cfg user t w = recheck cfg user s w := by
  cases w with
  | insertTransaction a =>
    have day : ∀ since, FraudRepository.dailyOutgoingSum user.id a.type since t =
        FraudRepository.dailyOutgoingSum user.id a.type since s := by
      intro since
      simp only [FraudRepository.dailyOutgoingSum, same]
    have recent : ∀ source destination since, FraudRepository.recentTransfers source destination
        a.amount since t =
        FraudRepository.recentTransfers source destination a.amount since s := by
      intro source destination since
      simp only [FraudRepository.recentTransfers, same]
    simp only [recheck, day, recent]
  | _ => rfl

theorem poised_passes {source destination : Uuid} {txn : Transaction} {payer payee : Wallet} {u : Window}
    (poised : Poised (Rely (RuleCommit cfg user)) (Rechecked cfg user)
      (Grasped (Rely (RuleCommit cfg user)) db) source destination txn payer payee u)
    (owned : Owned source user.id u.db) (unsigned : 0 ≤ txn.amount) :
    RuleCommit cfg user u.pending u.db := by
  obtain ⟨before, memory, mine, goes, meets⟩ := poised.entered
  have same : Same (.wallet source) before.db u.db := goes.same _ mine
  have ownedBefore : Owned source user.id before.db := owned_frame (Eq.symm same) owned
  have passed : recheck cfg user before.db (.insertTransaction txn) = true := by
    simpa [Rechecked] using meets
  rw [poised.pending]
  apply RuleCommit.moved poised.reserved.free
    (movementWrites_regular poised.covered poised.creditable.1) _ unsigned
  · rw [recheck_same (still_while_held goes.steady mine ownedBefore)]
    exact passed
  · rw [poised.debtor.key]
    exact owned

theorem sentBy_wp (solvent : Solvent db) {job : Job} (sent : sentBy cfg user job) :
    wp (Rely (RuleCommit cfg user)) (RuleCommit cfg user) (Rechecked cfg user) job.program
      (fun _ _ => True) (⟨db, [], default, Nothing⟩ : Window) := by
  have env : Interference (Rely (RuleCommit cfg user)) := rule_env
  have clean := clean_start env db Nothing
  have grip : Grip (Rely (RuleCommit cfg user)) (Rechecked cfg user) db
      (Grasped (Rely (RuleCommit cfg user)) db) := grip_grasped rule_env
  have sides : ∀ ws s, Side ws → RuleCommit cfg user ws s := fun _ _ => .side
  cases job with
  | initiateTransfer normalize sender c recipient amount k draws =>
    obtain ⟨rfl, rfl, positive⟩ := sent
    apply seq_wp
    apply initiateTransfer_wp rule_env grip _ sides (Int.le_of_lt positive) clean solvent
    · intros
      trivial
    · intros
      trivial
    · intros
      trivial
    · intro u source destination payer payee _ poised owned _ _ _
      exact poised_passes poised owned (Int.le_of_lt positive)
  | initiatePayment payer c merchantId amount k draws =>
    obtain ⟨rfl, rfl, positive⟩ := sent
    apply seq_wp
    apply initiatePayment_wp rule_env grip _ sides (Int.le_of_lt positive) clean solvent
    · intros
      trivial
    · intros
      trivial
    · intros
      trivial
    · intro u source destination payer payee _ poised owned _ _
      exact poised_passes poised owned (Int.le_of_lt positive)
  | _ => exact sent.elim

/-- While the checks of every request would still pass where its transaction is inserted, the
limits of the day and the duplicate rule hold in every state that any interleaving reaches. -/
theorem rechecked_runs_keep_the_rules [DecidableEq ι] (solvent : Solvent db) (unsigned : Unsigned db)
    (rules : Rules cfg user day db) {jobs : ι → Job} (sent : ∀ i, sentBy cfg user (jobs i))
    {T : Machine ι} (run : Run (Meets (fun _ => Rechecked cfg user)) (opening db jobs) T) :
    Rules cfg user day T.db := by
  have lasting : Lasting (RuleCommit cfg user)
      (fun (_ : ι) (_ : Except AppError Unit) _ => True) := fun _ _ _ _ _ h => h
  have safe : Safe (RuleCommit cfg user) (fun _ => Rechecked cfg user) (fun _ _ _ => True)
      (opening db jobs) := by
    apply initial_safe
    intro i
    exact sentBy_wp solvent (sent i)
  have kept : Unsigned T.db ∧ Rules cfg user day T.db := by
    apply run_keeps lasting safe run (P := fun _ s => Unsigned s ∧ Rules cfg user day s)
    · rintro i ws log s commit ⟨before, holds⟩
      exact ⟨unsigned_commit commit before, rules_commit commit before holds⟩
    · exact ⟨unsigned, rules⟩
  exact kept.2

section Turns

def prompt : Job → Prop
  | .initiateTransfer _ _ _ _ _ _ draws => draws.clock.utcNow = draws.clock.startedAt
  | .initiatePayment _ _ _ _ _ draws => draws.clock.utcNow = draws.clock.startedAt
  | _ => True

theorem alone_wp (solvent : Solvent db) {job : Job} (sent : sentBy cfg user job) (clock : prompt job) :
    wp Alone (RuleCommit cfg user) FreshWallets job.program (fun _ _ => True)
      (⟨db, [], default, Nothing⟩ : Window) := by
  have env := interference_alone
  have clean := clean_start env db Nothing
  have grip : Grip Alone FreshWallets db Locked := grip_fresh env (fun _ _ _ _ fresh => fresh)
  have sides : ∀ ws s, Side ws → RuleCommit cfg user ws s := fun _ _ => .side
  cases job with
  | initiateTransfer normalize sender c recipient amount k draws =>
    obtain ⟨rfl, rfl, positive⟩ := sent
    apply seq_wp
    apply initiateTransfer_wp env grip _ sides (Int.le_of_lt positive) clean solvent
    · intros
      trivial
    · intros
      trivial
    · intros
      trivial
    · intro u source destination payer payee _ poised owned _ checked unrepeated
      have daily := passed_alone checked.daily
      have alone := passed_alone unrepeated
      rw [clock] at daily alone
      rw [poised.pending]
      apply RuleCommit.moved poised.reserved.free
        (movementWrites_regular poised.covered poised.creditable.1) _
        (Int.le_of_lt positive)
      · simp [recheck, movementOf, daily, poised.debtor.key, poised.creditor.key, alone]
      · rw [poised.debtor.key]
        exact owned
  | initiatePayment payer c merchantId amount k draws =>
    obtain ⟨rfl, rfl, positive⟩ := sent
    apply seq_wp
    apply initiatePayment_wp env grip _ sides (Int.le_of_lt positive) clean solvent
    · intros
      trivial
    · intros
      trivial
    · intros
      trivial
    · intro u source destination payer payee _ poised owned _ checked
      have daily := passed_alone checked.daily
      rw [clock] at daily
      rw [poised.pending]
      apply RuleCommit.moved poised.reserved.free
        (movementWrites_regular poised.covered poised.creditable.1) _
        (Int.le_of_lt positive)
      · simp [recheck, movementOf, daily]
      · rw [poised.debtor.key]
        exact owned
  | _ => exact sent.elim

/-- Requests that take turns keep the rules by their own checks. -/
theorem turns_keep_the_rules (solvent : Solvent db) (unsigned : Unsigned db) (rules : Rules cfg user day db)
    {job : Job} (sent : sentBy cfg user job) (clock : prompt job) (answer : Request → Option PaystackData) :
    Unsigned (runAlone answer job.program db).2 ∧ Rules cfg user day
    (runAlone answer job.program db).2 := by
  have verified :=
    wp_condition (fun _ _ _ _ (fresh : Fresh _ _ _ _) => fresh.1) (alone_wp solvent sent clock)
  apply rely_keeps (P := fun s => Unsigned s ∧ Rules cfg user day s)
    (job_alone answer (Q := fun _ _ => True) verified).2
  · rintro ws s commit ⟨before, holds⟩
    exact ⟨unsigned_commit commit before, rules_commit commit before holds⟩
  · exact ⟨unsigned, rules⟩

end Turns

section DoubleClick

/-- Bob, now at Tier 1, holds NGN 60,000.00. -/
def clicker : User := { member 2 "bob" with kycTier := 1 }

def clickDb : Database :=
  { raceDb with
    wallets := ⟨[{ id := 12, userId := 2, balance := 6000000 }, { id := 13, userId := 3 }], by decide⟩ }

def clicks (i : Fin 2) : Job :=
  .initiateTransfer id clicker {} (.userId 3) 3000000 none ⟨100 + i, toString i.val, 0, ⟨0, 0⟩⟩

def sentOnDay (T : Machine (Fin 2)) : Bool × Bool × Int :=
  ((T.session 0).prog.finished, (T.session 1).prog.finished, outgoingOn 2 .transfer 0 T.db)

theorem clickDb_solvent : Solvent clickDb := by
  unfold Solvent
  decide

theorem clickDb_unsigned : Unsigned clickDb := by
  unfold Unsigned
  decide

theorem clickDb_rules : Rules {} clicker 0 clickDb := ⟨by decide, by decide, by decide⟩

/-- Each request satisfies the rules alone; together they pass the limit of NGN 50,000.00. -/
theorem double_click_breaks_the_rules :
    ¬ ∀ T : Machine (Fin 2), Run Anyhow (opening clickDb clicks) T → (∀ i, Ended T i) →
      Rules {} clicker 0 T.db := by
  intro claim
  have computed : (schedule Anyhow (opening clickDb clicks)
      (List.replicate 5 (.run 1) ++ List.replicate 16 (.run 0) ++ List.replicate 11 (.run 1))).map
      sentOnDay = some (true, true, 6000000) := by decide +kernel
  obtain ⟨T, run, values⟩ := reached_of_schedule computed
  simp only [sentOnDay, Prod.mk.injEq] at values
  obtain ⟨first, second, total⟩ := values
  have ended : ∀ i, Ended T i := by
    intro i
    match i with
    | 0 => exact first
    | 1 => exact second
  have limit := (claim T run ended).transfers
  rw [show clicker.id = 2 from rfl, total] at limit
  exact absurd limit (by decide)

/-- In turn, the second click is refused. -/
theorem clicks_in_turn_keep_the_rules :
    ∃ T : Machine (Fin 2), Run (Meets (fun _ => Rechecked {} clicker)) (opening clickDb clicks) T ∧
      outgoingOn 2 .transfer 0 T.db = 3000000 ∧ Rules {} clicker 0 T.db := by
  have computed : (schedule (Meets (fun _ => Rechecked {} clicker)) (opening clickDb clicks)
      (List.replicate 16 (.run 0) ++ List.replicate 5 (.run 1))).map sentOnDay =
      some (true, true, 3000000) := by decide +kernel
  obtain ⟨T, run, values⟩ := reached_of_schedule computed
  simp only [sentOnDay, Prod.mk.injEq] at values
  refine ⟨T, run, values.2.2, ?_⟩
  apply rechecked_runs_keep_the_rules clickDb_solvent clickDb_unsigned clickDb_rules _ run
  intro i
  exact ⟨rfl, rfl, by decide⟩

end DoubleClick

end PayCoreFraudRules
