import PayCore.Proof.JobRules

/- Concurrent transfers, payments and withdrawals: where every lock finds the balance
   its session has loaded, no update of a balance is lost. -/
namespace PayCoreWalletBalances
open KeyedTable SessionProgram SessionSystem RelyGuarantee PayCoreTables PayCoreWrites PayCoreSessions
open PayCorePersistence PayCoreCommits PayCoreStatements PayCoreJobs PayCoreJobRules

/-- The amounts that the transactions inserted by a commit move to and from a wallet. -/
def creditOf (id : Uuid) : Write → Int
  | .insertTransaction t => if t.destinationWalletId = some id then t.amount else 0
  | _ => 0

def debitOf (id : Uuid) : Write → Int
  | .insertTransaction t => if t.sourceWalletId = some id then t.amount else 0
  | _ => 0

variable {ι : Type}

def credited (id : Uuid) (log : List (ι × List Write)) : Int :=
  tally (fun ws => (ws.map (creditOf id)).sum) log

def debited (id : Uuid) (log : List (ι × List Write)) : Int :=
  tally (fun ws => (ws.map (debitOf id)).sum) log

/-- The balance of a wallet is its initial balance under exactly what was committed,
   and no more was taken out than there was. -/
def Accounted (before after : Database) (log : List (ι × List Write)) (id : Uuid) : Prop :=
  ∀ old, before.wallets.find? id = some old → ∃ new, after.wallets.find? id = some new ∧
    new.balance = old.balance + credited id log - debited id log ∧
    debited id log ≤ old.balance + credited id log

theorem find?_setBalance {wallets : Table Wallet} {id k : Uuid} {b : Int} {w : Wallet}
    (found : wallets.find? k = some w) : (wallets.update id (balanceEdit b)).find? k =
      some (if id = k then { w with balance := b } else w) := by
  rw [find?_update, found]
  split <;> rfl

theorem movement_balance {db : Database} {ws : List Write} {id : Uuid} {w : Wallet}
    (h : MovementCommit db ws) (found : db.wallets.find? id = some w) :
    ∃ new, (applyAll ws db).wallets.find? id = some new ∧
      new.balance = w.balance + (ws.map (creditOf id)).sum - (ws.map (debitOf id)).sum := by
  cases h with
  | posted t sender recipient type status source destination provider extra free payer payee apart =>
    refine ⟨_, find?_setBalance (find?_setBalance found), ?_⟩
    simp only [movementWrites, List.map_cons, List.map_nil, creditOf, debitOf, List.sum_cons,
      List.sum_nil, source, destination, Option.some.injEq]
    by_cases pays : sender.id = id
    · rw [← pays, payer] at found
      cases found
      have gains : recipient.id ≠ id := fun same => apart (pays.trans same.symm)
      simp [pays, gains]
    · by_cases gains : recipient.id = id
      · rw [← gains, payee] at found
        cases found
        simp [pays, gains]
      · simp [pays, gains]

theorem hold_balance {db : Database} {ws : List Write} {id : Uuid} {w : Wallet}
    (h : HoldCommit db ws) (found : db.wallets.find? id = some w) :
    ∃ new, (applyAll ws db).wallets.find? id = some new ∧
      new.balance = w.balance + (ws.map (creditOf id)).sum - (ws.map (debitOf id)).sum := by
  cases h with
  | held t wallet type status source destination provider free holder =>
    refine ⟨_, find?_setBalance found, ?_⟩
    simp only [List.map_cons, List.map_nil, creditOf, debitOf, List.sum_cons, List.sum_nil, source,
      destination, Option.some.injEq]
    by_cases pays : wallet.id = id
    · rw [← pays, holder] at found
      cases found
      simp [pays]
    · simp [pays]

theorem side_balance {db : Database} {ws : List Write} {id : Uuid} {w : Wallet} (h : Side ws)
    (found : db.wallets.find? id = some w) :
    ∃ new, (applyAll ws db).wallets.find? id = some new ∧
      new.balance = w.balance + (ws.map (creditOf id)).sum - (ws.map (debitOf id)).sum := by
  have none_moved : ∀ v ∈ ws, creditOf id v = 0 ∧ debitOf id v = 0 := by
    intro v mem
    have aside := h v mem
    cases v <;> simp_all [sideWrite, creditOf, debitOf]
  refine ⟨w, by rw [(side_money h db).wallets]; exact found, ?_⟩
  rw [List.sum_eq_zero, List.sum_eq_zero]
  · omega
  · intro x mem
    obtain ⟨v, inside, rfl⟩ := List.mem_map.mp mem
    exact (none_moved v inside).2
  · intro x mem
    obtain ⟨v, inside, rfl⟩ := List.mem_map.mp mem
    exact (none_moved v inside).1

theorem money_balance {db : Database} {ws : List Write} {id : Uuid} {w : Wallet}
    (h : MoneyCommit ws db) (found : db.wallets.find? id = some w) :
    ∃ new, (applyAll ws db).wallets.find? id = some new ∧
      new.balance = w.balance + (ws.map (creditOf id)).sum - (ws.map (debitOf id)).sum := by
  cases h with
  | movement h => exact movement_balance h found
  | hold h => exact hold_balance h found
  | side h => exact side_balance h found

section
variable [DecidableEq ι]

omit [DecidableEq ι] in
theorem money_safe {db : Database} (solvent : Solvent db) {jobs : ι → Job}
    (money : ∀ i, (jobs i).movesMoney) :
    Safe MoneyCommit (fun _ => FreshWallets) (fun _ r _ => ¬ FailsBalanceCheck r) (opening db jobs) := by
  refine initial_safe ?_
  intro i
  exact movesMoney_wp money_env (fun _ _ h => h) (money i) solvent

theorem wallets_accounted {db : Database} (solvent : Solvent db) {jobs : ι → Job}
    (money : ∀ i, (jobs i).movesMoney) {T : Machine ι}
    (run : Run (Meets (fun _ => FreshWallets)) (opening db jobs) T) (id : Uuid) :
    Accounted db T.db T.log id := by
  intro old found
  have lasting : Lasting MoneyCommit (fun (_ : ι) r (_ : Database) => ¬ FailsBalanceCheck r) :=
    fun _ _ _ _ _ h => h
  have kept := run_keeps lasting (money_safe solvent money) run
    (P := fun log s => Solvent s ∧ ∃ new, s.wallets.find? id = some new ∧
      new.balance = old.balance + credited id log - debited id log) ?_ ?_
  · obtain ⟨covered, new, there, balance⟩ := kept
    have positive : 0 ≤ new.balance := covered new (find?_some_iff.mp there).1
    exact ⟨new, there, balance, by omega⟩
  · rintro i ws log s commit ⟨covered, w, there, balance⟩
    obtain ⟨new, after, moved⟩ := money_balance commit there
    refine ⟨(later_all (money_regular commit) s).solvent covered, new, after, ?_⟩
    simp only [credited, debited, tally_commit] at balance ⊢
    omega
  · exact ⟨solvent, old, found, by simp [credited, debited, opening, initial]⟩

end

section Race

def member (id : Uuid) (email : String) : User :=
  { id, email, hashedPassword := "", fullName := "", kycTier := 2 }

def raceDb : Database :=
  { emptyDatabase with
    users := ⟨[member 1 "alice", member 2 "bob", member 3 "carol"], by decide⟩
    wallets := ⟨[{ id := 11, userId := 1, balance := 10000 }, { id := 12, userId := 2 },
      { id := 13, userId := 3 }], by decide⟩ }

/-- Alice sends NGN 60.00 to Bob and, at the same time, NGN 60.00 to Carol. -/
def raceJobs (i : Fin 2) : Job :=
  .initiateTransfer id (member 1 "alice") {} (.userId (2 + i)) 6000 none
    ⟨100 + i, toString i.val, 0, ⟨0, 0⟩⟩

/-- Both have loaded the wallet before either locks it. -/
def race : List (Action (Fin 2) PaystackData) :=
  List.replicate 5 (.run 1) ++ List.replicate 16 (.run 0) ++ List.replicate 11 (.run 1)

def outcome (T : Machine (Fin 2)) : Bool × Bool × Option Int × Int × Int :=
  ((T.session 0).prog.finished, (T.session 1).prog.finished,
    (T.db.wallets.find? 11).map (·.balance), credited 11 T.log, debited 11 T.log)

theorem race_solvent : Solvent raceDb := by
  unfold Solvent
  decide

theorem race_money (i : Fin 2) : (raceJobs i).movesMoney := by
  show (0 : Int) < 6000
  decide

/-- Alice ends with NGN 40.00 although NGN 120.00 left her wallet. -/
theorem concurrent_transfers_lose_an_update :
    ¬ ∀ T : Machine (Fin 2), Run Anyhow (opening raceDb raceJobs) T → (∀ i, Ended T i) →
      ∀ id, Accounted raceDb T.db T.log id := by
  intro claim
  have computed : (schedule Anyhow (opening raceDb raceJobs) race).map outcome =
      some (true, true, some 4000, 0, 12000) := by decide +kernel
  obtain ⟨T, run, values⟩ := reached_of_schedule computed
  simp only [outcome, Prod.mk.injEq] at values
  obtain ⟨first, second, balance, into, out⟩ := values
  have ended : ∀ i, Ended T i := by
    intro i
    match i with
    | 0 => exact first
    | 1 => exact second
  have there : raceDb.wallets.find? 11 = some { id := 11, userId := 1, balance := 10000 } := by
    decide
  obtain ⟨new, _, _, covered⟩ := claim T run ended 11 _ there
  rw [into, out] at covered
  exact absurd covered (by decide)

/-- One after the other, the second transfer finds too little and the books balance. -/
theorem transfers_in_turn_accounted :
    ∃ T : Machine (Fin 2), Run (Meets (fun _ => FreshWallets)) (opening raceDb raceJobs) T ∧
      debited 11 T.log = 6000 ∧ Accounted raceDb T.db T.log 11 := by
  have computed : (schedule (Meets (fun _ => FreshWallets)) (opening raceDb raceJobs)
      (List.replicate 16 (.run 0) ++ List.replicate 8 (.run 1))).map outcome =
      some (true, true, some 4000, 0, 6000) := by decide +kernel
  obtain ⟨T, run, values⟩ := reached_of_schedule computed
  simp only [outcome, Prod.mk.injEq] at values
  exact ⟨T, run, values.2.2.2.2, wallets_accounted race_solvent race_money run 11⟩

end Race

end PayCoreWalletBalances
