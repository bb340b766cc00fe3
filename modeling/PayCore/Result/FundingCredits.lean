import PayCore.Proof.JobRules
import PayCore.Proof.StatusMoves

/- Concurrent charge events and sweeps: where every UPDATE finds the status its session
   has read, a funding is credited at most once. -/
namespace PayCoreFundingCredits
open KeyedTable SessionProgram SessionSystem RelyGuarantee PayCoreTables PayCoreWrites PayCoreSessions
open PayCorePersistence PayCoreCommits PayCoreStatements PayCoreStatusMoves PayCoreJobs
open PayCoreJobRules

variable {ι : Type}

/-- CREDIT entries committed for the transaction, and balances set by the commits that
   change it. -/
def creditEntries (id : Uuid) (log : List (ι × List Write)) : Nat := tally (entries .credit id) log

def walletCredits (id : Uuid) (log : List (ι × List Write)) : Nat := tally (balanceWrites id) log

/-- Nothing credited yet, or credited once and PENDING no more. -/
def CreditedOnce (id : Uuid) (log : List (ι × List Write)) (db : Database) : Prop :=
  ∃ row, db.transactions.find? id = some row ∧
    ((creditEntries id log = 0 ∧ walletCredits id log = 0) ∨
      (row.status ≠ .pending ∧ creditEntries id log = 1 ∧ walletCredits id log = 1))

theorem credited_idle {id : Uuid} {log : List (ι × List Write)} {db : Database} {ws : List Write}
    {i : ι} (regular : ∀ w ∈ ws, Regular w) (entries : entries .credit id ws = 0)
    (balances : balanceWrites id ws = 0) (h : CreditedOnce id log db) :
    CreditedOnce id (log ++ [(i, ws)]) (applyAll ws db) := by
  obtain ⟨row, found, counted⟩ := h
  obtain ⟨row', found', _, started⟩ := (later_all regular db).transactions id row found
  refine ⟨row', found', ?_⟩
  simp only [creditEntries, walletCredits, tally_commit, entries, balances, Nat.add_zero] at counted ⊢
  rcases counted with idle | ⟨left, once⟩
  · exact Or.inl idle
  · exact Or.inr ⟨started left, once⟩

/-- The one commit that credits finds the transaction PENDING, so nothing was credited before. -/
theorem credited_step {id : Uuid} {log : List (ι × List Write)} {db : Database} {ws : List Write}
    (i : ι) (commit : FundingCommit ws db) (h : CreditedOnce id log db) :
    CreditedOnce id (log ++ [(i, ws)]) (applyAll ws db) := by
  have regular := funding_regular commit
  cases commit with
  | start k commit =>
    obtain ⟨none_posted, none_set⟩ := start_counts id commit .credit
    exact credited_idle regular none_posted none_set h
  | abandon k commit =>
    obtain ⟨none_posted, none_set⟩ := abandon_counts id commit .credit
    exact credited_idle regular none_posted none_set h
  | side commit =>
    exact credited_idle regular (side_entries commit .credit id) (none_balanced id (side_balances commit)) h
  | charge k commit =>
    rcases (charge_counts id commit).2 with ⟨none_posted, none_set⟩ | ⟨rfl, posted, set⟩
    · exact credited_idle regular none_posted none_set h
    · obtain ⟨before, there, was⟩ := (charge_move commit).before
      obtain ⟨after, here, is⟩ := (charge_move commit).after
      obtain ⟨row, found, counted⟩ := h
      rw [there] at found
      cases found
      refine ⟨after, here, Or.inr ?_⟩
      simp only [creditEntries, walletCredits, tally_commit, posted, set] at counted ⊢
      rcases counted with ⟨entries, balances⟩ | ⟨left, _⟩
      · exact ⟨by rw [is]; decide, by omega, by omega⟩
      · exact absurd was left

variable [DecidableEq ι]

theorem funding_credited_at_most_once {db : Database} {jobs : ι → Job}
    (charges : ∀ i, (jobs i).charges) {T : Machine ι}
    (run : Run (Meets (fun _ => FreshTransactions)) (opening db jobs) T) {id : Uuid}
    {t : Transaction} (funding : db.transactions.find? id = some t) :
    creditEntries id T.log ≤ 1 ∧ walletCredits id T.log ≤ 1 := by
  have verified := fun i => charges_wp funding_env (fun _ _ h => h) (charges i) db
  have kept := run_keeps lasting_true (opening_safe verified) run (P := CreditedOnce id)
    (fun i ws log s commit h => credited_step i commit h) ⟨t, funding, Or.inl ⟨rfl, rfl⟩⟩
  obtain ⟨_, _, counted⟩ := kept
  omega

section Duplicates

def pendingFunding : Transaction :=
  { id := 200, reference := "txn_f", type := .funding, amount := 5000,
    destinationWalletId := some 11, initiatedByUserId := 1, providerReference := some "txn_f",
    createdAt := 0 }

def fundingDb : Database :=
  { emptyDatabase with
    wallets := ⟨[{ id := 11, userId := 1 }], List.pairwise_singleton _ _⟩
    transactions := ⟨[pendingFunding], List.pairwise_singleton _ _⟩ }

/-- Paystack delivers the same charge.success twice. -/
def duplicates (_ : Fin 2) : Job :=
  .processChargeSuccess { reference := .str "txn_f", amount := some 5000 }

theorem duplicates_charge (i : Fin 2) : (duplicates i).charges := trivial

def credits (T : Machine (Fin 2)) : Option Int × Nat × Nat :=
  ((T.db.wallets.find? 11).map (·.balance), creditEntries 200 T.log, walletCredits 200 T.log)

/-- Both have read PENDING before either writes: NGN 50.00 become NGN 100.00. -/
theorem duplicate_charge_credits_twice :
    ¬ ∀ T : Machine (Fin 2), Run Anyhow (opening fundingDb duplicates) T →
      creditEntries 200 T.log ≤ 1 ∧ walletCredits 200 T.log ≤ 1 := by
  intro claim
  have computed : (schedule Anyhow (opening fundingDb duplicates)
      (.run 1 :: List.replicate 9 (.run 0) ++ List.replicate 8 (.run 1) :
        List (Action (Fin 2) PaystackData))).map credits = some (some 10000, 2, 2) := by
    decide +kernel
  obtain ⟨T, run, values⟩ := reached_of_schedule computed
  simp only [credits, Prod.mk.injEq] at values
  have once := (claim T run).1
  omega

/-- In turn, the second event finds the funding COMPLETED. -/
theorem charges_in_turn_credit_once :
    ∃ T : Machine (Fin 2), (T.db.wallets.find? 11).map (·.balance) = some 5000 ∧
      creditEntries 200 T.log ≤ 1 ∧ walletCredits 200 T.log ≤ 1 := by
  have computed : (schedule (Meets (fun _ => FreshTransactions)) (opening fundingDb duplicates)
      (List.replicate 9 (.run 0) ++ [.run 1] : List (Action (Fin 2) PaystackData))).map credits =
      some (some 5000, 1, 1) := by decide +kernel
  obtain ⟨T, run, values⟩ := reached_of_schedule computed
  simp only [credits, Prod.mk.injEq] at values
  have there : fundingDb.transactions.find? 200 = some pendingFunding := by decide
  exact ⟨T, values.1, funding_credited_at_most_once duplicates_charge run there⟩

end Duplicates

end PayCoreFundingCredits
