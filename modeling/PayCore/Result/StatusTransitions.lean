import Mathlib.Logic.Relation
import PayCore.Proof.JobRules
import PayCore.Proof.StatusMoves

/- Concurrent writers of a status: where every UPDATE finds the status its session has
   read, committed statuses follow the transition table. -/
namespace PayCoreStatusTransitions
open KeyedTable SessionProgram SessionSystem RelyGuarantee PayCoreTables PayCoreWrites PayCoreSessions
open PayCorePersistence PayCoreCommits PayCoreStatements PayCoreStatusMoves PayCoreJobs
open PayCoreJobRules

def Follows (a b : TransactionStatus) : Prop :=
  Relation.ReflTransGen (fun s t => t ∈ validTransitions s) a b

theorem follows_step {a b : TransactionStatus} (h : b ∈ validTransitions a) : Follows a b :=
  .single h

theorem follows_failed {s : TransactionStatus} (h : Follows .failed s) : s = .failed := by
  induction h with
  | refl => rfl
  | tail _ step ih =>
    rw [ih] at step
    simp [validTransitions] at step

theorem follows_completed {s : TransactionStatus} (h : Follows .completed s) :
    s = .completed ∨ s = .reversed := by
  induction h with
  | refl => exact Or.inl rfl
  | tail _ step ih =>
    rcases ih with rfl | rfl
    · exact Or.inr (by simpa [validTransitions] using step)
    · simp [validTransitions] at step

section Moves
variable {db : Database} {ws : List Write} {id : Uuid}

theorem move_status {old new : TransactionStatus} {s t : Database} {k : Uuid} {row : Transaction}
    (move : StatusMove id old new s t) (follows : Follows old new)
    (found : s.transactions.find? k = some row) :
    ∃ row', t.transactions.find? k = some row' ∧ Follows row.status row'.status := by
  by_cases mine : k = id
  · subst mine
    obtain ⟨before, there, was⟩ := move.before
    obtain ⟨after, here, is⟩ := move.after
    rw [there] at found
    cases found
    exact ⟨after, here, by rw [was, is]; exact follows⟩
  · exact ⟨row, by rw [move.others k mine]; exact found, .refl⟩

theorem status_follows {k : Uuid} {row : Transaction} (h : StatusCommit ws db)
    (found : db.transactions.find? k = some row) :
    ∃ row', (applyAll ws db).transactions.find? k = some row' ∧ Follows row.status row'.status := by
  have start : Follows .pending .processing := follows_step (by decide)
  rcases h with (⟨id, h⟩ | ⟨id, h⟩ | ⟨id, h⟩ | h) | (⟨id, h⟩ | ⟨id, h⟩ | h)
  · exact move_status (charge_move h) (start.tail (by decide)) found
  · exact move_status (start_move h) start found
  · exact move_status (abandon_move h) (start.tail (by decide)) found
  · exact ⟨row, by rw [(side_money h db).transactions]; exact found, .refl⟩
  · obtain ⟨old, new, moved | ⟨same, _⟩, move⟩ := dispatch_move h
    · exact move_status move (by rw [moved.1, moved.2]; exact start) found
    · exact move_status move (by rw [same]; exact .refl) found
  · obtain ⟨new, final, move⟩ := settle_move h
    refine move_status move (follows_step ?_) found
    rcases final with rfl | rfl <;> decide
  · exact ⟨row, by rw [(side_money h db).transactions]; exact found, .refl⟩

end Moves

section
variable {ι : Type}

variable [DecidableEq ι]

/-- Between any two states of a run every status has moved along the table. -/
def StatusesFollow (S T : Database) : Prop :=
  ∀ id row, S.transactions.find? id = some row →
    ∃ row', T.transactions.find? id = some row' ∧ Follows row.status row'.status

theorem statuses_follow {db : Database} {jobs : ι → Job} (sets : ∀ i, (jobs i).setsStatus)
    {S T : Machine ι} (reached : Run (Meets (fun _ => FreshTransactions)) (opening db jobs) S)
    (later : Run (Meets (fun _ => FreshTransactions)) S T) : StatusesFollow S.db T.db := by
  have verified := fun i => setsStatus_wp status_env (fun _ _ h => h) (sets i) db
  have safe := run_safe lasting_true (opening_safe verified) reached
  refine run_keeps lasting_true safe later (P := fun _ s => StatusesFollow S.db s) ?_ ?_
  · intro i ws log s commit kept id row found
    obtain ⟨row', there, follows⟩ := kept id row found
    obtain ⟨row'', after, more⟩ := status_follows commit there
    exact ⟨row'', after, follows.trans more⟩
  · intro id row found
    exact ⟨row, found, .refl⟩

/-- A FAILED transaction stays as it is, a COMPLETED one is at most reversed. -/
def FinalStatusesStay (S T : Database) : Prop :=
  ∀ id row row', S.transactions.find? id = some row → T.transactions.find? id = some row' →
    (row.status = .failed → row'.status = .failed) ∧
    (row.status = .completed → row'.status ≠ .processing ∧ row'.status ≠ .failed)

theorem final_statuses_stay {S T : Database} (follow : StatusesFollow S T) : FinalStatusesStay S T := by
  intro id row row' found found'
  obtain ⟨again, there, follows⟩ := follow id row found
  rw [found'] at there
  cases there
  constructor
  · intro failed
    rw [failed] at follows
    exact follows_failed follows
  · intro completed
    rw [completed] at follows
    rcases follows_completed follows with status | status <;> simp [status]

theorem committed_statuses_follow_the_table {db : Database} {jobs : ι → Job}
    (sets : ∀ i, (jobs i).setsStatus) {S T : Machine ι}
    (reached : Run (Meets (fun _ => FreshTransactions)) (opening db jobs) S)
    (later : Run (Meets (fun _ => FreshTransactions)) S T) :
    StatusesFollow S.db T.db ∧ FinalStatusesStay S.db T.db :=
  have follow := statuses_follow sets reached later
  ⟨follow, final_statuses_stay follow⟩

end

section Crossing

/-- A wallet with a balance of NGN 40.00 and a withdrawal of NGN 60.00 from it. -/
def heldWithdrawal (status : TransactionStatus) : Transaction :=
  { id := 100, reference := "txn_a", type := .withdrawal, status, amount := 6000,
    sourceWalletId := some 11, initiatedByUserId := 1,
    providerReference := if status = .pending then none else some "TRF_1",
    extraData := some { bankAccountId := some 7 }, createdAt := 0 }

def payoutAccount : BankAccount :=
  { id := 7, userId := 1, accountName := "Alice", accountNumber := "0123456789", bankCode := "058",
    bankName := "GTBank", paystackRecipientCode := some "RCP_1" }

def heldDb (status : TransactionStatus) : Database :=
  { emptyDatabase with
    wallets := ⟨[{ id := 11, userId := 1, balance := 4000 }], List.pairwise_singleton _ _⟩
    transactions := ⟨[heldWithdrawal status], List.pairwise_singleton _ _⟩
    bankAccounts := ⟨[payoutAccount], List.pairwise_singleton _ _⟩ }

def bothEvents : Fin 2 → Job
  | 0 => .processPayoutSuccess "txn_a"
  | 1 => .processPayoutFailure "txn_a" "TRF_1"

theorem bothEvents_setStatus (i : Fin 2) : (bothEvents i).setsStatus := by
  match i with
  | 0 => exact Or.inr trivial
  | 1 => exact Or.inr trivial

def statusOf (T : Machine (Fin 2)) : Option TransactionStatus :=
  (T.db.transactions.find? 100).map (·.status)

/-- The failure handler has read PROCESSING before the success handler commits. -/
theorem crossing_handlers_leave_the_table :
    ¬ ∀ S T : Machine (Fin 2), Run Anyhow (opening (heldDb .processing) bothEvents) S →
      Run Anyhow S T → StatusesFollow S.db T.db := by
  intro claim
  have computed : (schedule Anyhow (opening (heldDb .processing) bothEvents)
        (.run 1 :: List.replicate 7 (.run 0) : List (Action (Fin 2) PaystackData))).bind
      (fun S => (schedule Anyhow S (List.replicate 6 (.run 1))).map
        (fun T => (statusOf S, statusOf T))) = some (some .completed, some .failed) := by
    decide +kernel
  obtain ⟨S, T, reached, later, values⟩ := reached_twice computed
  simp only [Prod.mk.injEq, statusOf, Option.map_eq_some_iff] at values
  obtain ⟨⟨row, found, was⟩, row', found', is⟩ := values
  obtain ⟨again, there, follows⟩ := claim S T reached later 100 row found
  rw [found'] at there
  cases there
  rw [was, is] at follows
  rcases follows_completed follows with impossible | impossible <;> cases impossible

/-- In turn, the second event finds the withdrawal settled. -/
theorem events_in_turn_follow_the_table :
    ∃ S T : Machine (Fin 2), statusOf S = some .completed ∧ statusOf T = some .completed ∧
      StatusesFollow S.db T.db ∧ FinalStatusesStay S.db T.db := by
  have computed : (schedule (Meets (fun _ => FreshTransactions))
        (opening (heldDb .processing) bothEvents)
        (List.replicate 7 (.run 0) : List (Action (Fin 2) PaystackData))).bind
      (fun S => (schedule (Meets (fun _ => FreshTransactions)) S [.run 1]).map
        (fun T => (statusOf S, statusOf T))) = some (some .completed, some .completed) := by
    decide +kernel
  obtain ⟨S, T, reached, later, values⟩ := reached_twice computed
  simp only [Prod.mk.injEq] at values
  exact ⟨S, T, values.1, values.2,
    committed_statuses_follow_the_table bothEvents_setStatus reached later⟩

end Crossing

end PayCoreStatusTransitions
