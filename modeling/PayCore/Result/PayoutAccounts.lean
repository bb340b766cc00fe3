import PayCore.Proof.PayoutAccountRules
import PayCore.Proof.SoloHandlers

/- The bank accounts behind the active withdrawals, over runs in which one request follows the
   other and anything may fail. -/
namespace PayCorePayoutAccounts
open KeyedTable SessionProgram SessionSystem LoneSessions PayCoreTables PayCoreWrites
open PayCoreSessions PayCoreRepositories PayCoreSupport PayCoreWithdrawals PayCoreJobs
open PayCoreLoneRules PayCoreBankAccountRules PayCorePayoutAccountRules PayCoreSoloHandlers
open PayCoreHandlers

inductive PayoutRequest where
  | addBankAccount (cfg : Settings) (user : User) (accountName accountNumber bankCode bankName : String)
      (accountId : Uuid)
  | removeBankAccount (user : User) (bankAccountId : Uuid) (utcNow : Timestamp)
  | initiateWithdrawal (cfg : Settings) (user : User) (bankAccountId : Uuid) (amount : Int)
      (draws : WithdrawalDraws)
  | executePayout (transactionId : Uuid)
  | processPayoutSuccess (reference : String)
  | processPayoutFailure (reference transferCode : String)

def PayoutRequest.program : PayoutRequest → Tx Unit
  | .addBankAccount cfg user accountName accountNumber bankCode bankName accountId =>
      quietly (PayCoreWithdrawals.addBankAccount cfg user accountName accountNumber bankCode
        bankName accountId)
  | .removeBankAccount user bankAccountId utcNow =>
      PayCoreWithdrawals.removeBankAccount user bankAccountId utcNow
  | .initiateWithdrawal cfg user bankAccountId amount draws =>
      quietly (PayCoreWithdrawals.initiateWithdrawal cfg user bankAccountId amount draws)
  | .executePayout transactionId => PayCoreWithdrawals.executePayout transactionId
  | .processPayoutSuccess reference => PayCoreWithdrawals.processPayoutSuccess reference
  | .processPayoutFailure reference transferCode =>
      PayCoreWithdrawals.processPayoutFailure reference transferCode

/-- What others may change in between: anything but bank accounts and withdrawals. -/
structure Elsewhere (s t : Database) : Prop where
  accounts : t.bankAccounts = s.bankAccounts
  withdrawals : ∀ a : Transaction, a.type = .withdrawal →
    (a ∈ t.transactions.rows ↔ a ∈ s.transactions.rows)

def PayoutRun (start s : Database) : Prop :=
  ∃ history, Turns AnyReply (fun _ => True) PayoutRequest.program Elsewhere start history s

variable {first s : Database}

theorem quietly_sure {α : Type} {p : Tx α} (h : Sure AnyReply Freely RouteCommit p ⟨s, [], default, []⟩) :
    Sure AnyReply Freely RouteCommit (quietly p) ⟨s, [], default, []⟩ := by
  apply sure_seq
  apply careful_mono _ h
  intro r u _
  cases r <;> trivial

theorem request_sure (request : PayoutRequest) :
    Sure AnyReply Freely RouteCommit request.program ⟨s, [], default, []⟩ := by
  cases request with
  | addBankAccount cfg user accountName accountNumber bankCode bankName accountId =>
    exact quietly_sure (addBankAccount_sure (fun _ _ commit => .account commit) _ _ _ _ _ _ _)
  | removeBankAccount user bankAccountId utcNow =>
    exact removeBankAccount_sure (fun _ _ commit => .account commit) user bankAccountId utcNow
  | initiateWithdrawal cfg user bankAccountId amount draws =>
    exact quietly_sure (initiateWithdrawal_sure cfg user bankAccountId amount draws)
  | executePayout transactionId => exact executePayout_sure transactionId
  | processPayoutSuccess reference => exact processPayoutSuccess_sure reference
  | processPayoutFailure reference transferCode => exact processPayoutFailure_sure reference transferCode

theorem routed_chain {trail : List (Event Database Write Request)} (h : AllRouted first)
    (chain : Chain Freely RouteCommit first trail s) : AllRouted s := by
  induction chain with
  | start => exact h
  | asked before ok ih => exact ih
  | committed before ok ih => exact routed_commit ih ok

theorem routed_run (h : AllRouted first) (run : PayoutRun first s) : AllRouted s := by
  obtain ⟨history, turns⟩ := run
  induction turns with
  | start => exact h
  | aside before change ih =>
    intro t mem act
    exact routed_housed (housed_same change.accounts) (ih t ((change.withdrawals t act.1).mp mem) act)
  | @turn history trail s request S before kind trace ih =>
    have chain : Chain Freely RouteCommit s trail S.db := by
      apply trace_chain _ trace
      exact request_sure request
    exact routed_chain ih chain

section Payouts
variable {answer : Request → Option PaystackData} {db : Database} {t : Transaction} {account : BankAccount}

theorem yields_getById {id : Uuid} {u : Held}
    (found : BankAccountRepository.byId id u.seen = some account) :
    Yields answer (BankAccountRepository.getById id) u (some account) u := by
  simp [Yields, BankAccountRepository.getById, query, exec, found]

theorem recipient_calls {code : String → Tx Unit} {u : Held} (onward : ∀ c, Calls answer (code c) u) :
    Calls answer (recipientCodeOf account >>= code) u := by
  unfold recipientCodeOf
  split
  · exact onward _
  · exact calls_call

theorem dispatch_calls {recipientCode : String} {u : Held}
    (found : u.seen.transactions.find? t.id = some t) :
    Calls answer (dispatchPayout t recipientCode) u := by
  unfold dispatchPayout
  dsimp only
  split
  · rename_i pending
    exact calls_seq (yields_updateStatus (pending_starts pending) found) calls_call
  · exact calls_call

/-- A payout that finds its account goes on to Paystack. -/
theorem payout_calls (found : db.transactions.find? t.id = some t) (act : active t)
    (undispatched : t.status = .pending ∨ t.providerReference = none) (routed : Routed t db) :
    Calls answer (executePayout t.id) (start db) := by
  obtain ⟨id, a, named, live, _⟩ := routed
  unfold executePayout
  have picked : (fun db : Database => (.ok (db.transactions.find? t.id) : Except AppError _))
      (start db : Held).seen = .ok (some t) := congrArg Except.ok found
  apply calls_seq (yields_select picked rfl)
  have unsettled : ¬ (t.status = .completed ∨ t.status = .failed) := by
    rcases act.2 with status | status <;> simp [status]
  have unsent : ¬ (t.status = .processing ∧ t.providerReference.isSome = true) := by
    rcases undispatched with status | none
    · simp [status]
    · simp [none]
  simp only [if_neg unsettled, if_neg unsent, named]
  apply calls_seq (yields_getById live)
  apply recipient_calls
  intro code
  exact dispatch_calls found

end Payouts

theorem active_withdrawals_have_accounts (settled : ∀ t ∈ first.transactions.rows, ¬ active t)
    (run : PayoutRun first s) : ∀ t ∈ s.transactions.rows, active t →
      (∃ id a, t.extraData.bind (·.bankAccountId) = some id ∧ s.bankAccounts.find? id = some a ∧
        a.userId = t.initiatedByUserId ∧ a.deletedAt = none) ∧
      (t.status = .pending ∨ t.providerReference = none →
        ∀ answer, Calls answer (executePayout t.id) (start s)) := by
  have initially : AllRouted first := fun t mem act => absurd act (settled t mem)
  intro t mem act
  have routed := routed_run initially run t mem act
  constructor
  · obtain ⟨id, a, named, found, own⟩ := routed
    obtain ⟨stored, lives⟩ := byId_iff.mp found
    exact ⟨id, a, named, stored, own, lives⟩
  · intro undispatched answer
    exact payout_calls (find?_some_iff.mpr ⟨mem, rfl⟩) act undispatched routed

section Withdrawing

def saver : User := { id := 1, email := "alice", hashedPassword := "", fullName := "Alice", kycTier := 2 }

def savings : Database :=
  { emptyDatabase with wallets := ⟨[{ id := 11, userId := 1, balance := 100000 }],
    List.pairwise_singleton _ _⟩ }

/-- A withdrawal of NGN 200.00, and an attempt to remove its account. -/
def withdrawing : List (PayoutRequest × List (Action Unit PaystackData)) :=
  [(.addBankAccount {} saver "Alice" "0123456789" "058" "GTBank" 70, List.replicate 3 (.run ())),
   (.initiateWithdrawal {} saver 70 20000 ⟨300, "w", ⟨0, 0⟩⟩, List.replicate 8 (.run ())),
   (.removeBankAccount saver 70 9, List.replicate 3 (.run ()))]

theorem account_of_a_withdrawal_stays : ∃ s, PayoutRun savings s ∧
    (s.transactions.rows.map (fun t => (t.id, t.status)),
      s.bankAccounts.rows.map (fun a => (a.id, a.deletedAt))) =
      ([(300, .pending)], [(70, none)]) ∧
    ∀ t ∈ s.transactions.rows, active t →
      (∃ id a, t.extraData.bind (·.bankAccountId) = some id ∧ s.bankAccounts.find? id = some a ∧
        a.userId = t.initiatedByUserId ∧ a.deletedAt = none) ∧
      (t.status = .pending ∨ t.providerReference = none →
        ∀ answer, Calls answer (executePayout t.id) (start s)) := by
  have computed : (takeTurns AnyReply PayoutRequest.program savings withdrawing).map (fun out =>
      (out.2.transactions.rows.map (fun t => (t.id, t.status)),
        out.2.bankAccounts.rows.map (fun a => (a.id, a.deletedAt)))) =
      some ([(300, .pending)], [(70, none)]) := by decide +kernel
  obtain ⟨⟨history, s⟩, reached, value⟩ := Option.map_eq_some_iff.mp computed
  have run : PayoutRun savings s := ⟨history, turns_of_plan (fun _ _ => trivial) reached⟩
  have none_yet : ∀ t ∈ savings.transactions.rows, ¬ active t :=
    by simp [savings, emptyDatabase, Table.empty]
  exact ⟨s, run, value, active_withdrawals_have_accounts none_yet run⟩

end Withdrawing

end PayCorePayoutAccounts
