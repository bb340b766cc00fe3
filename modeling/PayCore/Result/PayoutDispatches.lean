import PayCore.Proof.DispatchRules
import PayCore.Result.ActiveWithdrawals

/- The calls that send money out of the platform, over runs in which anything may fail: a
   withdrawal is dispatched from PENDING only, with its own reference and amount, and what
   was dispatched stays so. -/
namespace PayCorePayoutDispatches
open KeyedTable SessionProgram SessionSystem LoneSessions PayCoreTables PayCoreWrites PayCoreSessions
open PayCorePersistence PayCoreCommits PayCoreJobs PayCoreDispatchRules PayCoreActiveWithdrawals

abbrev History := List (Job × Event Database Write Request)

/-- Requests, tasks and events one after the other; users, bank accounts and the like may
    change in between. -/
abbrev PayoutRun (db : Database) : History → Database → Prop :=
  Turns Documented concernsPayouts Job.program SameMoney db

/-- Up to here the withdrawal has been PENDING, and no commit has dispatched it. -/
def Undispatched (id : Uuid) (before : History) : Prop :=
  ∀ entry ∈ before, ¬ Dispatches id entry.2 ∧
    ∀ a ∈ entry.2.state.transactions.rows, a.id = id → a.status = .pending

section Runs
variable {start s t : Database} {history : History} {job : Job}

/-- What the history so far still says of the committed state. -/
structure Told (history : History) (s : Database) : Prop where
  ordered : InOrder s
  onward : ∀ entry ∈ history, ∀ id a, entry.2.state.transactions.find? id = some a →
    ∃ b, s.transactions.find? id = some b ∧ (a.status ≠ .pending → b.status ≠ .pending)
  dispatched : ∀ entry ∈ history, ∀ id, Dispatches id entry.2 →
    ∃ b, s.transactions.find? id = some b ∧ b.status ≠ .pending
  faithful : ∀ before payout request db after, history = before ++ (payout, .asked request db) :: after →
    Carries payout request db ∧ ∀ id a, db.transactions.find? id = some a → a.status = .pending →
      Undispatched id before

theorem split_last {α : Type} {front before after : List α} {last x : α}
    (split : front ++ [last] = before ++ x :: after) :
    (front = before ∧ last = x) ∨ ∃ rest, front = before ++ x :: rest := by
  induction after using List.reverseRecOn with
  | nil =>
    obtain ⟨same, final⟩ := List.append_inj' split rfl
    exact .inl ⟨same, List.singleton_inj.mp final⟩
  | append_singleton rest y _ =>
    rw [← List.cons_append, ← List.append_assoc] at split
    exact .inr ⟨rest, (List.append_inj' split rfl).1⟩

theorem undispatched (told : Told history s) {id : Uuid} {a : Transaction}
    (found : s.transactions.find? id = some a) (pending : a.status = .pending) :
    Undispatched id history := by
  intro entry mem
  constructor
  · intro dispatches
    obtain ⟨b, there, gone⟩ := told.dispatched entry mem id dispatches
    rw [found] at there
    cases there
    exact gone pending
  · intro earlier among same
    by_contra settled
    have before : entry.2.state.transactions.find? id = some earlier := find?_some_iff.mpr ⟨among, same⟩
    obtain ⟨b, there, onward⟩ := told.onward entry mem id earlier before
    rw [found] at there
    cases there
    exact onward settled pending

theorem told_asked (told : Told history s) {request : Request} (carries : Carries job request s) :
    Told (history ++ [(job, .asked request s)]) s where
  ordered := told.ordered
  onward entry mem id a found := by
    rcases List.mem_append.mp mem with old | new
    · exact told.onward entry old id a found
    · rw [List.mem_singleton.mp new] at found
      exact ⟨a, found, fun settled => settled⟩
  dispatched entry mem id dispatches := by
    rcases List.mem_append.mp mem with old | new
    · exact told.dispatched entry old id dispatches
    · rw [List.mem_singleton.mp new] at dispatches
      exact dispatches.elim
  faithful before payout asked db after split := by
    rcases split_last split with ⟨rfl, same⟩ | ⟨rest, earlier⟩
    · cases same
      exact ⟨carries, fun id a found pending => undispatched told found pending⟩
    · exact told.faithful before payout asked db rest earlier

theorem told_committed (told : Told history s) {ws : List Write} (progress : Progress ws s) :
    Told (history ++ [(job, .committed ws (applyAll ws s))]) (applyAll ws s) where
  ordered := progress.ordered told.ordered
  onward entry mem id a found := by
    rcases List.mem_append.mp mem with old | new
    · obtain ⟨b, there, first⟩ := told.onward entry old id a found
      obtain ⟨c, now, _, second⟩ := progress.onward.transactions id b there
      exact ⟨c, now, fun settled => second (first settled)⟩
    · rw [List.mem_singleton.mp new] at found
      exact ⟨a, found, fun settled => settled⟩
  dispatched entry mem id dispatches := by
    rcases List.mem_append.mp mem with old | new
    · obtain ⟨b, there, gone⟩ := told.dispatched entry old id dispatches
      obtain ⟨c, now, _, onward⟩ := progress.onward.transactions id b there
      exact ⟨c, now, onward gone⟩
    · rw [List.mem_singleton.mp new] at dispatches
      obtain ⟨set, among, status⟩ := dispatches
      exact progress.dispatched id set among status
  faithful before payout asked db after split := by
    rcases split_last split with ⟨_, same⟩ | ⟨rest, earlier⟩
    · cases same
    · exact told.faithful before payout asked db rest earlier

theorem told_chain (told : Told history s) {trail : Trail}
    (chain : Chain (Carries job) Progress s trail t) :
    Told (history ++ trail.map (Prod.mk job)) t := by
  induction chain with
  | start => simpa using told
  | asked before ok ih =>
    rw [List.map_append, ← List.append_assoc]
    exact told_asked ih ok
  | committed before ok ih =>
    rw [List.map_append, ← List.append_assoc]
    exact told_committed ih ok

theorem told_run (ordered : InOrder start) (run : PayoutRun start history s) : Told history s := by
  induction run with
  | start => exact ⟨ordered, by simp, by simp, by simp⟩
  | aside before same ih =>
    constructor
    · exact inOrder_same ih.ordered same.transactions
    · rw [same.transactions]
      exact ih.onward
    · rw [same.transactions]
      exact ih.dispatched
    · exact ih.faithful
  | turn before kind trace ih => exact told_chain ih (job_chain ih.ordered kind trace)

/-- Amounts are counted in kobo throughout, so `t.amount` is 100 times the amount in NGN. -/
theorem withdrawals_are_dispatched_once (ordered : InOrder start) (run : PayoutRun start history s) :
    (∀ t ∈ s.transactions.rows, t.type = .withdrawal → t.status = .processing →
      t.providerReference ≠ none) ∧
    ∀ before payout amountKobo recipientCode reference reason db after,
      history =
      before ++ (payout, .asked (.initiateTransfer amountKobo recipientCode reference reason) db) :: after →
      ∃ t ∈ db.transactions.rows, payout = .executePayout t.id ∧ t.reference = reference ∧
        t.amount = amountKobo ∧
        (t.type = .withdrawal → t.status = .pending ∧ Undispatched t.id before) := by
  have told := told_run ordered run
  constructor
  · intro t mem kind
    exact (told.ordered t mem kind).2
  · intro before payout amountKobo recipientCode reference reason db after split
    obtain ⟨⟨t, mem, own, named, amount, pending⟩, untouched⟩ :=
      told.faithful before payout _ db after split
    refine ⟨t, mem, own, named, amount, ?_⟩
    intro kind
    exact ⟨pending kind, untouched t.id t (find?_some_iff.mpr ⟨mem, rfl⟩) (pending kind)⟩

end Runs

section Retries

def payout : Job := .executePayout 100

def recipientReply : PaystackData := { recipientCode := .str "RCP_1" }

def transferReply : PaystackData := { transferCode := .str "TRF_1" }

/-- Alice withdraws NGN 50.00. The reply to the first call is lost, the retry goes through, the
    third attempt finds the dispatch, and the event settles it. -/
def retries : List (Job × List (Action Unit PaystackData)) :=
  [(payouts 0, List.replicate 8 (.run ())),
   (payout, [.run (), .run (), .reply () recipientReply, .run (), .run (), .lose ()]),
   (payout, [.run (), .run (), .reply () recipientReply, .run (), .run (), .reply () transferReply,
     .run (), .run ()]),
   (payout, [.run ()]),
   (.processPayoutSuccess "txn_0", List.replicate 5 (.run ()))]

def asksTransfer : Event Database Write Request → Bool
  | .asked (.initiateTransfer ..) _ => true
  | _ => false

theorem retried_payout_is_dispatched_once : ∃ history s, PayoutRun payoutDb history s ∧
    (history.filter (fun entry => asksTransfer entry.2)).length = 2 ∧
    (s.transactions.find? 100).map (·.status) = some .completed ∧
    (∀ t ∈ s.transactions.rows, t.type = .withdrawal → t.status = .processing →
      t.providerReference ≠ none) ∧
    ∀ before payout amountKobo recipientCode reference reason db after,
      history =
      before ++ (payout, .asked (.initiateTransfer amountKobo recipientCode reference reason) db) :: after →
      ∃ t ∈ db.transactions.rows, payout = .executePayout t.id ∧ t.reference = reference ∧
        t.amount = amountKobo ∧
        (t.type = .withdrawal → t.status = .pending ∧ Undispatched t.id before) := by
  have computed : (takeTurns Documented Job.program payoutDb retries).map (fun out =>
      ((out.1.filter (fun entry => asksTransfer entry.2)).length,
        (out.2.transactions.find? 100).map (·.status))) = some (2, some .completed) := by decide +kernel
  obtain ⟨⟨history, s⟩, reached, value⟩ := Option.map_eq_some_iff.mp computed
  have kinds : ∀ op ∈ retries, concernsPayouts op.1 := by
    simp [retries, payouts, payout, concernsPayouts, Job.paysOut]
  have run : PayoutRun payoutDb history s := turns_of_plan kinds reached
  have ordered : InOrder payoutDb := by
    intro t mem
    cases mem
  have counted := Prod.mk.inj value
  exact ⟨history, s, run, counted.1, counted.2, withdrawals_are_dispatched_once ordered run⟩

end Retries

end PayCorePayoutDispatches
