import PayCore.Proof.Regularity
import PayCore.Proof.SerialJobs
import PayCore.Proof.SoloHandlers
import PayCore.Result.SerialBooks

/- Fundings, sweeps and charge events in turn: a payment that Paystack confirms is credited,
   unless a sweep has given the funding up before. -/
namespace PayCoreFundingOutcomes
open KeyedTable SessionProgram RelyGuarantee SerialRuns PayCoreTables PayCoreWrites PayCoreSessions
open PayCoreRepositories PayCoreFunding PayCorePersistence PayCoreCommits PayCoreStatements
open PayCoreHandlers PayCoreCoherence PayCoreRegularity PayCoreJobs PayCoreJobRules PayCoreBooks
open PayCoreSerialJobs PayCoreSoloHandlers PayCoreSerialBooks

abbrev Move := Job × (Request → Option PaystackData)

def fundingJob : Job → Prop
  | .initiateFunding _ _ _ _ => True
  | .reconcileFunding _ _ => True
  | .processChargeSuccess _ => True
  | _ => False

/-- Paystack initializes a transaction under the reference it is given. -/
def Echoes (answer : Request → Option PaystackData) : Prop :=
  ∀ email amount reference data, answer (.initializeTransaction email amount reference) = some data →
    data.reference.get reference = some reference

inductive FundingRun (db : Database) : List Move → Database → Prop where
  | start : FundingRun db [] db
  | next {moves : List Move} {s : Database} (before : FundingRun db moves s) (job : Job)
      (answer : Request → Option PaystackData) (kind : fundingJob job) (admitted : Admitted s job)
      (echoes : Echoes answer) :
      FundingRun db (moves ++ [(job, answer)]) (runAlone answer job.program s).2

/-- A sweep has asked for the transaction and has got a status other than success. -/
def Swept (moves : List Move) (id : Uuid) : Prop :=
  ∃ move ∈ moves, ∃ reference data, move.1 = .reconcileFunding id reference ∧
    move.2 (.verifyTransaction reference) = some data ∧ data.status.get "" ≠ some "success"

theorem funding_serial {db s : Database} {moves : List Move} (run : FundingRun db moves s) :
    SerialRun db s := by
  induction run with
  | start => exact .start
  | next before job answer kind admitted echoes ih => exact .operation ih answer job admitted

/-- What holds of each transaction that Paystack knows under a reference. -/
structure Tracked (swept : Uuid → Prop) (db : Database) (t : Transaction) : Prop where
  echoed : ∀ reference, t.providerReference = some reference → reference = t.reference ∧ reference ≠ ""
  outcome : t.providerReference ≠ none → t.status = .pending ∨ t.status = .completed ∨
    (t.status = .failed ∧ swept t.id) ∨ (t.status = .processing ∧ Unpaid t db)

def AllTracked (swept : Uuid → Prop) (db : Database) : Prop :=
  ∀ id t, db.transactions.find? id = some t → Tracked swept db t

inductive OutcomeCommit (swept : Uuid → Prop) (ws : List Write) (db : Database) : Prop where
  | charge (id : Uuid) (h : ChargeCommit id db ws)
  | start (id : Uuid) (t : Transaction) (found : db.transactions.find? id = some t)
      (unpaid : Unpaid t db) (h : StartCommit id db ws)
  | abandon (id : Uuid) (given_up : swept id) (h : AbandonCommit id db ws)
  | side (h : Side ws)

section Step
variable {swept : Uuid → Prop} {db t : Database} {ws : List Write} {id : Uuid}

def SameWallets (s t : Database) : Prop :=
  ∀ id, WalletRepository.byId id s = none → WalletRepository.byId id t = none

theorem sameWallets_balance (wallet : Uuid) (balance : Int)
    (wallets : t.wallets = db.wallets.update wallet (balanceEdit balance)) : SameWallets db t := by
  intro k missing
  unfold WalletRepository.byId at missing ⊢
  rw [wallets, find?_update]
  split
  · cases found : db.wallets.find? k with
    | none => rfl
    | some w =>
      rw [found] at missing
      simpa [WalletRepository.live] using missing
  · exact missing

theorem tracked_stays {b : Transaction} (h : Tracked swept db b) (wallets : SameWallets db t) :
    Tracked swept t b where
  echoed := h.echoed
  outcome has := by
    rcases h.outcome has with pending | completed | failed | ⟨processing, unpaid⟩
    · exact Or.inl pending
    · exact Or.inr (Or.inl completed)
    · exact Or.inr (Or.inr (Or.inl failed))
    · exact Or.inr (Or.inr (Or.inr ⟨processing, fun k paid => wallets k (unpaid k paid)⟩))

theorem tracked_replaced (h : AllTracked swept db) {a b : Transaction}
    (row : Replaced id a b db.transactions t.transactions) (revised : Revised a b)
    (referred : b.providerReference = a.providerReference) (wallets : SameWallets db t)
    (outcome : b.status = .completed ∨ (b.status = .failed ∧ swept b.id) ∨
      (b.status = .processing ∧ Unpaid b t)) : AllTracked swept t := by
  intro k c found
  by_cases mine : k = id
  · rw [mine, row.after] at found
    cases found
    constructor
    · intro reference has
      have same : b.reference = a.reference := by rw [revised]
      rw [same]
      exact (h id a row.before).echoed reference (by rw [← referred]; exact has)
    · exact fun _ => Or.inr outcome
  · rw [row.others k mine] at found
    exact tracked_stays (h k c found) wallets

theorem tracked_step (h : AllTracked swept db) (c : OutcomeCommit swept ws db) :
    AllTracked swept (applyAll ws db) := by
  cases c with
  | charge id c =>
    cases c with
    | credited a wallet amount row status destination holder _ =>
      have key : a.id = id := (find?_some_iff.mp row).2
      subst key
      exact tracked_replaced h
        (revised_twice row { status := some .processing } { status := some .completed }) rfl rfl
        (sameWallets_balance _ _ rfl) (Or.inl rfl)
  | start id a found unpaid c =>
    cases c with
    | started b row status =>
      rw [row] at found
      cases found
      refine tracked_replaced h (replaced_update row (transactionEdit { status := some .processing }))
        rfl rfl (fun _ missing => missing) (Or.inr (Or.inr ⟨rfl, ?_⟩))
      exact unpaid
  | abandon id given_up c =>
    cases c with
    | abandoned a reason row status =>
      have key : a.id = id := (find?_some_iff.mp row).2
      subst key
      exact tracked_replaced h (revised_twice row { status := some .processing }
        { status := some .failed, failureReason := reason }) rfl rfl (fun _ missing => missing)
        (Or.inr (Or.inl ⟨rfl, given_up⟩))
  | side c =>
    have same := side_money c db
    intro k b found
    rw [same.transactions] at found
    refine tracked_stays (h k b found) ?_
    intro wallet missing
    unfold WalletRepository.byId
    rw [same.wallets]
    exact missing

theorem tracked_insert (h : AllTracked swept db) {a : Transaction}
    {answer : Request → Option PaystackData} (echoes : Echoes answer) (request : Requested answer a) :
    AllTracked swept (applyWrite (.insertTransaction a) db) := by
  intro k b found
  cases free : db.transactions.admits a with
  | false =>
    simp only [applyWrite, insert_refused free] at found
    exact tracked_stays (h k b found) (fun _ missing => missing)
  | true =>
    simp only [applyWrite, find?_insert free, transaction_key] at found
    split at found
    · cases found
      obtain ⟨email, amount, data, reply, referred⟩ := request.referred
      rw [echoes email amount _ data reply] at referred
      constructor
      · intro reference has
        rw [referred] at has
        cases has
        exact ⟨rfl, request.named⟩
      · exact fun _ => Or.inl request.status
    · exact tracked_stays (h k b found) (fun _ missing => missing)

theorem tracked_mono {swept' : Uuid → Prop} (more : ∀ id, swept id → swept' id)
    (h : AllTracked swept db) : AllTracked swept' db := by
  intro k b found
  obtain ⟨echoed, outcome⟩ := h k b found
  refine ⟨echoed, fun has => ?_⟩
  rcases outcome has with pending | completed | ⟨failed, given_up⟩ | processing
  · exact Or.inl pending
  · exact Or.inr (Or.inl completed)
  · exact Or.inr (Or.inr (Or.inl ⟨failed, more _ given_up⟩))
  · exact Or.inr (Or.inr (Or.inr processing))

end Step

section Jobs
variable {swept : Uuid → Prop} {db : Database} {answer : Request → Option PaystackData}

theorem fresh_transactions : ∀ s m rows adds, Fresh s m rows adds → FreshTransactions s m rows adds :=
  fun _ _ _ _ fresh => fresh.2

theorem outcome_charge {id : Uuid} {ws : List Write} {s : Database} (_ : True) (_ : Alone Nothing db s)
    (h : ChargeCommit id s ws) : OutcomeCommit swept ws s :=
  .charge id h

theorem tracked_charge (h : AllTracked swept db) (data : PaystackData) :
    AllTracked swept (runAlone answer (Job.processChargeSuccess data).program db).2 := by
  have verified : wp Alone (OutcomeCommit swept) Fresh (Job.processChargeSuccess data).program
      (fun _ _ => True) (⟨db, [], default, Nothing⟩ : Window) :=
    processChargeSuccess_wp (K := fun _ => True) interference_alone fresh_transactions
      (fun id ws s => outcome_charge) (fun ws s side => .side side) (rfl : Alone Nothing db db) rfl rfl
      (fun _ _ _ _ _ _ => trivial) (fun _ _ => trivial) (fun _ _ => trivial)
      (fun _ _ _ _ _ _ _ => trivial)
  exact rely_keeps (job_alone answer (Q := fun _ _ => True) verified).2
    (fun _ _ c tracked => tracked_step tracked c) h

theorem tracked_sweep (h : AllTracked swept db) {transactionId : Uuid} {providerReference : String}
    (given_up : ∀ data, answer (.verifyTransaction providerReference) = some data →
      data.status.get "" ≠ some "success" → swept transactionId) :
    AllTracked swept (runAlone answer
      (Job.reconcileFunding transactionId providerReference).program db).2 := by
  refine sweep_alone h ?_
  intro data reply
  have verified : wp Alone (OutcomeCommit swept) Fresh (applyResult transactionId data)
      (fun _ _ => True) (⟨db, [], default, Nothing⟩ : Window) := by
    refine applyResult_wp (K := fun _ => True) interference_alone fresh_transactions
      (fun id ws s => outcome_charge) ?_ (fun ws s side => .side side)
      (fun _ _ _ _ _ _ => trivial) ?_ (rfl : Alone Nothing db db) rfl rfl (fun _ _ => trivial)
    · rintro id t s u _ _ same unpaid found pending
      have here : u = s := same
      subst here
      exact .start id t found unpaid (.started t found pending)
    · intro status ws s _ c
      exact .abandon transactionId (given_up data reply status) c
  have run := (exec_sound interference_alone.refl coherent_blank
    (fun _ _ rows adds => coherent_fresh rows adds) answer _
    ⟨db, [], default, [.verifyTransaction providerReference]⟩ Nothing
    (keeps_applyResult transactionId data) (coherent_blank db) verified).2
  exact rely_keeps (P := AllTracked swept) run (fun _ _ c tracked => tracked_step tracked c) h

theorem tracked_request (h : AllTracked swept db) (echoes : Echoes answer) (user : User) (amount : Int)
    (key : Option String) (draws : PayCoreWithdrawals.WithdrawalDraws) :
    AllTracked swept (runAlone answer (Job.initiateFunding user amount key draws).program db).2 := by
  change Leaves answer (Job.initiateFunding user amount key draws).program (start db) (AllTracked swept)
  refine leaves_ignored (leaves_mono ?_ (funding_alone user amount key draws))
  rintro s (rfl | ⟨t, _, request, rfl⟩)
  · exact h
  · exact tracked_insert h echoes request

end Jobs

theorem tracked_run {start s : Database} {moves : List Move}
    (unreferred : ∀ t ∈ start.transactions.rows, t.providerReference = none)
    (run : FundingRun start moves s) : AllTracked (Swept moves) s := by
  induction run with
  | start =>
    intro id t found
    have none_known := unreferred t (find?_some_iff.mp found).1
    exact ⟨by simp [none_known], fun has => absurd none_known has⟩
  | @next moves s before job answer kind admitted echoes ih =>
    have more : ∀ id, Swept moves id → Swept (moves ++ [(job, answer)]) id := by
      rintro id ⟨move, mem, rest⟩
      exact ⟨move, List.mem_append_left _ mem, rest⟩
    have tracked := tracked_mono more ih
    cases job with
    | initiateFunding user amount key draws => exact tracked_request tracked echoes user amount key draws
    | processChargeSuccess data => exact tracked_charge tracked data
    | reconcileFunding transactionId providerReference =>
      refine tracked_sweep tracked ?_
      intro data reply status
      exact ⟨_, List.mem_append_right _ (List.mem_singleton.mpr rfl), providerReference, data, rfl,
        reply, status⟩
    | _ => exact kind.elim

/-- The transaction is COMPLETED, its one entry credits the wallet, and the wallet's balance
   counts it. -/
def Paid (id walletId : Uuid) (db : Database) : Prop :=
  ∃ row credit amount wallet, db.transactions.find? id = some row ∧ row.status = .completed ∧
    entriesOf id db.ledgerEntries = [credit] ∧ IsEntry id .credit walletId amount credit ∧
    db.wallets.find? walletId = some wallet ∧ wallet.balance = bookBalance walletId db

/-- The transaction is FAILED, and its wallet has been credited with nothing. -/
def GivenUp (id : Uuid) (db : Database) : Prop :=
  ∃ row, db.transactions.find? id = some row ∧ row.status = .failed ∧ entriesOf id db.ledgerEntries = []

def Open (db : Database) : Prop := ∀ w ∈ db.wallets.rows, w.deletedAt = none

def leavesOpen : Write → Prop
  | .insertWallet w => w.deletedAt = none
  | _ => True

section Wallets
variable {db s : Database}

theorem open_write {w : Write} (opened : Open db) (h : leavesOpen w) : Open (applyWrite w db) := by
  cases w with
  | insertWallet wallet =>
    intro a mem
    rcases insert_back mem with old | rfl
    · exact opened a old
    · exact h
  | setBalance id b =>
    intro a mem
    obtain ⟨w, there, rfl⟩ := mem_update mem
    have live := opened w there
    unfold editAt
    split
    · exact live
    · exact live
  | account w =>
    intro a mem
    rw [applyWrite, account_wallets] at mem
    exact opened a mem
  | _ => exact opened

theorem open_writes {ws : List Write} (opened : Open db) (h : ∀ w ∈ ws, leavesOpen w) :
    Open (applyAll ws db) := by
  induction ws generalizing db with
  | nil => exact opened
  | cons w ws ih =>
    exact ih (open_write opened (h w (by simp))) (fun v mem => h v (by simp [mem]))

theorem issues_leavesOpen {job : Job} {w : Write} (h : Job.issues job w) : leavesOpen w := by
  cases w with
  | insertWallet wallet => cases job <;> first | exact h.2 | exact h.elim
  | _ => trivial

theorem open_run (run : SerialRun db s) (opened : Open db) : Open s := by
  induction run with
  | start => exact opened
  | @operation s before answer job admitted ih =>
    have verified : wp Alone (fun ws _ => ∀ w ∈ ws, leavesOpen w) Fresh job.program (fun _ _ => True)
        (⟨s, [], default, Nothing⟩ : Window) :=
      emits_wp (fun _ _ h => h) (emits_mono (fun _ => issues_leavesOpen) (emits_job job)) (by simp)
    exact rely_keeps (job_alone answer (Q := fun _ _ => True) verified).2
      (fun _ _ h opened => open_writes opened h) ih
  | directory before same ih =>
    intro w mem
    rw [same.wallets] at mem
    exact ih w mem

end Wallets

section Outcome
variable {swept : Uuid → Prop} {db : Database} {t : Transaction} {wallet : Wallet}

theorem referred_once (h : AllTracked swept db) (stored : t ∈ db.transactions.rows) {reference : String}
    (referred : t.providerReference = some reference) :
    TransactionRepository.byProviderReference reference db = .ok (some t) := by
  unfold TransactionRepository.byProviderReference
  rw [filter_unique stored (by simp [referred])]
  · rfl
  · intro a mem picked
    have echo := (h a.id a (find?_some_iff.mpr ⟨mem, rfl⟩)).echoed reference (by simpa using picked)
    have own := (h t.id t (find?_some_iff.mpr ⟨stored, rfl⟩)).echoed reference referred
    simp [clash, ← echo.1, ← own.1]

theorem paid_books (h : Books db) (found : db.transactions.find? t.id = some t)
    (funding : t.type = .funding)
    (completed : t.status = .completed) (destination : t.destinationWalletId = some wallet.id)
    (holder : db.wallets.find? wallet.id ≠ none) : Paid t.id wallet.id db := by
  obtain ⟨target, credit, amount, credits, entries, entry⟩ :=
    (h.posted t.id t found).funded funding completed
  rw [destination] at credits
  cases credits
  obtain ⟨w, there⟩ := Option.ne_none_iff_exists'.mp holder
  exact ⟨t, credit, amount, w, found, completed, entries, entry, there, h.balanced wallet.id w there⟩

end Outcome

section Confirmed
variable {start s : Database} {moves : List Move} {t : Transaction} {wallet : Wallet}
  {data : PaystackData} {reference : String}

/-- Where the wallet's column takes the new balance, a confirmed payment is credited, unless a sweep has
    given it up. -/
theorem confirmed_payment_credited_or_given_up (reachable : SerialRun emptyDatabase start)
    (unreferred : ∀ t ∈ start.transactions.rows, t.providerReference = none)
    (run : FundingRun start moves s) (stored : t ∈ s.transactions.rows) (funding : t.type = .funding)
    (referred : t.providerReference = some reference)
    (destination : t.destinationWalletId = some wallet.id)
    (holder : s.wallets.find? wallet.id = some wallet) (named : data.reference = .str reference)
    (room : t.status = .pending → WalletRepository.storable (wallet.balance + data.amount.getD 0))
    (answer : Request → Option PaystackData) :
    let after := (runAlone answer (processChargeSuccess data) s).2
    Paid t.id wallet.id after ∨ (GivenUp t.id after ∧ Swept moves t.id) := by
  intro after
  have books := books_run (funding_serial run) (books_run reachable books_empty)
  have tracked := tracked_run unreferred run
  have found : s.transactions.find? t.id = some t := find?_some_iff.mpr ⟨stored, rfl⟩
  have live : wallet.deletedAt = none :=
    open_run (funding_serial run) (open_run reachable (by simp [Open, emptyDatabase, Table.empty])) wallet
      (find?_some_iff.mp holder).1
  obtain ⟨echoed, outcome⟩ := tracked t.id t found
  have present := (echoed reference referred).2
  have picked := referred_once tracked stored referred
  have kept : t.status ≠ .pending → after = s := charge_skipped named present picked
  rcases outcome (by simp [referred]) with pending | completed | ⟨failed, given_up⟩ | ⟨_, unpaid⟩
  · obtain ⟨entry, credited⟩ := charge_alone named present picked pending destination
      holder live (room pending) answer
    have admitted : Admitted s (.processChargeSuccess data) := trivial
    have settled : Books after := books_operation books admitted answer
    have row : after.transactions.find? t.id =
        some (restated (restated t .processing none) .completed none) := by
      rw [show after = _ from credited]
      exact (revised_twice found _ _).after
    refine Or.inl (paid_books (t := restated (restated t .processing none) .completed none) settled row
      funding rfl destination ?_)
    rw [show after = _ from credited]
    have there := (replaced_update holder (balanceEdit (wallet.balance + data.amount.getD 0))).after
    intro none_left
    have same : (s.wallets.update wallet.id _).find? wallet.id = none := none_left
    rw [there] at same
    cases same
  · rw [kept (by simp [completed])]
    exact Or.inl (paid_books books found funding completed destination (by simp [holder]))
  · rw [kept (by simp [failed])]
    exact Or.inr ⟨⟨t, found, failed, (books.posted t.id t found).unposted (by simp [failed])⟩, given_up⟩
  · have missing := unpaid wallet.id destination
    simp [WalletRepository.byId, holder, WalletRepository.live, live] at missing

end Confirmed

section Abandoned

def abandoned : Request → Option PaystackData
  | .verifyTransaction reference => some { reference := .str reference, status := .str "abandoned" }
  | _ => none

def registration : Job := .register {} (fun s => s) "alice" "" "Alice" none ⟨1, 11, "a", 0⟩

def requested : Job := .initiateFunding alice 50000 none ⟨100, "f", ⟨0, 0⟩⟩

def swept : Job := .reconcileFunding 100 "txn_f"

def chargeOf (amount : Int) : PaystackData := { reference := .str "txn_f", amount := some amount }

def atDawn : Database := inTurn paystackUp emptyDatabase [registration]

def atRequest : Database := (runAlone paystackUp requested.program atDawn).2

def atSweep : Database := (runAlone abandoned swept.program atRequest).2

theorem dawn_run : SerialRun emptyDatabase atDawn := by
  refine inTurn_run .start ?_
  simp [registration, Admitted]

theorem paystackUp_echoes : Echoes paystackUp := by
  intro email amount reference data reply
  cases reply
  rfl

theorem abandoned_echoes : Echoes abandoned := by
  intro email amount reference data reply
  cases reply

theorem request_run : FundingRun atDawn [(requested, paystackUp)] atRequest :=
  .next .start requested paystackUp trivial trivial paystackUp_echoes

def opened : Transaction :=
  { id := 100, reference := "txn_f", type := .funding, amount := 50000, destinationWalletId := some 11,
    initiatedByUserId := 1, providerReference := some "txn_f",
    extraData := some { paymentUrl := .str "https://checkout" }, createdAt := 0 }

def aliceWallet : Wallet := { id := 11, userId := 1 }

theorem opened_stored : opened ∈ atRequest.transactions.rows := by decide +kernel

theorem sweep_run : FundingRun atDawn [(requested, paystackUp), (swept, abandoned)] atSweep := by
  refine .next request_run swept abandoned trivial ?_ abandoned_echoes
  exact ⟨opened, find?_some_iff.mpr ⟨opened_stored, rfl⟩, rfl, rfl⟩

/-- The sweep comes before the charge: Paystack's money is never credited. -/
theorem swept_payment_is_dropped :
    FundingRun atDawn [(requested, paystackUp), (swept, abandoned)] atSweep ∧
      (∃ t ∈ atSweep.transactions.rows, t.id = 100 ∧ t.type = .funding ∧
        t.providerReference = some "txn_f" ∧ t.destinationWalletId = some aliceWallet.id) ∧
      aliceWallet ∈ atSweep.wallets.rows ∧
      ¬ Paid 100 aliceWallet.id (runAlone abandoned (processChargeSuccess (chargeOf 50000)) atSweep).2 := by
  refine ⟨sweep_run, by decide +kernel, by decide +kernel, ?_⟩
  rintro ⟨row, _, _, _, found, completed, _⟩
  have failed : ((runAlone abandoned (processChargeSuccess (chargeOf 50000)) atSweep).2.transactions.find?
      100).map (·.status) = some .failed := by decide +kernel
  rw [found, Option.map_some, completed] at failed
  cases failed

theorem charge_in_time_is_credited :
    Paid 100 aliceWallet.id (runAlone paystackUp (processChargeSuccess (chargeOf 50000)) atRequest).2 := by
  have unreferred : ∀ t ∈ atDawn.transactions.rows, t.providerReference = none := by decide +kernel
  have holder : atRequest.wallets.find? aliceWallet.id = some aliceWallet := by decide +kernel
  have named : (chargeOf 50000).reference = .str "txn_f" := rfl
  have outcome := confirmed_payment_credited_or_given_up dawn_run unreferred
    request_run opened_stored rfl rfl rfl holder named (fun _ => by decide) paystackUp
  rcases outcome with paid | ⟨_, move, mem, reference, data, sweep, _⟩
  · exact paid
  · rw [List.mem_singleton.mp mem] at sweep
    cases sweep

end Abandoned

end PayCoreFundingOutcomes
