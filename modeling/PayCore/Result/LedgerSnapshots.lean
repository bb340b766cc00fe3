import PayCore.Library.RunningTotals
import PayCore.Result.SerialBooks

/- The snapshots in the ledger: how the balance_after of an entry follows from the entry of the
   wallet before it. A withdrawal takes its amount out of the balance when it is initiated, and its
   entry is written when the payout succeeds. -/
namespace PayCoreLedgerSnapshots
open KeyedTable SessionProgram RelyGuarantee SerialRuns RunningTotals PayCoreTables PayCoreWrites
open PayCoreSessions PayCoreSupport PayCorePersistence PayCoreCommits PayCoreStatements
open PayCoreCoherence PayCoreJobs PayCoreJobRules PayCoreBooks PayCoreSerialJobs PayCoreSerialBooks

/-- An entry with the state that it was posted in, its own commit included. -/
abbrev Posting := LedgerEntry × Database

def entry? : Write → Option LedgerEntry
  | .insertEntry e => some e
  | _ => none

def postings (commit : List Write × Database) : List Posting :=
  (commit.1.filterMap entry?).map fun e => (e, applyAll commit.1 commit.2)

/-- A serial run from the empty database, with the entries in the order they are posted. -/
inductive SerialHistory : List Posting → Database → Prop where
  | start : SerialHistory [] emptyDatabase
  | operation {trail : List Posting} {s : Database} (before : SerialHistory trail s)
      (answer : Request → Option PaystackData) (job : Job) (admitted : Admitted s job) :
      SerialHistory (trail ++ (commits answer job.program (start s)).flatMap postings)
        (runAlone answer job.program s).2
  | directory {trail : List Posting} {s t : Database} (before : SerialHistory trail s)
      (same : SameMoney s t) : SerialHistory trail t

def ofWallet (walletId : Uuid) (trail : List Posting) : List Posting :=
  trail.filter fun p => p.1.walletId = walletId

def Recomputable (entries : List LedgerEntry) : Prop := Accrues LedgerEntry.balanceAfter signed 0 entries

instance (entries : List LedgerEntry) : Decidable (Recomputable entries) :=
  decidableAccrues _ _ _ _

/-- The snapshot together with what open withdrawals hold of the wallet at the posting. -/
def beforeHolds (walletId : Uuid) (p : Posting) : Int := p.1.balanceAfter + held walletId p.2.transactions

section Commits
variable {s : Database} {ws : List Write}

theorem ledger_of_commit (ws : List Write) (s : Database) :
    (applyAll ws s).ledgerEntries = s.ledgerEntries ++ ws.filterMap entry? := by
  induction ws generalizing s with
  | nil => simp
  | cons w ws ih =>
    rw [applyAll_cons, ih]
    cases w with
    | insertEntry e => simp [applyWrite, entry?]
    | account w =>
      change (applyAccount w s).ledgerEntries ++ _ = _
      rw [account_ledgerEntries]
      rfl
    | _ => rfl

theorem sum_signed (walletId : Uuid) (ledger : List LedgerEntry) :
    ((ledger.filter fun e => e.walletId = walletId).map signed).sum =
      ledgerSum .credit walletId ledger - ledgerSum .debit walletId ledger := by
  induction ledger with
  | nil => rfl
  | cons e rest ih =>
    rw [ledgerSum_cons, ledgerSum_cons]
    by_cases mine : e.walletId = walletId
    · rw [List.filter_cons_of_pos (by simpa using mine), List.map_cons, List.sum_cons, ih]
      cases side : e.entryType <;> simp [signed, side, mine] <;> omega
    · rw [List.filter_cons_of_neg (by simpa using mine), ih]
      simp [mine]

inductive Posts (ws : List Write) (s : Database) (walletId : Uuid) : List LedgerEntry → Prop where
  | nothing : Posts ws s walletId []
  | one (e : LedgerEntry) (w : Wallet) (found : (applyAll ws s).wallets.find? walletId = some w)
      (snapshot : w.balance = e.balanceAfter) : Posts ws s walletId [e]

theorem side_enters_nothing (side : Side ws) : ws.filterMap entry? = [] := by
  rw [List.filterMap_eq_nil_iff]
  intro w mem
  have beside := side w mem
  cases w with
  | insertEntry e => simp [sideWrite] at beside
  | _ => rfl

theorem movement_posts {t : Transaction} {sender recipient : Wallet} (walletId : Uuid)
    (payer : s.wallets.find? sender.id = some sender)
    (payee : s.wallets.find? recipient.id = some recipient) (apart : sender.id ≠ recipient.id) :
    Posts (movementWrites t sender recipient) s walletId
      (((movementWrites t sender recipient).filterMap entry?).filter fun e => e.walletId = walletId) := by
  have entries : (movementWrites t sender recipient).filterMap entry? =
      [entryOf t sender.id .debit t.amount (sender.balance - t.amount),
       entryOf t recipient.id .credit t.amount (recipient.balance + t.amount)] := rfl
  rw [entries]
  by_cases pays : sender.id = walletId
  · subst pays
    have other : recipient.id ≠ sender.id := Ne.symm apart
    simp only [List.filter_cons, List.filter_nil, entryOf, decide_true, if_true, other, decide_false,
      Bool.false_eq_true, if_false]
    apply Posts.one
    · simp only [movementWrites, applyAll_cons, applyAll_nil, store_apply, applyWrite]
      rw [find?_update_other other, find?_update, if_pos rfl, payer, Option.map_some]
    · rfl
  · by_cases gains : recipient.id = walletId
    · subst gains
      simp only [List.filter_cons, List.filter_nil, entryOf, decide_true, if_true, apart, decide_false,
        Bool.false_eq_true, if_false]
      apply Posts.one
      · simp only [movementWrites, applyAll_cons, applyAll_nil, store_apply, applyWrite]
        rw [find?_update, if_pos rfl, find?_update_other apart, payee, Option.map_some]
      · rfl
    · simp only [List.filter_cons, List.filter_nil, entryOf, pays, gains, decide_false, Bool.false_eq_true,
        if_false]
      exact .nothing

theorem commit_posts (c : BookCommit ws s) (walletId : Uuid) :
    Posts ws s walletId ((ws.filterMap entry?).filter fun e => e.walletId = walletId) := by
  have silent (nothing : ws.filterMap entry? = []) :
      Posts ws s walletId ((ws.filterMap entry?).filter fun e => e.walletId = walletId) := by
    rw [nothing]
    exact .nothing
  cases c with
  | money c =>
    cases c with
    | movement c =>
      cases c with
      | posted t sender recipient _ _ _ _ _ _ _ payer payee apart _ _ =>
          exact movement_posts walletId payer payee apart
    | hold c =>
      cases c
      exact silent rfl
    | side side => exact silent (side_enters_nothing side)
  | request c =>
    cases c
    exact silent rfl
  | registration c =>
    cases c
    exact silent rfl
  | charge id t found funding c =>
    cases c with
    | credited t holder amount row status destination there creditable =>
      have entries : (creditWrites t holder amount).filterMap entry? =
          [entryOf t holder.id .credit amount (holder.balance + amount)] := rfl
      rw [entries]
      by_cases mine : holder.id = walletId
      · subst mine
        simp only [List.filter_cons, List.filter_nil, entryOf, decide_true, if_true]
        apply Posts.one
        · simp only [creditWrites, mark, applyAll_cons, applyAll_nil, store_apply, applyWrite]
          rw [find?_update, if_pos rfl, there, Option.map_some]
        · rfl
      · simp only [List.filter_cons, List.filter_nil, entryOf, mine, decide_false,
          Bool.false_eq_true, if_false]
        exact .nothing
  | start id t found funding c =>
    cases c
    exact silent rfl
  | abandon id t found funding c =>
    cases c
    exact silent rfl
  | payout c =>
    cases c with
    | dispatch id c =>
      cases c with
      | dispatched t side code beside =>
        apply silent
        rw [List.filterMap_append, side_enters_nothing beside]
        cases code <;> rfl
      | redispatched t side code beside =>
        apply silent
        rw [List.filterMap_append, side_enters_nothing beside]
        rfl
    | settle id c =>
      cases c with
      | paid t holder row status source there =>
        have entries : ([.insertEntry (entryOf t holder.id .debit t.amount holder.balance),
            mark id .completed none] : List Write).filterMap entry? =
            [entryOf t holder.id .debit t.amount holder.balance] := rfl
        rw [entries]
        by_cases mine : holder.id = walletId
        · subst mine
          simp only [List.filter_cons, List.filter_nil, entryOf, decide_true, if_true]
          exact .one _ holder there rfl
        · simp only [List.filter_cons, List.filter_nil, entryOf, mine, decide_false,
            Bool.false_eq_true, if_false]
          exact .nothing
      | refunded => exact silent rfl
    | side side => exact silent (side_enters_nothing side)

end Commits

section Histories

/-- The entries so far, and their snapshots before holds add up for every wallet. -/
structure AddsUp (trail : List Posting) (s : Database) : Prop where
  books : Books s
  ledger : trail.map Prod.fst = s.ledgerEntries
  chained : ∀ walletId, Accrues (beforeHolds walletId) (fun p => signed p.1) 0 (ofWallet walletId trail)

theorem ofWallet_entries (walletId : Uuid) (trail : List Posting) :
    (ofWallet walletId trail).map (fun p => signed p.1) =
      ((trail.map Prod.fst).filter fun e => e.walletId = walletId).map signed := by
  rw [List.filter_map, List.map_map]
  rfl

theorem commit_accounted {trail : List Posting} {s : Database} {ws : List Write}
    (accounted : AddsUp trail s)
    (c : BookCommit ws s) : AddsUp (trail ++ postings (ws, s)) (applyAll ws s) := by
  have books := books_commit accounted.books c
  have ledger : (trail ++ postings (ws, s)).map Prod.fst = (applyAll ws s).ledgerEntries := by
    rw [List.map_append, accounted.ledger, ledger_of_commit, postings, List.map_map]
    simp [Function.comp_def]
  refine ⟨books, ledger, fun walletId => ?_⟩
  have added : ofWallet walletId (postings (ws, s)) =
      ((ws.filterMap entry?).filter fun e => e.walletId = walletId).map fun e => (e, applyAll ws s) := by
    rw [ofWallet, postings, List.filter_map]
    rfl
  have total : ((ofWallet walletId (trail ++ postings (ws, s))).map fun p => signed p.1).sum =
      ledgerSum .credit walletId (applyAll ws s).ledgerEntries -
        ledgerSum .debit walletId (applyAll ws s).ledgerEntries := by
    rw [ofWallet_entries, ledger]
    exact sum_signed walletId _
  have parted : ofWallet walletId (trail ++ postings (ws, s)) =
      ofWallet walletId trail ++ ofWallet walletId (postings (ws, s)) := List.filter_append _ _
  rw [parted, added] at total ⊢
  have posts := commit_posts c walletId
  generalize ((ws.filterMap entry?).filter fun e => e.walletId = walletId) = entries at posts total
  cases posts with
  | nothing => simpa using accounted.chained walletId
  | one e w found snapshot =>
    rw [List.map_cons, List.map_nil] at total ⊢
    rw [accrues_last, zero_add, total]
    refine ⟨accounted.chained walletId, ?_⟩
    have balance := books.balanced walletId w found
    rw [snapshot] at balance
    rw [beforeHolds, balance, bookBalance]
    dsimp only
    omega

theorem chained_accounted {trail : List Posting} {s t : Database} {log : List (List Write × Database)}
    (accounted : AddsUp trail s) (chained : Chained BookCommit s log t) :
    AddsUp (trail ++ log.flatMap postings) t := by
  induction chained generalizing trail with
  | done s => simpa using accounted
  | step ok onward ih =>
    rw [List.flatMap_cons, ← List.append_assoc]
    exact ih (commit_accounted accounted ok)

theorem serialRun_iff {s : Database} : SerialRun emptyDatabase s ↔ ∃ trail, SerialHistory trail s := by
  constructor
  · intro run
    induction run with
    | start => exact ⟨[], .start⟩
    | operation before answer job admitted ih =>
      obtain ⟨trail, history⟩ := ih
      exact ⟨_, .operation history answer job admitted⟩
    | directory before same ih =>
      obtain ⟨trail, history⟩ := ih
      exact ⟨trail, .directory history same⟩
  · rintro ⟨trail, history⟩
    induction history with
    | start => exact .start
    | operation before answer job admitted ih => exact .operation ih answer job admitted
    | directory before same ih => exact .directory ih same

theorem history_accounted {trail : List Posting} {s : Database} (history : SerialHistory trail s) :
    AddsUp trail s := by
  induction history with
  | start => exact ⟨books_empty, rfl, fun _ => trivial⟩
  | @operation trail s before answer job admitted ih =>
    have chained := exec_chained interference_alone.refl coherent_blank
      (fun _ _ rows adds => coherent_fresh rows adds) answer job.program (start s) Nothing
      (keeps_job job) (coherent_blank s) (admitted_wp ih.books admitted)
    exact chained_accounted ih chained
  | directory before same ih =>
    exact ⟨books_same ih.books same, ih.ledger.trans same.ledgerEntries.symm, ih.chained⟩

end Histories

/-- Snapshots chain once what open withdrawals hold is added to them; where nothing is held at any
    posting they chain as they are. -/
theorem snapshots_chain_before_holds {trail : List Posting} {db : Database}
    (history : SerialHistory trail db) (walletId : Uuid) :
    trail.map Prod.fst = db.ledgerEntries ∧
      Accrues (beforeHolds walletId) (fun p => signed p.1) 0 (ofWallet walletId trail) ∧
      ((∀ p ∈ ofWallet walletId trail, held walletId p.2.transactions = 0) →
        Recomputable (db.ledgerEntries.filter fun e => e.walletId = walletId)) := by
  have accounted := history_accounted history
  refine ⟨accounted.ledger, accounted.chained walletId, fun unheld => ?_⟩
  have entries : (ofWallet walletId trail).map Prod.fst =
      db.ledgerEntries.filter fun e => e.walletId = walletId := by
    rw [← accounted.ledger, List.filter_map]
    rfl
  have same : ∀ p ∈ ofWallet walletId trail,
      beforeHolds walletId p = p.1.balanceAfter ∧ signed p.1 = signed p.1 := by
    intro p mem
    exact ⟨by rw [beforeHolds, unheld p mem, add_zero], rfl⟩
  have plain := (accrues_congr (f := Prod.fst) same).mp (accounted.chained walletId)
  rwa [entries] at plain

section Day

def inTurnTrail (answer : Request → Option PaystackData) (db : Database) : List Job → List Posting
  | [] => []
  | job :: rest => (commits answer job.program (start db)).flatMap postings ++
      inTurnTrail answer (runAlone answer job.program db).2 rest

theorem inTurn_history {trail : List Posting} {db : Database} {answer : Request → Option PaystackData}
    {jobs : List Job} (history : SerialHistory trail db) (admitted : ∀ job ∈ jobs, ∀ s, Admitted s job) :
    SerialHistory (trail ++ inTurnTrail answer db jobs) (inTurn answer db jobs) := by
  induction jobs generalizing trail db with
  | nil => simpa [inTurnTrail, inTurn] using history
  | cons job rest ih =>
    have onward := ih (.operation history answer job (admitted job (by simp) db))
      (fun job mem => admitted job (by simp [mem]))
    rw [inTurnTrail, ← List.append_assoc]
    exact onward

/-- Alice has a bank account in the afternoon. She withdraws NGN 100.00 and sends Bob as much while
   the payout is under way. -/
def atOne : Database :=
  { atNoon with
    bankAccounts := atNoon.bankAccounts.insert
      ⟨50, 1, "Alice", "0123456789", "058", "Bank", true, none, none⟩ }

def afternoon : List Job :=
  [.initiateWithdrawal {} alice 50 10000 ⟨102, "w", ⟨0, 0⟩⟩,
   .initiateTransfer (fun s => s) alice {} (.userId 2) 10000 none ⟨101, "t", 0, ⟨0, 0⟩⟩]

def atDusk : Database := inTurn paystackUp atOne afternoon

def duskTrail : List Posting :=
  [] ++ inTurnTrail paystackUp emptyDatabase morning ++ inTurnTrail paystackUp atOne afternoon

theorem dusk_history : SerialHistory duskTrail atDusk := by
  apply inTurn_history
  · apply SerialHistory.directory (s := atNoon)
    · exact inTurn_history .start (by simp [morning, Admitted])
    · exact ⟨rfl, rfl, rfl⟩
  · simp [afternoon, Admitted]

theorem dusk_chains_before_holds :
    (ofWallet 11 duskTrail).map (beforeHolds 11) = [50000, 40000] ∧
      Accrues (beforeHolds 11) (fun p => signed p.1) 0 (ofWallet 11 duskTrail) :=
  ⟨by decide +kernel, (snapshots_chain_before_holds dusk_history 11).2.1⟩

/-- The transfer's DEBIT of NGN 100.00 takes the snapshot from NGN 500.00 to NGN 300.00. -/
theorem dusk_is_not_recomputable :
    SerialHistory duskTrail atDusk ∧
      (atDusk.ledgerEntries.filter fun e => e.walletId = 11).map
      (fun e => (e.entryType, e.amount, e.balanceAfter)) =
        [(.credit, 50000, 50000), (.debit, 10000, 30000)] ∧
      ¬Recomputable (atDusk.ledgerEntries.filter fun e => e.walletId = 11) :=
  ⟨dusk_history, by decide +kernel, by decide +kernel⟩

end Day

end PayCoreLedgerSnapshots
