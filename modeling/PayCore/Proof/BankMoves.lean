import Mathlib.Algebra.Order.BigOperators.Group.List
import Mathlib.Algebra.Order.Group.Int
import PayCore.Library.EscrowBank
import PayCore.Proof.SharedBooks

/- The platform as a bank. Each wallet is an account, the open withdrawals are what is pledged, and the
   ledger tells what the bank has received and paid out. Each commit is one move of the bank or none. -/
namespace PayCoreBankMoves
open KeyedTable SessionProgram EscrowBank PayCoreTables PayCoreWrites PayCorePersistence
open PayCoreCommits PayCoreBooks PayCoreJobRules PayCoreSerialJobs PayCoreProperCommits
open PayCoreKeptRecords PayCoreSharedBooks

noncomputable def money (w : Wallet) : Uuid →₀ Int := .single w.id w.balance

noncomputable def pledgeOf (t : Transaction) : Uuid →₀ Int :=
  t.sourceWalletId.elim 0 (fun id => .single id (holdOf id t))

noncomputable def bankOf (db : Database) : Bank Uuid where
  balance := db.wallets.total money
  pledged := db.transactions.total pledgeOf
  vault := (db.ledgerEntries.map signed).sum

theorem total_apply {ρ κ : Type} [Keyed ρ κ] (t : Table ρ) (f : ρ → Uuid →₀ Int) (id : Uuid) :
    t.total f id = t.total (fun r => f r id) := by
  unfold Table.total
  induction t.rows with
  | nil => rfl
  | cons r rest ih =>
    simp only [List.map_cons, List.sum_cons, Finsupp.add_apply, ih]

theorem pledgeOf_apply (t : Transaction) (id : Uuid) : pledgeOf t id = holdOf id t := by
  unfold pledgeOf
  cases source : t.sourceWalletId with
  | none => simp [holdOf, source]
  | some k =>
    by_cases mine : k = id
    · simp [mine]
    · simp [holdOf, source, mine, Ne.symm mine]

@[simp] theorem bank_pledged (db : Database) (id : Uuid) :
    (bankOf db).pledged id = held id db.transactions := by
  simp only [bankOf, total_apply, pledgeOf_apply, held]

theorem balance_at (db : Database) (id : Uuid) :
    (bankOf db).balance id = ((db.wallets.find? id).map (·.balance)).getD 0 := by
  have shares : (fun a : Wallet => money a id) = fun a => if key a = id then a.balance else 0 := by
    funext a
    simp [money, Finsupp.single_apply, Keyed.key]
  simp only [bankOf, total_apply, shares, total_at]

theorem bank_balance {db : Database} {id : Uuid} {w : Wallet} (row : db.wallets.find? id = some w) :
    (bankOf db).balance id = w.balance := by
  rw [balance_at, row]
  rfl

section Tables
variable {db : Database} {w : Wallet}

theorem money_set {wallets : Table Wallet} (row : wallets.find? w.id = some w) (b : Int) :
    (wallets.update w.id (balanceEdit b)).total money = wallets.total money + .single w.id
    (b - w.balance) := by
  rw [total_update money row]
  have written : money ((balanceEdit b).on w) = .single w.id b := rfl
  rw [written, money, Finsupp.single_sub]
  abel

theorem money_opened (empty : w.balance = 0) :
    (db.wallets.insert w).total money = db.wallets.total money := by
  cases free : db.wallets.admits w with
  | false => rw [insert_refused free]
  | true =>
    rw [total_insert free, money, empty]
    simp

theorem pledged_same {transactions : Table Transaction}
    (same : ∀ k, held k transactions = held k db.transactions) :
    transactions.total pledgeOf = db.transactions.total pledgeOf := by
  apply Finsupp.ext
  intro k
  simp only [total_apply, pledgeOf_apply]
  exact same k

theorem pledged_less {transactions : Table Transaction} {id : Uuid} {n : Int}
    (less : ∀ k, held k transactions = held k db.transactions - if id = k then n else 0) :
    transactions.total pledgeOf = db.transactions.total pledgeOf - .single id n := by
  apply Finsupp.ext
  intro k
  simp only [Finsupp.sub_apply, total_apply, pledgeOf_apply, Finsupp.single_apply]
  exact less k

theorem bank_same {s t : Database} (wallets : t.wallets = s.wallets)
    (ledger : t.ledgerEntries = s.ledgerEntries)
    (holds : ∀ k, held k t.transactions = held k s.transactions) : bankOf t = bankOf s := by
  simp only [bankOf, wallets, ledger, pledged_same holds]

end Tables

/-- What a commit means for the bank. -/
def Simulated (s t : Database) : Prop :=
  bankOf t = bankOf s ∨ ∃ move, Legal (bankOf s) move ∧ bankOf t = after (bankOf s) move

section Steps
variable {db : Database} {ws : List Write} {id : Uuid}

theorem inserted_righted (proper : ProperCommit ws db) {t : Transaction} (mem : .insertTransaction t ∈ ws) :
    Righted db t := by
  cases proper with
  | moved a payer payee shape kind right =>
    rw [shape] at mem
    simp only [movementWrites, List.mem_cons, Write.insertTransaction.injEq, reduceCtorEq,
      List.not_mem_nil, or_false] at mem
    rw [mem]
    exact right
  | registered u wallet token shape =>
    rw [shape] at mem
    simp [registrationWrites] at mem
  | plain fine => exact (fine _ mem).warranted.1

theorem movement_moves (c : MovementCommit db ws) (proper : ProperCommit ws db) :
    Simulated db (applyAll ws db) := by
  cases c with
  | posted t sender recipient type status source destination provider extra free payer payee apart
      covered creditable =>
    have positive := ((inserted_righted proper List.mem_cons_self).payer sender.id source).2
    have other : t.type ≠ .withdrawal := by rcases type with kind | kind <;> simp [kind]
    right
    refine ⟨.transfer sender.id recipient.id t.amount, ⟨apart, positive, ?_⟩, ?_⟩
    · rw [bank_balance payer]
      exact covered
    · have still : (db.wallets.update sender.id (balanceEdit (sender.balance - t.amount))).find?
          recipient.id =
          some recipient := (find?_update_other apart).trans payee
      apply Bank.ext
      · change ((db.wallets.update sender.id (balanceEdit (sender.balance - t.amount))).update recipient.id
          (balanceEdit (recipient.balance + t.amount))).total money = _
        rw [money_set still, money_set payer, add_sub_cancel_left, sub_sub_cancel_left,
          Finsupp.single_neg, ← sub_eq_add_neg]
        rfl
      · apply pledged_same
        intro k
        change held k (db.transactions.insert t) = _
        rw [held, total_insert free, holdOf_other k other, add_zero]
        rfl
      · change ((db.ledgerEntries ++ _ ++ _).map signed).sum = _
        simp [signed, entryOf, after, bankOf]

theorem hold_moves (c : HoldCommit db ws) (proper : ProperCommit ws db) :
    Simulated db (applyAll ws db) := by
  cases c with
  | held t wallet type status source destination provider free holder covered =>
    have positive := ((inserted_righted proper List.mem_cons_self).payer wallet.id source).2
    right
    refine ⟨.pledge wallet.id t.amount, ⟨positive, ?_⟩, ?_⟩
    · rw [bank_balance holder]
      exact covered
    · apply Bank.ext
      · change (db.wallets.update wallet.id (balanceEdit (wallet.balance - t.amount))).total money = _
        rw [money_set holder, sub_sub_cancel_left, Finsupp.single_neg, ← sub_eq_add_neg]
        rfl
      · change (db.transactions.insert t).total pledgeOf = _
        rw [total_insert free]
        have pledge : pledgeOf t = .single wallet.id t.amount := by
          simp [pledgeOf, holdOf, source, type, status]
        rw [pledge]
        rfl
      · rfl

theorem charge_moves {a : Transaction} (row : db.transactions.find? id = some a)
    (funding : a.type = .funding) (c : ChargeCommit id db ws) : Simulated db (applyAll ws db) := by
  cases c with
  | credited t wallet amount found status destination holder creditable =>
    rw [row] at found
    cases found
    have own : a.id = id := (find?_some_iff.mp row).2
    rw [← own] at row
    right
    refine ⟨.deposit wallet.id amount, ?_, ?_⟩
    · rw [Legal, bank_balance holder]
      exact creditable.1
    · apply Bank.ext
      · change (db.wallets.update wallet.id (balanceEdit (wallet.balance + amount))).total money = _
        rw [money_set holder, add_sub_cancel_left]
        rfl
      · apply pledged_same
        intro k
        exact held_funding funding k
          (revised_twice row { status := some .processing } { status := some .completed }) rfl
      · change ((db.ledgerEntries ++ _).map signed).sum = _
        simp [signed, entryOf, after, bankOf]

theorem hold_nonneg (sound : Sound db) {a : Transaction} (row : db.transactions.find? a.id = some a)
    {walletId : Uuid} :
    0 ≤ holdOf walletId a := by
  unfold holdOf
  split
  · rename_i holds
    have positive := ((sound.righted a.id a row).payer walletId holds.2.2).2
    omega
  · exact Int.le_refl 0

/-- A wallet has at least the hold of each withdrawal pledged. -/
theorem hold_pledged (sound : Sound db) {a : Transaction} (row : db.transactions.find? id = some a)
    (walletId : Uuid) :
    holdOf walletId a ≤ (bankOf db).pledged walletId := by
  rw [bank_pledged]
  have counted : ∀ n ∈ db.transactions.rows.map (holdOf walletId), 0 ≤ n := by
    intro n mem
    obtain ⟨b, inside, rfl⟩ := List.mem_map.mp mem
    exact hold_nonneg sound (find?_some_iff.mpr ⟨inside, rfl⟩)
  apply List.single_le_sum counted
  exact List.mem_map.mpr ⟨a, (find?_some_iff.mp row).1, rfl⟩

theorem settle_moves (order : InOrder db) (c : SettleCommit id db ws) : Simulated db (applyAll ws db) := by
  right
  cases c with
  | paid a holder row status source found =>
    have withdrawal := payout_type order.books row status source
    have positive := ((order.sound.righted id a row).payer holder.id source).2
    have pledged := hold_pledged order.sound row holder.id
    have hold : holdOf holder.id a = a.amount := by simp [holdOf, withdrawal, status, source]
    refine ⟨.payOut holder.id a.amount, ⟨positive, ?_⟩, ?_⟩
    · rw [← hold]
      exact pledged
    · apply Bank.ext
      · rfl
      · apply pledged_less
        intro k
        exact held_settled k (replaced_update row (transactionEdit { status := some .completed }))
          withdrawal status source (.inl rfl)
      · change ((db.ledgerEntries ++ _).map signed).sum = _
        simp [signed, entryOf, after, bankOf, sub_eq_add_neg]
  | refunded a holder reason row status source found creditable =>
    have withdrawal := payout_type order.books row status source
    have positive := ((order.sound.righted id a row).payer holder.id source).2
    have pledged := hold_pledged order.sound row holder.id
    have hold : holdOf holder.id a = a.amount := by simp [holdOf, withdrawal, status, source]
    refine ⟨.release holder.id a.amount, ⟨positive, ?_⟩, ?_⟩
    · rw [← hold]
      exact pledged
    · apply Bank.ext
      · change (db.wallets.update holder.id (balanceEdit (holder.balance + a.amount))).total money = _
        rw [money_set found, add_sub_cancel_left]
        rfl
      · apply pledged_less
        intro k
        exact held_settled k
          (replaced_update row (transactionEdit { status := some .failed, failureReason := reason }))
          withdrawal status source (.inr rfl)
      · rfl

theorem request_still (c : RequestCommit db ws) : bankOf (applyAll ws db) = bankOf db := by
  cases c with
  | requested t wallet type status source destination extra free holder =>
    apply bank_same
    · rfl
    · rfl
    · intro k
      change held k (db.transactions.insert t) = _
      rw [held, total_insert free, holdOf_other k (by simp [type]), add_zero]
      rfl

theorem start_still (c : StartCommit id db ws) : bankOf (applyAll ws db) = bankOf db := by
  cases c with
  | started t row status =>
    apply bank_same
    · rfl
    · rfl
    · intro k
      exact held_dispatched k (replaced_update row (transactionEdit { status := some .processing })) rfl
        (by simp [status, TransactionUpdate.on])

theorem abandon_still {a : Transaction} (row : db.transactions.find? id = some a)
    (funding : a.type = .funding)
    (c : AbandonCommit id db ws) : bankOf (applyAll ws db) = bankOf db := by
  cases c with
  | abandoned t reason found status =>
    rw [row] at found
    cases found
    apply bank_same
    · rfl
    · rfl
    · intro k
      exact held_funding funding k (revised_twice row { status := some .processing }
        { status := some .failed, failureReason := reason }) rfl

theorem side_still (side : Side ws) : bankOf (applyAll ws db) = bankOf db := by
  have same := side_money side db
  apply bank_same same.wallets same.ledgerEntries
  intro k
  rw [same.transactions]

theorem dispatch_still (c : DispatchCommit id db ws) : bankOf (applyAll ws db) = bankOf db := by
  cases c with
  | dispatched t side code beside row status account =>
    rw [applyAll_append]
    apply Eq.trans _ (side_still beside)
    rw [← (side_money beside db).transactions] at row
    cases code with
    | none =>
      apply bank_same
      · rfl
      · rfl
      · intro k
        exact held_dispatched k (replaced_update row (transactionEdit { status := some .processing })) rfl
          (by simp [status, TransactionUpdate.on])
    | some code =>
      apply bank_same
      · rfl
      · rfl
      · intro k
        exact held_dispatched k
          (revised_twice row { status := some .processing } { providerReference := some code }) rfl
          (by simp [status, TransactionUpdate.on])
  | redispatched t side code beside row status account =>
    rw [applyAll_append]
    apply Eq.trans _ (side_still beside)
    rw [← (side_money beside db).transactions] at row
    apply bank_same
    · rfl
    · rfl
    · intro k
      exact held_dispatched k
        (replaced_update row (transactionEdit { providerReference := some code })) rfl Iff.rfl

theorem registration_still (c : RegistrationCommit db ws) : bankOf (applyAll ws db) = bankOf db := by
  cases c with
  | registered u wallet token empty free =>
    apply Bank.ext
    · exact money_opened empty
    · rfl
    · rfl

theorem homely_still (home : ∀ w ∈ ws, homely w) : bankOf (applyAll ws db) = bankOf db := by
  induction ws generalizing db with
  | nil => rfl
  | cons w ws ih =>
    have first : bankOf (applyWrite w db) = bankOf db := by
      have own := home w List.mem_cons_self
      cases w with
      | insertWallet w =>
        apply Bank.ext
        · exact money_opened own
        · rfl
        · rfl
      | insertRefreshToken => rfl
      | insertAuditLog => rfl
      | account w =>
        apply bank_same (account_wallets w db) (account_ledgerEntries w db)
        intro k
        exact congrArg (PayCoreBooks.held k) (account_transactions w db)
      | _ => exact own.elim
    exact (ih (fun v mem => home v (List.mem_cons_of_mem w mem))).trans first

theorem book_moves (order : InOrder db) (c : BookCommit ws db) (proper : ProperCommit ws db) :
    Simulated db (applyAll ws db) := by
  cases c with
  | money c =>
    cases c with
    | movement c => exact movement_moves c proper
    | hold c => exact hold_moves c proper
    | side side => exact .inl (side_still side)
  | request c => exact .inl (request_still c)
  | registration c => exact .inl (registration_still c)
  | charge id a row funding c => exact charge_moves row funding c
  | start id a row funding c => exact .inl (start_still c)
  | abandon id a row funding c => exact .inl (abandon_still row funding c)
  | payout c =>
    cases c with
    | dispatch id c => exact .inl (dispatch_still c)
    | settle id c => exact settle_moves order c
    | side side => exact .inl (side_still side)

/-- Each commit of the platform is a legal move of the bank, or the bank stays as it is. -/
theorem commit_moves (order : InOrder db) (good : GoodCommit ws db) : Simulated db (applyAll ws db) := by
  obtain ⟨commit, proper⟩ := good
  cases commit with
  | book c => exact book_moves order c proper
  | start id c => exact .inl (start_still c)
  | home home => exact .inl (homely_still home)

end Steps

section Whole
variable {db : Database}

theorem bank_balance_absent {id : Uuid} (absent : db.wallets.find? id = none) :
    (bankOf db).balance id = 0 := by
  rw [balance_at, absent]
  rfl

/-- What the ledger says of each wallet. -/
noncomputable def posted (ledger : List LedgerEntry) : Uuid →₀ Int :=
  (ledger.map (fun e => Finsupp.single e.walletId (signed e))).sum

theorem posted_apply (ledger : List LedgerEntry) (id : Uuid) :
    posted ledger id = ledgerSum .credit id ledger - ledgerSum .debit id ledger := by
  induction ledger with
  | nil => rfl
  | cons e rest ih =>
    have first : Finsupp.single e.walletId (signed e) id =
        (if e.walletId = id ∧ e.entryType = .credit then e.amount else 0) -
          if e.walletId = id ∧ e.entryType = .debit then e.amount else 0 := by
      rw [Finsupp.single_apply]
      cases side : e.entryType with
      | credit => simp [signed, side]
      | debit =>
        simp only [signed, side, reduceCtorEq, and_false, and_true, if_false]
        split <;> omega
    have total : posted (e :: rest) = .single e.walletId (signed e) + posted rest := rfl
    rw [total, Finsupp.add_apply, first, ih, ledgerSum_cons, ledgerSum_cons]
    omega

theorem posted_total (ledger : List LedgerEntry) : sumOf (posted ledger) = (ledger.map signed).sum := by
  simp [posted, map_list_sum, Function.comp_def]

theorem posted_books (books : Books db) :
    posted db.ledgerEntries = (bankOf db).balance + (bankOf db).pledged := by
  apply Finsupp.ext
  intro id
  rw [posted_apply, Finsupp.add_apply, bank_pledged]
  cases row : db.wallets.find? id with
  | none =>
    have nothing := bookBalance_absent books row
    rw [bank_balance_absent row]
    unfold bookBalance at nothing
    omega
  | some w =>
    have balanced := books.balanced id w row
    rw [bank_balance row, balanced]
    unfold bookBalance
    omega

theorem bank_whole (order : InOrder db) : Whole (bankOf db) where
  covered := by
    rw [← map_add, ← posted_books order.books, posted_total]
    rfl
  solvent id := by
    cases row : db.wallets.find? id with
    | none => exact Int.le_of_eq (bank_balance_absent row).symm
    | some w =>
      rw [bank_balance row]
      exact order.books.solvent w (find?_some_iff.mp row).1
  pledges id := by
    rw [bank_pledged]
    apply List.sum_nonneg
    intro n mem
    obtain ⟨t, inside, rfl⟩ := List.mem_map.mp mem
    exact hold_nonneg order.sound (find?_some_iff.mpr ⟨inside, rfl⟩)

end Whole

section Account
variable {ι : Type} {db s : Database} {log : List (ι × List Write)} {moves : List (Move Uuid)}
    {ws : List Write}

/-- What the commits are to the bank, each one legal move or none. -/
inductive Told (db : Database) : List (ι × List Write) → List (Move Uuid) → Database → Prop where
  | start : Told db [] [] db
  | still {log : List (ι × List Write)} {moves : List (Move Uuid)} {s : Database} (i : ι) {ws : List Write}
      (before : Told db log moves s) (same : bankOf (applyAll ws s) = bankOf s) :
      Told db (log ++ [(i, ws)]) moves (applyAll ws s)
  | moved {log : List (ι × List Write)} {moves : List (Move Uuid)} {s : Database} (i : ι) {ws : List Write}
      {move : Move Uuid} (before : Told db log moves s) (legal : Legal (bankOf s) move)
      (same : bankOf (applyAll ws s) = after (bankOf s) move) :
        Told db (log ++ [(i, ws)]) (moves ++ [move]) (applyAll ws s)

theorem told_run (told : Told db log moves s) :
    bankOf s = GuardedRuns.run after (bankOf db) moves ∧ GuardedRuns.Along after Legal
    (bankOf db) moves := by
  induction told with
  | start => exact ⟨rfl, trivial⟩
  | still i before same ih => exact ⟨same.trans ih.1, ih.2⟩
  | moved i before legal same ih =>
    rw [ih.1] at legal same
    constructor
    · rw [same, GuardedRuns.run_append]
      rfl
    · exact GuardedRuns.along_append.mpr ⟨ih.2, legal, trivial⟩

theorem told_commit (i : ι) (told : Told db log moves s) (order : InOrder s) (good : GoodCommit ws s) :
    ∃ more, Told db (log ++ [(i, ws)]) (moves ++ more) (applyAll ws s) ∧
      (more = [] ∨ ∃ move, more = [move] ∧ bankOf (applyAll ws s) = after (bankOf s) move) := by
  rcases commit_moves order good with still | ⟨move, legal, moved⟩
  · refine ⟨[], ?_, .inl rfl⟩
    rw [List.append_nil]
    exact .still i told still
  · exact ⟨[move], .moved i told legal moved, .inr ⟨move, rfl, moved⟩⟩

end Account

end PayCoreBankMoves
