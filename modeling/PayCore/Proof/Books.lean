import PayCore.Proof.Commits

/- The books of the platform: the ledger entries behind each transaction, and the
   balance that the ledger and the open withdrawals give each wallet. Every commit of the
   application keeps them. -/
namespace PayCoreBooks
open KeyedTable SessionProgram PayCoreTables PayCoreWrites PayCorePersistence PayCoreCommits

def entriesOf (id : Uuid) (ledger : List LedgerEntry) : List LedgerEntry :=
  ledger.filter (fun e => e.transactionId == id)

def signed (e : LedgerEntry) : Int :=
  match e.entryType with
  | .credit => e.amount
  | .debit => -e.amount

def ledgerSum (side : EntryType) (walletId : Uuid) (ledger : List LedgerEntry) : Int :=
  (ledger.map (fun e => if e.walletId = walletId ∧ e.entryType = side then e.amount else 0)).sum

/-- What a withdrawal that is PENDING or PROCESSING holds of its source wallet. -/
def holdOf (walletId : Uuid) (t : Transaction) : Int :=
  if t.type = .withdrawal ∧ (t.status = .pending ∨ t.status = .processing) ∧
    t.sourceWalletId = some walletId then t.amount else 0

def held (walletId : Uuid) (transactions : Table Transaction) : Int :=
  transactions.total (holdOf walletId)

/-- The balance of a wallet according to the books. -/
def bookBalance (walletId : Uuid) (db : Database) : Int :=
  ledgerSum .credit walletId db.ledgerEntries - ledgerSum .debit walletId db.ledgerEntries -
    held walletId db.transactions

structure IsEntry (id : Uuid) (side : EntryType) (walletId : Uuid) (amount : Int)
    (e : LedgerEntry) : Prop where
  transaction : e.transactionId = id
  wallet : e.walletId = walletId
  side : e.entryType = side
  amount : e.amount = amount

/-- The entries that a transaction has in the ledger are those its type and status call for. -/
structure Posted (t : Transaction) (entries : List LedgerEntry) : Prop where
  moved : t.type = .transfer ∨ t.type = .merchantPayment → t.status = .completed ∧
    ∃ source destination debit credit, t.sourceWalletId = some source ∧
      t.destinationWalletId = some destination ∧ source ≠ destination ∧ entries = [debit, credit] ∧
      IsEntry t.id .debit source t.amount debit ∧ IsEntry t.id .credit destination t.amount credit
  paid : t.type = .withdrawal → t.status = .completed → ∃ source debit,
    t.sourceWalletId = some source ∧ entries = [debit] ∧ IsEntry t.id .debit source t.amount debit
  funded : t.type = .funding → t.status = .completed → ∃ destination credit amount,
    t.destinationWalletId = some destination ∧ entries = [credit] ∧
    IsEntry t.id .credit destination amount credit
  unposted : t.status ≠ .completed → entries = []

/-- What the handlers rely on when they pick a transaction without looking at its type. -/
structure Shaped (t : Transaction) : Prop where
  kind : t.type ≠ .reversal
  unsourced : t.type = .funding → t.sourceWalletId = none
  unreferred : t.type = .withdrawal → t.status = .pending → t.providerReference = none
  payout : t.extraData.bind (·.bankAccountId) ≠ none → t.type = .withdrawal

structure Books (db : Database) : Prop where
  shaped : ∀ id t, db.transactions.find? id = some t → Shaped t
  posted : ∀ id t, db.transactions.find? id = some t → Posted t (entriesOf id db.ledgerEntries)
  sourced : ∀ id t walletId, db.transactions.find? id = some t → t.sourceWalletId = some walletId →
    db.wallets.find? walletId ≠ none
  entered : ∀ e ∈ db.ledgerEntries,
    db.transactions.find? e.transactionId ≠ none ∧ db.wallets.find? e.walletId ≠ none
  balanced : ∀ id w, db.wallets.find? id = some w → w.balance = bookBalance id db
  solvent : Solvent db

theorem books_empty : Books emptyDatabase where
  shaped id t found := by cases found
  posted id t found := by cases found
  sourced id t walletId found := by cases found
  entered e mem := by cases mem
  balanced id w found := by cases found
  solvent w mem := by cases mem

@[simp] theorem entriesOf_append (id : Uuid) (ledger more : List LedgerEntry) :
    entriesOf id (ledger ++ more) = entriesOf id ledger ++ entriesOf id more := by
  simp [entriesOf]

theorem entriesOf_all {id : Uuid} {entries : List LedgerEntry}
    (own : ∀ e ∈ entries, e.transactionId = id) : entriesOf id entries = entries := by
  unfold entriesOf
  rw [List.filter_eq_self]
  intro e mem
  simp [own e mem]

theorem entriesOf_none {id k : Uuid} {entries : List LedgerEntry}
    (own : ∀ e ∈ entries, e.transactionId = id) (other : k ≠ id) : entriesOf k entries = [] := by
  unfold entriesOf
  rw [List.filter_eq_nil_iff]
  intro e mem
  simp [own e mem, Ne.symm other]

@[simp] theorem ledgerSum_nil (side : EntryType) (id : Uuid) : ledgerSum side id [] = 0 := rfl

@[simp] theorem ledgerSum_append (side : EntryType) (id : Uuid) (ledger more : List LedgerEntry) :
    ledgerSum side id (ledger ++ more) = ledgerSum side id ledger + ledgerSum side id more := by
  simp [ledgerSum]

@[simp] theorem ledgerSum_cons (side : EntryType) (id : Uuid) (e : LedgerEntry)
    (rest : List LedgerEntry) : ledgerSum side id (e :: rest) =
      (if e.walletId = id ∧ e.entryType = side then e.amount else 0) + ledgerSum side id rest := by
  simp [ledgerSum]

section Kept
variable {db t : Database} {ws : List Write} {id : Uuid}

theorem wallets_stay (later : Later db t) {k : Uuid} (there : db.wallets.find? k ≠ none) :
    t.wallets.find? k ≠ none := by
  obtain ⟨w, found⟩ := Option.ne_none_iff_exists'.mp there
  obtain ⟨w', found', _⟩ := later.wallets k w found
  rw [found']
  simp

/-- A commit that stores one row, old or new, and posts entries for it. -/
theorem books_put (h : Books db) (later : Later db t) {row : Transaction} {entries : List LedgerEntry}
    (stored : t.transactions.find? id = some row)
    (others : ∀ k, k ≠ id → t.transactions.find? k = db.transactions.find? k)
    (ledger : t.ledgerEntries = db.ledgerEntries ++ entries)
    (own : ∀ e ∈ entries, e.transactionId = id ∧ db.wallets.find? e.walletId ≠ none)
    (shape : Shaped row) (source : ∀ k, row.sourceWalletId = some k → db.wallets.find? k ≠ none)
    (posted : Posted row (entriesOf id db.ledgerEntries ++ entries))
    (balanced : ∀ k w, t.wallets.find? k = some w → w.balance = bookBalance k t) : Books t where
  shaped k a found := by
    by_cases mine : k = id
    · rw [mine, stored] at found
      cases found
      exact shape
    · rw [others k mine] at found
      exact h.shaped k a found
  posted k a found := by
    rw [ledger, entriesOf_append]
    by_cases mine : k = id
    · rw [mine, stored] at found
      cases found
      rw [mine, entriesOf_all (fun e mem => (own e mem).1)]
      exact posted
    · rw [others k mine] at found
      rw [entriesOf_none (fun e mem => (own e mem).1) mine, List.append_nil]
      exact h.posted k a found
  sourced k a walletId found paysFrom := by
    refine wallets_stay later ?_
    by_cases mine : k = id
    · rw [mine, stored] at found
      cases found
      exact source walletId paysFrom
    · rw [others k mine] at found
      exact h.sourced k a walletId found paysFrom
  entered e mem := by
    rw [ledger, List.mem_append] at mem
    rcases mem with old | new
    · obtain ⟨there, wallet⟩ := h.entered e old
      refine ⟨?_, wallets_stay later wallet⟩
      obtain ⟨a, found⟩ := Option.ne_none_iff_exists'.mp there
      obtain ⟨b, found', _⟩ := later.transactions _ a found
      rw [found']
      simp
    · obtain ⟨mine, wallet⟩ := own e new
      refine ⟨?_, wallets_stay later wallet⟩
      rw [mine, stored]
      simp
  balanced := balanced
  solvent := later.solvent h.solvent

theorem entriesOf_new (h : Books db) (absent : db.transactions.find? id = none) :
    entriesOf id db.ledgerEntries = [] := by
  unfold entriesOf
  rw [List.filter_eq_nil_iff]
  intro e mem same
  have there := (h.entered e mem).1
  rw [beq_iff_eq.mp same] at there
  exact there absent

theorem balanced_moves (h : Books db)
    (moved : ∀ k w, t.wallets.find? k = some w → ∃ old, db.wallets.find? k = some old ∧
      w.balance - old.balance = bookBalance k t - bookBalance k db) :
    ∀ k w, t.wallets.find? k = some w → w.balance = bookBalance k t := by
  intro k w found
  obtain ⟨old, there, change⟩ := moved k w found
  have before := h.balanced k old there
  omega

theorem setBalance_before {wallets : Table Wallet} {k : Uuid} {b : Int} {w : Wallet}
    (found : (wallets.update id (balanceEdit b)).find? k = some w) :
    ∃ old, wallets.find? k = some old ∧ w.balance = if id = k then b else old.balance := by
  rw [find?_update] at found
  split at found
  · rename_i same
    obtain ⟨old, there, edited⟩ := Option.map_eq_some_iff.mp found
    exact ⟨old, there, by rw [← edited, if_pos same]; rfl⟩
  · rename_i other
    exact ⟨w, found, by rw [if_neg other]⟩

theorem holdOf_other {a : Transaction} (k : Uuid) (other : a.type ≠ .withdrawal) : holdOf k a = 0 := by
  unfold holdOf
  rw [if_neg]
  rintro ⟨withdrawal, _⟩
  exact other withdrawal

theorem insert_stored {a : Transaction} (free : db.transactions.admits a = true) :
    (db.transactions.insert a).find? a.id = some a := by
  rw [find?_insert free]
  exact if_pos rfl

theorem insert_others {a : Transaction} (k : Uuid) (other : k ≠ a.id) :
    (db.transactions.insert a).find? k = db.transactions.find? k :=
  find?_insert_other (Ne.symm other)

section Movements
variable {a : Transaction} {sender recipient : Wallet}

theorem shaped_movement (type : a.type = .transfer ∨ a.type = .merchantPayment)
    (extra : a.extraData = none) : Shaped a := by
  constructor
  · rcases type with moved | moved <;> simp [moved]
  · rcases type with moved | moved <;> simp [moved]
  · rcases type with moved | moved <;> simp [moved]
  · simp [extra]

theorem posted_movement (type : a.type = .transfer ∨ a.type = .merchantPayment)
    (status : a.status = .completed) (source : a.sourceWalletId = some sender.id)
    (destination : a.destinationWalletId = some recipient.id) (apart : sender.id ≠ recipient.id)
    (x y : Int) :
    Posted a [entryOf a sender.id .debit a.amount x, entryOf a recipient.id .credit a.amount y] := by
  constructor
  · intro _
    exact ⟨status, sender.id, recipient.id, _, _, source, destination, apart, rfl,
      ⟨rfl, rfl, rfl, rfl⟩, ⟨rfl, rfl, rfl, rfl⟩⟩
  · intro withdrawal
    rcases type with moved | moved <;> rw [moved] at withdrawal <;> cases withdrawal
  · intro funding
    rcases type with moved | moved <;> rw [moved] at funding <;> cases funding
  · intro open_
    exact absurd status open_

theorem balanced_movement (h : Books db) (other : a.type ≠ .withdrawal)
    (free : db.transactions.admits a = true)
    (payer : db.wallets.find? sender.id = some sender)
    (payee : db.wallets.find? recipient.id = some recipient) (apart : sender.id ≠ recipient.id) :
    ∀ k w, (applyAll (movementWrites a sender recipient) db).wallets.find? k = some w →
      w.balance = bookBalance k (applyAll (movementWrites a sender recipient) db) := by
  refine balanced_moves h ?_
  intro k w found
  obtain ⟨mid, there, last⟩ := setBalance_before found
  obtain ⟨old, first, middle⟩ :
    ∃ old, db.wallets.find? k = some old ∧ mid.balance = _ := setBalance_before there
  refine ⟨old, first, ?_⟩
  have books : bookBalance k (applyAll (movementWrites a sender recipient) db) =
      bookBalance k db + (if recipient.id = k then a.amount else 0) -
        (if sender.id = k then a.amount else 0) := by
    simp [movementWrites, bookBalance, applyWrite, held, total_insert free, holdOf_other k other, entryOf]
    omega
  rw [books, last, middle]
  by_cases pays : sender.id = k
  · have gains : recipient.id ≠ k := fun same => apart (pays.trans same.symm)
    rw [← pays, payer] at first
    cases first
    rw [if_neg gains, if_pos pays, if_neg gains, if_pos pays]
    omega
  · by_cases gains : recipient.id = k
    · rw [← gains, payee] at first
      cases first
      rw [if_pos gains, if_pos gains, if_neg pays]
      omega
    · rw [if_neg gains, if_neg pays, if_neg gains, if_neg pays]
      omega

end Movements

theorem books_movement (h : Books db) (c : MovementCommit db ws) : Books (applyAll ws db) := by
  have later := later_all (movement_regular c) db
  cases c with
  | posted a sender recipient type status source destination provider extra free payer payee apart _ _ =>
    have ledger := List.append_assoc db.ledgerEntries
      [entryOf a sender.id .debit a.amount (sender.balance - a.amount)]
      [entryOf a recipient.id .credit a.amount (recipient.balance + a.amount)]
    have bare : entriesOf a.id db.ledgerEntries = [] := entriesOf_new h (admits_key_free free)
    refine books_put h later (insert_stored free) insert_others ledger ?_ (shaped_movement type extra)
      ?_ ?_ (balanced_movement h ?_ free payer payee apart)
    · intro e mem
      rcases List.mem_append.mp mem with first | second
      · rw [List.mem_singleton.mp first]
        exact ⟨rfl, by simp [entryOf, payer]⟩
      · rw [List.mem_singleton.mp second]
        exact ⟨rfl, by simp [entryOf, payee]⟩
    · intro k paysFrom
      rw [source] at paysFrom
      cases paysFrom
      simp [payer]
    · rw [bare]
      exact posted_movement type status source destination apart _ _
    · rcases type with moved | moved <;> simp [moved]

theorem balanced_one (h : Books db) {holder : Wallet} {b : Int}
    (found : db.wallets.find? holder.id = some holder)
    (wallets : t.wallets = db.wallets.update holder.id (balanceEdit b))
    (books : ∀ k, bookBalance k t = bookBalance k db + if holder.id = k then b - holder.balance else 0) :
    ∀ k w, t.wallets.find? k = some w → w.balance = bookBalance k t := by
  refine balanced_moves h ?_
  intro k w there
  rw [wallets] at there
  obtain ⟨old, first, balance⟩ := setBalance_before there
  refine ⟨old, first, ?_⟩
  rw [books, balance]
  by_cases mine : holder.id = k
  · rw [← mine, found] at first
    cases first
    rw [if_pos mine, if_pos mine]
    omega
  · rw [if_neg mine, if_neg mine]
    omega

theorem balanced_none (h : Books db) (wallets : t.wallets = db.wallets)
    (books : ∀ k, bookBalance k t = bookBalance k db) :
    ∀ k w, t.wallets.find? k = some w → w.balance = bookBalance k t := by
  intro k w found
  rw [wallets] at found
  rw [books]
  exact h.balanced k w found

theorem posted_nothing {a : Transaction} (type : a.type = .funding ∨ a.type = .withdrawal)
    (status : a.status ≠ .completed) : Posted a [] := by
  constructor
  · intro movement
    rcases type with kind | kind <;> rw [kind] at movement <;> simp at movement
  · intro _ completed
    exact absurd completed status
  · intro _ completed
    exact absurd completed status
  · intro _
    rfl

theorem shaped_revised {a b : Transaction} (h : Shaped a) (revised : Revised a b)
    (started : b.status ≠ .pending) : Shaped b where
  kind := by
    rw [revised_type revised]
    exact h.kind
  unsourced := by
    rw [revised_type revised, revised_source revised]
    exact h.unsourced
  unreferred _ pending := absurd pending started
  payout := by
    rw [revised_extra revised, revised_type revised]
    exact h.payout

theorem books_hold (h : Books db) (c : HoldCommit db ws) : Books (applyAll ws db) := by
  have later := later_all (hold_regular c) db
  cases c with
  | held a holder type status source destination provider free found _ =>
    have bare : entriesOf a.id db.ledgerEntries = [] := entriesOf_new h (admits_key_free free)
    refine books_put h later (insert_stored free) insert_others (List.append_nil _).symm ?_ ?_ ?_ ?_
      (balanced_one h found rfl ?_)
    · intro e mem
      cases mem
    · refine ⟨by simp [type], by simp [type], fun _ _ => provider, fun _ => type⟩
    · intro k paysFrom
      rw [source] at paysFrom
      cases paysFrom
      simp [found]
    · rw [bare]
      exact posted_nothing (Or.inr type) (by simp [status])
    · intro k
      simp [bookBalance, applyWrite, PayCoreBooks.held, total_insert free, holdOf, type, status, source]
      split <;> omega

theorem books_request (h : Books db) (c : RequestCommit db ws) : Books (applyAll ws db) := by
  have later := later_all (request_regular c) db
  cases c with
  | requested a holder type status source destination extra free found =>
    have bare : entriesOf a.id db.ledgerEntries = [] := entriesOf_new h (admits_key_free free)
    refine books_put h later (insert_stored free) insert_others (List.append_nil _).symm ?_ ?_ ?_ ?_
      (balanced_none h rfl ?_)
    · intro e mem
      cases mem
    · refine ⟨by simp [type], fun _ => source, by simp [type], fun account => absurd extra account⟩
    · intro k paysFrom
      rw [source] at paysFrom
      cases paysFrom
    · rw [bare]
      exact posted_nothing (Or.inl type) (by simp [status])
    · intro k
      simp [bookBalance, applyWrite, held, total_insert free, holdOf_other k (a := a) (by simp [type])]

/-- The row of a transaction is rewritten, and `entries` are posted for it. -/
theorem books_revise (h : Books db) (later : Later db t) {a b : Transaction} {entries : List LedgerEntry}
    (row : Replaced id a b db.transactions t.transactions) (revised : Revised a b)
    (started : b.status ≠ .pending) (ledger : t.ledgerEntries = db.ledgerEntries ++ entries)
    (own : ∀ e ∈ entries, e.transactionId = id ∧ db.wallets.find? e.walletId ≠ none)
    (posted : Posted b (entriesOf id db.ledgerEntries ++ entries))
    (balanced : ∀ k w, t.wallets.find? k = some w → w.balance = bookBalance k t) : Books t := by
  refine books_put h later row.after row.others ledger own
    (shaped_revised (h.shaped id a row.before) revised started) ?_ posted balanced
  intro k paysFrom
  rw [revised_source revised] at paysFrom
  exact h.sourced id a k row.before paysFrom

theorem revised_twice {transactions : Table Transaction} {a : Transaction}
    (row : transactions.find? id = some a) (first second : TransactionUpdate) :
    Replaced id a (second.on (first.on a)) transactions
      ((transactions.update id (transactionEdit first)).update id (transactionEdit second)) :=
  replaced_trans (replaced_update row (transactionEdit first))
    (replaced_update (replaced_update row (transactionEdit first)).after (transactionEdit second))

theorem posted_funding {a : Transaction} (funding : a.type = .funding)
    (status : a.status = .completed) {destination : Uuid}
    (credits : a.destinationWalletId = some destination) {amount : Int} {credit : LedgerEntry}
    (entry : IsEntry a.id .credit destination amount credit) : Posted a [credit] := by
  constructor
  · intro movement
    simp [funding] at movement
  · intro withdrawal
    simp [funding] at withdrawal
  · intro _ _
    exact ⟨destination, credit, amount, credits, rfl, entry⟩
  · intro unfinished
    exact absurd status unfinished

section Fundings
variable {a : Transaction} (funding : a.type = .funding)
include funding

theorem holdOf_funding {b : Transaction} (k : Uuid) (revised : Revised a b) : holdOf k b = 0 := by
  refine holdOf_other k ?_
  rw [revised_type revised, funding]
  simp

theorem held_funding {b : Transaction} (k : Uuid) {transactions : Table Transaction}
    (row : Replaced id a b db.transactions transactions) (revised : Revised a b) :
    held k transactions = held k db.transactions := by
  have total := row.total (holdOf k)
  rw [holdOf_funding funding k (revised_refl a), holdOf_funding funding k revised] at total
  unfold held
  omega

theorem books_charge (h : Books db) (found : db.transactions.find? id = some a)
    (c : ChargeCommit id db ws) : Books (applyAll ws db) := by
  have later := later_all (charge_regular c) db
  cases c with
  | credited b holder amount row status destination there _ =>
    rw [row] at found
    cases found
    have key : a.id = id := (find?_some_iff.mp row).2
    subst key
    have moved := revised_twice row { status := some .processing } { status := some .completed }
    have bare := (h.posted a.id a row).unposted (by simp [status])
    refine books_revise h later moved rfl (by simp [TransactionUpdate.on]) rfl ?_ ?_
      (balanced_one h there rfl ?_)
    · intro e mem
      rw [List.mem_singleton.mp mem]
      exact ⟨rfl, by simp [entryOf, there]⟩
    · have entry : IsEntry a.id .credit holder.id amount
          (entryOf a holder.id .credit amount (holder.balance + amount)) := ⟨rfl, rfl, rfl, rfl⟩
      rw [bare, List.nil_append]
      apply posted_funding
      · exact funding
      · rfl
      · exact destination
      · exact entry
    · intro k
      have holds := held_funding funding k moved rfl
      simp [bookBalance, creditWrites, applyWrite, mark, entryOf, holds]
      omega

theorem books_start (h : Books db) (found : db.transactions.find? id = some a)
    (c : StartCommit id db ws) : Books (applyAll ws db) := by
  have later := later_all (start_regular c) db
  cases c with
  | started b row status =>
    rw [row] at found
    cases found
    have moved := replaced_update row (transactionEdit { status := some .processing })
    have bare := (h.posted id a row).unposted (by simp [status])
    refine books_revise h later moved rfl (by simp [TransactionUpdate.on]) (List.append_nil _).symm
      (by simp) ?_ (balanced_none h rfl ?_)
    · rw [bare]
      exact posted_nothing (Or.inl funding) (by simp [TransactionUpdate.on])
    · intro k
      have holds := held_funding funding k moved rfl
      simp [bookBalance, applyWrite, mark, holds]

theorem books_abandon (h : Books db) (found : db.transactions.find? id = some a)
    (c : AbandonCommit id db ws) : Books (applyAll ws db) := by
  have later := later_all (abandon_regular c) db
  cases c with
  | abandoned b reason row status =>
    rw [row] at found
    cases found
    have moved := revised_twice row { status := some .processing }
      { status := some .failed, failureReason := reason }
    have bare := (h.posted id a row).unposted (by simp [status])
    refine books_revise h later moved rfl (by simp [TransactionUpdate.on]) (List.append_nil _).symm
      (by simp) ?_ (balanced_none h rfl ?_)
    · rw [bare]
      exact posted_nothing (Or.inl funding) (by simp [TransactionUpdate.on])
    · intro k
      have holds := held_funding funding k moved rfl
      simp [bookBalance, applyWrite, mark, holds]

end Fundings

theorem books_same (h : Books db) (same : SameMoney db t) : Books t where
  shaped := by
    rw [same.transactions]
    exact h.shaped
  posted := by
    rw [same.transactions, same.ledgerEntries]
    exact h.posted
  sourced := by
    rw [same.transactions, same.wallets]
    exact h.sourced
  entered := by
    rw [same.transactions, same.ledgerEntries, same.wallets]
    exact h.entered
  balanced := by
    unfold bookBalance
    rw [same.wallets, same.ledgerEntries, same.transactions]
    exact h.balanced
  solvent := by
    unfold Solvent
    rw [same.wallets]
    exact h.solvent

/-- execute_payout: the hold stays, whether the withdrawal is PENDING or PROCESSING. -/
theorem held_dispatched {a b : Transaction} (k : Uuid) {transactions : Table Transaction}
    (row : Replaced id a b db.transactions transactions) (revised : Revised a b)
    (kept : (b.status = .pending ∨ b.status = .processing) ↔
      (a.status = .pending ∨ a.status = .processing)) :
    held k transactions = held k db.transactions := by
  have total := row.total (holdOf k)
  have same : holdOf k b = holdOf k a := by
    simp only [holdOf, revised_type revised, revised_source revised, revised_amount revised, kept]
  rw [same] at total
  unfold held
  omega

theorem books_dispatched (h : Books db) {a b : Transaction} {transactions : Table Transaction}
    (later : Later db { db with transactions := transactions })
    (row : Replaced id a b db.transactions transactions) (revised : Revised a b)
    (started : b.status ≠ .pending)
    (kept : (b.status = .pending ∨ b.status = .processing) ↔ (a.status = .pending ∨ a.status = .processing))
    (posted : Posted b (entriesOf id db.ledgerEntries)) :
    Books { db with transactions := transactions } := by
  refine books_revise h later row revised started (List.append_nil _).symm (by simp) ?_
    (balanced_none h rfl ?_)
  · rw [List.append_nil]
    exact posted
  · intro k
    simp only [bookBalance, held_dispatched k row revised kept]

theorem books_dispatch (h : Books db) (c : DispatchCommit id db ws) : Books (applyAll ws db) := by
  cases c with
  | dispatched a side code beside row status account =>
    have same := side_money beside db
    have books := books_same h same
    rw [← same.transactions] at row
    rw [applyAll_append]
    have withdrawal := (books.shaped id a row).payout account
    have bare := (books.posted id a row).unposted (by simp [status])
    have onward : ∀ b transactions, Replaced id a b (applyAll side db).transactions transactions →
        Revised a b → b.status = .processing →
        Later (applyAll side db) { applyAll side db with transactions := transactions } →
        Books { applyAll side db with transactions := transactions } := by
      intro b transactions moved revised processing later
      refine books_dispatched books later moved revised (by simp [processing]) ?_ ?_
      · simp [status, processing]
      · rw [bare]
        exact posted_nothing (Or.inr (by rw [revised_type revised, withdrawal])) (by simp [processing])
    have regular : ∀ w ∈ mark id .processing none :: (code.map (refer id)).toList, Regular w := by
      intro w mem
      simp only [List.mem_cons, Option.mem_toList, Option.map_eq_some_iff] at mem
      rcases mem with rfl | ⟨c, _, rfl⟩ <;> simp [mark, refer, Regular]
    have later := later_all regular (applyAll side db)
    cases code with
    | none => exact onward _ _ (replaced_update row _) rfl rfl later
    | some code =>
      exact onward _ _ (revised_twice row { status := some .processing }
        { providerReference := some code }) rfl rfl later
  | redispatched a side code beside row status account =>
    have same := side_money beside db
    have books := books_same h same
    rw [← same.transactions] at row
    rw [applyAll_append]
    have regular : ∀ w ∈ [refer id code], Regular w := by simp [refer, Regular]
    have posted := books.posted id a row
    exact books_dispatched books (later_all regular _)
      (replaced_update row (transactionEdit { providerReference := some code })) rfl status Iff.rfl
      ⟨posted.moved, posted.paid, posted.funded, posted.unposted⟩

theorem payout_type {a : Transaction} (h : Books db) (found : db.transactions.find? id = some a)
    (status : a.status = .processing) {walletId : Uuid} (source : a.sourceWalletId = some walletId) :
    a.type = .withdrawal := by
  have shape := h.shaped id a found
  have posted := h.posted id a found
  cases type : a.type with
  | withdrawal => rfl
  | funding => simp [shape.unsourced type] at source
  | transfer => simp [(posted.moved (Or.inl type)).1] at status
  | merchantPayment => simp [(posted.moved (Or.inr type)).1] at status
  | reversal => exact absurd type shape.kind

theorem held_settled {a b : Transaction} (k : Uuid) {transactions : Table Transaction}
    (row : Replaced id a b db.transactions transactions) (withdrawal : a.type = .withdrawal)
    (status : a.status = .processing) {walletId : Uuid} (source : a.sourceWalletId = some walletId)
    (final : b.status = .completed ∨ b.status = .failed) :
    held k transactions = held k db.transactions - if walletId = k then a.amount else 0 := by
  have total := row.total (holdOf k)
  have before : holdOf k a = if walletId = k then a.amount else 0 := by
    simp [holdOf, withdrawal, status, source]
  have after : holdOf k b = 0 := by
    unfold holdOf
    rw [if_neg]
    rintro ⟨_, unsettled | unsettled, _⟩ <;> rcases final with done | done <;> rw [done] at unsettled <;>
      cases unsettled
  rw [before, after] at total
  unfold held
  omega

theorem books_settle (h : Books db) (c : SettleCommit id db ws) : Books (applyAll ws db) := by
  have later := later_all (settle_regular c) db
  cases c with
  | paid a holder row status source found =>
    have key : a.id = id := (find?_some_iff.mp row).2
    subst key
    have withdrawal := payout_type h row status source
    have moved := replaced_update row (transactionEdit { status := some .completed })
    have bare := (h.posted a.id a row).unposted (by simp [status])
    refine books_revise h later moved rfl (by simp [TransactionUpdate.on]) rfl ?_ ?_
      (balanced_none h rfl ?_)
    · intro e mem
      rw [List.mem_singleton.mp mem]
      exact ⟨rfl, by simp [entryOf, found]⟩
    · rw [bare, List.nil_append]
      refine ⟨?_, ?_, ?_, fun unfinished => absurd rfl unfinished⟩
      · intro movement
        change a.type = .transfer ∨ a.type = .merchantPayment at movement
        simp [withdrawal] at movement
      · intro _ _
        exact ⟨holder.id, _, source, rfl, rfl, rfl, rfl, rfl⟩
      · intro funding
        change a.type = .funding at funding
        simp [withdrawal] at funding
    · intro k
      have holds := held_settled k moved withdrawal status source (Or.inl rfl)
      simp [bookBalance, applyWrite, mark, entryOf, holds]
      omega
  | refunded a holder reason row status source found _ =>
    have withdrawal := payout_type h row status source
    have moved := replaced_update row (transactionEdit
      { status := some .failed, failureReason := reason })
    have bare := (h.posted id a row).unposted (by simp [status])
    refine books_revise h later moved rfl (by simp [TransactionUpdate.on]) (List.append_nil _).symm
      (by simp) ?_ (balanced_one h found rfl ?_)
    · rw [bare]
      exact posted_nothing (Or.inr withdrawal) (by simp [TransactionUpdate.on])
    · intro k
      have holds := held_settled k moved withdrawal status source (Or.inr rfl)
      simp [bookBalance, applyWrite, mark, holds]
      split <;> omega

theorem bookBalance_absent (h : Books db) {k : Uuid} (absent : db.wallets.find? k = none) :
    bookBalance k db = 0 := by
  have unnamed : ∀ side, ledgerSum side k db.ledgerEntries = 0 := by
    intro side
    refine List.sum_eq_zero ?_
    intro x mem
    obtain ⟨e, inside, rfl⟩ := List.mem_map.mp mem
    refine if_neg ?_
    rintro ⟨same, _⟩
    have there := (h.entered e inside).2
    rw [same] at there
    exact there absent
  have unheld : held k db.transactions = 0 := by
    refine List.sum_eq_zero ?_
    intro x mem
    obtain ⟨a, inside, rfl⟩ := List.mem_map.mp mem
    refine if_neg ?_
    rintro ⟨_, _, source⟩
    exact h.sourced a.id a k (find?_some_iff.mpr ⟨inside, rfl⟩) source absent
  unfold bookBalance
  rw [unnamed, unnamed, unheld]
  rfl

theorem books_registration (h : Books db) (c : RegistrationCommit db ws) : Books (applyAll ws db) := by
  have later := later_all (registration_regular c) db
  cases c with
  | registered u w token empty free =>
    refine ⟨h.shaped, h.posted, ?_, ?_, ?_, later.solvent h.solvent⟩
    · intro k a walletId found source
      exact wallets_stay later (h.sourced k a walletId found source)
    · intro e mem
      exact ⟨(h.entered e mem).1, wallets_stay later (h.entered e mem).2⟩
    · intro k v found
      change (db.wallets.insert w).find? k = some v at found
      change v.balance = bookBalance k db
      rw [find?_insert free] at found
      split at found
      · rename_i same
        cases found
        rw [bookBalance_absent h (by rw [← same]; exact admits_key_free free), empty]
      · exact h.balanced k v found

end Kept

end PayCoreBooks
