import PayCore.Proof.Commits

/- What each commit of a status writer does to the transactions. -/
namespace PayCoreStatusMoves
open KeyedTable SessionProgram PayCoreTables PayCoreWrites PayCorePersistence PayCoreCommits

/-- A commit takes the transaction `id` from one status to another and no other transaction
   anywhere. -/
structure StatusMove (id : Uuid) (old new : TransactionStatus) (s t : Database) : Prop where
  before : ∃ row, s.transactions.find? id = some row ∧ row.status = old
  after : ∃ row, t.transactions.find? id = some row ∧ row.status = new
  others : ∀ k, k ≠ id → t.transactions.find? k = s.transactions.find? k

theorem find?_on {transactions : Table Transaction} {id : Uuid} {row : Transaction}
    (found : transactions.find? id = some row) (set : TransactionUpdate) :
    (transactions.update id (transactionEdit set)).find? id = some (set.on row) := by
  rw [find?_update, if_pos rfl, found]
  rfl

theorem find?_off {transactions : Table Transaction} {id k : Uuid} (other : k ≠ id)
    (set : TransactionUpdate) :
    (transactions.update id (transactionEdit set)).find? k = transactions.find? k :=
  find?_update_other (Ne.symm other)

section Moves
variable {db : Database} {ws : List Write} {id : Uuid}

theorem charge_move (h : ChargeCommit id db ws) :
    StatusMove id .pending .completed db (applyAll ws db) := by
  cases h with
  | credited t wallet amount row status _ _ _ =>
    have key : t.id = id := (find?_some_iff.mp row).2
    subst key
    refine ⟨⟨t, row, status⟩, ⟨_, find?_on (find?_on row _) _, rfl⟩, ?_⟩
    intro k other
    exact (find?_off other _).trans (find?_off other _)

theorem start_move (h : StartCommit id db ws) :
    StatusMove id .pending .processing db (applyAll ws db) := by
  cases h with
  | started t row status =>
    exact ⟨⟨t, row, status⟩, ⟨_, find?_on row _, rfl⟩, fun k other => find?_off other _⟩

theorem abandon_move (h : AbandonCommit id db ws) :
    StatusMove id .pending .failed db (applyAll ws db) := by
  cases h with
  | abandoned t reason row status =>
    refine ⟨⟨t, row, status⟩, ⟨_, find?_on (find?_on row _) _, rfl⟩, ?_⟩
    intro k other
    exact (find?_off other _).trans (find?_off other _)

theorem dispatch_move (h : DispatchCommit id db ws) : ∃ old new,
    (old = .pending ∧ new = .processing ∨ old = new ∧ old ≠ .pending) ∧
    StatusMove id old new db (applyAll ws db) := by
  cases h with
  | dispatched t side code beside row status account =>
    have start := (side_money beside db).transactions
    rw [← start] at row
    refine ⟨.pending, .processing, Or.inl ⟨rfl, rfl⟩, ⟨t, by rw [← start]; exact row, status⟩, ?_, ?_⟩
    · rw [applyAll_append]
      cases code with
      | none => exact ⟨_, find?_on row _, rfl⟩
      | some code => exact ⟨_, find?_on (find?_on row _) _, rfl⟩
    · intro k other
      rw [applyAll_append, ← start]
      cases code with
      | none => exact find?_off other _
      | some code => exact (find?_off other _).trans (find?_off other _)
  | redispatched t side code beside row status account =>
    have start := (side_money beside db).transactions
    rw [← start] at row
    refine ⟨t.status, t.status, Or.inr ⟨rfl, status⟩, ⟨t, by rw [← start]; exact row, rfl⟩, ?_, ?_⟩
    · rw [applyAll_append]
      exact ⟨_, find?_on row _, rfl⟩
    · intro k other
      rw [applyAll_append, ← start]
      exact find?_off other _

theorem settle_move (h : SettleCommit id db ws) : ∃ new, (new = .completed ∨ new = .failed) ∧
    StatusMove id .processing new db (applyAll ws db) := by
  cases h with
  | paid t wallet row status _ _ =>
    exact ⟨.completed, Or.inl rfl, ⟨t, row, status⟩, ⟨_, find?_on row _, rfl⟩,
      fun k other => find?_off other _⟩
  | refunded t wallet reason row status _ _ _ =>
    exact ⟨.failed, Or.inr rfl, ⟨t, row, status⟩, ⟨_, find?_on row _, rfl⟩,
      fun k other => find?_off other _⟩

end Moves

/-- The entries a commit posts for a transaction, and the balances it sets where it
   changes that transaction. -/
def postsEntry (type : EntryType) (id : Uuid) : Write → Bool
  | .insertEntry e => e.transactionId == id && e.entryType == type
  | _ => false

def setsBalance : Write → Bool
  | .setBalance _ _ => true
  | _ => false

def updates (id : Uuid) : Write → Bool
  | .updateTransaction k _ => k == id
  | _ => false

def entries (type : EntryType) (id : Uuid) (ws : List Write) : Nat := ws.countP (postsEntry type id)

def balanceWrites (id : Uuid) (ws : List Write) : Nat :=
  if ws.any (updates id) then ws.countP setsBalance else 0

theorem side_entries {ws : List Write} (side : Side ws) (type : EntryType) (id : Uuid) :
    ws.countP (postsEntry type id) = 0 := by
  rw [List.countP_eq_zero]
  intro w mem
  have aside := side w mem
  cases w <;> simp_all [sideWrite, postsEntry]

theorem side_balances {ws : List Write} (side : Side ws) : ws.countP setsBalance = 0 := by
  rw [List.countP_eq_zero]
  intro w mem
  have aside := side w mem
  cases w <;> simp_all [sideWrite, setsBalance]

section Counts
variable {db : Database} {ws : List Write} {id : Uuid} (k : Uuid)

theorem none_balanced {ws : List Write} (none_set : ws.countP setsBalance = 0) :
    balanceWrites k ws = 0 := by
  simp [balanceWrites, none_set]

theorem charge_counts (h : ChargeCommit id db ws) : entries .debit k ws = 0 ∧
    ((entries .credit k ws = 0 ∧ balanceWrites k ws = 0) ∨
      (k = id ∧ entries .credit k ws = 1 ∧ balanceWrites k ws = 1)) := by
  cases h with
  | credited t wallet amount row _ _ _ _ =>
    have key : t.id = id := (find?_some_iff.mp row).2
    by_cases mine : k = id
    · refine ⟨by simp [entries, creditWrites, mark, entryOf, postsEntry], Or.inr ⟨mine, ?_, ?_⟩⟩
      · simp [entries, creditWrites, mark, entryOf, postsEntry, key, mine]
      · simp [balanceWrites, creditWrites, mark, updates, setsBalance, List.countP_cons, key, mine]
    · have other : id ≠ k := Ne.symm mine
      refine ⟨by simp [entries, creditWrites, mark, entryOf, postsEntry], Or.inl ⟨?_, ?_⟩⟩
      · simp [entries, creditWrites, mark, entryOf, postsEntry, key, other]
      · simp [balanceWrites, creditWrites, mark, updates, key, other]

theorem start_counts (h : StartCommit id db ws) (type : EntryType) :
    entries type k ws = 0 ∧ balanceWrites k ws = 0 := by
  cases h
  exact ⟨rfl, none_balanced k rfl⟩

theorem abandon_counts (h : AbandonCommit id db ws) (type : EntryType) :
    entries type k ws = 0 ∧ balanceWrites k ws = 0 := by
  cases h
  exact ⟨rfl, none_balanced k rfl⟩

theorem dispatch_counts (h : DispatchCommit id db ws) (type : EntryType) :
    entries type k ws = 0 ∧ balanceWrites k ws = 0 := by
  cases h with
  | dispatched t side code beside =>
    constructor
    · cases code <;>
        simp [entries, List.countP_append, side_entries beside, mark, refer, postsEntry]
    · refine none_balanced k ?_
      cases code <;> simp [List.countP_append, side_balances beside, mark, refer, setsBalance]
  | redispatched t side code beside =>
    constructor
    · simp [entries, List.countP_append, side_entries beside, refer, postsEntry]
    · refine none_balanced k ?_
      simp [List.countP_append, side_balances beside, refer, setsBalance]

theorem settle_counts (h : SettleCommit id db ws) :
    (entries .debit k ws = 0 ∧ balanceWrites k ws = 0) ∨
      (k = id ∧ entries .debit k ws + balanceWrites k ws = 1) := by
  cases h with
  | paid t wallet row _ _ _ =>
    have key : t.id = id := (find?_some_iff.mp row).2
    have unbalanced : balanceWrites k [.insertEntry (entryOf t wallet.id .debit t.amount wallet.balance),
        mark id .completed none] = 0 := none_balanced k rfl
    by_cases mine : k = id
    · refine Or.inr ⟨mine, ?_⟩
      rw [unbalanced]
      simp [entries, mark, entryOf, postsEntry, key, mine]
    · have other : id ≠ k := Ne.symm mine
      refine Or.inl ⟨?_, unbalanced⟩
      simp [entries, mark, entryOf, postsEntry, key, other]
  | refunded t wallet reason _ _ _ _ _ =>
    by_cases mine : k = id
    · refine Or.inr ⟨mine, ?_⟩
      simp [entries, balanceWrites, mark, postsEntry, updates, setsBalance, List.countP_cons, mine]
    · have other : id ≠ k := Ne.symm mine
      refine Or.inl ⟨rfl, ?_⟩
      simp [balanceWrites, mark, updates, other]

end Counts

end PayCoreStatusMoves
