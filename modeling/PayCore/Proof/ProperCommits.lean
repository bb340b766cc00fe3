import PayCore.Proof.KeptRecords

/- The commits of the endpoints, whatever else is committed in between and whichever statement
   fails: a whole movement of money, a whole registration, or writes that are in order one by one. -/
namespace PayCoreProperCommits
open KeyedTable SessionProgram RelyGuarantee PayCoreTables PayCoreWrites PayCorePersistence PayCoreCommits
open PayCoreBooks PayCoreForeignKeys PayCoreStatements PayCoreKeptRecords

/-- What a write needs beside the rows it refers to. -/
def Warranted (db : Database) : Write → Prop
  | .insertUser _ => False
  | .insertTransaction t => Righted db t ∧ ¬ moves t.type
  | .insertEntry e => Represents db e ∧
      ∀ t, db.transactions.find? e.transactionId = some t → ¬ moves t.type
  | .insertAuditLog l => Attested db l
  | _ => True

structure Fine (db : Database) (w : Write) : Prop where
  steady : Steady db w
  linked : ∀ k ∈ writeKeys w, Present db k
  warranted : Warranted db w

def registrationWrites (u : User) (wallet : Wallet) (token : RefreshToken) : List Write :=
  [.insertUser u, .insertWallet wallet, .insertRefreshToken token]

inductive ProperCommit (ws : List Write) (db : Database) : Prop where
  | moved (t : Transaction) (payer payee : Wallet) (shape : ws = movementWrites t payer payee)
      (kind : moves t.type) (right : Righted db t) (source : t.sourceWalletId = some payer.id)
      (destination : t.destinationWalletId = some payee.id) (there : Present db (.wallet payee.id))
      (free : db.transactions.admits t = true) (covered : t.amount ≤ payer.balance)
      (creditable : 0 ≤ payee.balance + t.amount)
  | registered (u : User) (wallet : Wallet) (token : RefreshToken)
      (shape : ws = registrationWrites u wallet token)
      (empty : wallet.balance = 0) (owner : wallet.userId = u.id) (holder : token.userId = u.id)
      (new : db.users.admits u = true) (free : db.wallets.admits wallet = true)
  | plain (h : ∀ w ∈ ws, Fine db w)

/-- What holds of every state that is committed. -/
structure Sound (db : Database) : Prop where
  solvent : Solvent db
  linked : Linked db
  righted : ∀ id t, db.transactions.find? id = some t → Righted db t
  accounted : ∀ e ∈ db.ledgerEntries, Represents db e
  doubled : ∀ id t, db.transactions.find? id = some t → moves t.type →
    Doubled t (entriesOf t.id db.ledgerEntries)
  attested : ∀ l ∈ db.auditLogs, Attested db l
  housed : ∀ u ∈ db.users.rows, ∃ w ∈ db.wallets.rows, w.userId = u.id

section Writes
variable {s t db : Database} {w : Write} {ws : List Write}

theorem warranted_kept (kept : Kept s t) (h : Warranted s w) : Warranted t w := by
  cases w with
  | insertUser u => exact h
  | insertTransaction a => exact ⟨righted_kept kept h.1, h.2⟩
  | insertAuditLog l => exact attested_kept kept h
  | insertEntry e =>
    refine ⟨accounted_kept kept h.1, ?_⟩
    intro b there moving
    obtain ⟨a, found, _⟩ := h.1
    obtain ⟨c, last, revised, _⟩ := kept.transactions _ a found
    rw [there] at last
    cases last
    rw [revised_type revised] at moving
    exact h.2 a found moving
  | _ => trivial

theorem fine_kept (kept : Kept s t) (h : Fine s w) : Fine t w where
  steady := steady_kept kept h.steady
  linked k mem := present_kept kept (h.linked k mem)
  warranted := warranted_kept kept h.warranted

theorem transactions_back (steady : Steady db w) {id : Uuid} {b : Transaction}
    (found : (applyWrite w db).transactions.find? id = some b) :
    (∃ a, db.transactions.find? id = some a ∧ Revised a b ∧ (moves a.type → b.status = a.status)) ∨
      (w = .insertTransaction b ∧ db.transactions.admits b = true) := by
  cases old : db.transactions.find? id with
  | some a =>
    obtain ⟨c, there, revised, _, settled⟩ := kept_transactions steady old
    rw [found] at there
    cases there
    exact .inl ⟨a, rfl, revised, settled⟩
  | none =>
    cases w with
    | insertTransaction t =>
      cases free : db.transactions.admits t with
      | false =>
        simp only [applyWrite, insert_refused free, old] at found
        cases found
      | true =>
        simp only [applyWrite, find?_insert free, old] at found
        split at found
        · cases found
          exact .inr ⟨rfl, free⟩
        · cases found
    | updateTransaction k set =>
      simp only [applyWrite, find?_update, old, Option.map_none, ite_self] at found
      cases found
    | account w =>
      rw [applyWrite, account_transactions, old] at found
      cases found
    | _ =>
      have same : db.transactions.find? id = some b := found
      rw [old] at same
      cases same

theorem users_back (warranted : Warranted db w) {u : User} (mem : u ∈ (applyWrite w db).users.rows) :
    ∃ a ∈ db.users.rows, a.id = u.id := by
  cases w with
  | insertUser v => exact warranted.elim
  | account w =>
    cases w with
    | updateUser id set =>
      obtain ⟨a, old, same⟩ := mem_update (t := db.users) mem
      refine ⟨a, old, ?_⟩
      rw [same]
      unfold editAt
      split <;> rfl
    | changePhone id held phone =>
      simp only [applyWrite, applyAccount, Table.revise] at mem
      split at mem
      · obtain ⟨a, old, same⟩ := List.mem_map.mp mem
        refine ⟨a, old, ?_⟩
        rw [← same]
        unfold rephone
        split <;> rfl
      · exact ⟨u, mem, rfl⟩
    | _ => exact ⟨u, mem, rfl⟩
  | _ => exact ⟨u, mem, rfl⟩

theorem housed_kept (kept : Kept s t) {u v : User} (same : u.id = v.id)
    (h : ∃ w ∈ s.wallets.rows, w.userId = u.id) : ∃ w ∈ t.wallets.rows, w.userId = v.id := by
  obtain ⟨w, mem, owner⟩ := h
  obtain ⟨x, found, moved⟩ := kept.later.wallets w.id w (find?_some_iff.mpr ⟨mem, rfl⟩)
  refine ⟨x, (find?_some_iff.mp found).1, ?_⟩
  rw [moved, ← same]
  exact owner

theorem linked_write (kept : Kept db (applyWrite w db)) (h : Linked db)
    (own : ∀ k ∈ writeKeys w, Present (applyWrite w db) k) : Linked (applyWrite w db) := by
  intro k mem
  rcases keys_write w db k mem with old | new
  · exact present_kept kept (h k old)
  · exact own k new

/-- An entry of a transaction that is no movement changes the entries of none that is. -/
theorem entries_beside (fine : Fine db w) {id : Uuid} {a : Transaction}
    (found : db.transactions.find? id = some a)
    (moving : moves a.type) :
    entriesOf a.id (applyWrite w db).ledgerEntries = entriesOf a.id db.ledgerEntries := by
  cases w with
  | insertEntry e =>
    have other : e.transactionId ≠ a.id := by
      intro same
      have own : a.id = id := (find?_some_iff.mp found).2
      rw [← own, ← same] at found
      exact fine.warranted.2 a found moving
    have none_added : entriesOf a.id [e] = [] := by
      simp [entriesOf, other]
    simp only [applyWrite, entriesOf_append, none_added, List.append_nil]
  | account w => rw [applyWrite, account_ledgerEntries]
  | _ => rfl

theorem sound_fine (h : Sound db) (fine : Fine db w) : Sound (applyWrite w db) := by
  have kept := kept_write fine.steady
  constructor
  · exact kept.later.solvent h.solvent
  · exact linked_write kept h.linked (fun k mem => present_kept kept (fine.linked k mem))
  · intro id b found
    rcases transactions_back fine.steady found with ⟨a, old, revised, settled⟩ | ⟨rfl, _⟩
    · exact righted_revised revised settled (righted_kept kept (h.righted id a old))
    · exact righted_kept kept fine.warranted.1
  · intro e mem
    rcases entries_back w mem with old | rfl
    · exact accounted_kept kept (h.accounted e old)
    · exact accounted_kept kept fine.warranted.1
  · intro id b found moving
    rcases transactions_back fine.steady found with ⟨a, old, revised, _⟩ | ⟨rfl, _⟩
    · rw [revised_type revised] at moving
      rw [revised_id revised, entries_beside fine old moving]
      exact doubled_revised revised (h.doubled id a old moving)
    · exact absurd moving fine.warranted.2
  · intro l mem
    rcases logs_back w mem with old | rfl
    · exact attested_kept kept (h.attested l old)
    · exact attested_kept kept fine.warranted
  · intro u mem
    obtain ⟨a, old, same⟩ := users_back fine.warranted mem
    exact housed_kept kept same (h.housed a old)

theorem sound_plain (h : Sound db) (fine : ∀ w ∈ ws, Fine db w) : Sound (applyAll ws db) := by
  induction ws generalizing db with
  | nil => exact h
  | cons w ws ih =>
    have first := fine w List.mem_cons_self
    apply ih (sound_fine h first)
    intro v mem
    exact fine_kept (kept_write first.steady) (fine v (List.mem_cons_of_mem w mem))

theorem keys_all : ∀ k ∈ foreignKeys (applyAll ws db), k ∈ foreignKeys db ∨
    ∃ w ∈ ws, k ∈ writeKeys w := by
  induction ws generalizing db with
  | nil =>
    intro k mem
    exact .inl mem
  | cons w ws ih =>
    intro k mem
    rcases ih k mem with before | ⟨v, among, own⟩
    · rcases keys_write w db k before with old | own
      · exact .inl old
      · exact .inr ⟨w, List.mem_cons_self, own⟩
    · exact .inr ⟨v, List.mem_cons_of_mem w among, own⟩

end Writes

section Movement
variable {db : Database} {t : Transaction} {payer payee : Wallet}

theorem movement_steady (covered : t.amount ≤ payer.balance) (creditable : 0 ≤ payee.balance + t.amount) :
    ∀ w ∈ movementWrites t payer payee, Steady db w := by
  simp [movementWrites, Steady, covered, creditable]

theorem movement_rows (free : db.transactions.admits t = true) {id : Uuid} {b : Transaction}
    (found : (applyAll (movementWrites t payer payee) db).transactions.find? id = some b) :
    b = t ∨ db.transactions.find? id = some b := by
  have rows : (db.transactions.insert t).find? id = some b := found
  rw [find?_insert free] at rows
  split at rows
  · cases rows
    exact .inl rfl
  · exact .inr rows

theorem movement_stored (free : db.transactions.admits t = true) :
    (applyAll (movementWrites t payer payee) db).transactions.find? t.id = some t := by
  have rows := find?_insert free t.id
  rwa [if_pos (transaction_key t)] at rows

theorem movement_entries : (applyAll (movementWrites t payer payee) db).ledgerEntries = db.ledgerEntries ++
    [entryOf t payer.id .debit t.amount (payer.balance - t.amount),
     entryOf t payee.id .credit t.amount (payee.balance + t.amount)] := by
  simp [movementWrites, applyWrite]

theorem wallet_user (linked : Linked db) {w : Wallet} (row : w ∈ db.wallets.rows) :
    Present db (.user w.userId) := by
  apply linked
  have own : .user w.userId ∈ db.wallets.rows.flatMap walletKeys :=
    List.mem_flatMap.mpr ⟨w, row, by simp [walletKeys]⟩
  simp only [foreignKeys, List.mem_append, own, true_or]

theorem owner_present (linked : Linked db) {id userId : Uuid} (own : Owned id userId db) :
    Present db (.user userId) := by
  obtain ⟨row, found, owner⟩ := own
  rw [← owner]
  exact wallet_user linked (find?_some_iff.mp found).1

theorem movement_linked {after : Database} (linked : Linked db)
    (kept : Kept db (applyAll (movementWrites t payer payee) db)) (right : Righted db t)
    (source : t.sourceWalletId = some payer.id) (destination : t.destinationWalletId = some payee.id)
    (there : Present db (.wallet payee.id)) (same : after = applyAll (movementWrites t payer payee) db)
    (stored : after.transactions.find? t.id = some t) : Linked after := by
  have own := (right.payer payer.id source).1
  rw [← same] at kept
  have initiator := present_kept kept (owner_present linked own)
  have paying := present_kept kept (owned_present own)
  have paid := present_kept kept there
  have transaction := row_present stored
  intro k mem
  rw [same] at mem
  rcases keys_all k mem with old | ⟨w, among, key⟩
  · exact present_kept kept (linked k old)
  simp only [movementWrites, List.mem_cons, List.not_mem_nil, or_false] at among
  rcases among with rfl | rfl | rfl | rfl | rfl
  · simp only [writeKeys, transactionKeys, source, destination, Option.map_some, Option.toList_some,
      List.cons_append, List.nil_append, List.mem_cons, List.not_mem_nil, or_false] at key
    rcases key with rfl | rfl | rfl
    · exact paying
    · exact paid
    · exact initiator
  · simp only [writeKeys, entryKeys, entryOf, List.mem_cons, List.not_mem_nil, or_false] at key
    rcases key with rfl | rfl
    · exact transaction
    · exact paying
  · simp only [writeKeys, entryKeys, entryOf, List.mem_cons, List.not_mem_nil, or_false] at key
    rcases key with rfl | rfl
    · exact transaction
    · exact paid
  · cases key
  · cases key

theorem sound_moved (h : Sound db) (kind : moves t.type) (right : Righted db t)
    (source : t.sourceWalletId = some payer.id) (destination : t.destinationWalletId = some payee.id)
    (there : Present db (.wallet payee.id)) (free : db.transactions.admits t = true)
    (covered : t.amount ≤ payer.balance) (creditable : 0 ≤ payee.balance + t.amount) :
    Sound (applyAll (movementWrites t payer payee) db) := by
  have kept : Kept db (applyAll (movementWrites t payer payee) db) :=
    kept_all (movement_steady covered creditable)
  have stored : (applyAll (movementWrites t payer payee) db).transactions.find? t.id = some t :=
    movement_stored free
  constructor
  · exact kept.later.solvent h.solvent
  · exact movement_linked h.linked kept right source destination there rfl stored
  · intro id b found
    rcases movement_rows free found with rfl | old
    · exact righted_kept kept right
    · exact righted_kept kept (h.righted id b old)
  · intro e mem
    rw [movement_entries, List.mem_append] at mem
    rcases mem with old | new
    · exact accounted_kept kept (h.accounted e old)
    · simp only [List.mem_cons, List.not_mem_nil, or_false] at new
      rcases new with rfl | rfl
      · exact ⟨t, stored, fun _ => ⟨source, rfl⟩, fun side => by cases side⟩
      · exact ⟨t, stored, (fun side => by cases side), fun _ => ⟨destination, fun _ => rfl⟩⟩
  · intro id b found moving
    have absent : db.transactions.find? t.id = none := (transaction_admits_iff.mp free).1
    rw [movement_entries, entriesOf_append]
    rcases movement_rows free found with rfl | old
    · have unposted : entriesOf b.id db.ledgerEntries = [] := by
        unfold entriesOf
        rw [List.filter_eq_nil_iff]
        intro e mem same
        obtain ⟨a, row, _⟩ := h.accounted e mem
        rw [beq_iff_eq.mp same, absent] at row
        cases row
      rw [unposted, List.nil_append, entriesOf_all (by simp [entryOf])]
      exact ⟨payer.id, payee.id, _, _, source, destination, rfl, ⟨rfl, rfl, rfl, rfl⟩,
        ⟨rfl, rfl, rfl, rfl⟩⟩
    · have other : b.id ≠ t.id := by
        intro same
        have key : b.id = id := (find?_some_iff.mp old).2
        rw [← key, same, absent] at old
        cases old
      have skipped : entriesOf b.id [entryOf t payer.id .debit t.amount (payer.balance - t.amount),
          entryOf t payee.id .credit t.amount (payee.balance + t.amount)] = [] :=
        entriesOf_none (by simp [entryOf]) other
      rw [skipped, List.append_nil]
      exact h.doubled id b old moving
  · intro l mem
    exact attested_kept kept (h.attested l mem)
  · intro u mem
    exact housed_kept kept rfl (h.housed u mem)

end Movement

section Registration
variable {db : Database} {u : User} {wallet : Wallet} {token : RefreshToken}

theorem registration_steady (empty : wallet.balance = 0) :
    ∀ w ∈ registrationWrites u wallet token, Steady db w := by
  simp [registrationWrites, Steady, empty]

theorem registration_users (new : db.users.admits u = true) :
    (applyAll (registrationWrites u wallet token) db).users.rows = db.users.rows ++ [u] := insert_rows new

theorem registration_present (new : db.users.admits u = true) :
    Present (applyAll (registrationWrites u wallet token) db) (.user u.id) :=
  ⟨u, by rw [registration_users new]; simp, rfl⟩

theorem sound_registered (h : Sound db) (empty : wallet.balance = 0) (owner : wallet.userId = u.id)
    (holder : token.userId = u.id) (new : db.users.admits u = true)
    (free : db.wallets.admits wallet = true) :
    Sound (applyAll (registrationWrites u wallet token) db) := by
  have kept : Kept db (applyAll (registrationWrites u wallet token) db) :=
    kept_all (registration_steady empty)
  have wallets : (applyAll (registrationWrites u wallet token) db).wallets.rows =
      db.wallets.rows ++ [wallet] := insert_rows free
  have there : Present (applyAll (registrationWrites u wallet token) db) (.user u.id) :=
    registration_present new
  constructor
  · exact kept.later.solvent h.solvent
  · intro k mem
    rcases keys_all k mem with old | ⟨w, among, key⟩
    · exact present_kept kept (h.linked k old)
    · simp only [registrationWrites, List.mem_cons, List.not_mem_nil, or_false] at among
      rcases among with rfl | rfl | rfl
      · cases key
      · simp only [writeKeys, walletKeys, owner, List.mem_singleton] at key
        rw [key]
        exact there
      · simp only [writeKeys, tokenKeys, holder, List.mem_singleton] at key
        rw [key]
        exact there
  · intro id b found
    exact righted_kept kept (h.righted id b found)
  · intro e mem
    exact accounted_kept kept (h.accounted e mem)
  · intro id b found moving
    exact h.doubled id b found moving
  · intro l mem
    exact attested_kept kept (h.attested l mem)
  · intro v mem
    rw [registration_users new, List.mem_append, List.mem_singleton] at mem
    rcases mem with old | rfl
    · exact housed_kept kept rfl (h.housed v old)
    · exact ⟨wallet, by rw [wallets]; simp, owner⟩

end Registration

section Commits
variable {db s t : Database} {ws : List Write} {held : Row → Prop}

theorem sound_commit (h : Sound db) (commit : ProperCommit ws db) : Sound (applyAll ws db) := by
  cases commit with
  | moved t payer payee shape kind right source destination there free covered creditable =>
    rw [shape]
    exact sound_moved h kind right source destination there free covered creditable
  | registered u wallet token shape empty owner holder new free =>
    rw [shape]
    exact sound_registered h empty owner holder new free
  | plain fine => exact sound_plain h fine

theorem commit_steady (commit : ProperCommit ws db) : ∀ w ∈ ws, Steady db w := by
  cases commit with
  | moved t payer payee shape _ _ _ _ _ _ covered creditable =>
    rw [shape]
    exact movement_steady covered creditable
  | registered u wallet token shape empty _ _ _ _ =>
    rw [shape]
    exact registration_steady empty
  | plain fine =>
    intro w mem
    exact (fine w mem).steady

theorem proper_env : Interference (Rely ProperCommit) :=
  interference_rely fun _ _ commit w mem => steady_regular (commit_steady commit w mem)

theorem sound_rely (rely : Rely ProperCommit held s t) (h : Sound s) : Sound t :=
  rely_keeps rely (fun _ _ commit sound => sound_commit sound commit) h

theorem kept_rely (rely : Rely ProperCommit held s t) : Kept s t := by
  induction rely with
  | refl => exact kept_refl _
  | step before commit _ ih => exact kept_trans ih (kept_all (commit_steady commit))

end Commits

end PayCoreProperCommits
