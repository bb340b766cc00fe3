import PayCore.Library.RelyGuarantee
import PayCore.Model.Writes

/- What survives everything the application writes: no row is ever removed, only
   status, failure reason and provider reference of a transaction change, only the
   balance of a wallet changes, accounts and merchants keep the columns they are found
   by, and nothing returns to PENDING. -/
namespace PayCorePersistence
open KeyedTable SessionProgram RelyGuarantee PayCoreTables PayCoreWrites

def Revised (a b : Transaction) : Prop :=
  b = { a with
    status := b.status
    failureReason := b.failureReason
    providerReference := b.providerReference }

def Rebalanced (a b : Wallet) : Prop := b = { a with balance := b.balance }

theorem revised_refl (a : Transaction) : Revised a a := rfl

theorem revised_id {a b : Transaction} (h : Revised a b) : b.id = a.id := by rw [h]

theorem revised_type {a b : Transaction} (h : Revised a b) : b.type = a.type := by rw [h]

theorem revised_amount {a b : Transaction} (h : Revised a b) : b.amount = a.amount := by rw [h]

theorem revised_currency {a b : Transaction} (h : Revised a b) : b.currency = a.currency := by rw [h]

theorem revised_source {a b : Transaction} (h : Revised a b) :
    b.sourceWalletId = a.sourceWalletId := by rw [h]

theorem revised_destination {a b : Transaction} (h : Revised a b) :
    b.destinationWalletId = a.destinationWalletId := by rw [h]

theorem revised_extra {a b : Transaction} (h : Revised a b) : b.extraData = a.extraData := by rw [h]

theorem revised_on (set : TransactionUpdate) (a : Transaction) : Revised a (set.on a) := rfl

theorem revised_trans {a b c : Transaction} (left : Revised a b) (right : Revised b c) :
    Revised a c := by
  unfold Revised at left right ⊢
  rw [right, left]

theorem revised_symm {a b : Transaction} (h : Revised a b) : Revised b a := by
  unfold Revised at h ⊢
  rw [h]

theorem rebalanced_trans {a b c : Wallet} (left : Rebalanced a b) (right : Rebalanced b c) :
    Rebalanced a c := by
  unfold Rebalanced at left right ⊢
  rw [right, left]

def Solvent (db : Database) : Prop := ∀ w ∈ db.wallets.rows, 0 ≤ w.balance

structure Later (s t : Database) : Prop where
  users : ∀ a ∈ s.users.rows, ∃ b ∈ t.users.rows, b.id = a.id ∧ b.email = a.email
  merchants : ∀ a ∈ s.merchants.rows, ∃ b ∈ t.merchants.rows, b.id = a.id ∧ b.userId = a.userId
  transactions : ∀ id a, s.transactions.find? id = some a →
    ∃ b, t.transactions.find? id = some b ∧ Revised a b ∧
      (a.status ≠ .pending → b.status ≠ .pending)
  wallets : ∀ id a, s.wallets.find? id = some a →
    ∃ b, t.wallets.find? id = some b ∧ Rebalanced a b
  solvent : Solvent s → Solvent t

theorem later_refl (s : Database) : Later s s where
  users a mem := ⟨a, mem, rfl, rfl⟩
  merchants a mem := ⟨a, mem, rfl, rfl⟩
  transactions _ a found := ⟨a, found, rfl, id⟩
  wallets _ a found := ⟨a, found, rfl⟩
  solvent := id

theorem later_trans {s t u : Database} (left : Later s t) (right : Later t u) : Later s u where
  users a mem := by
    obtain ⟨b, there, id, email⟩ := left.users a mem
    obtain ⟨c, last, id', email'⟩ := right.users b there
    exact ⟨c, last, id'.trans id, email'.trans email⟩
  merchants a mem := by
    obtain ⟨b, there, id, owner⟩ := left.merchants a mem
    obtain ⟨c, last, id', owner'⟩ := right.merchants b there
    exact ⟨c, last, id'.trans id, owner'.trans owner⟩
  transactions id a found := by
    obtain ⟨b, there, revised, started⟩ := left.transactions id a found
    obtain ⟨c, last, again, more⟩ := right.transactions id b there
    exact ⟨c, last, revised_trans revised again, fun h => more (started h)⟩
  wallets id a found := by
    obtain ⟨b, there, moved⟩ := left.wallets id a found
    obtain ⟨c, last, again⟩ := right.wallets id b there
    exact ⟨c, last, rebalanced_trans moved again⟩
  solvent h := right.solvent (left.solvent h)

/-- The writes the application issues: the CHECK on balances has passed, and no
   transition leads back to PENDING. -/
def Regular : Write → Prop
  | .insertWallet w => 0 ≤ w.balance
  | .setBalance _ b => 0 ≤ b
  | .updateTransaction _ set => set.status ≠ some .pending
  | _ => True

theorem mem_insert {ρ κ : Type} [Keyed ρ κ] {t : Table ρ} {a r : ρ} (mem : a ∈ t.rows) :
    a ∈ (t.insert r).rows := by
  cases free : t.admits r with
  | false =>
    rw [insert_refused free]
    exact mem
  | true =>
    rw [insert_rows free]
    exact List.mem_append_left _ mem

theorem find?_insert_kept {ρ κ : Type} [Keyed ρ κ] [DecidableEq κ] {t : Table ρ} {r a : ρ} {k : κ}
    (found : t.find? k = some a) : (t.insert r).find? k = some a := by
  cases free : t.admits r with
  | false => rw [insert_refused free, found]
  | true =>
    rw [find?_insert free, if_neg, found]
    intro same
    rw [← same, admits_key_free free] at found
    cases found

theorem later_insertWallet {w : Wallet} (regular : 0 ≤ w.balance) (db : Database) :
    Later db (applyWrite (.insertWallet w) db) where
  users a mem := ⟨a, mem, rfl, rfl⟩
  merchants a mem := ⟨a, mem, rfl, rfl⟩
  transactions _ a found := ⟨a, found, rfl, id⟩
  wallets _ a found := ⟨a, find?_insert_kept found, rfl⟩
  solvent h v mem := by
    cases free : db.wallets.admits w with
    | false =>
      simp only [applyWrite, insert_refused free] at mem
      exact h v mem
    | true =>
      simp only [applyWrite, insert_rows free, List.mem_append, List.mem_singleton] at mem
      rcases mem with old | new
      · exact h v old
      · rw [new]
        exact regular

theorem later_setBalance {b : Int} (regular : 0 ≤ b) (id : Uuid) (db : Database) :
    Later db (applyWrite (.setBalance id b) db) where
  users a mem := ⟨a, mem, rfl, rfl⟩
  merchants a mem := ⟨a, mem, rfl, rfl⟩
  transactions _ a found := ⟨a, found, rfl, fun h => h⟩
  wallets k a found := by
    simp only [applyWrite, find?_update, found]
    split
    · exact ⟨_, rfl, rfl⟩
    · exact ⟨a, rfl, rfl⟩
  solvent h v mem := by
    obtain ⟨a, old, same⟩ := mem_update mem
    rw [same]
    unfold editAt
    split
    · exact regular
    · exact h a old

theorem later_insertTransaction (t : Transaction) (db : Database) :
    Later db (applyWrite (.insertTransaction t) db) where
  users a mem := ⟨a, mem, rfl, rfl⟩
  merchants a mem := ⟨a, mem, rfl, rfl⟩
  transactions _ a found := ⟨a, find?_insert_kept found, rfl, id⟩
  wallets _ a found := ⟨a, found, rfl⟩
  solvent h := h

theorem later_updateTransaction {set : TransactionUpdate} (regular : set.status ≠ some .pending)
    (id : Uuid) (db : Database) : Later db (applyWrite (.updateTransaction id set) db) where
  users a mem := ⟨a, mem, rfl, rfl⟩
  merchants a mem := ⟨a, mem, rfl, rfl⟩
  transactions k a found := by
    simp only [applyWrite, find?_update, found]
    split
    · refine ⟨set.on a, rfl, revised_on set a, ?_⟩
      intro started
      cases status : set.status with
      | none => simpa [TransactionUpdate.on, status] using started
      | some s => simpa [TransactionUpdate.on, status] using regular
    · exact ⟨a, rfl, rfl, fun h => h⟩
  wallets _ a found := ⟨a, found, rfl⟩
  solvent h := h

theorem later_insertUser (u : User) (db : Database) : Later db (applyWrite (.insertUser u) db) where
  users a mem := ⟨a, mem_insert mem, rfl, rfl⟩
  merchants a mem := ⟨a, mem, rfl, rfl⟩
  transactions _ a found := ⟨a, found, rfl, id⟩
  wallets _ a found := ⟨a, found, rfl⟩
  solvent h := h

theorem later_account (w : AccountWrite) (db : Database) : Later db (applyWrite (.account w) db) := by
  constructor
  · intro a mem
    cases w with
    | updateUser id set =>
      refine ⟨_, kept_update mem, ?_, ?_⟩
      · unfold editAt
        split <;> rfl
      · unfold editAt
        split <;> rfl
    | changePhone id held phone =>
      rcases kept_revise mem with same | changed
      · exact ⟨a, same, rfl, rfl⟩
      · refine ⟨_, changed, ?_, ?_⟩
        · unfold rephone
          split <;> rfl
        · unfold rephone
          split <;> rfl
    | _ => exact ⟨a, mem, rfl, rfl⟩
  · intro a mem
    cases w with
    | insertMerchant m => exact ⟨a, mem_insert mem, rfl, rfl⟩
    | updateMerchant id set =>
      refine ⟨_, kept_update mem, ?_, ?_⟩
      · unfold editAt
        split <;> rfl
      · unfold editAt
        split <;> rfl
    | _ => exact ⟨a, mem, rfl, rfl⟩
  · intro id a found
    exact ⟨a, by rw [applyWrite, account_transactions]; exact found, rfl, fun same => same⟩
  · intro id a found
    exact ⟨a, by rw [applyWrite, account_wallets]; exact found, rfl⟩
  · intro solvent
    unfold Solvent
    rw [applyWrite, account_wallets]
    exact solvent

theorem later_write {w : Write} (regular : Regular w) (db : Database) :
    Later db (applyWrite w db) := by
  have elsewhere : ∀ t : Database, t.users = db.users → t.merchants = db.merchants →
      t.transactions = db.transactions → t.wallets = db.wallets → Later db t := by
    intro t users merchants transactions wallets
    constructor
    · intro a mem
      exact ⟨a, by rw [users]; exact mem, rfl, rfl⟩
    · intro a mem
      exact ⟨a, by rw [merchants]; exact mem, rfl, rfl⟩
    · intro _ a found
      exact ⟨a, by rw [transactions]; exact found, rfl, id⟩
    · intro _ a found
      exact ⟨a, by rw [wallets]; exact found, rfl⟩
    · unfold Solvent
      rw [wallets]
      exact id
  cases w with
  | insertUser u => exact later_insertUser u db
  | insertWallet w => exact later_insertWallet regular db
  | setBalance id b => exact later_setBalance regular id db
  | insertTransaction t => exact later_insertTransaction t db
  | updateTransaction id set => exact later_updateTransaction regular id db
  | insertEntry e => exact elsewhere _ rfl rfl rfl rfl
  | setRecipientCode id code => exact elsewhere _ rfl rfl rfl rfl
  | insertRefreshToken t => exact elsewhere _ rfl rfl rfl rfl
  | insertDelivery d => exact elsewhere _ rfl rfl rfl rfl
  | updateDelivery id set => exact elsewhere _ rfl rfl rfl rfl
  | insertAuditLog l => exact elsewhere _ rfl rfl rfl rfl
  | account w => exact later_account w db

theorem later_all {ws : List Write} (regular : ∀ w ∈ ws, Regular w) (db : Database) :
    Later db (applyAll ws db) := by
  induction ws generalizing db with
  | nil => exact later_refl db
  | cons w ws ih =>
    exact later_trans (later_write (regular w (by simp)) db)
      (ih (fun v mem => regular v (by simp [mem])) _)

def Stored (t : Transaction) (db : Database) : Prop :=
  ∃ row, db.transactions.find? t.id = some row ∧ Revised t row

theorem stored_later {t : Transaction} {a b : Database} (later : Later a b) (h : Stored t a) :
    Stored t b := by
  obtain ⟨row, found, revised⟩ := h
  obtain ⟨next, found', more, _⟩ := later.transactions _ row found
  exact ⟨next, found', revised_trans revised more⟩

/-- What a session may count on while it waits: locked rows stand still, and the rest
   only moves forward. -/
structure Interference (R : (Row → Prop) → Database → Database → Prop) : Prop where
  refl : ∀ held s, R held s s
  trans : ∀ {held s t u}, R held s t → R held t u → R held s u
  weaken : ∀ {held less s t}, R held s t → (∀ r, less r → held r) → R less s t
  frame : ∀ {held s t} r, R held s t → held r → Same r s t
  later : ∀ {held s t}, R held s t → Later s t

theorem Interference.forget {R : (Row → Prop) → Database → Database → Prop} (env : Interference R)
    {held : Row → Prop} {s t : Database} (rely : R held s t) : R Nothing s t :=
  env.weaken rely (fun _ none => none.elim)

theorem interference_rely {G : List Write → Database → Prop}
    (regular : ∀ ws db, G ws db → ∀ w ∈ ws, Regular w) : Interference (Rely G) where
  refl _ s := .refl s
  trans := rely_trans
  weaken := rely_weaken
  frame _ rely mine := rely_frame rely mine
  later rely := by
    induction rely with
    | refl => exact later_refl _
    | step before ok spares ih => exact later_trans ih (later_all (regular _ _ ok) _)

def Alone (_ : Row → Prop) (s t : Database) : Prop := t = s

theorem interference_alone : Interference Alone where
  refl _ _ := rfl
  trans left right := Eq.trans right left
  weaken same _ := same
  frame r same _ := by
    rw [same]
    exact Store.same_refl (ω := Write) r _
  later same := by
    rw [same]
    exact later_refl _

section Locks
variable {s t : Database}

theorem any_iff {ρ : Type} {rows : List ρ} {p : ρ → Bool} {q : ρ → Prop}
    (same : ∀ a, p a = true ↔ q a) :
    rows.any p = false ↔ ∀ a ∈ rows, ¬ q a := by
  simp only [List.any_eq_false]
  constructor
  · intro h a mem hq
    exact h a mem ((same a).mpr hq)
  · intro h a mem hp
    exact h a mem ((same a).mp hp)

/-- Whether a transaction can be stored hangs on the entries its INSERT locks. -/
theorem transaction_admits_iff {db : Database} {t : Transaction} :
    db.transactions.admits t = true ↔
      db.transactions.find? t.id = none ∧
      db.transactions.rows.any (·.reference == t.reference) = false ∧
      ∀ k, t.idempotencyKey = some k →
        db.transactions.rows.any (·.idempotencyKey == some k) = false := by
  rw [admits_iff, find?_none_iff, any_iff (q := fun a => a.reference = t.reference) (by simp)]
  constructor
  · intro h
    refine ⟨?_, ?_, ?_⟩
    · intro a mem same
      have := h a mem
      simp [clash, show a.id = t.id from same] at this
    · intro a mem same
      have := h a mem
      simp [clash, same] at this
    · intro k has
      rw [any_iff (q := fun a => a.idempotencyKey = some k) (by simp)]
      intro a mem same
      have := h a mem
      simp [clash, has, same, sharesSome] at this
  · rintro ⟨ids, references, keys⟩ a mem
    have apart : sharesSome a.idempotencyKey t.idempotencyKey = false := by
      by_contra shared
      obtain ⟨k, ha, ht⟩ := sharesSome_iff.mp (by simpa using shared)
      exact (any_iff (q := fun a => a.idempotencyKey = some k) (by simp)).mp (keys k ht) a mem ha
    have id : a.id ≠ t.id := ids a mem
    simp [clash, id, references a mem, apart]

theorem wallet_admits_iff {db : Database} {w : Wallet} :
    db.wallets.admits w = true ↔
      db.wallets.find? w.id = none ∧ db.wallets.rows.any (·.userId == w.userId) = false := by
  rw [admits_iff, find?_none_iff, any_iff (q := fun a => a.userId = w.userId) (by simp)]
  constructor
  · intro h
    constructor
    · intro a mem same
      have := h a mem
      simp [clash, show a.id = w.id from same] at this
    · intro a mem same
      have := h a mem
      simp [clash, same] at this
  · rintro ⟨ids, owners⟩ a mem
    have id : a.id ≠ w.id := ids a mem
    simp [clash, id, owners a mem]

theorem transaction_admits_kept {a : Transaction}
    (same : ∀ r ∈ writeTargets (.insertTransaction a), Same r s t)
    (free : s.transactions.admits a = true) : t.transactions.admits a = true := by
  obtain ⟨ids, references, keys⟩ := transaction_admits_iff.mp free
  refine transaction_admits_iff.mpr ⟨?_, ?_, ?_⟩
  · have id : s.transactions.find? a.id = t.transactions.find? a.id :=
      same (.transaction a.id) (by simp [writeTargets])
    rw [← id, ids]
  · have reference := same (.reference a.reference) (by simp [writeTargets])
    simp only [Same] at reference
    rw [← reference, references]
  · intro k has
    have key := same (.idempotencyKey k) (by simp [writeTargets, has])
    simp only [Same] at key
    rw [← key, keys k has]

theorem wallet_admits_kept {w : Wallet}
    (same : ∀ r ∈ writeTargets (.insertWallet w), Same r s t)
    (free : s.wallets.admits w = true) : t.wallets.admits w = true := by
  obtain ⟨ids, owners⟩ := wallet_admits_iff.mp free
  refine wallet_admits_iff.mpr ⟨?_, ?_⟩
  · have id : s.wallets.find? w.id = t.wallets.find? w.id :=
      same (.wallet w.id) (by simp [writeTargets])
    rw [← id, ids]
  · have owner := same (.walletOwner w.userId) (by simp [writeTargets])
    simp only [Same] at owner
    rw [← owner, owners]

end Locks

end PayCorePersistence
