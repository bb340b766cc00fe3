import PayCore.Proof.Commits
import PayCore.Service.Support

/- One rule for each statement of the repositories: what a session knows after it,
   whatever the other sessions commit meanwhile. -/
namespace PayCoreStatements
open KeyedTable SessionProgram SessionSystem RelyGuarantee PayCoreTables PayCoreWrites PayCoreSessions
open PayCoreRepositories PayCoreSupport PayCorePersistence PayCoreCommits

abbrev Window := View Database IdentityMap Write Row

/-- A session that locks a wallet it has loaded before holds the balance of the row. -/
def FreshWallets (s : Database) (m : IdentityMap) (rows : List Row) (_ : List Write) : Prop :=
  ∀ id row wallet, .wallet id ∈ rows → s.wallets.find? id = some row →
    m.wallets id = some wallet → wallet.balance = row.balance

/-- A session that sets a status holds the status of the row it overwrites. -/
def FreshTransactions (s : Database) (m : IdentityMap) (_ : List Row) (adds : List Write) : Prop :=
  ∀ id set row txn, .updateTransaction id set ∈ adds → set.status ≠ none →
    s.transactions.find? id = some row → m.transactions id = some txn → txn.status = row.status

def walletFresh (s : Database) (m : IdentityMap) : Row → Bool
  | .wallet id =>
    match s.wallets.find? id, m.wallets id with
    | some row, some wallet => wallet.balance == row.balance
    | _, _ => true
  | _ => true

theorem freshWallets_iff {s : Database} {m : IdentityMap} {rows : List Row} {adds : List Write} :
    rows.all (walletFresh s m) = true ↔ FreshWallets s m rows adds := by
  rw [List.all_eq_true]
  constructor
  · intro h id row wallet mem found loaded
    simpa [walletFresh, found, loaded] using h _ mem
  · intro h r mem
    cases r with
    | wallet id =>
      cases found : s.wallets.find? id with
      | none => simp [walletFresh, found]
      | some row =>
        cases loaded : m.wallets id with
        | none => simp [walletFresh, found, loaded]
        | some wallet => simpa [walletFresh, found, loaded] using h id row wallet mem found loaded
    | _ => rfl

instance (s : Database) (m : IdentityMap) (rows : List Row) (adds : List Write) :
    Decidable (FreshWallets s m rows adds) :=
  decidable_of_iff _ freshWallets_iff

def transactionFresh (s : Database) (m : IdentityMap) : Write → Bool
  | .updateTransaction id set =>
    match set.status, s.transactions.find? id, m.transactions id with
    | some _, some row, some txn => txn.status == row.status
    | _, _, _ => true
  | _ => true

theorem freshTransactions_iff {s : Database} {m : IdentityMap} {rows : List Row} {adds : List Write} :
    adds.all (transactionFresh s m) = true ↔ FreshTransactions s m rows adds := by
  rw [List.all_eq_true]
  constructor
  · intro h id set row txn mem sets found loaded
    obtain ⟨status, has⟩ := Option.ne_none_iff_exists'.mp sets
    simpa [transactionFresh, has, found, loaded] using h _ mem
  · intro h w mem
    cases w with
    | updateTransaction id set =>
      cases has : set.status with
      | none => simp [transactionFresh, has]
      | some status =>
        cases found : s.transactions.find? id with
        | none => simp [transactionFresh, has, found]
        | some row =>
          cases loaded : m.transactions id with
          | none => simp [transactionFresh, has, found, loaded]
          | some txn =>
            simpa [transactionFresh, has, found, loaded] using
              h id set row txn mem (by simp [has]) found loaded
    | _ => rfl

instance (s : Database) (m : IdentityMap) (rows : List Row) (adds : List Write) :
    Decidable (FreshTransactions s m rows adds) :=
  decidable_of_iff _ freshTransactions_iff

@[simp] theorem keepWallet_transactions (m : IdentityMap) (w : Wallet) :
    (m.keepWallet w).transactions = m.transactions := rfl

@[simp] theorem keepTransaction_wallets (m : IdentityMap) (t : Transaction) :
    (m.keepTransaction t).wallets = m.wallets := rfl

@[simp] theorem keepTransaction_self (m : IdentityMap) (t : Transaction) :
    (m.keepTransaction t).transactions t.id = some t := by
  simp [IdentityMap.keepTransaction]

@[simp] theorem default_wallets (id : Uuid) : (default : IdentityMap).wallets id = none := rfl

@[simp] theorem default_transactions (id : Uuid) : (default : IdentityMap).transactions id = none := rfl

theorem wallet_unloaded {m : IdentityMap} {row : Wallet} (unloaded : m.wallets row.id = none) :
    m.wallet row = row := by
  simp [IdentityMap.wallet, unloaded]

theorem transaction_unloaded {m : IdentityMap} {row : Transaction}
    (unloaded : m.transactions row.id = none) : m.transaction row = row := by
  simp [IdentityMap.transaction, unloaded]

variable {R : (Row → Prop) → Database → Database → Prop} {G : List Write → Database → Prop}
  {F : Database → IdentityMap → List Row → List Write → Prop} {α : Type} {v u : Window}

/-- `u` is a later moment of the session at `v`, in one database transaction. -/
structure Goes (R : (Row → Prop) → Database → Database → Prop) (v u : Window) : Prop where
  keeps : ∀ r, v.held r → u.held r
  same : ∀ r, v.held r → Same r v.db u.db
  steady : R v.held v.db u.db
  rely : R Nothing v.db u.db
  later : Later v.db u.db

theorem goes_refl (env : Interference R) (v : Window) : Goes R v v where
  keeps _ h := h
  same r _ := Store.same_refl (ω := Write) r v.db
  steady := env.refl v.held v.db
  rely := env.refl Nothing v.db
  later := later_refl v.db

theorem goes_trans (env : Interference R) {w : Window} (left : Goes R v u) (right : Goes R u w) :
    Goes R v w where
  keeps r h := right.keeps r (left.keeps r h)
  same r h := Store.same_trans (ω := Write) (left.same r h) (right.same r (left.keeps r h))
  steady := env.trans left.steady (env.weaken right.steady left.keeps)
  rely := env.trans left.rely right.rely
  later := later_trans left.later right.later

theorem goes_rely (env : Interference R) {db : Database} {held : Row → Prop} {pending : List Write}
    {memory : IdentityMap} (rely : R v.held v.db db) (more : ∀ r, v.held r → held r) :
    Goes R v ⟨db, pending, memory, held⟩ where
  keeps := more
  same r h := env.frame r rely h
  steady := rely
  rely := env.forget rely
  later := env.later rely

theorem orRaise_wp {β : Type} {value : Option β} {error : AppError} {f : β → Tx α}
    {Q : Post Database IdentityMap Write Row AppError α}
    (missing : value = none → Q (.error error) v)
    (found : ∀ b, value = some b → wp R G F (f b) Q v) :
    wp R G F (orRaise value error >>= f) Q v := by
  refine seq_wp ?_
  cases value with
  | none => exact missing rfl
  | some b => exact found b rfl

theorem require_wp {condition : Bool} {error : AppError} {f : Unit → Tx α}
    {Q : Post Database IdentityMap Write Row AppError α}
    (refused : condition = false → Q (.error error) v)
    (passed : condition = true → wp R G F (f ()) Q v) :
    wp R G F (require condition error >>= f) Q v := by
  refine seq_wp ?_
  cases condition with
  | false => exact refused rfl
  | true => exact passed rfl

section Rules
variable (env : Interference R)
include env

theorem stmt_wp {rows : List Row} {writes : Database → IdentityMap → List Write}
    {memo : Database → IdentityMap → IdentityMap} {next : Database → IdentityMap → Tx α}
    {fault : Tx α} {Q : Post Database IdentityMap Write Row AppError α}
    (failed : ∀ u, Goes R v u → u.pending = [] → u.memory = v.memory → wp R G F fault Q u)
    (moves : ∀ (u : Window) (seen : Database) (adds : List Write), Goes R v u →
      seen = applyAll v.pending u.db → adds = writes seen v.memory → F seen v.memory rows adds →
      (∀ r ∈ needed rows adds, u.held r) → u.pending = v.pending ++ adds →
      u.memory = memo seen v.memory → wp R G F (next seen v.memory) Q u) :
    wp R G F (.stmt rows writes memo next fault) Q v := by
  intro db rely
  constructor
  · exact failed _ (goes_rely env rely (fun _ h => h)) rfl rfl
  · intro fresh
    refine moves _ _ _ (goes_rely env rely (fun _ h => Or.inl h)) rfl rfl fresh ?_ rfl rfl
    intro r mem
    exact Or.inr mem

theorem query_wp {f : Database → α} {Q : Post Database IdentityMap Write Row AppError α}
    (failed : ∀ u, Q (.error .database) u)
    (next : ∀ u, Goes R v u → u.pending = v.pending → u.memory = v.memory →
      Q (.ok (f (applyAll v.pending u.db))) u) :
    wp R G F (query f) Q v := by
  refine stmt_wp env (fun u _ _ _ => failed u) ?_
  intro u seen adds goes sees none_added _ _ pending memory
  subst sees none_added
  exact next u goes (by simpa using pending) memory

theorem commit_wp {Q : Post Database IdentityMap Write Row AppError Unit}
    (failed : ∀ u, R Nothing v.db u.db → u.pending = [] → Q (.error .database) u)
    (good : ∀ u, Goes R v u → u.pending = v.pending → u.memory = v.memory → G u.pending u.db)
    (next : ∀ u w, Goes R v u → G v.pending u.db → w.db = applyAll v.pending u.db →
      w.pending = [] → w.memory = v.memory → Q (.ok ()) w) :
    wp R G F commit Q v := by
  intro db rely
  have goes : Goes R v { v with db := db } := goes_rely env rely (fun _ h => h)
  have fits := good _ goes rfl rfl
  exact ⟨fits, next _ _ goes fits rfl rfl rfl, failed _ (env.forget rely) rfl⟩

theorem rollback_wp {Q : Post Database IdentityMap Write Row AppError Unit}
    (next : ∀ u, R Nothing v.db u.db → Later v.db u.db → u.pending = [] → u.memory = default →
      Q (.ok ()) u) :
    wp R G F rollback Q v := by
  intro db rely
  exact next _ (env.forget rely) (env.later rely) rfl rfl

theorem call_wp {request : Request} {next : PaystackData → Tx α} {fault : Tx α}
    {Q : Post Database IdentityMap Write Row AppError α}
    (failed : ∀ u, Goes R v u → u.pending = v.pending → u.memory = v.memory → wp R G F fault Q u)
    (moves : ∀ u r, Goes R v u → u.pending = v.pending → u.memory = v.memory →
      wp R G F (next r) Q u) :
    wp R G F (.call request next fault) Q v := by
  intro db rely
  have goes : Goes R v { v with db := db } := goes_rely env rely (fun _ h => h)
  exact ⟨fun r => moves _ r goes rfl rfl, failed _ goes rfl rfl⟩

theorem paystack_wp {request : Request} {Q : Post Database IdentityMap Write Row AppError PaystackData}
    (failed : ∀ u, Q (.error (.externalService "Paystack")) u)
    (done : ∀ u data, Goes R v u → u.pending = v.pending → u.memory = v.memory → Q (.ok data) u) :
    wp R G F (paystack request) Q v :=
  call_wp env (fun u _ _ _ => failed u) done

end Rules

section Wallets
variable (env : Interference R)
include env

theorem selectWallet_wp {rows : List Row} {pick : Database → Option Wallet}
    {Q : Post Database IdentityMap Write Row AppError (Option Wallet)}
    (failed : ∀ u, Q (.error .database) u)
    (missing : ∀ u, Goes R v u → u.pending = v.pending → u.memory = v.memory →
      pick (applyAll v.pending u.db) = none → Q (.ok none) u)
    (found : ∀ u row, Goes R v u → u.pending = v.pending →
      u.memory = v.memory.keepWallet (v.memory.wallet row) → (∀ r ∈ rows, u.held r) →
      F (applyAll v.pending u.db) v.memory rows [] → pick (applyAll v.pending u.db) = some row →
      Q (.ok (some (v.memory.wallet row))) u) :
    wp R G F (WalletRepository.select rows pick) Q v := by
  refine stmt_wp env (fun u _ _ _ => failed u) ?_
  intro u seen adds goes sees none_added fresh held pending memory
  subst sees none_added
  have pending : u.pending = v.pending := by simpa using pending
  cases picked : pick (applyAll v.pending u.db) with
  | none =>
    simp only [picked] at memory
    exact missing u goes pending memory picked
  | some row =>
    simp only [picked] at memory
    exact found u row goes pending memory (fun r mem => held r (by simp [needed, mem])) fresh picked

def Owned (id userId : Uuid) (db : Database) : Prop :=
  ∃ row, db.wallets.find? id = some row ∧ row.userId = userId

omit env in
theorem owned_later {s t : Database} {id userId : Uuid} (later : Later s t) (h : Owned id userId s) :
    Owned id userId t := by
  obtain ⟨row, found, owner⟩ := h
  obtain ⟨row', found', same⟩ := later.wallets id row found
  refine ⟨row', found', ?_⟩
  rw [same]
  exact owner

omit env in
theorem owned_unique {db : Database} {a b userId : Uuid} (ha : Owned a userId db)
    (hb : Owned b userId db) : a = b := by
  obtain ⟨v, foundV, ownsV⟩ := ha
  obtain ⟨w, foundW, ownsW⟩ := hb
  obtain ⟨memV, keyV⟩ := find?_some_iff.mp foundV
  obtain ⟨memW, keyW⟩ := find?_some_iff.mp foundW
  have same := same_row_of_clash memV memW (by simp [clash, ownsV, ownsW])
  rw [← keyV, ← keyW, same]

omit env in
theorem owned_frame {s t : Database} {a userId : Uuid} (same : Same (.wallet a) s t)
    (h : Owned a userId s) : Owned a userId t := by
  obtain ⟨w, found, owns⟩ := h
  simp only [Same] at same
  exact ⟨w, by rw [← same]; exact found, owns⟩

omit env in
theorem owned_apart {db : Database} {a b userId other : Uuid} (ha : Owned a userId db)
    (hb : Owned b other db) (apart : userId ≠ other) : a ≠ b := by
  obtain ⟨row, found, owner⟩ := ha
  obtain ⟨row', found', owner'⟩ := hb
  intro same
  rw [same, found'] at found
  cases found
  exact apart (owner.symm.trans owner')

/-- The session holds the lock of the row, and the object has its balance. -/
structure Locked (id : Uuid) (w : Wallet) (u : Window) : Prop where
  held : u.held (.wallet id)
  key : w.id = id
  row : ∃ row, u.db.wallets.find? id = some row ∧ row.balance = w.balance

omit env in
theorem locked_goes {id : Uuid} {w : Wallet} (goes : Goes R v u) (h : Locked id w v) :
    Locked id w u where
  held := goes.keeps _ h.held
  key := h.key
  row := by
    obtain ⟨row, found, balance⟩ := h.row
    have same : v.db.wallets.find? id = u.db.wallets.find? id := goes.same _ h.held
    exact ⟨row, same ▸ found, balance⟩

omit env in
theorem locked_row {id : Uuid} {w : Wallet} (locked : Locked id w u) :
    ∃ row, u.db.wallets.find? row.id = some row ∧ row.id = w.id ∧ row.balance = w.balance := by
  obtain ⟨row, found, balance⟩ := locked.row
  have key : row.id = id := (find?_some_iff.mp found).2
  refine ⟨row, ?_, ?_, balance⟩
  · rw [key]
    exact found
  · rw [key, locked.key]

omit env in
theorem locked_solvent {id : Uuid} {w : Wallet} (locked : Locked id w u) (solvent : Solvent u.db) :
    0 ≤ w.balance := by
  obtain ⟨row, found, balance⟩ := locked.row
  rw [← balance]
  exact solvent row (find?_some_iff.mp found).1

theorem lockForUpdate_wp {id : Uuid} {Q : Post Database IdentityMap Write Row AppError (Option Wallet)}
    (still : ∀ db, (applyAll v.pending db).wallets = db.wallets)
    (current : ∀ s row w, F s v.memory [.wallet id] [] → s.wallets.find? id = some row →
      v.memory.wallets id = some w → w.balance = row.balance)
    (failed : ∀ u, Q (.error .database) u)
    (done : ∀ u found, Goes R v u → u.pending = v.pending →
      u.memory.transactions = v.memory.transactions → (∀ w, found = some w → Locked id w u) →
      (found = none → WalletRepository.byId id u.db = none) → Q (.ok found) u) :
    wp R G F (WalletRepository.lockForUpdate id) Q v := by
  refine selectWallet_wp env failed ?_ ?_
  · intro u goes pending memory picked
    unfold WalletRepository.byId at picked
    rw [still] at picked
    exact done u none goes pending (by rw [memory]) (by simp) (fun _ => picked)
  · intro u row goes pending memory held fresh picked
    simp only [WalletRepository.byId, Option.filter_eq_some_iff] at picked
    have key : row.id = id := (find?_some_iff.mp picked.1).2
    refine done u _ goes pending (by rw [memory]; rfl) ?_ (by simp)
    rintro w ⟨rfl⟩
    refine ⟨held _ (by simp), ?_, row, ?_, ?_⟩
    · rw [wallet_id, key]
    · rw [← still u.db]
      exact picked.1
    · unfold IdentityMap.wallet
      rw [key]
      cases loaded : v.memory.wallets id with
      | none => rfl
      | some w => exact (current _ row w fresh picked.1 loaded).symm

theorem updateBalance_wp {wallet : Wallet} {newBalance : Int}
    {Q : Post Database IdentityMap Write Row AppError Wallet} (failed : ∀ u, Q (.error .database) u)
    (refused : ∀ u, Goes R v u → u.pending = v.pending → newBalance < 0 →
      Q (.error (.integrity .walletsBalanceNonNegative)) u)
    (moved : ∀ u w, Goes R v u → u.pending = v.pending ++ [.setBalance wallet.id newBalance] →
      u.memory.transactions = v.memory.transactions → WalletRepository.storable newBalance →
      Q (.ok w) u) :
    wp R G F (WalletRepository.updateBalance wallet newBalance) Q v := by
  refine stmt_wp env (fun u _ _ _ => failed u) ?_
  intro u seen adds goes _ added _ _ pending memory
  by_cases fits : WalletRepository.storable newBalance
  · simp only [if_pos fits] at added memory ⊢
    refine moved u _ goes ?_ ?_ fits
    · rw [pending, added]
    · rw [memory]
      rfl
  · simp only [if_neg fits] at added memory ⊢
    by_cases typed : newBalance.natAbs < 10 ^ 20
    · simp only [if_pos typed]
      have overdrawn : newBalance < 0 := by
        unfold WalletRepository.storable at fits
        omega
      refine refused u goes ?_ overdrawn
      simpa [added] using pending
    · simp only [if_neg typed]
      exact failed u

end Wallets

section Transactions
variable (env : Interference R)
include env

theorem selectTransaction_wp {pick : Database → Except AppError (Option Transaction)}
    {Q : Post Database IdentityMap Write Row AppError (Option Transaction)}
    (failed : ∀ u x, Goes R v u → (x = .database ∨ pick (applyAll v.pending u.db) = .error x) →
      Q (.error x) u)
    (missing : ∀ u, Goes R v u → u.pending = v.pending → u.memory = v.memory →
      pick (applyAll v.pending u.db) = .ok none → Q (.ok none) u)
    (found : ∀ u row, Goes R v u → u.pending = v.pending →
      u.memory = v.memory.keepTransaction (v.memory.transaction row) →
      F (applyAll v.pending u.db) v.memory [] [] → pick (applyAll v.pending u.db) = .ok (some row) →
      Q (.ok (some (v.memory.transaction row))) u) :
    wp R G F (TransactionRepository.select pick) Q v := by
  refine stmt_wp env (fun u goes _ _ => failed u _ goes (Or.inl rfl)) ?_
  intro u seen adds goes sees none_added fresh _ pending memory
  subst sees none_added
  have pending : u.pending = v.pending := by simpa using pending
  cases picked : pick (applyAll v.pending u.db) with
  | error x => exact failed u x goes (Or.inr picked)
  | ok row =>
    simp only [picked] at memory
    cases row with
    | none => exact missing u goes pending memory picked
    | some row => exact found u row goes pending memory fresh picked

/-- The entries the INSERT of `t` needs are locked and free. -/
structure Reserved (t : Transaction) (u : Window) : Prop where
  held : ∀ r ∈ writeTargets (.insertTransaction t), u.held r
  free : u.db.transactions.admits t = true

omit env in
theorem reserved_goes {t : Transaction} (goes : Goes R v u) (h : Reserved t v) : Reserved t u where
  held r mem := goes.keeps r (h.held r mem)
  free := transaction_admits_kept (fun r mem => goes.same r (h.held r mem)) h.free

theorem createTransaction_wp {t : Transaction}
    {Q : Post Database IdentityMap Write Row AppError Transaction}
    (bare : v.pending = []) (failed : ∀ u, Q (.error .database) u)
    (refused : ∀ u c, Goes R v u → u.pending = [] → c ≠ .walletsBalanceNonNegative →
      Q (.error (.integrity c)) u)
    (created : ∀ u memory, Goes R v u → u.pending = [.insertTransaction t] → Reserved t u →
      F u.db memory [] [.insertTransaction t] → Q (.ok t) u) :
    wp R G F (TransactionRepository.create t) Q v := by
  unfold TransactionRepository.create
  split
  swap
  · exact failed v
  refine stmt_wp env (fun u _ _ _ => failed u) ?_
  intro u seen adds goes sees added meets held pending _
  rw [bare, applyAll_nil] at sees
  subst sees
  by_cases free : u.db.transactions.admits t = true
  · simp only [free, if_true] at added ⊢
    refine created u _ goes (by simp [pending, bare, added]) ⟨?_, free⟩ (added ▸ meets)
    intro r mem
    refine held r ?_
    rw [added]
    simp only [needed, List.nil_append, touched_cons, touched_nil, List.append_nil]
    exact mem
  · simp only [free] at added ⊢
    refine refused u _ goes (by simp [pending, bare, added]) ?_
    unfold TransactionRepository.violated
    split <;> [simp; split <;> simp]

theorem createEntry_wp {e : LedgerEntry} {Q : Post Database IdentityMap Write Row AppError LedgerEntry}
    (failed : ∀ u, Q (.error .database) u)
    (created : ∀ u, Goes R v u → u.pending = v.pending ++ [.insertEntry e] → u.memory = v.memory →
      Q (.ok e) u) :
    wp R G F (LedgerRepository.createEntry e) Q v := by
  refine stmt_wp env (fun u _ _ _ => failed u) ?_
  intro u seen adds goes _ added _ _ pending memory
  exact created u goes (by rw [pending, added]) memory

theorem flush_wp {txn : Transaction} {set : TransactionUpdate}
    {Q : Post Database IdentityMap Write Row AppError Transaction} (failed : ∀ u, Q (.error .database) u)
    (moved : ∀ u t, Goes R v u → u.held (.transaction txn.id) →
      u.pending = v.pending ++ [.updateTransaction txn.id set] →
      t = set.on (((applyAll v.pending u.db).transactions.find? txn.id).getD txn) →
      u.memory = v.memory.keepTransaction t →
      F (applyAll v.pending u.db) v.memory [.transaction txn.id] [.updateTransaction txn.id set] →
      Q (.ok t) u) :
    wp R G F (TransactionRepository.flush txn set) Q v := by
  refine stmt_wp env (fun u _ _ _ => failed u) ?_
  intro u seen adds goes sees added fresh held pending memory
  subst sees added
  exact moved u _ goes (held _ (by simp [needed])) pending rfl memory fresh

/-- The session has read the row of `t`, which has only moved forward since. -/
structure Read (t : Transaction) (u : Window) : Prop where
  loaded : u.memory.transactions t.id = some t
  row : ∃ row, u.db.transactions.find? t.id = some row ∧ Revised t row ∧
    (t.status ≠ .pending → row.status ≠ .pending)

omit env in
theorem read_goes {t : Transaction} (goes : Goes R v u)
    (memory : u.memory.transactions = v.memory.transactions) (h : Read t v) : Read t u where
  loaded := by
    rw [memory]
    exact h.loaded
  row := by
    obtain ⟨row, found, revised, started⟩ := h.row
    obtain ⟨row', found', again, more⟩ := goes.later.transactions _ row found
    exact ⟨row', found', revised_trans revised again, fun h => more (started h)⟩

/-- The session holds the lock of the row of `t`, which still has status `s`. -/
structure Marked (s : TransactionStatus) (t : Transaction) (u : Window) : Prop where
  held : u.held (.transaction t.id)
  row : ∃ row, u.db.transactions.find? t.id = some row ∧ Revised t row ∧ row.status = s

omit env in
theorem marked_goes {s : TransactionStatus} {t : Transaction} (goes : Goes R v u)
    (h : Marked s t v) : Marked s t u where
  held := goes.keeps _ h.held
  row := by
    have same : v.db.transactions.find? t.id = u.db.transactions.find? t.id :=
      goes.same _ h.held
    rw [← same]
    exact h.row

theorem selectFresh_wp {pick : Database → Except AppError (Option Transaction)}
    {Q : Post Database IdentityMap Write Row AppError (Option Transaction)}
    (bare : v.pending = []) (blank : v.memory = default)
    (keyed : ∀ db row, pick db = .ok (some row) → db.transactions.find? row.id = some row)
    (failed : ∀ u x, Q (.error x) u)
    (missing : ∀ u, Goes R v u → u.pending = [] → u.memory = default → pick u.db = .ok none →
      Q (.ok none) u)
    (found : ∀ u row, Goes R v u → u.pending = [] → (∀ id, u.memory.wallets id = none) →
      Read row u → F u.db default [] [] → pick u.db = .ok (some row) →
      Q (.ok (some row)) u) :
    wp R G F (TransactionRepository.select pick) Q v := by
  refine selectTransaction_wp env (fun u x _ _ => failed u x) ?_ ?_
  · intro u goes pending memory picked
    rw [bare, applyAll_nil] at picked
    exact missing u goes (pending.trans bare) (memory.trans blank) picked
  · intro u row goes pending memory fresh picked
    rw [bare, applyAll_nil] at picked
    rw [bare, applyAll_nil, blank] at fresh
    have unread : v.memory.transaction row = row := transaction_unloaded (by simp [blank])
    have there := keyed _ _ picked
    rw [unread] at memory ⊢
    refine found u row goes (pending.trans bare) ?_ ⟨?_, row, there, rfl, fun h => h⟩ fresh picked
    · simp [memory, blank]
    · simp [memory]

theorem updateStatus_wp {txn : Transaction} {newStatus : TransactionStatus} {reason : Option String}
    {Q : Post Database IdentityMap Write Row AppError Transaction}
    (valid : newStatus ∈ validTransitions txn.status) (failed : ∀ u, Q (.error .database) u)
    (moved : ∀ u t, Goes R v u → u.pending = v.pending ++ [mark txn.id newStatus reason] →
      Q (.ok t) u) :
    wp R G F (TransactionRepository.updateStatus txn newStatus reason) Q v := by
  unfold TransactionRepository.updateStatus
  rw [if_pos valid]
  refine flush_wp env failed ?_
  intro u t goes _ pending _ _ _
  exact moved u t goes pending

/-- The first UPDATE of a row the session has read. -/
theorem startStatus_wp {txn : Transaction} {newStatus : TransactionStatus} {reason : Option String}
    {Q : Post Database IdentityMap Write Row AppError Transaction}
    (still : ∀ db, (applyAll v.pending db).transactions = db.transactions)
    (current : ∀ s m rows adds, F s m rows adds → FreshTransactions s m rows adds)
    (read : Read txn v) (valid : newStatus ∈ validTransitions txn.status)
    (failed : ∀ u, Q (.error .database) u)
    (moved : ∀ u t, Goes R v u → u.pending = v.pending ++ [mark txn.id newStatus reason] →
      u.memory.wallets = v.memory.wallets → Marked txn.status txn u → Revised txn t →
      t.status = newStatus → u.memory.transactions t.id = some t → Q (.ok t) u) :
    wp R G F (TransactionRepository.updateStatus txn newStatus reason) Q v := by
  unfold TransactionRepository.updateStatus
  rw [if_pos valid]
  refine flush_wp env failed ?_
  intro u t goes held pending refreshed memory fresh
  obtain ⟨row, found, revised, _⟩ := read.row
  obtain ⟨row', found', again, _⟩ := goes.later.transactions _ row found
  rw [still, found', Option.getD_some] at refreshed
  have whole : Revised txn row' := revised_trans revised again
  have agrees : txn.status = row'.status := by
    refine current _ _ _ _ fresh txn.id
      { status := some newStatus, failureReason := reason } row' txn (by simp) (by simp) ?_ read.loaded
    rw [still]
    exact found'
  refine moved u t goes pending (by rw [memory]; rfl) ⟨held, row', found', whole, agrees.symm⟩ ?_ ?_ ?_
  · rw [refreshed]
    exact revised_trans whole (revised_on _ row')
  · rw [refreshed]
    rfl
  · rw [memory]
    exact keepTransaction_self _ t

end Transactions

structure Persists (R : (Row → Prop) → Database → Database → Prop) (D : Database → Prop) : Prop where
  rely : ∀ {s t}, R Nothing s t → D s → D t
  side : ∀ {ws s}, Side ws → D s → D (applyAll ws s)

theorem persists_true : Persists R (fun _ => True) where
  rely _ _ := trivial
  side _ _ := trivial

/-- What only grows is kept by everybody. -/
theorem persists_later (env : Interference R) {D : Database → Prop}
    (grows : ∀ {s t}, Later s t → D s → D t) : Persists R D where
  rely r h := grows (env.later r) h
  side aside h := grows (later_all (side_regular aside) _) h

section Tails
variable (env : Interference R) (sides : ∀ ws db, Side ws → G ws db)
include env sides

theorem auditLog_wp {entry : AuditLog} {D : Database → Prop}
    {Q : Post Database IdentityMap Write Row AppError Unit} (lasts : Persists R D)
    (bare : v.pending = []) (holds : D v.db)
    (done : ∀ u, u.pending = [] → D u.db → Q (.ok ()) u) :
    wp R G F (auditLog entry) Q v := by
  have recover : ∀ w : Window, D w.db → wp R G F rollback Q w := by
    intro w before
    exact rollback_wp env (fun u rely _ pending _ => done u pending (lasts.rely rely before))
  have side : Side [.insertAuditLog entry] := by simp [Side, sideWrite]
  unfold auditLog
  rw [wp_handle, wp_seq]
  refine stmt_wp env ?_ ?_
  · intro u goes _ _
    exact recover u (lasts.rely goes.rely holds)
  · intro u seen adds goes _ added _ _ pending _
    have here := lasts.rely goes.rely holds
    rw [bare, added, List.nil_append] at pending
    refine commit_wp env ?_ ?_ ?_
    · intro w rely _
      exact recover w (lasts.rely rely here)
    · intro w _ same _
      rw [same, pending]
      exact sides _ _ side
    · intro w x more _ after bare' _
      refine done x bare' ?_
      rw [after, pending]
      exact lasts.side side (lasts.rely more.rely here)

theorem auditThen_wp {entry : AuditLog} {a : α} {D : Database → Prop}
    {Q : Post Database IdentityMap Write Row AppError α} (lasts : Persists R D)
    (bare : v.pending = []) (holds : D v.db) (done : ∀ u, D u.db → Q (.ok a) u) :
    wp R G F (do auditLog entry; pure a) Q v :=
  seq_wp (auditLog_wp env sides lasts bare holds (fun u _ => done u))

end Tails

end PayCoreStatements
