import PayCore.Proof.BankAccountRules

/- What withdrawals, their payouts and the events of their transfers commit, whatever fails,
   and the bank accounts that the active withdrawals name after it. -/
namespace PayCorePayoutAccountRules
open KeyedTable SessionProgram LoneSessions PayCoreTables PayCoreWrites PayCoreSessions PayCoreRepositories
open PayCoreSupport PayCoreWithdrawals PayCorePersistence PayCoreRegularity PayCoreLoneRules
open PayCoreBankAccountRules

def active (t : Transaction) : Prop := t.type = .withdrawal ∧ (t.status = .pending ∨ t.status = .processing)

/-- The withdrawal names a live bank account of its initiator. -/
def Routed (t : Transaction) (db : Database) : Prop :=
  ∃ id a, t.extraData.bind (·.bankAccountId) = some id ∧ BankAccountRepository.byId id db = some a ∧
    a.userId = t.initiatedByUserId

def AllRouted (db : Database) : Prop := ∀ t ∈ db.transactions.rows, active t → Routed t db

/-- What payouts and events write, in a session that started from `db`. -/
def Tame (db : Database) : Write → Prop
  | .setBalance _ _ => True
  | .insertEntry _ => True
  | .insertAuditLog _ => True
  | .setRecipientCode _ _ => True
  | .updateTransaction id set => ∀ status, set.status = some status →
      status = .completed ∨ status = .failed ∨ ∃ t, db.transactions.find? id = some t ∧ t.status = .pending
  | _ => False

inductive RouteCommit (ws : List Write) (db : Database) : Prop where
  | account (h : AccountCommit ws db)
  | held (t : Transaction) (a : BankAccount) (named : t.extraData.bind (·.bankAccountId) = some a.id)
      (found : BankAccountRepository.byId a.id db = some a) (own : a.userId = t.initiatedByUserId)
      (walletId : Uuid) (balance : Int) (both : ws = [.insertTransaction t, .setBalance walletId balance])
  | handled (all : ∀ w ∈ ws, Tame db w)

section Commits
variable {db s : Database} {t : Transaction} {a : BankAccount}

theorem active_iff : isActiveWithdrawal t.initiatedByUserId t = true ↔ active t := by
  simp [isActiveWithdrawal, active]

theorem byId_iff {id : Uuid} : BankAccountRepository.byId id db = some a ↔
    db.bankAccounts.find? id = some a ∧ isLive a := by
  simp [BankAccountRepository.byId, Option.filter_eq_some_iff, isLive]

def Housed (db s : Database) : Prop :=
  ∀ id a, BankAccountRepository.byId id db = some a →
    ∃ b, BankAccountRepository.byId id s = some b ∧ b.userId = a.userId

theorem housed_refl (db : Database) : Housed db db := fun _ a found => ⟨a, found, rfl⟩

theorem housed_trans {u : Database} (left : Housed db s) (right : Housed s u) : Housed db u := by
  intro id a found
  obtain ⟨b, there, same⟩ := left id a found
  obtain ⟨c, final, also⟩ := right id b there
  exact ⟨c, final, also.trans same⟩

theorem housed_same (same : s.bankAccounts = db.bankAccounts) : Housed db s := by
  intro id a found
  refine ⟨a, ?_, rfl⟩
  unfold BankAccountRepository.byId at found ⊢
  rw [same]
  exact found

theorem routed_housed (housed : Housed db s) (routed : Routed t db) : Routed t s := by
  obtain ⟨id, a, named, found, own⟩ := routed
  obtain ⟨b, there, same⟩ := housed id a found
  exact ⟨id, b, named, there, same.trans own⟩

/-- Each row was there before, with the account it names, and is active only if it was. -/
def Echoes (db s : Database) : Prop :=
  ∀ t ∈ s.transactions.rows, ∃ u ∈ db.transactions.rows, u.id = t.id ∧ t.type = u.type ∧
    t.extraData = u.extraData ∧ t.initiatedByUserId = u.initiatedByUserId ∧ (active t → active u)

theorem echoes_same (same : s.transactions = db.transactions) : Echoes db s := by
  intro t mem
  rw [same] at mem
  exact ⟨t, mem, rfl, rfl, rfl, rfl, fun h => h⟩

theorem routed_echoes (h : AllRouted db) (housed : Housed db s) (echoes : Echoes db s) : AllRouted s := by
  intro t mem act
  obtain ⟨u, old, _, _, extra, owner, was⟩ := echoes t mem
  obtain ⟨id, a, named, found, own⟩ := routed_housed housed (h u old (was act))
  exact ⟨id, a, by rw [extra]; exact named, found, by rw [owner]; exact own⟩

theorem housed_tame {w : Write} (tame : Tame db w) : Housed s (applyWrite w s) := by
  cases w with
  | setRecipientCode id code =>
    intro k a found
    obtain ⟨stored, lives⟩ := byId_iff.mp found
    by_cases here : id = k
    · refine ⟨(recipientEdit code).on a, byId_iff.mpr ⟨?_, lives⟩, rfl⟩
      change (s.bankAccounts.update id (recipientEdit code)).find? k = _
      rw [find?_update, if_pos here, stored]
      rfl
    · refine ⟨a, byId_iff.mpr ⟨?_, lives⟩, rfl⟩
      change (s.bankAccounts.update id (recipientEdit code)).find? k = _
      rw [find?_update, if_neg here, stored]
  | setBalance | insertEntry | insertAuditLog | updateTransaction => exact housed_same rfl
  | _ => exact tame.elim

theorem echoes_tame {w : Write} (tame : Tame db w) (echoes : Echoes db s) : Echoes db (applyWrite w s) := by
  cases w with
  | updateTransaction id set =>
    intro t mem
    obtain ⟨u, among, rfl⟩ := mem_update mem
    obtain ⟨v, old, same, kind, extra, owner, was⟩ := echoes u among
    by_cases here : key u = id
    · have changed : editAt id (transactionEdit set) u = set.on u := if_pos here
      rw [changed]
      refine ⟨v, old, same, kind, extra, owner, ?_⟩
      intro act
      cases status : set.status with
      | none =>
        apply was
        simpa [active, TransactionUpdate.on, status] using act
      | some final =>
        rcases tame final status with rfl | rfl | ⟨t, found, pending⟩
        · simp [active, TransactionUpdate.on, status] at act
        · simp [active, TransactionUpdate.on, status] at act
        · have stored : db.transactions.find? id = some v := find?_some_iff.mpr ⟨old, same.trans here⟩
          rw [stored] at found
          cases found
          exact ⟨kind.symm.trans act.1, .inl pending⟩
    · have unchanged : editAt id (transactionEdit set) u = u := if_neg here
      rw [unchanged]
      exact ⟨v, old, same, kind, extra, owner, was⟩
  | setBalance | insertEntry | insertAuditLog | setRecipientCode => exact echoes
  | _ => exact tame.elim

theorem echoes_tame_all {ws : List Write} (all : ∀ w ∈ ws, Tame db w) (echoes : Echoes db s) :
    Echoes db (applyAll ws s) ∧ Housed s (applyAll ws s) := by
  induction ws generalizing s with
  | nil => exact ⟨echoes, housed_refl s⟩
  | cons w ws ih =>
    have tame := all w (by simp)
    obtain ⟨after, housed⟩ := ih (fun v mem => all v (List.mem_cons_of_mem w mem)) (echoes_tame tame echoes)
    exact ⟨after, housed_trans (housed_tame tame) housed⟩

theorem housed_alter {set : BankAccountUpdate} (keeps : set.deletedAt = none) :
    Housed s (applyWrite (alter a set) s) := by
  intro id b found
  obtain ⟨stored, lives⟩ := byId_iff.mp found
  by_cases here : a.id = id
  · refine ⟨(bankAccountEdit set).on b, byId_iff.mpr ⟨?_, ?_⟩, rfl⟩
    · change (s.bankAccounts.update a.id (bankAccountEdit set)).find? id = _
      rw [find?_update, if_pos here, stored]
      rfl
    · simpa [isLive, bankAccountEdit, keeps] using lives
  · refine ⟨b, byId_iff.mpr ⟨?_, lives⟩, rfl⟩
    change (s.bankAccounts.update a.id (bankAccountEdit set)).find? id = _
    rw [find?_update, if_neg here, stored]

theorem housed_alter_all {set : BankAccountUpdate} (keeps : set.deletedAt = none)
    (accounts : List BankAccount) :
    Housed s (applyAll (accounts.map fun a => alter a set) s) := by
  induction accounts generalizing s with
  | nil => exact housed_refl s
  | cons a rest ih => exact housed_trans (housed_alter keeps) ih

theorem housed_delete {set : BankAccountUpdate} {id : Uuid} {b : BankAccount}
    (found : BankAccountRepository.byId id s = some b) (other : id ≠ a.id) :
    BankAccountRepository.byId id (applyWrite (alter a set) s) = some b := by
  obtain ⟨stored, lives⟩ := byId_iff.mp found
  apply byId_iff.mpr
  refine ⟨?_, lives⟩
  change (s.bankAccounts.update a.id (bankAccountEdit set)).find? id = _
  rw [find?_update, if_neg (Ne.symm other), stored]

theorem account_writes {ws : List Write} (h : AccountCommit ws db) : ∀ w ∈ ws, ∃ v, w = .account v := by
  cases h with
  | added a live first free only =>
    subst only
    simp
  | removed a now ok plain only =>
    subst only
    simp [alter]
  | replaced a now ok flag both =>
    subst both
    intro w mem
    rcases List.mem_cons.mp mem with rfl | later
    · exact ⟨_, rfl⟩
    · unfold succession at later
      split at later
      · cases later
      · split at later
        · cases later
        · exact ⟨_, List.mem_singleton.mp later⟩
  | chosen a stored live all =>
    subst all
    intro w mem
    rcases List.mem_append.mp mem with cleared | set
    · obtain ⟨b, _, rfl⟩ := List.mem_map.mp cleared
      exact ⟨_, rfl⟩
    · exact ⟨_, List.mem_singleton.mp set⟩

theorem account_unmoved {ws : List Write} (all : ∀ w ∈ ws, ∃ v, w = .account v) :
    (applyAll ws s).transactions = s.transactions := by
  induction ws generalizing s with
  | nil => rfl
  | cons w ws ih =>
    obtain ⟨v, rfl⟩ := all w (by simp)
    rw [applyAll_cons, ih (fun u mem => all u (List.mem_cons_of_mem _ mem))]
    exact account_transactions v s

theorem account_housed {ws : List Write} (h : AccountCommit ws db) {id : Uuid}
    (found : BankAccountRepository.byId id db = some a) :
    (∃ b, BankAccountRepository.byId id (applyAll ws db) = some b ∧ b.userId = a.userId) ∨
      (Removable a db ∧ a.id = id) := by
  obtain ⟨stored, _⟩ := byId_iff.mp found
  have key : a.id = id := (find?_some_iff.mp stored).2
  cases h with
  | added b live first free only =>
    subst only
    refine .inl ⟨a, byId_iff.mpr ⟨?_, (byId_iff.mp found).2⟩, rfl⟩
    exact find?_insert_kept stored
  | removed b now ok plain only =>
    subst only
    by_cases here : id = b.id
    · rw [here, ok.stored] at stored
      cases stored
      exact .inr ⟨ok, key⟩
    · exact .inl ⟨a, housed_delete found here, rfl⟩
  | replaced b now ok flag both =>
    subst both
    by_cases here : id = b.id
    · rw [here, ok.stored] at stored
      cases stored
      exact .inr ⟨ok, key⟩
    · have kept : BankAccountRepository.byId id (applyWrite (dismiss b now) db) = some a :=
        housed_delete found here
      left
      rw [applyAll_cons]
      change ∃ c, BankAccountRepository.byId id (applyAll _ (applyWrite (dismiss b now) db)) = some c ∧ _
      generalize BankAccountRepository.liveOf b.userId (applyWrite (dismiss b now) db) = remaining
      unfold succession
      split
      · exact ⟨a, kept, rfl⟩
      · split
        · exact ⟨a, kept, rfl⟩
        · exact housed_alter rfl id a kept
  | chosen b stored live all =>
    subst all
    left
    rw [applyAll_append]
    exact housed_trans (housed_alter_all rfl _) (housed_alter rfl) id a found

theorem routed_commit {ws : List Write} (h : AllRouted db) (commit : RouteCommit ws db) :
    AllRouted (applyAll ws db) := by
  cases commit with
  | handled all =>
    obtain ⟨echoes, housed⟩ := echoes_tame_all all (echoes_same rfl)
    exact routed_echoes h housed echoes
  | account c =>
    intro t mem act
    rw [account_unmoved (account_writes c)] at mem
    obtain ⟨id, a, named, found, own⟩ := h t mem act
    rcases account_housed c found with ⟨b, there, same⟩ | ⟨removable, key⟩
    · exact ⟨id, b, named, there, same.trans own⟩
    · have mine : isActiveWithdrawal a.userId t = true := by
        rw [own]
        exact active_iff.mpr act
      rw [← key] at named
      exact absurd named (removable.unnamed t mem mine)
  | held t a named found own walletId balance both =>
    subst both
    have housed :
        Housed db (applyAll [Write.insertTransaction t, Write.setBalance walletId balance] db) :=
        housed_same rfl
    intro u mem act
    change u ∈ (db.transactions.insert t).rows at mem
    cases free : db.transactions.admits t with
    | false =>
      rw [insert_refused free] at mem
      exact routed_housed housed (h u mem act)
    | true =>
      rw [insert_rows free, List.mem_append, List.mem_singleton] at mem
      rcases mem with old | rfl
      · exact routed_housed housed (h u old act)
      · exact routed_housed housed ⟨a.id, a, named, found, own⟩

end Commits

section Sessions
variable {A : Request → PaystackData → Prop} {db : Database} {α : Type}

/-- Any committed writes of a session that are tame. -/
theorem recorded_route {entry : AuditLog} {s : Held} {a : α} (bare : s.pending = []) :
    Sure A Freely RouteCommit (auditLog entry >>= fun _ => (.ret a : Tx α)) s := by
  apply auditLog_then bare
  · apply RouteCommit.handled
    intro w mem
    rw [List.mem_singleton.mp mem]
    trivial
  · intros
    trivial

theorem checkWithdrawal_then {cfg : Settings} {now : Timestamp} {user : User} {amount : Int} {s : Held}
    {k : Unit → Tx α} (onward : Sure A Freely RouteCommit (k ()) s) :
    Sure A Freely RouteCommit (checkWithdrawal cfg now user amount >>= k) s := by
  unfold checkWithdrawal enforceKycSingleLimit enforceDailyLimit
  apply nested_then
  apply require_then
  intro _
  apply nested_then
  split
  · trivial
  · apply require_then
    intro _
    apply nested_then
    apply query_then
    apply require_then
    intro _
    exact onward

theorem selectWallet_then {rows : List Row} {pick : Database → Option Wallet} {s : Held}
    {k : Option Wallet → Tx α}
    (onward : ∀ found m, Sure A Freely RouteCommit (k found) { s with memory := m }) :
    Sure A Freely RouteCommit (WalletRepository.select rows pick >>= k) s :=
  silent_then (onward _ _)

theorem selectTransaction_then {pick : Database → Except AppError (Option Transaction)} {s : Held}
    {k : Option Transaction → Tx α}
    (onward : ∀ found m, Sure A Freely RouteCommit (k found) { s with memory := m }) :
    Sure A Freely RouteCommit (TransactionRepository.select pick >>= k) s := by
  apply silent_then
  dsimp only
  cases pick s.seen with
  | error x => trivial
  | ok found => exact onward _ _

theorem createTransaction_then {t : Transaction} {s : Held} {k : Transaction → Tx α}
    (onward : ∀ m, Sure A Freely RouteCommit (k t)
      { s with pending := s.pending ++ [.insertTransaction t], memory := m }) :
    Sure A Freely RouteCommit (TransactionRepository.create t >>= k) s := by
  unfold TransactionRepository.create
  split
  swap
  · trivial
  constructor
  · cases free : s.seen.transactions.admits t with
    | true =>
      simp only [free, if_true]
      exact onward _
    | false =>
      simp only [free, Bool.false_eq_true, if_false]
      trivial
  · trivial

theorem updateBalance_then {wallet : Wallet} {balance : Int} {s : Held} {k : Wallet → Tx α}
    (onward : ∀ w m, Sure A Freely RouteCommit (k w)
      { s with pending := s.pending ++ [.setBalance wallet.id balance], memory := m }) :
    Sure A Freely RouteCommit (WalletRepository.updateBalance wallet balance >>= k) s := by
  constructor
  · by_cases fits : WalletRepository.storable balance
    · simp only [if_pos fits]
      exact onward _ _
    · simp only [if_neg fits]
      split <;> trivial
  · trivial

theorem enqueue_then {task : Task} {s : Held} {k : Unit → Tx α}
    (onward : Sure A Freely RouteCommit (k ()) s) :
    Sure A Freely RouteCommit (Prog.handle (enqueue task) (fun _ => .ret ()) >>= k) s :=
  ⟨trivial, fun _ _ => onward, onward⟩

theorem initiateWithdrawal_sure (cfg : Settings) (user : User) (bankAccountId : Uuid) (amount : Int)
    (draws : WithdrawalDraws) :
    Sure A Freely RouteCommit (initiateWithdrawal cfg user bankAccountId amount draws)
      ⟨db, [], default, []⟩ := by
  unfold initiateWithdrawal BankAccountRepository.getById
  apply selectWallet_then
  intro _ _
  apply orRaise_then
  intro wallet _
  apply checkWithdrawal_then
  apply selectTransaction_then
  intro _ _
  apply require_then
  intro _
  apply query_then
  apply orRaise_then
  intro account owned
  obtain ⟨found, owner⟩ := Option.filter_eq_some_iff.mp owned
  have own : account.userId = user.id := by simpa using owner
  have key : account.id = bankAccountId := (find?_some_iff.mp (byId_iff.mp found).1).2
  subst key
  apply selectWallet_then
  intro _ _
  apply orRaise_then
  intro lockedWallet _
  apply require_then
  intro _
  apply createTransaction_then
  intro _
  apply updateBalance_then
  intro _ _
  apply commit_then
  · exact .held _ account rfl found own _ _ rfl
  apply enqueue_then
  exact recorded_route rfl

theorem recipientCodeOf_then {account : BankAccount} {s : Held} {k : String → Tx α}
    (onward : ∀ code u, u.db = s.db → u.memory = s.memory →
      (u.pending = s.pending ∨ ∃ code, u.pending = s.pending ++ [.setRecipientCode account.id code]) →
      Sure A Freely RouteCommit (k code) u) :
    Sure A Freely RouteCommit (recipientCodeOf account >>= k) s := by
  unfold recipientCodeOf
  split
  · exact onward _ s rfl rfl (.inl rfl)
  · apply nested_then
    refine ⟨trivial, fun reply _ => ?_, trivial⟩
    apply nested_then
    apply require_then
    intro _
    apply nested_then
    refine ⟨?_, trivial⟩
    exact onward _ _ rfl rfl (.inr ⟨_, rfl⟩)

theorem flush_then {txn : Transaction} {set : TransactionUpdate} {s : Held} {k : Transaction → Tx α}
    (onward : ∀ t m, Sure A Freely RouteCommit (k t)
      { s with pending := s.pending ++ [.updateTransaction txn.id set], memory := m }) :
    Sure A Freely RouteCommit (TransactionRepository.flush txn set >>= k) s :=
  ⟨onward _ _, trivial⟩

theorem commit_tame {s : Held} (all : ∀ w ∈ s.pending, Tame s.db w) : Sure A Freely RouteCommit commit s :=
  ⟨.handled all, trivial, trivial⟩

/-- From the call on: the code of the transfer is kept, and all is committed together. -/
theorem send_sure {current : Transaction} {recipientCode : String} {s : Held}
    (all : ∀ w ∈ s.pending, Tame s.db w) :
    Sure A Freely RouteCommit (do
      let transfer ← paystack (.initiateTransfer current.amount recipientCode current.reference
        ("PayCore withdrawal " ++ current.reference))
      let transferCode := transfer.transferCode.get ""
      if transferCode = current.providerReference then commit
      else do
        let _ ← TransactionRepository.flush current { providerReference := some transferCode }
        commit) s := by
  refine ⟨trivial, fun reply _ => ?_, trivial⟩
  change Sure A Freely RouteCommit (if reply.transferCode.get "" = current.providerReference
    then commit else _) s
  split
  · exact commit_tame all
  · apply flush_then
    intro t m
    apply commit_tame
    intro w mem
    rcases List.mem_append.mp mem with old | new
    · exact all w old
    · rw [List.mem_singleton.mp new]
      intro status set
      cases set

theorem dispatchPayout_sure {txn : Transaction} {recipientCode : String} {s : Held}
    (found : s.db.transactions.find? txn.id = some txn) (all : ∀ w ∈ s.pending, Tame s.db w) :
    Sure A Freely RouteCommit (dispatchPayout txn recipientCode) s := by
  unfold dispatchPayout
  dsimp only
  split
  · rename_i pending
    apply sure_seq
    have valid : TransactionStatus.processing ∈ validTransitions txn.status :=
      by simp [pending, validTransitions]
    simp only [TransactionRepository.updateStatus, if_pos valid]
    refine ⟨?_, trivial⟩
    apply send_sure
    intro w mem
    rcases List.mem_append.mp mem with old | new
    · exact all w old
    · rw [List.mem_singleton.mp new]
      intro status set
      exact .inr (.inr ⟨txn, found, pending⟩)
  · exact send_sure all

theorem executePayout_sure (transactionId : Uuid) :
    Sure A Freely RouteCommit (executePayout transactionId) ⟨db, [], default, []⟩ := by
  unfold executePayout TransactionRepository.getById
  apply silent_then
  simp only [Local.seen, applyAll_nil]
  cases found : db.transactions.find? transactionId with
  | none => trivial
  | some txn =>
    have key : txn.id = transactionId := (find?_some_iff.mp found).2
    subst key
    change Sure A Freely RouteCommit (if txn.status = .completed ∨ txn.status = .failed
      then pure () else _) _
    split
    · trivial
    split
    · trivial
    split
    · trivial
    unfold BankAccountRepository.getById
    apply query_then
    split
    · trivial
    rename_i account _
    apply recipientCodeOf_then
    intro code u same _ pending
    apply dispatchPayout_sure
    · rw [same]
      exact found
    · intro w mem
      rcases pending with bare | ⟨code, coded⟩
      · rw [bare] at mem
        cases mem
      · rw [coded] at mem
        rw [List.mem_singleton.mp mem]
        trivial

theorem event_sure {p : Tx Unit} (emits : Emits (fun w => ∀ s, Tame s w) p) :
    Sure A Freely RouteCommit p ⟨db, [], default, []⟩ :=
  emits_careful (P := fun w => ∀ s, Tame s w) (fun _ _ _ => trivial)
    (fun _ s all => .handled (fun w mem => all w mem s)) (asks_anything p) emits (by simp)

theorem processPayoutSuccess_sure (reference : String) :
    Sure A Freely RouteCommit (processPayoutSuccess reference) ⟨db, [], default, []⟩ := by
  apply event_sure
  apply emits_processPayoutSuccess (fun _ _ => trivial) (fun _ _ => trivial)
  intro id reason s status set
  cases set
  exact .inl rfl

theorem processPayoutFailure_sure (reference transferCode : String) :
    Sure A Freely RouteCommit (processPayoutFailure reference transferCode) ⟨db, [], default, []⟩ := by
  apply event_sure
  apply emits_processPayoutFailure (fun _ _ _ _ => trivial) (fun _ _ => trivial)
  intro id reason s status set
  cases set
  exact .inr (.inl rfl)

end Sessions

end PayCorePayoutAccountRules
