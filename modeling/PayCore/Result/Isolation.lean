import PayCore.Proof.Estates
import PayCore.Service.Reads

/- What users can do to one another's rows, and what they can see of them. -/
namespace PayCoreIsolation
open KeyedTable SessionProgram SessionSystem RelyGuarantee PayCoreTables PayCoreWrites
open PayCoreSessions PayCoreRepositories PayCoreAccounts PayCoreMerchants PayCoreReconciliation
open PayCoreSharedBooks PayCoreEstates PayCoreListings PayCoreReads

section Estates
variable {ι : Type} [DecidableEq ι] {db : Database} {works : ι → Work} {T : Running ι} {userId : Uuid}

/-- Whatever else runs, and however it fails: as long as the user does nothing, what belongs to
them stays. -/
theorem others_leave_the_estate (known : (db.users.find? userId).isSome = true)
    (others : ∀ i, workActor (works i) ≠ some userId) (run : Run Anyhow (platform db works) T) :
    estate userId T.db = estate userId db := by
  have there : (estate userId db).profile.isSome = true := by simpa [estate] using known
  have safe : Safe (SparingCommit userId) (fun _ _ _ _ _ => True) (fun _ _ _ => True)
      (platform db works) := by
    apply initial_safe
    intro i
    exact work_sparing (others i) rfl
  have lasting :
      Lasting (SparingCommit userId) (fun (_ : ι) (_ : Except AppError Unit) (_ : Database) => True) :=
    fun _ _ _ _ _ h => h
  apply run_keeps lasting safe (run_unconditional run) (P := fun _ s => estate userId s = estate userId db)
  · intro _ _ _ s commit before
    rw [← before]
    apply estate_commit _ commit
    rw [before]
    exact there
  · rfl

end Estates

/-- The transactions that the user has initiated, and those that a wallet of theirs pays or is paid by. -/
def concerns (userId : Uuid) (db : Database) (t : Transaction) : Bool :=
  t.initiatedByUserId == userId ||
    db.wallets.rows.any (fun w => w.userId == userId &&
      (t.sourceWalletId == some w.id || t.destinationWalletId == some w.id))

/-- The states agree on everything that is the user's, and may differ in anything else. -/
structure Alike (userId : Uuid) (s t : Database) : Prop where
  user : s.users.find? userId = t.users.find? userId
  wallets : s.wallets.rows.filter (·.userId == userId) = t.wallets.rows.filter (·.userId == userId)
  transactions : s.transactions.rows.filter (concerns userId s) = t.transactions.rows.filter
    (concerns userId t)
  merchants : s.merchants.rows.filter (·.userId == userId) = t.merchants.rows.filter (·.userId == userId)
  submissions : s.kycSubmissions.rows.filter (·.userId == userId) = t.kycSubmissions.rows.filter
    (·.userId == userId)
  bankAccounts : s.bankAccounts.rows.filter (·.userId == userId) = t.bankAccounts.rows.filter
    (·.userId == userId)

section Views
variable {α β : Type} {p q : α → Bool} {s t : Database} {userId : Uuid}

theorem filter_within {l : List α} (narrower : ∀ a ∈ l, p a = true → q a = true) :
    l.filter p = (l.filter q).filter p := by
  rw [List.filter_filter]
  apply List.filter_congr
  intro a mem
  cases picked : p a with
  | false => rfl
  | true => rw [narrower a mem picked]; rfl

theorem find_within {l : List α} (narrower : ∀ a ∈ l, p a = true → q a = true) :
    l.find? p = (l.filter q).find? p := by
  rw [← List.head?_filter, ← List.head?_filter, filter_within narrower]

theorem wallet_view (alike : Alike userId s t) :
    WalletRepository.byUserId userId s = WalletRepository.byUserId userId t := by
  have own : ∀ w : Wallet, (w.userId == userId && WalletRepository.live w) = true →
      (w.userId == userId) = true := by
    intro w picked
    exact (Bool.and_eq_true_iff.mp picked).1
  unfold WalletRepository.byUserId
  rw [find_within (fun w _ => own w), alike.wallets, ← find_within (fun w _ => own w)]

theorem merchant_view (alike : Alike userId s t) :
    MerchantRepository.byUserId userId s = MerchantRepository.byUserId userId t := by
  have own : ∀ m : Merchant, (m.userId == userId && m.deletedAt.isNone) = true →
      (m.userId == userId) = true := by
    intro m picked
    exact (Bool.and_eq_true_iff.mp picked).1
  unfold MerchantRepository.byUserId
  rw [find_within (fun m _ => own m), alike.merchants, ← find_within (fun m _ => own m)]

theorem accounts_view (alike : Alike userId s t) :
    BankAccountRepository.liveOf userId s = BankAccountRepository.liveOf userId t := by
  have own : ∀ a : BankAccount, (a.userId == userId && a.deletedAt.isNone) = true →
      (a.userId == userId) = true := by
    intro a picked
    exact (Bool.and_eq_true_iff.mp picked).1
  unfold BankAccountRepository.liveOf
  rw [filter_within (fun a _ => own a), alike.bankAccounts, ← filter_within (fun a _ => own a)]

theorem list_view (alike : Alike userId s t) {p : Transaction → Bool}
    (ofS : ∀ a, p a = true → concerns userId s a = true)
    (ofT : ∀ a, p a = true → concerns userId t a = true) :
    TransactionRepository.newest (s.transactions.rows.filter p) (s.transactions.rows.countP p) =
      TransactionRepository.newest (t.transactions.rows.filter p) (t.transactions.rows.countP p) := by
  have same : s.transactions.rows.filter p = t.transactions.rows.filter p := by
    rw [filter_within (fun a _ => ofS a), alike.transactions, ← filter_within (fun a _ => ofT a)]
  rw [List.countP_eq_length_filter, List.countP_eq_length_filter, same]

theorem statement_view (alike : Alike userId s t) {wallet : Wallet} (row : wallet ∈ s.wallets.rows)
    (owner : wallet.userId = userId) :
    TransactionRepository.getByWallet wallet.id s = TransactionRepository.getByWallet wallet.id t := by
  have both : wallet ∈ t.wallets.rows := by
    have mine : wallet ∈ s.wallets.rows.filter (·.userId == userId) :=
      List.mem_filter.mpr ⟨row, by simp [owner]⟩
    rw [alike.wallets] at mine
    exact (List.mem_filter.mp mine).1
  have named : ∀ db : Database, wallet ∈ db.wallets.rows → ∀ a : Transaction,
      (a.sourceWalletId == some wallet.id || a.destinationWalletId == some wallet.id) = true →
      concerns userId db a = true := by
    intro db there a picked
    unfold concerns
    rw [Bool.or_eq_true]
    right
    exact List.any_eq_true.mpr ⟨wallet, there, by rw [picked]; simp [owner]⟩
  exact list_view alike (named s row) (named t both)

theorem history_view (alike : Alike userId s t) (type : Option TransactionType)
    (status : Option TransactionStatus) :
    TransactionRepository.getByUser userId type status s = TransactionRepository.getByUser userId
      type status t := by
  have own : ∀ (db : Database) (filters : List (Transaction → Bool)) (a : Transaction),
      ([fun b : Transaction => b.initiatedByUserId == userId] ++ filters).all (· a) = true →
      concerns userId db a = true := by
    intro db filters a picked
    simp only [List.cons_append, List.nil_append, List.all_cons, Bool.and_eq_true] at picked
    unfold concerns
    rw [picked.1]
    rfl
  unfold TransactionRepository.getByUser
  simp only [List.append_assoc]
  exact list_view alike (own s _) (own t _)

theorem latest_view (alike : Alike userId s t) (createdAt : KYCSubmission → Timestamp) :
    latestForUser createdAt userId s = latestForUser createdAt userId t := by
  unfold latestForUser
  rw [alike.submissions]

theorem transaction_view (alike : Alike userId s t) (reference : String) :
    (PayCoreRepositories.TransactionRepository.byReference reference s).filter
    (fun a => a.initiatedByUserId == userId) =
      (PayCoreRepositories.TransactionRepository.byReference reference t).filter
      (fun a => a.initiatedByUserId == userId) := by
  have unique : ∀ db : Database, ∀ a ∈ db.transactions.rows, ∀ b ∈ db.transactions.rows,
      (a.reference == reference) = true → (b.reference == reference) = true → clash a b = true := by
    intro db a _ b _ ofA ofB
    simp [clash, beq_iff_eq.mp ofA, beq_iff_eq.mp ofB]
  have own : ∀ (db : Database) (a : Transaction),
      (a.reference == reference && a.initiatedByUserId == userId) = true →
      concerns userId db a = true := by
    intro db a picked
    unfold concerns
    rw [(Bool.and_eq_true_iff.mp picked).2]
    rfl
  unfold PayCoreRepositories.TransactionRepository.byReference
  rw [find?_both (unique s), find?_both (unique t), find_within (fun a _ => own s a), alike.transactions,
    ← find_within (fun a _ => own t a)]

end Views

section Reads
variable {answer : Request → Option PaystackData} {s t : Database} {userId : Uuid}

/-- Two programs that return the same, each in a session of its own state. -/
def SameAnswer {α : Type} (answer : Request → Option PaystackData) (p q : Tx α) (a b : Database)
    (memory : IdentityMap) : Prop :=
  (exec answer p ⟨a, [], memory, []⟩).1 = (exec answer q ⟨b, [], memory, []⟩).1

variable {α β : Type} {memory : IdentityMap}

theorem same_query {f : Database → α} {k : α → Tx β} (same : f s = f t)
    (onward : SameAnswer answer (k (f s)) (k (f s)) s t memory) :
    SameAnswer answer (query f >>= k) (query f >>= k) s t memory := by
  unfold SameAnswer at onward ⊢
  rw [exec_seq, exec_seq]
  simp only [query, exec, Local.seen, applyAll_nil, List.append_nil]
  rw [← same]
  exact onward

theorem same_orRaise {value : Option α} {error : AppError} {k : α → Tx β}
    (onward : ∀ a, value = some a → SameAnswer answer (k a) (k a) s t memory) :
    SameAnswer answer (orRaise value error >>= k) (orRaise value error >>= k) s t memory := by
  cases value with
  | none => rfl
  | some a => exact onward a rfl

theorem same_require {condition : Bool} {error : AppError} {k : Unit → Tx β}
    (onward : SameAnswer answer (k ()) (k ()) s t memory) :
    SameAnswer answer (require condition error >>= k) (require condition error >>= k) s t memory := by
  cases condition with
  | false => rfl
  | true => exact onward

theorem same_current {service : User → Tx Response} (alike : Alike userId s t)
    (onward : ∀ user, user.id = userId → SameAnswer answer (service user) (service user) s t default) :
    SameAnswer answer (getCurrentUser userId >>= service)
    (getCurrentUser userId >>= service) s t default := by
  unfold getCurrentUser UserRepository.getById
  rw [seq_seq]
  apply same_query
  · unfold UserRepository.byId
    rw [alike.user]
  rw [seq_seq]
  apply same_orRaise
  intro user found
  rw [seq_seq]
  apply same_require
  apply onward
  exact (find?_some_iff.mp (Option.filter_eq_some_iff.mp found).1).2

theorem same_wallet {k : Wallet → Tx Response} (alike : Alike userId s t)
    (onward : ∀ wallet ∈ s.wallets.rows, wallet.userId = userId →
      ∀ memory, SameAnswer answer (k wallet) (k wallet) s t memory) :
    SameAnswer answer (getWallet userId >>= k) (getWallet userId >>= k) s t default := by
  unfold getWallet
  rw [seq_seq]
  unfold SameAnswer
  rw [exec_seq, exec_seq]
  simp only [WalletRepository.getByUserId, WalletRepository.select, exec, Local.seen, applyAll_nil,
    List.append_nil]
  rw [← wallet_view alike]
  cases found : WalletRepository.byUserId userId s with
  | none => rfl
  | some wallet =>
    have picked := List.find?_some found
    have owner : wallet.userId = userId := by simpa using (Bool.and_eq_true_iff.mp picked).1
    exact onward wallet (List.mem_of_find?_eq_some found) owner _

theorem told_transaction (resource reference : String) (db : Database) :
    (exec answer (ownTransaction resource reference userId) ⟨db, [], default, []⟩).1 =
      match (PayCoreRepositories.TransactionRepository.byReference reference db).filter
        (fun a => a.initiatedByUserId == userId) with
      | some a => .ok (.transaction a)
      | none => .error (.notFound resource) := by
  unfold ownTransaction
  rw [exec_seq]
  simp only [PayCoreRepositories.TransactionRepository.getByReference,
    PayCoreRepositories.TransactionRepository.select,
    exec, Local.seen, applyAll_nil]
  cases PayCoreRepositories.TransactionRepository.byReference reference db with
  | none => rfl
  | some a =>
    have loaded : (default : IdentityMap).transaction a = a := rfl
    simp only [Option.map_some, loaded, Option.filter_some]
    cases a.initiatedByUserId == userId <;> rfl

theorem same_transaction (alike : Alike userId s t) (resource reference : String) :
    SameAnswer answer (ownTransaction resource reference userId)
    (ownTransaction resource reference userId) s t default := by
  unfold SameAnswer
  rw [told_transaction, told_transaction, transaction_view alike]

/-- No GET endpoint of a user tells apart two states that differ in what is not the user's. -/
theorem reads_show_own_rows (alike : Alike userId s t) (read : Read) :
    (runAlone answer (read.program userId) s).1 = (runAlone answer (read.program userId) t).1 := by
  change SameAnswer answer (read.program userId) (read.program userId) s t default
  unfold Read.program
  apply same_current alike
  intro user named
  cases read with
  | getMyProfile => rfl
  | getMyWallet =>
    simp only [Read.service, PayCoreReads.getMyWallet, named]
    apply same_wallet alike
    intro wallet _ _ memory
    apply same_require
    rfl
  | getMyTransactions limit offset =>
    simp only [Read.service, getStatement, named]
    apply same_wallet alike
    intro wallet row owner memory
    apply same_query (statement_view alike row owner)
    rfl
  | listTransactions limit offset type status =>
    simp only [Read.service, PayCoreReads.listTransactions, named]
    apply same_query (history_view alike type status)
    rfl
  | getTransaction reference =>
    simp only [Read.service, PayCoreReads.getTransaction, named]
    exact same_transaction alike _ reference
  | getMerchantProfile =>
    simp only [Read.service, getMerchant, getMerchantProfile, MerchantRepository.getByUserId, named]
    rw [seq_seq]
    apply same_query (merchant_view alike)
    apply same_orRaise
    intro merchant _
    rfl
  | getMyKyc createdAt =>
    simp only [Read.service, getMySubmission, named]
    apply same_query (latest_view alike createdAt)
    apply same_require
    rfl
  | listBankAccounts =>
    simp only [Read.service, PayCoreReads.listBankAccounts, BankAccountRepository.getByUserId, named]
    apply same_query (accounts_view alike)
    rfl
  | getWithdrawalStatus reference =>
    simp only [Read.service, PayCoreReads.getWithdrawalStatus, named]
    exact same_transaction alike _ reference

end Reads

section Day

def member (id : Uuid) (email : String) : User :=
  { id, email, hashedPassword := "", fullName := email, kycTier := 1 }

def deposit (id : Uuid) (reference : String) (user wallet : Uuid) : Transaction :=
  { id, reference, type := .funding, amount := 1000, destinationWalletId := some wallet,
    initiatedByUserId := user,
    providerReference := some reference, createdAt := 0 }

def houseDb (bobs : List Transaction)
    (fits : (deposit 101 "txn_a" 1 31 :: bobs).Pairwise (fun a b => clash a b = false)) :
    Database :=
  { emptyDatabase with
    users := ⟨[member 1 "alice", member 2 "bob"], by decide⟩
    wallets := ⟨[{ id := 31, userId := 1 }, { id := 32, userId := 2 }], by decide⟩
    transactions := ⟨deposit 101 "txn_a" 1 31 :: bobs, fits⟩ }

def quietDb : Database := houseDb [] (by decide)

def busyDb : Database := houseDb [deposit 102 "txn_b" 2 32] (by decide)

theorem houses_alike : Alike 1 quietDb busyDb := by
  constructor <;> decide

/-- Alice cannot find out whether there is a transaction of Bob's. -/
theorem bobs_reference_tells_nothing :
    (runAlone (fun _ => none) ((Read.getTransaction "txn_b").program 1) quietDb).1 =
      (runAlone (fun _ => none) ((Read.getTransaction "txn_b").program 1) busyDb).1 :=
  reads_show_own_rows houses_alike (.getTransaction "txn_b")

/-- Bob opens a shop while the charge of a funding of his arrives. -/
def bobsWorks : Fin 2 → Work
  | 0 => .endpoint (.request (.createMerchant 2 "Robert" ⟨50, 51, "key", "hash", "secret"⟩))
  | _ => .processPaystackWebhook "charge.success" { reference := .str "txn_b", amount := some 1000 }

def standings (T : Running (Fin 2)) : List Uuid × List Int :=
  (T.db.merchants.rows.map (·.userId), T.db.wallets.rows.map (·.balance))

theorem alice_stays_as_she_is : ∃ T : Running (Fin 2), standings T = ([2], [0, 1000]) ∧
    estate 1 T.db = estate 1 busyDb := by
  have computed : (schedule Anyhow (platform busyDb bobsWorks)
      (.run 0 :: .run 0 :: List.replicate 9 (.run 1) ++ List.replicate 9 (.run 0))).map standings =
        some ([2], [0, 1000]) := by decide +kernel
  obtain ⟨T, run, values⟩ := reached_of_schedule computed
  refine ⟨T, values, others_leave_the_estate (by decide) ?_ run⟩
  intro i
  match i with
  | 0 => decide
  | 1 => decide

end Day

end PayCoreIsolation
