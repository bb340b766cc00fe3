import PayCore.Proof.Regularity
import PayCore.Proof.SerialJobs
import PayCore.Proof.StatusMoves
import PayCore.Result.FraudRules
import PayCore.Result.SerialBooks

/- Operations in turn: what a user sends on a day by one kind of transaction stays within
   the daily limit of the tier that the user had at the last of them. -/
namespace PayCoreDailyLimits
open KeyedTable SessionProgram RelyGuarantee PayCoreTables PayCoreWrites PayCoreSessions
open PayCoreRepositories PayCoreSupport PayCoreWithdrawals PayCorePersistence PayCoreCommits
open PayCoreStatements PayCoreRequests PayCoreMovements PayCoreOpenings PayCoreStatusMoves PayCoreJobs
open PayCoreJobRules PayCoreBooks PayCoreSerialJobs PayCoreRegularity PayCoreFraudRules
open PayCoreWalletBalances PayCoreSerialBooks

variable {db s t : Database} {user : Uuid} {kind : TransactionType} {day : Timestamp}

/-- What a transaction adds to the user's day: its amount, unless it is a failed withdrawal. -/
def spentBy (user : Uuid) (kind : TransactionType) (day : Timestamp) (t : Transaction) : Int :=
  if t.initiatedByUserId = user ∧ t.type = kind ∧ dayStart t.createdAt = day ∧
    ¬ (kind = .withdrawal ∧ t.status = .failed) then t.amount else 0

def spent (user : Uuid) (kind : TransactionType) (day : Timestamp) (db : Database) : Int :=
  db.transactions.total (spentBy user kind day)

/-- A request that spends, with what its limit depends on. -/
structure Spending where
  cfg : Settings
  user : User
  kind : TransactionType
  amount : Int
  transactionId : Uuid
  clock : Clock

def spending : Job → Option Spending
  | .initiateTransfer _ sender cfg _ amount _ draws =>
      some ⟨cfg, sender, .transfer, amount, draws.transactionId, draws.clock⟩
  | .initiatePayment payer cfg _ amount _ draws =>
      some ⟨cfg, payer, .merchantPayment, amount, draws.transactionId, draws.clock⟩
  | .initiateWithdrawal cfg user _ amount draws =>
      some ⟨cfg, user, .withdrawal, amount, draws.transactionId, draws.clock⟩
  | _ => none

def Ordinary (db : Database) : Prop :=
  ∀ id t, db.transactions.find? id = some t → t.status ≠ .reversed ∧
    (t.type ≠ .funding → 0 ≤ t.amount)

theorem ordinary_write {job : Job} {w : Write} (issued : Job.issues job w)
    (positive : ∀ x, spending job = some x → 0 ≤ x.amount) (h : Ordinary db) :
    Ordinary (applyWrite w db) := by
  intro id t found
  cases w with
  | insertTransaction a =>
    cases free : db.transactions.admits a with
    | false =>
      simp only [applyWrite, insert_refused free] at found
      exact h id t found
    | true =>
      simp only [applyWrite, find?_insert free] at found
      split at found
      · cases found
        cases job with
        | register => exact issued.elim
        | initiateFunding =>
          obtain ⟨type, _, _, status⟩ := issued
          simp [type, status]
        | initiateTransfer =>
          obtain ⟨_, _, amount, status⟩ := issued
          rw [status, amount]
          exact ⟨by decide, fun _ => positive _ rfl⟩
        | initiatePayment =>
          obtain ⟨_, _, amount, status⟩ := issued
          rw [status, amount]
          exact ⟨by decide, fun _ => positive _ rfl⟩
        | initiateWithdrawal =>
          obtain ⟨_, _, amount, status⟩ := issued
          rw [status, amount]
          exact ⟨by decide, fun _ => positive _ rfl⟩
        | _ => exact issued.elim
      · exact h id t found
  | updateTransaction k set =>
    have forward : set.status ≠ some .reversed := by
      cases job <;> first | exact issued.elim | exact issued.2
    simp only [applyWrite, find?_update] at found
    split at found
    · obtain ⟨a, old, rfl⟩ := Option.map_eq_some_iff.mp found
      obtain ⟨ordinary, amount⟩ := h id a old
      refine ⟨?_, amount⟩
      cases sets : set.status with
      | none => simpa [TransactionUpdate.on, sets] using ordinary
      | some new => simpa [TransactionUpdate.on, sets] using forward
    · exact h id t found
  | account w =>
    rw [applyWrite, account_transactions] at found
    exact h id t found
  | _ => exact h id t found

theorem ordinary_all {job : Job} {ws : List Write} (issued : ∀ w ∈ ws, Job.issues job w)
    (positive : ∀ x, spending job = some x → 0 ≤ x.amount) (h : Ordinary db) :
    Ordinary (applyAll ws db) := by
  induction ws generalizing db with
  | nil => exact h
  | cons w ws ih =>
    exact ih (fun v mem => issued v (by simp [mem])) (ordinary_write (issued w (by simp)) positive h)

theorem sum_le_of_rows {ρ : Type} {k : ρ → Uuid} {f : ρ → Int} {before after : List ρ}
    (keys : after.map k = before.map k)
    (less : ∀ a ∈ before, ∀ b ∈ after, k a = k b → f b ≤ f a) :
    (after.map f).sum ≤ (before.map f).sum := by
  induction before generalizing after with
  | nil =>
    rw [List.map_nil, List.map_eq_nil_iff] at keys
    simp [keys]
  | cons a before ih =>
    cases after with
    | nil => cases keys
    | cons b after =>
      simp only [List.map_cons, List.cons.injEq] at keys
      have head := less a (by simp) b (by simp) keys.1.symm
      have tail := ih keys.2 (fun c memC d memD => less c (by simp [memC]) d (by simp [memD]))
      simp only [List.map_cons, List.sum_cons]
      omega

def inserts : Write → Bool
  | .insertTransaction _ => true
  | _ => false

theorem ids_kept {ws : List Write} (quiet : ∀ w ∈ ws, inserts w = false) (db : Database) :
    (applyAll ws db).transactions.rows.map (·.id) = db.transactions.rows.map (·.id) := by
  induction ws generalizing db with
  | nil => rfl
  | cons w ws ih =>
    rw [applyAll_cons, ih (fun v mem => quiet v (by simp [mem]))]
    have silent := quiet w (by simp)
    cases w with
    | insertTransaction => cases silent
    | updateTransaction k set =>
      simp only [store_apply, applyWrite, update_rows, List.map_map]
      apply List.map_congr_left
      intro a _
      exact editAt_key k (transactionEdit set) a
    | account w => rw [store_apply, applyWrite, account_transactions]
    | _ => rfl

theorem spent_same (same : t.transactions = s.transactions) :
    spent user kind day t = spent user kind day s := by
  unfold spent
  rw [same]

theorem spentBy_revised {a b : Transaction} (revised : Revised a b) (nonneg : a.type = kind → 0 ≤ a.amount)
    (alive : a.status ≠ .failed ∨ b.status = a.status) :
    spentBy user kind day b ≤ spentBy user kind day a := by
  have initiator : b.initiatedByUserId = a.initiatedByUserId := by rw [revised]
  have created : b.createdAt = a.createdAt := by rw [revised]
  unfold spentBy
  rw [initiator, created, revised_type revised, revised_amount revised]
  split
  · rename_i counted
    obtain ⟨byUser, ofKind, onDay, unfailed⟩ := counted
    have before : ¬ (kind = .withdrawal ∧ a.status = .failed) := by
      rintro ⟨withdrawal, failed⟩
      rcases alive with differs | same
      · exact differs failed
      · exact unfailed ⟨withdrawal, same.trans failed⟩
    exact Int.le_of_eq (if_pos ⟨byUser, ofKind, onDay, before⟩).symm
  · split
    · rename_i counted
      exact nonneg counted.2.1
    · exact Int.le_refl 0

/-- A status that moves on from anything but FAILED takes nothing onto the day. -/
theorem spent_moved {ws : List Write} {id : Uuid} {old new : TransactionStatus} (ordinary : Ordinary db)
    (spends : kind ≠ .funding) (quiet : ∀ w ∈ ws, inserts w = false)
    (regular : ∀ w ∈ ws, Regular w) (alive : old ≠ .failed ∨ old = new)
    (move : StatusMove id old new db (applyAll ws db)) :
    spent user kind day (applyAll ws db) ≤ spent user kind day db := by
  apply sum_le_of_rows (ids_kept quiet db)
  intro a memA b memB key
  have foundA : db.transactions.find? a.id = some a := find?_some_iff.mpr ⟨memA, rfl⟩
  have foundB : (applyAll ws db).transactions.find? a.id = some b :=
    find?_some_iff.mpr ⟨memB, key.symm⟩
  obtain ⟨c, foundC, revised, _⟩ := (later_all regular db).transactions a.id a foundA
  rw [foundB] at foundC
  cases foundC
  have nonneg : a.type = kind → 0 ≤ a.amount :=
    fun type => (ordinary a.id a foundA).2 (by rw [type]; exact spends)
  apply spentBy_revised revised nonneg
  by_cases here : a.id = id
  · obtain ⟨⟨x, foundX, statusX⟩, ⟨y, foundY, statusY⟩, _⟩ := move
    rw [← here, foundA] at foundX
    rw [← here, foundB] at foundY
    cases foundX
    cases foundY
    rw [statusX, statusY]
    rcases alive with differs | same
    · exact .inl differs
    · exact .inr same.symm
  · have still := move.others a.id here
    rw [foundA, foundB] at still
    cases still
    exact .inr rfl

theorem dispatch_quiet {id : Uuid} {ws : List Write} (h : DispatchCommit id db ws) :
    ∀ w ∈ ws, inserts w = false := by
  have beside : ∀ {side : List Write}, Side side → ∀ w ∈ side, inserts w = false := by
    intro side h w mem
    have aside := h w mem
    cases w <;> first | rfl | cases aside
  intro w mem
  cases h with
  | dispatched t side code aside =>
    simp only [List.mem_append, List.mem_cons, Option.mem_toList, Option.map_eq_some_iff] at mem
    rcases mem with old | rfl | ⟨c, _, rfl⟩
    · exact beside aside w old
    · rfl
    · rfl
  | redispatched t side code aside =>
    rcases List.mem_append.mp mem with old | new
    · exact beside aside w old
    · rw [List.mem_singleton.mp new]
      rfl

theorem issues_quiet {job : Job} (idle : spending job = none) {w : Write} (issued : Job.issues job w)
    (insert : inserts w = true) : ∃ t, w = .insertTransaction t ∧ t.type = .funding := by
  cases w with
  | insertTransaction t =>
    cases job with
    | initiateFunding => exact ⟨t, rfl, issued.1⟩
    | initiateTransfer => cases idle
    | initiatePayment => cases idle
    | initiateWithdrawal => cases idle
    | _ => exact issued.elim
  | _ => cases insert

theorem spent_idle {job : Job} (idle : spending job = none) (spends : kind ≠ .funding) {ws : List Write}
    (issued : ∀ w ∈ ws, Job.issues job w) (ordinary : Ordinary db) (commit : BookCommit ws db) :
    spent user kind day (applyAll ws db) ≤ spent user kind day db := by
  have silent : ∀ {t}, .insertTransaction t ∈ ws → t.type = .funding := by
    intro t mem
    obtain ⟨a, same, type⟩ := issues_quiet idle (issued _ mem) rfl
    cases same
    exact type
  have regular : ∀ w ∈ ws, Regular w := fun w mem => issues_regular (issued w mem)
  cases commit with
  | money h =>
    cases h with
    | movement h =>
      cases h with
      | posted t _ _ type =>
        have funding := silent (t := t) (by simp [movementWrites])
        rw [funding] at type
        simp at type
    | hold h =>
      cases h with
      | held t _ type =>
        have funding := silent (t := t) (by simp)
        rw [funding] at type
        cases type
    | side h => exact Int.le_of_eq (spent_same (side_money h db).transactions)
  | request h =>
    cases h with
    | requested t wallet type _ _ _ _ free =>
      have added : spent user kind day (applyWrite (.insertTransaction t) db) =
          spent user kind day db + spentBy user kind day t := total_insert free _
      have none_spent : spentBy user kind day t = 0 := by
        unfold spentBy
        rw [type, if_neg]
        rintro ⟨_, same, _⟩
        exact spends same.symm
      simp only [applyAll_cons, applyAll_nil, store_apply]
      omega
  | registration h =>
    cases h
    exact Int.le_refl _
  | charge id _ _ _ h =>
    have move := charge_move h
    cases h
    exact spent_moved ordinary spends (by simp [creditWrites, mark, inserts]) regular
      (.inl (by decide)) move
  | start id _ _ _ h =>
    have move := start_move h
    cases h
    exact spent_moved ordinary spends (by simp [mark, inserts]) regular (.inl (by decide)) move
  | abandon id _ _ _ h =>
    have move := abandon_move h
    cases h
    exact spent_moved ordinary spends (by simp [mark, inserts]) regular (.inl (by decide)) move
  | payout h =>
    cases h with
    | dispatch id h =>
      obtain ⟨old, new, shape, move⟩ := dispatch_move h
      have quiet := dispatch_quiet h
      rcases shape with ⟨rfl, rfl⟩ | ⟨same, _⟩
      · exact spent_moved ordinary spends quiet regular (.inl (by decide)) move
      · exact spent_moved ordinary spends quiet regular (.inr same) move
    | settle id h =>
      obtain ⟨new, _, move⟩ := settle_move h
      have quiet : ∀ w ∈ ws, inserts w = false := by
        cases h <;> simp [mark, inserts]
      exact spent_moved ordinary spends quiet regular (.inl (by decide)) move
    | side h => exact Int.le_of_eq (spent_same (side_money h db).transactions)

structure SpentBy (x : Spending) (t : Transaction) : Prop where
  id : t.id = x.transactionId
  user : t.initiatedByUserId = x.user.id
  kind : t.type = x.kind
  amount : t.amount = x.amount
  created : t.createdAt = x.clock.startedAt

/-- The request has room for its amount, and no withdrawal of its own kind is under way. -/
structure Room (x : Spending) (db : Database) : Prop where
  daily : FraudRepository.dailyOutgoingSum x.user.id x.kind (dayStart x.clock.utcNow) db + x.amount ≤
    tierDailyLimit x.cfg x.user.kycTier
  idle : x.kind = .withdrawal → db.transactions.rows.filter (isActiveWithdrawal x.user.id) = []

inductive SpendCommit (x : Spending) (ws : List Write) (db : Database) : Prop where
  | spends (t : Transaction) (rest : List Write) (writes : ws = .insertTransaction t :: rest)
      (quiet : ∀ s, (applyAll rest s).transactions = s.transactions)
      (free : db.transactions.admits t = true) (asked : SpentBy x t) (room : Room x db)
  | side (h : Side ws)

theorem poised_spends {x : Spending} {origin : Database} {source destination : Uuid} {t : Transaction}
    {payer payee : Wallet} {u : Window} (asked : SpentBy x t) (kind : x.kind ≠ .withdrawal)
    (poised : Poised Alone FreshWallets Locked source destination t payer payee u)
    (checked : Checked Alone origin x.cfg x.clock.utcNow x.user x.amount x.kind u.db) :
    SpendCommit x u.pending u.db := by
  apply SpendCommit.spends t _ poised.pending _ poised.reserved.free asked
  · exact ⟨passed_alone checked.daily, fun withdrawal => absurd withdrawal kind⟩
  · intro s
    rfl

theorem spending_alone (solvent : Solvent db) {job : Job} {x : Spending} (asks : spending job = some x)
    (positive : 0 ≤ x.amount) :
    wp Alone (SpendCommit x) FreshWallets job.program (fun _ _ => True)
      (⟨db, [], default, Nothing⟩ : Window) := by
  have env := interference_alone
  have clean := clean_start env db Nothing
  have grip : Grip Alone FreshWallets db Locked := grip_fresh env (fun _ _ _ _ fresh => fresh)
  have sides : ∀ ws s, Side ws → SpendCommit x ws s := fun _ _ => .side
  cases job with
  | initiateTransfer normalize sender cfg recipient amount key draws =>
    cases asks
    apply seq_wp
    apply initiateTransfer_wp env grip _ sides positive clean solvent
    · intros
      trivial
    · intros
      trivial
    · intros
      trivial
    · intro u source destination payer payee _ poised _ _ checked _
      exact poised_spends ⟨rfl, rfl, rfl, rfl, rfl⟩ (by simp) poised checked
  | initiatePayment payer cfg merchantId amount key draws =>
    cases asks
    apply seq_wp
    apply initiatePayment_wp env grip _ sides positive clean solvent
    · intros
      trivial
    · intros
      trivial
    · intros
      trivial
    · intro u source destination payer payee _ poised _ _ checked
      exact poised_spends ⟨rfl, rfl, rfl, rfl, rfl⟩ (by simp) poised checked
  | initiateWithdrawal cfg user bankAccountId amount draws =>
    cases asks
    apply seq_wp
    apply initiateWithdrawal_wp env grip _ sides clean
    · intros
      trivial
    · intros
      trivial
    · intro u source wallet _ poised _ checked idle
      apply SpendCommit.spends _ _ poised.pending _ poised.reserved.free ⟨rfl, rfl, rfl, rfl, rfl⟩
      · exact ⟨passed_alone checked.daily, fun _ => passed_alone idle⟩
      · intro s
        rfl
  | _ => cases asks

/-- Nothing has been spent yet, or exactly the one transaction of the request. -/
inductive Spent (x : Spending) (db : Database) (s : Database) : Prop where
  | nothing (same : s.transactions = db.transactions)
  | once (t : Transaction) (free : db.transactions.admits t = true) (asked : SpentBy x t)
      (room : Room x db) (added : s.transactions = db.transactions.insert t)

theorem spent_once {x : Spending} (rely : Rely (SpendCommit x) Nothing db s) : Spent x db s := by
  induction rely with
  | refl => exact .nothing rfl
  | @step u ws before commit spares ih =>
    cases commit with
    | side h =>
      have aside := (side_money h u).transactions
      cases ih with
      | nothing same => exact .nothing (aside.trans same)
      | once t free asked room added => exact .once t free asked room (aside.trans added)
    | spends t rest writes quiet free asked room =>
      have after : (applyAll ws u).transactions = u.transactions.insert t := by
        rw [writes, applyAll_cons, quiet]
        rfl
      cases ih with
      | nothing same =>
        apply Spent.once t _ asked
        · constructor
          · have daily := room.daily
            unfold FraudRepository.dailyOutgoingSum at daily ⊢
            rw [← same]
            exact daily
          · intro withdrawal
            rw [← same]
            exact room.idle withdrawal
        · rw [after, same]
        · rw [← same]
          exact free
      | once first free' asked' _ added =>
        -- Both would have the id that the request has drawn.
        have taken := find?_insert free' first.id
        rw [transaction_key, if_pos rfl, ← added] at taken
        have absent := (transaction_admits_iff.mp free).1
        rw [asked.id, ← asked'.id, taken] at absent
        cases absent

/-- The query of the daily limit sees everything the user has spent that day. -/
theorem spent_le_query {x : Spending} (books : Books db) (ordinary : Ordinary db)
    (spends : x.kind = .transfer ∨ x.kind = .merchantPayment ∨ x.kind = .withdrawal) (room : Room x db) :
    spent x.user.id x.kind (dayStart x.clock.utcNow) db ≤
      FraudRepository.dailyOutgoingSum x.user.id x.kind (dayStart x.clock.utcNow) db := by
  apply sum_le_filter
  intro a mem
  have found : db.transactions.find? a.id = some a := find?_some_iff.mpr ⟨mem, rfl⟩
  obtain ⟨forward, nonneg⟩ := ordinary a.id a found
  unfold spentBy
  split
  · rename_i counted
    obtain ⟨byUser, ofKind, onDay, unfailed⟩ := counted
    have completed : a.status = .completed := by
      rcases spends with kind | kind | kind
      · exact ((books.posted a.id a found).moved (.inl (ofKind.trans kind))).1
      · exact ((books.posted a.id a found).moved (.inr (ofKind.trans kind))).1
      · -- A withdrawal is active, or it has ended one way or the other.
        have inactive := List.filter_eq_nil_iff.mp (room.idle kind) a mem
        have withdrawal := ofKind.trans kind
        cases status : a.status with
        | completed => rfl
        | pending => simp [isActiveWithdrawal, byUser, withdrawal, status] at inactive
        | processing => simp [isActiveWithdrawal, byUser, withdrawal, status] at inactive
        | failed => exact absurd ⟨kind, status⟩ unfailed
        | reversed => exact absurd status forward
    have since : dayStart x.clock.utcNow ≤ a.createdAt := by
      rw [← onDay]
      exact Nat.sub_le _ _
    simp [byUser, ofKind, completed, since]
  · split
    · rename_i picked
      simp only [Bool.and_eq_true, beq_iff_eq] at picked
      apply nonneg
      rw [picked.1.1.2]
      rcases spends with kind | kind | kind <;> rw [kind] <;> decide
    · exact Int.le_refl 0

abbrev Standing := Uuid → TransactionType → Timestamp → Int

def stores (id : Uuid) (s t : Database) : Bool :=
  (s.transactions.find? id).isNone && (t.transactions.find? id).isSome

def standing (limit : Standing) (job : Job) (s t : Database) : Standing := fun user kind day =>
  match spending job with
  | none => limit user kind day
  | some x =>
    if stores x.transactionId s t = true ∧ user = x.user.id ∧ kind = x.kind ∧
        day = dayStart x.clock.startedAt then tierDailyLimit x.cfg x.user.kycTier
    else limit user kind day

/-- Whole operations one after the other. Tiers, merchants and bank accounts change in
    between as they may; the day changes between operations, not within one. -/
inductive LimitRun : Standing → Database → Prop where
  | start : LimitRun (fun _ _ _ => 0) emptyDatabase
  | operation {limit s} (before : LimitRun limit s) (answer : Request → Option PaystackData) (job : Job)
      (admitted : Admitted s job)
      (sameDay : ∀ x, spending job = some x → dayStart x.clock.startedAt = dayStart x.clock.utcNow) :
      LimitRun (standing limit job s (runAlone answer job.program s).2) (runAlone answer job.program s).2
  | directory {limit s t} (before : LimitRun limit s) (same : SameMoney s t) : LimitRun limit t

theorem limit_serial {limit : Standing} (run : LimitRun limit db) : SerialRun emptyDatabase db := by
  induction run with
  | start => exact .start
  | operation before answer job admitted _ ih => exact .operation ih answer job admitted
  | directory before same ih => exact .directory ih same

theorem admitted_positive {job : Job} (admitted : Admitted db job) :
    ∀ x, spending job = some x → 0 ≤ x.amount := by
  intro x asks
  cases job <;> cases asks <;> exact Int.le_of_lt admitted

theorem issued_alone (answer : Request → Option PaystackData) (job : Job) :
    Rely (fun ws (_ : Database) => ∀ w ∈ ws, Job.issues job w) Nothing db
      (runAlone answer job.program db).2 :=
  (job_alone (Q := fun _ _ => True) answer
    (emits_wp (fun _ _ h => h) (emits_job job) (by simp))).2

theorem ordinary_operation (ordinary : Ordinary db) {job : Job} (admitted : Admitted db job)
    (answer : Request → Option PaystackData) : Ordinary (runAlone answer job.program db).2 :=
  rely_keeps (issued_alone answer job)
    (fun _ _ issued h => ordinary_all issued (admitted_positive admitted) h) ordinary

theorem idle_operation (books : Books db) (ordinary : Ordinary db) {job : Job}
    (idle : spending job = none) (admitted : Admitted db job) (spends : kind ≠ .funding)
    (answer : Request → Option PaystackData) :
    spent user kind day (runAlone answer job.program db).2 ≤ spent user kind day db := by
  have issued : wp Alone (fun ws _ => ∀ w ∈ ws, Job.issues job w) Fresh job.program (fun _ _ => True)
      (⟨db, [], default, Nothing⟩ : Window) := emits_wp (fun _ _ h => h) (emits_job job) (by simp)
  have verified : wp Alone _ Fresh job.program (fun _ _ => True)
      (⟨db, [], default, Nothing⟩ : Window) :=
    wp_mono (fun _ _ _ => trivial) (wp_both (admitted_wp books admitted) issued)
  have chain := (job_alone (Q := fun _ _ => True) answer verified).2
  have kept := rely_keeps chain (P := fun s => Ordinary s ∧ spent user kind day s ≤ spent user kind day db)
    ?_ ⟨ordinary, Int.le_refl _⟩
  · exact kept.2
  · rintro ws s ⟨commit, issues⟩ ⟨before, less⟩
    exact ⟨ordinary_all issues (admitted_positive admitted) before,
      Int.le_trans (spent_idle idle spends issues before commit) less⟩

theorem spending_operation (books : Books db) {job : Job} {x : Spending} (asks : spending job = some x)
    (admitted : Admitted db job) (answer : Request → Option PaystackData) :
    Spent x db (runAlone answer job.program db).2 := by
  have verified := wp_condition (fun _ _ _ _ (fresh : Fresh _ _ _ _) => fresh.1)
    (spending_alone books.solvent asks (admitted_positive admitted x asks))
  exact spent_once (job_alone (Q := fun _ _ => True) answer verified).2

theorem spending_kind {job : Job} {x : Spending} (asks : spending job = some x) :
    x.kind = .transfer ∨ x.kind = .merchantPayment ∨ x.kind = .withdrawal := by
  cases job <;> cases asks <;> simp

theorem spent_once_within {x : Spending} (books : Books db) (ordinary : Ordinary db)
    (kinds : x.kind = .transfer ∨ x.kind = .merchantPayment ∨ x.kind = .withdrawal)
    (sameDay : dayStart x.clock.startedAt = dayStart x.clock.utcNow) (positive : 0 ≤ x.amount)
    {limit : Standing} (before : spent user kind day db ≤ limit user kind day) {t : Transaction}
    (free : db.transactions.admits t = true) (asked : SpentBy x t) (room : Room x db)
    (added : s.transactions = db.transactions.insert t) :
    spent user kind day s ≤ if user = x.user.id ∧ kind = x.kind ∧ day = dayStart x.clock.startedAt
      then tierDailyLimit x.cfg x.user.kycTier else limit user kind day := by
  have total : spent user kind day s = spent user kind day db + spentBy user kind day t := by
    unfold spent
    rw [added]
    exact total_insert free _
  have added_most : spentBy user kind day t ≤ x.amount := by
    unfold spentBy
    split
    · exact Int.le_of_eq asked.amount
    · exact positive
  split
  · rename_i mine
    obtain ⟨rfl, rfl, rfl⟩ := mine
    have query := spent_le_query books ordinary kinds room
    have daily := room.daily
    rw [← sameDay] at query daily
    omega
  · rename_i other
    have none_added : spentBy user kind day t = 0 := by
      unfold spentBy
      rw [if_neg]
      rintro ⟨byUser, ofKind, onDay, _⟩
      apply other
      rw [← byUser, ← ofKind, ← onDay, asked.user, asked.kind, asked.created]
      exact ⟨rfl, rfl, rfl⟩
    omega

theorem standing_idle {job : Job} (idle : spending job = none) (limit : Standing) :
    standing limit job s t = limit := by
  funext user kind day
  simp [standing, idle]

theorem limit_operation (books : Books db) (ordinary : Ordinary db) {job : Job}
    (admitted : Admitted db job) (sameDay : ∀ x, spending job = some x →
      dayStart x.clock.startedAt = dayStart x.clock.utcNow)
    (answer : Request → Option PaystackData) (spends : kind ≠ .funding) {limit : Standing}
    (before : spent user kind day db ≤ limit user kind day) :
    spent user kind day (runAlone answer job.program db).2 ≤
      standing limit job db (runAlone answer job.program db).2 user kind day := by
  cases asks : spending job with
  | none =>
    rw [standing_idle asks]
    exact Int.le_trans (idle_operation books ordinary asks admitted spends answer) before
  | some x =>
    simp only [standing, asks]
    cases spending_operation books asks admitted answer with
    | nothing same =>
      have unstored : stores x.transactionId db (runAlone answer job.program db).2 = false := by
        unfold stores
        rw [same]
        cases db.transactions.find? x.transactionId <;> rfl
      simp only [unstored, Bool.false_eq_true, false_and, if_false]
      rw [spent_same same]
      exact before
    | once t free asked room added =>
      have stored : stores x.transactionId db (runAlone answer job.program db).2 = true := by
        have absent := (transaction_admits_iff.mp free).1
        have found := find?_insert free t.id
        rw [transaction_key, if_pos rfl, ← added] at found
        rw [asked.id] at absent found
        simp [stores, absent, found]
      simp only [stored, true_and]
      exact spent_once_within books ordinary (spending_kind asks) (sameDay x asks)
        (admitted_positive admitted x asks) before free asked room added

theorem limit_invariant {limit : Standing} (run : LimitRun limit db) (spends : kind ≠ .funding) :
    Ordinary db ∧ spent user kind day db ≤ limit user kind day := by
  induction run with
  | start =>
    constructor
    · intro id t found
      cases found
    · exact Int.le_refl 0
  | operation before answer job admitted sameDay ih =>
    have books := books_run (limit_serial before) books_empty
    constructor
    · exact ordinary_operation ih.1 admitted answer
    · exact limit_operation books ih.1 admitted sameDay answer spends ih.2
  | directory before same ih =>
    constructor
    · intro id t found
      rw [same.transactions] at found
      exact ih.1 id t found
    · rw [spent_same same.transactions]
      exact ih.2

/-- In every serial run, what a user has sent on a day by transfers, by payments or by
    withdrawals that have not failed stays within the limit of the tier at the last of them. -/
theorem daily_limit_of_each_kind {limit : Standing} (run : LimitRun limit db) (user : Uuid)
    (kind : TransactionType) (day : Timestamp)
    (spends : kind = .transfer ∨ kind = .merchantPayment ∨ kind = .withdrawal) :
    spent user kind day db ≤ limit user kind day := by
  have other : kind ≠ .funding := by
    rcases spends with rfl | rfl | rfl <;> decide
  exact (limit_invariant run other).2

section Day

def dayOf (answer : Request → Option PaystackData) (start : Standing × Database) (jobs : List Job) :
    Standing × Database :=
  jobs.foldl (fun s job => (standing s.1 job s.2 (runAlone answer job.program s.2).2,
    (runAlone answer job.program s.2).2)) start

theorem dayOf_run {answer : Request → Option PaystackData} {start : Standing × Database} {jobs : List Job}
    (run : LimitRun start.1 start.2) (admitted : ∀ job ∈ jobs, ∀ s, Admitted s job)
    (sameDay : ∀ job ∈ jobs, ∀ x, spending job = some x →
      dayStart x.clock.startedAt = dayStart x.clock.utcNow) :
    LimitRun (dayOf answer start jobs).1 (dayOf answer start jobs).2 := by
  induction jobs generalizing start with
  | nil => exact run
  | cons job rest ih =>
    apply ih
    · exact .operation run answer job (admitted job (by simp) start.2) (sameDay job (by simp))
    · exact fun job mem => admitted job (by simp [mem])
    · exact fun job mem => sameDay job (by simp [mem])

def payer : User := { member 1 "alice" with kycTier := 1 }

/-- Two accounts, and NGN 120,000.00 for Alice. -/
def opened : List Job :=
  [.register {} (fun s => s) "alice" "" "Alice" none ⟨1, 11, "a", 0⟩,
   .register {} (fun s => s) "bob" "" "Bob" none ⟨2, 12, "b", 0⟩,
   .initiateFunding payer 12000000 none ⟨100, "f", ⟨0, 0⟩⟩,
   .processChargeSuccess { reference := .str "txn_f", amount := some 12000000 }]

/-- NGN 50,000.00 to Bob, and as much to the shop that Bob owns by then. -/
def spree : List Job :=
  [.initiateTransfer (fun s => s) payer {} (.userId 2) 5000000 none ⟨101, "t", 0, ⟨0, 0⟩⟩,
   .initiatePayment payer {} 70 5000000 none ⟨102, "p", 0, ⟨0, 0⟩⟩]

def atOpening : Standing × Database := dayOf paystackUp (fun _ _ _ => 0, emptyDatabase) opened

def shopOpen : Database :=
  { atOpening.2 with merchants := ⟨[{ id := 70, userId := 2, businessName := "Shop" }], by decide⟩ }

def atClose : Standing × Database := dayOf paystackUp (atOpening.1, shopOpen) spree

theorem close_run : LimitRun atClose.1 atClose.2 := by
  apply dayOf_run
  · apply LimitRun.directory
    · apply dayOf_run .start
      · simp [opened, Admitted]
      · simp [opened, spending]
    · exact ⟨rfl, rfl, rfl⟩
  · simp [spree, Admitted]
  · simp [spree, spending]

/-- Both went out at Tier 1, and together they are twice its limit of NGN 50,000.00. -/
theorem kinds_together_pass_the_limit :
    ¬ ∀ limit db, LimitRun limit db → ∀ user day most,
      (∀ kind, spent user kind day db ≠ 0 → kind ≠ .funding → limit user kind day = most) →
      spent user .transfer day db + spent user .merchantPayment day db +
        spent user .withdrawal day db ≤ most := by
  intro claim
  have total : spent 1 .transfer 0 atClose.2 + spent 1 .merchantPayment 0 atClose.2 +
      spent 1 .withdrawal 0 atClose.2 = 10000000 := by decide +kernel
  have less := claim _ _ close_run 1 0 5000000 ?_
  · omega
  · intro kind some_spent other
    cases kind with
    | transfer => decide +kernel
    | merchantPayment => decide +kernel
    | funding => exact absurd rfl other
    | withdrawal => exact absurd (by decide +kernel) some_spent
    | reversal => exact absurd (by decide +kernel) some_spent

theorem transfers_of_the_day_within_limit :
    spent 1 .transfer 0 atClose.2 = 5000000 ∧
      spent 1 .transfer 0 atClose.2 ≤ atClose.1 1 .transfer 0 :=
  ⟨by decide +kernel, daily_limit_of_each_kind close_run 1 .transfer 0 (.inl rfl)⟩

end Day

end PayCoreDailyLimits
