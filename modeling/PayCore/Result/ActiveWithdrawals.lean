import PayCore.Proof.Openings
import PayCore.Proof.Regularity
import PayCore.Result.WalletBalances

/- The rule of one active withdrawal for each user. The guard is a query that runs before
   the wallet is locked, so it holds only of what was committed then. -/
namespace PayCoreActiveWithdrawals
open KeyedTable SessionProgram SessionSystem RelyGuarantee PayCoreTables PayCoreWrites PayCoreSessions
open PayCoreRepositories PayCoreSupport PayCoreWithdrawals PayCorePersistence PayCoreCommits
open PayCoreStatements PayCoreRequests PayCoreMovements PayCoreOpenings PayCoreJobs
open PayCoreRegularity PayCoreWalletBalances

variable {ι : Type} {user : Uuid} {db s t : Database}

def activeWithdrawals (user : Uuid) (db : Database) : List Transaction :=
  db.transactions.rows.filter (isActiveWithdrawal user)

/-- The condition on a write that takes effect in `s`: a withdrawal of the user is inserted
    where none is active, and moved to PROCESSING only while it is active. -/
def guarded (user : Uuid) (s : Database) : Write → Bool
  | .insertTransaction t => !isActiveWithdrawal user t || (activeWithdrawals user s).isEmpty
  | .updateTransaction id set =>
    set.status != some .processing || match s.transactions.find? id with
      | some row => !(row.initiatedByUserId == user && row.type == .withdrawal) ||
          isActiveWithdrawal user row
      | none => true
  | _ => true

def Guarded (user : Uuid) (s : Database) (_ : IdentityMap) (_ : List Row) (adds : List Write) : Prop :=
  adds.all (guarded user s) = true

instance (s : Database) (m : IdentityMap) (rows : List Row) (adds : List Write) :
    Decidable (Guarded user s m rows adds) :=
  inferInstanceAs (Decidable (_ = true))

def ActiveAt (user : Uuid) (db : Database) (id : Uuid) : Prop :=
  ∃ t, db.transactions.find? id = some t ∧ isActiveWithdrawal user t = true

def Idle (user : Uuid) (db : Database) : Prop := ∀ id, ¬ ActiveAt user db id

def AtMostOne (user : Uuid) (db : Database) : Prop :=
  ∀ i j, ActiveAt user db i → ActiveAt user db j → i = j

theorem active_mem {a : Transaction} (mem : a ∈ activeWithdrawals user db) : ActiveAt user db a.id := by
  obtain ⟨stored, active⟩ := List.mem_filter.mp mem
  exact ⟨a, find?_some_iff.mpr ⟨stored, rfl⟩, active⟩

theorem idle_iff : Idle user db ↔ activeWithdrawals user db = [] := by
  constructor
  · intro idle
    apply List.eq_nil_iff_forall_not_mem.mpr
    intro a mem
    exact idle _ (active_mem mem)
  · rintro none_active id ⟨a, found, active⟩
    have mem : a ∈ activeWithdrawals user db := List.mem_filter.mpr ⟨(find?_some_iff.mp found).1, active⟩
    rw [none_active] at mem
    cases mem

theorem atMostOne_iff : AtMostOne user db ↔ (activeWithdrawals user db).length ≤ 1 := by
  constructor
  · intro single
    cases rows : activeWithdrawals user db with
    | nil => simp
    | cons a rest =>
      cases rest with
      | nil => simp
      | cons b rest =>
        -- Two rows of the list are two rows of the table, so their ids differ.
        have sub : (activeWithdrawals user db).Sublist db.transactions.rows := List.filter_sublist
        have apart := db.transactions.unique.sublist sub
        rw [rows] at apart
        have first : a ∈ activeWithdrawals user db := by simp [rows]
        have second : b ∈ activeWithdrawals user db := by simp [rows]
        have same := single _ _ (active_mem first) (active_mem second)
        have clashes := (List.pairwise_cons.mp apart).1 b (by simp)
        rw [Keyed.clash_of_key a b same] at clashes
        cases clashes
  · rintro short i j ⟨a, foundA, activeA⟩ ⟨b, foundB, activeB⟩
    have storedA : a ∈ activeWithdrawals user db :=
      List.mem_filter.mpr ⟨(find?_some_iff.mp foundA).1, activeA⟩
    have storedB : b ∈ activeWithdrawals user db :=
      List.mem_filter.mpr ⟨(find?_some_iff.mp foundB).1, activeB⟩
    have same : a = b := by
      match rows : activeWithdrawals user db with
      | [] =>
        rw [rows] at storedA
        cases storedA
      | [c] =>
        rw [rows] at storedA storedB
        rw [List.mem_singleton.mp storedA, List.mem_singleton.mp storedB]
      | c :: d :: rest =>
        rw [rows] at short
        simp at short
    rw [← (find?_some_iff.mp foundA).2, ← (find?_some_iff.mp foundB).2, same]

theorem single_lookup (short : (activeWithdrawals user db).length ≤ 1) (x : AppError) :
    TransactionRepository.scalarOneOrNone (activeWithdrawals user db) ≠ .error x := by
  match rows : activeWithdrawals user db with
  | [] => simp [TransactionRepository.scalarOneOrNone]
  | [a] => simp [TransactionRepository.scalarOneOrNone]
  | a :: b :: rest =>
    rw [rows] at short
    simp at short

def NoneNew (user : Uuid) (s t : Database) : Prop := ∀ id, ActiveAt user t id → ActiveAt user s id

inductive WithdrawalCommit (user : Uuid) (ws : List Write) (db : Database) : Prop where
  | settled (regular : ∀ w ∈ ws, Regular w) (none_new : NoneNew user db (applyAll ws db))
  | opened (regular : ∀ w ∈ ws, Regular w) (idle : Idle user db) (source : Uuid)
      (owned : Owned source user db) (locks : Row.wallet source ∈ touched ws) (sole : Uuid)
      (only : ∀ id, ActiveAt user (applyAll ws db) id → id = sole)

theorem withdrawal_regular {ws : List Write} (h : WithdrawalCommit user ws db) :
    ∀ w ∈ ws, Regular w := by
  cases h with
  | settled regular _ => exact regular
  | opened regular _ _ _ _ _ _ => exact regular

theorem withdrawal_env : Interference (Rely (WithdrawalCommit user)) :=
  interference_rely fun _ _ h => withdrawal_regular h

theorem atMostOne_commit {ws : List Write} (h : WithdrawalCommit user ws db)
    (single : AtMostOne user db) : AtMostOne user (applyAll ws db) := by
  intro i j activeI activeJ
  cases h with
  | settled _ none_new => exact single i j (none_new i activeI) (none_new j activeJ)
  | opened _ _ _ _ _ sole only => rw [only i activeI, only j activeJ]

/-- Whoever holds the wallet of the user keeps further withdrawals out. -/
theorem idle_rely {held : Row → Prop} {source : Uuid} (rely : Rely (WithdrawalCommit user) held s t)
    (mine : held (.wallet source)) (owned : Owned source user s) (idle : Idle user s) :
    Idle user t := by
  induction rely with
  | refl => exact idle
  | step before commit spares ih =>
    cases commit with
    | settled _ none_new => exact fun id active => ih id (none_new id active)
    | opened _ _ other owns locks _ _ =>
      have here := owned_frame (rely_frame before mine) owned
      rw [owned_unique owns here] at locks
      exact absurd locks (spares _ mine)

section Bystanders

def plain (user : Uuid) : Write → Prop
  | .insertTransaction t => isActiveWithdrawal user t = false
  | .updateTransaction _ _ => False
  | w => Regular w

theorem plain_regular {w : Write} (h : plain user w) : Regular w := by
  cases w <;> first | exact h | exact h.elim | trivial

theorem noneNew_plain {w : Write} (h : plain user w) (db : Database) :
    NoneNew user db (applyWrite w db) := by
  rintro id ⟨a, found, active⟩
  cases w with
  | insertTransaction t =>
    cases free : db.transactions.admits t with
    | false =>
      simp only [applyWrite, insert_refused free] at found
      exact ⟨a, found, active⟩
    | true =>
      simp only [applyWrite, find?_insert free] at found
      split at found
      · cases found
        have inactive : isActiveWithdrawal user a = false := h
        rw [inactive] at active
        cases active
      · exact ⟨a, found, active⟩
  | updateTransaction => exact h.elim
  | account w =>
    rw [applyWrite, account_transactions] at found
    exact ⟨a, found, active⟩
  | _ => exact ⟨a, found, active⟩

theorem noneNew_trans {s t u : Database} (left : NoneNew user s t) (right : NoneNew user t u) :
    NoneNew user s u :=
  fun id active => left id (right id active)

theorem plain_commit (ws : List Write) (db : Database) (h : ∀ w ∈ ws, plain user w) :
    WithdrawalCommit user ws db := by
  apply WithdrawalCommit.settled (fun w mem => plain_regular (h w mem))
  induction ws generalizing db with
  | nil => exact fun _ active => active
  | cons w ws ih =>
    exact noneNew_trans (noneNew_plain (h w (by simp)) db) (ih _ (fun v mem => h v (by simp [mem])))

end Bystanders

section Handlers

/-- A status is the only thing of a stored row that a handler changes. -/
theorem settles_find? {ws : List Write} (h : ∀ w ∈ ws, settles w) {id : Uuid}
    (same : s.transactions.find? id = t.transactions.find? id) :
    (applyAll ws s).transactions.find? id = (applyAll ws t).transactions.find? id := by
  induction ws generalizing s t with
  | nil => exact same
  | cons w ws ih =>
    apply ih (fun v mem => h v (by simp [mem]))
    have allowed := h w (by simp)
    cases w with
    | updateTransaction k set => simp only [store_apply, applyWrite, find?_update, same]
    | insertTransaction => exact allowed.elim
    | account => exact allowed.elim
    | _ => exact same

theorem noneNew_frame {ws : List Write} (h : ∀ w ∈ ws, settles w)
    (same : ∀ r ∈ touched ws, Same r s t) (before : NoneNew user s (applyAll ws s)) :
    NoneNew user t (applyAll ws t) := by
  rintro id ⟨a, found, active⟩
  by_cases touches : Row.transaction id ∈ touched ws
  · have here : s.transactions.find? id = t.transactions.find? id := same _ touches
    obtain ⟨b, old, activeB⟩ := before id ⟨a, by rw [settles_find? h here]; exact found, active⟩
    exact ⟨b, by rw [← here]; exact old, activeB⟩
  · have still : t.transactions.find? id = (applyAll ws t).transactions.find? id :=
      applyAll_frame (r := Row.transaction id) t touches
    exact ⟨a, by rw [still]; exact found, active⟩

/-- Rows that began in `s`, with no withdrawal of the user active that was not active there. -/
structure Begun (user : Uuid) (s t : Database) : Prop where
  rows : ∀ id b, t.transactions.find? id = some b → ∃ a, s.transactions.find? id = some a ∧
    b.initiatedByUserId = a.initiatedByUserId ∧ b.type = a.type
  none_new : NoneNew user s t

theorem isActive_iff {a : Transaction} : isActiveWithdrawal user a = true ↔
    (a.initiatedByUserId = user ∧ a.type = .withdrawal) ∧
      (a.status = .pending ∨ a.status = .processing) := by
  simp [isActiveWithdrawal]

theorem begun_update {id : Uuid} {set : TransactionUpdate} (onward : set.status ≠ some .pending)
    (meets : guarded user s (.updateTransaction id set) = true) (begun : Begun user s t) :
    Begun user s (applyWrite (.updateTransaction id set) t) := by
  have origin : ∀ k b, (applyWrite (.updateTransaction id set) t).transactions.find? k = some b →
      ∃ c, t.transactions.find? k = some c ∧ ((k = id ∧ b = set.on c) ∨ b = c) := by
    intro k b found
    simp only [applyWrite, find?_update] at found
    split at found
    · rename_i here
      obtain ⟨c, old, same⟩ := Option.map_eq_some_iff.mp found
      exact ⟨c, old, .inl ⟨here.symm, same.symm⟩⟩
    · exact ⟨b, found, .inr rfl⟩
  constructor
  · intro k b found
    obtain ⟨c, old, ⟨_, rfl⟩ | rfl⟩ := origin k b found
    · exact begun.rows k c old
    · exact begun.rows k b old
  · rintro k ⟨b, found, active⟩
    obtain ⟨c, old, ⟨rfl, rfl⟩ | rfl⟩ := origin k b found
    swap
    · exact begun.none_new k ⟨b, old, active⟩
    obtain ⟨a, first, initiator, type⟩ := begun.rows k c old
    obtain ⟨⟨byUser, ofType⟩, status⟩ := isActive_iff.mp active
    simp only [TransactionUpdate.on] at byUser ofType status
    cases sets : set.status with
    | none =>
      rw [sets, Option.getD_none] at status
      exact begun.none_new k ⟨c, old, isActive_iff.mpr ⟨⟨byUser, ofType⟩, status⟩⟩
    | some new =>
      rw [sets, Option.getD_some] at status
      rcases status with rfl | rfl
      · exact absurd sets onward
      · -- The guard has looked at the row as it was in `s`.
        rw [initiator] at byUser
        rw [type] at ofType
        simp only [guarded, sets, first, byUser, ofType] at meets
        exact ⟨a, first, by simpa using meets⟩

theorem begun_all {adds : List Write} (h : ∀ w ∈ adds, settles w) (meets : adds.all (guarded user s) = true)
    (begun : Begun user s t) : Begun user s (applyAll adds t) := by
  induction adds generalizing t with
  | nil => exact begun
  | cons w adds ih =>
    simp only [List.all_cons, Bool.and_eq_true] at meets
    apply ih (fun v mem => h v (by simp [mem])) meets.2
    have allowed := h w (by simp)
    cases w with
    | updateTransaction id set => exact begun_update allowed.1 meets.1 begun
    | insertTransaction => exact allowed.elim
    | account => exact allowed.elim
    | _ => exact ⟨begun.rows, begun.none_new⟩

theorem begun_refl (s : Database) : Begun user s s :=
  ⟨fun _ a found => ⟨a, found, rfl, rfl⟩, fun _ active => active⟩

theorem settles_wp {p : Tx Unit} (emits : Emits settles p) :
    wp (Rely (WithdrawalCommit user)) (WithdrawalCommit user) (Guarded user) p (fun _ _ => True)
      (⟨db, [], default, Nothing⟩ : Window) := by
  have regular : ∀ {w}, settles w → Regular w := fun {w} h =>
    have issued : Job.issues (.executePayout 0) w := h
    issues_regular issued
  have begins : ∀ s : Database, NoneNew user s (applyAll ([] : List Write) s) := fun _ _ active => active
  apply locked_wp (J := fun ws s => (∀ w ∈ ws, settles w) ∧ NoneNew user s (applyAll ws s)) _ _ _ _ emits
    ⟨by simp, begins db⟩ (by simp)
  · intro s
    exact ⟨by simp, begins s⟩
  · intro ws s t before same
    exact ⟨before.1, noneNew_frame before.1 same before.2⟩
  · intro ws adds s m rows before new meets
    constructor
    · intro w mem
      rcases List.mem_append.mp mem with h | h
      · exact before.1 w h
      · exact new w h
    · rw [applyAll_append]
      exact noneNew_trans before.2 (begun_all new meets (begun_refl _)).none_new
  · intro ws s before
    exact .settled (fun w mem => regular (before.1 w mem)) before.2

end Handlers

theorem hold_opened {bankAccountId : Uuid} {amount : Int} {draws : WithdrawalDraws} {payer : User}
    {source : Uuid} {wallet : Wallet} {u : Window}
    (poised : HoldPoised (Rely (WithdrawalCommit payer.id)) (Guarded payer.id)
      (Grasped (Rely (WithdrawalCommit payer.id)) db) source
      (withdrawalOf payer bankAccountId amount draws wallet) wallet u)
    (owned : Owned source payer.id u.db) : WithdrawalCommit payer.id u.pending u.db := by
  obtain ⟨before, memory, mine, goes, meets⟩ := poised.entered
  have active : isActiveWithdrawal payer.id (withdrawalOf payer bankAccountId amount draws wallet) = true :=
    isActive_iff.mpr ⟨⟨rfl, rfl⟩, .inl rfl⟩
  have idle : Idle payer.id before.db := by
    apply idle_iff.mpr
    simpa [Guarded, guarded, active] using meets
  have same : Same (.wallet source) before.db u.db := goes.same _ mine
  have ownedBefore : Owned source payer.id before.db := owned_frame (Eq.symm same) owned
  have still := idle_rely goes.steady mine ownedBefore idle
  have covered := poised.covered
  rw [poised.pending]
  apply WithdrawalCommit.opened _ still source owned _
    (withdrawalOf payer bankAccountId amount draws wallet).id
  · rintro id ⟨a, found, activeA⟩
    simp only [applyAll_cons, applyAll_nil, store_apply, applyWrite, find?_insert poised.reserved.free]
      at found
    split at found
    · rename_i key
      exact key.symm
    · exact absurd ⟨a, found, activeA⟩ (still id)
  · simp [Regular, covered]
  · rw [poised.debtor.key]
    simp [writeTargets, Store.targets]

theorem plain_wp {p : Tx Unit} {P : Write → Prop} (bystands : ∀ w, P w → plain user w) (emits : Emits P p) :
    wp (Rely (WithdrawalCommit user)) (WithdrawalCommit user) (Guarded user) p (fun _ _ => True)
      (⟨db, [], default, Nothing⟩ : Window) :=
  emits_wp (fun ws s => plain_commit ws s) (emits_mono bystands emits) (by simp)

theorem plain_moves {type : TransactionType} {payer : Uuid} {amount : Int} (other : type ≠ .withdrawal)
    (w : Write) (h : moves type payer amount w) : plain user w := by
  cases w with
  | insertTransaction t =>
    have differs : t.type ≠ .withdrawal := by rw [h.1]; exact other
    simp [plain, isActiveWithdrawal, differs]
  | _ => first | exact h | exact h.elim

theorem plain_opens {type : TransactionType} {payer : Uuid} {amount : Int}
    (other : type ≠ .withdrawal ∨ payer ≠ user) (w : Write) (h : opens type payer amount w) :
    plain user w := by
  cases w with
  | insertTransaction t =>
    show isActiveWithdrawal user t = false
    rcases other with differs | differs
    · rw [← h.1] at differs
      simp [isActiveWithdrawal, differs]
    · rw [← h.2.1] at differs
      simp [isActiveWithdrawal, differs]
  | _ => first | exact h | exact h.elim

theorem plain_registers (w : Write) (h : registers w) : plain user w := by
  cases w with
  | insertWallet w => exact Int.le_of_eq h.1.symm
  | _ => first | exact h.elim | trivial

theorem job_guarded (job : Job) :
    wp (Rely (WithdrawalCommit user)) (WithdrawalCommit user) (Guarded user) job.program
      (fun _ _ => True) (⟨db, [], default, Nothing⟩ : Window) := by
  have emits := emits_job job
  cases job with
  | register => exact plain_wp plain_registers emits
  | initiateFunding => exact plain_wp (plain_opens (.inl (by decide))) emits
  | initiateTransfer => exact plain_wp (plain_moves (by decide)) emits
  | initiatePayment => exact plain_wp (plain_moves (by decide)) emits
  | initiateWithdrawal cfg payer bankAccountId amount draws =>
    by_cases mine : payer.id = user
    · subst mine
      have env : Interference (Rely (WithdrawalCommit payer.id)) := withdrawal_env
      have clean := clean_start env db Nothing
      apply seq_wp
      apply initiateWithdrawal_wp withdrawal_env (grip_grasped withdrawal_env) _ _ clean
      · intros
        trivial
      · intros
        trivial
      · intro u source wallet _ poised owned _ _
        exact hold_opened poised owned
      · intro ws s side
        apply plain_commit
        intro w mem
        have aside := side w mem
        cases w <;> simp [sideWrite] at aside <;> trivial
    · exact plain_wp (plain_opens (.inr mine)) emits
  | _ => exact settles_wp emits

/-- Whatever else runs: while every withdrawal of the user is inserted in a state where none
    is active, and none is moved to PROCESSING after its end, no two are ever active and the
    lookup of the active one finds at most one row. -/
theorem guarded_runs_keep_one_active [DecidableEq ι] (single : (activeWithdrawals user db).length ≤ 1)
    {jobs : ι → Job} {T : Machine ι} (run : Run (Meets (fun _ => Guarded user)) (opening db jobs) T) :
    (activeWithdrawals user T.db).length ≤ 1 ∧
      ∀ x, TransactionRepository.scalarOneOrNone (activeWithdrawals user T.db) ≠ .error x := by
  have lasting : Lasting (WithdrawalCommit user) (fun (_ : ι) (_ : Except AppError Unit) _ => True) :=
    fun _ _ _ _ _ h => h
  have safe : Safe (WithdrawalCommit user) (fun _ => Guarded user) (fun _ _ _ => True)
      (opening db jobs) := by
    apply initial_safe
    intro i
    exact job_guarded (jobs i)
  have kept : AtMostOne user T.db := by
    apply run_keeps lasting safe run (P := fun _ s => AtMostOne user s)
    · intro i ws log s commit before
      exact atMostOne_commit commit before
    · exact atMostOne_iff.mpr single
  have short := atMostOne_iff.mp kept
  exact ⟨short, single_lookup short⟩

section Race

/-- Alice, at Tier 2, holds NGN 200.00 and has one bank account. -/
def payoutDb : Database :=
  { raceDb with
    wallets := ⟨[{ id := 11, userId := 1, balance := 20000 }], by decide⟩
    bankAccounts := ⟨[⟨50, 1, "Alice", "0123456789", "058", "Bank", true, none, none⟩], by decide⟩ }

def payouts (i : Fin 2) : Job :=
  .initiateWithdrawal {} (member 1 "alice") 50 5000 ⟨100 + i, toString i.val, ⟨0, 0⟩⟩

def activeOf (T : Machine (Fin 2)) : Nat := (activeWithdrawals 1 T.db).length

/-- Both look for an active withdrawal before either holds the wallet. -/
theorem concurrent_withdrawals_are_both_active :
    (activeWithdrawals 1 payoutDb).length ≤ 1 ∧
    ¬ ∀ T : Machine (Fin 2), Run Anyhow (opening payoutDb payouts) T →
      (activeWithdrawals 1 T.db).length ≤ 1 := by
  refine ⟨by decide, ?_⟩
  intro claim
  have computed : (schedule Anyhow (opening payoutDb payouts)
      (List.replicate 4 (.run 1) ++ List.replicate 8 (.run 0) ++ List.replicate 4 (.run 1))).map activeOf =
      some 2 := by decide +kernel
  obtain ⟨T, run, active⟩ := reached_of_schedule computed
  have short := claim T run
  have both : (activeWithdrawals 1 T.db).length = 2 := active
  omega

/-- In turn, the second withdrawal is turned away by the guard. -/
theorem withdrawals_in_turn_keep_one_active :
    ∃ T : Machine (Fin 2), Run (Meets (fun _ => Guarded 1)) (opening payoutDb payouts) T ∧
      activeOf T = 1 ∧ (activeWithdrawals 1 T.db).length ≤ 1 ∧
      ∀ x, TransactionRepository.scalarOneOrNone (activeWithdrawals 1 T.db) ≠ .error x := by
  have computed : (schedule (Meets (fun _ => Guarded 1)) (opening payoutDb payouts)
      (List.replicate 8 (.run 0) ++ List.replicate 3 (.run 1))).map activeOf = some 1 := by
    decide +kernel
  obtain ⟨T, run, active⟩ := reached_of_schedule computed
  exact ⟨T, run, active, guarded_runs_keep_one_active (by decide) run⟩

end Race

end PayCoreActiveWithdrawals
