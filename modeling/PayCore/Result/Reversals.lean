import PayCore.Proof.SoloHandlers
import PayCore.Result.StatusTransitions

/- Events of one dispatched withdrawal, one after the other: the first decides, whatever
   follows. -/
namespace PayCoreReversals
open KeyedTable SessionProgram PayCoreTables PayCoreWrites PayCoreSessions PayCoreRepositories
open PayCoreWithdrawals PayCoreFunding PayCorePersistence PayCoreCommits PayCoreSoloHandlers
open PayCoreStatusTransitions

abbrev Delivery := TransferEvent × PaystackData

def kinds (events : List Delivery) : List TransferEvent := events.map (·.1)

def afterEvents (answer : Request → Option PaystackData) (db : Database) (events : List Delivery) :
    Database :=
  events.foldl (fun s d => (runAlone answer (processTransferResult d.1 d.2) s).2) db

/-- A transfer.reversed, or a transfer.failed that no transfer.success precedes. -/
def Refundable (events : List TransferEvent) : Prop :=
  .reversed ∈ events ∨ ∃ before after, events = before ++ .failed :: after ∧ .success ∉ before

def balanceOf (walletId : Uuid) (db : Database) : Option Int :=
  (db.wallets.find? walletId).map (·.balance)

/-- The amount is returned once where it has to be, and never for a transfer that succeeded. -/
def Honoured (events : List TransferEvent) (t : Transaction) (wallet : Wallet) (after : Database) : Prop :=
  (Refundable events → balanceOf wallet.id after = some (wallet.balance + t.amount)) ∧
    ((∀ e ∈ events, e = .success) → balanceOf wallet.id after = some wallet.balance)

theorem addressed_event {data : PaystackData} {reference : String}
    (addressed : data.reference = .str reference)
    (named : reference ≠ "") (event : TransferEvent) : ∃ settle,
      processTransferResult event data = onProcessing reference settle := by
  have present : truthy (data.reference.get "") = true := by simp [addressed, Field.get, truthy, named]
  have same : (data.reference.get "").getD "" = reference := by simp [addressed, Field.get]
  unfold processTransferResult
  rw [if_pos present, same]
  cases event with
  | success => exact ⟨_, rfl⟩
  | failed => exact ⟨_, rfl⟩
  | reversed => exact ⟨_, rfl⟩

section
variable {answer : Request → Option PaystackData} {db : Database} {t : Transaction} {wallet : Wallet}
  {events : List Delivery}

/-- Once the withdrawal is settled, no event changes anything. -/
theorem events_ignored {id : Uuid} {row : Transaction} (found : db.transactions.find? id = some row)
    (settled : row.status ≠ .processing) (named : row.reference ≠ "")
    (addressed : ∀ d ∈ events, d.2.reference = .str row.reference) : afterEvents answer db events = db := by
  have key : row.id = id := (find?_some_iff.mp found).2
  subst key
  induction events with
  | nil => rfl
  | cons d rest ih =>
    obtain ⟨settle, program⟩ := addressed_event (addressed d (by simp)) named d.1
    have skipped : (runAlone answer (onProcessing row.reference settle) db).2 = db :=
      event_skipped found settled
    change afterEvents answer (runAlone answer (processTransferResult d.1 d.2) db).2 rest = db
    rw [program, skipped]
    exact ih (fun d mem => addressed d (by simp [mem]))

variable (found : db.transactions.find? t.id = some t) (processing : t.status = .processing)
  (source : t.sourceWalletId = some wallet.id)
  (holder : db.wallets.find? wallet.id = some wallet) (live : wallet.deletedAt = none)
  (named : t.reference ≠ "") (addressed : ∀ d ∈ events, d.2.reference = .str t.reference)
include found processing source holder live named addressed

theorem succeeded_first (answer : Request → Option PaystackData) {d : Delivery} {rest : List Delivery}
    (first : events = d :: rest) (success : d.1 = .success) :
    balanceOf wallet.id (afterEvents answer db events) = some wallet.balance := by
  subst first
  have mine := addressed d (by simp)
  have program : processTransferResult d.1 d.2 = processPayoutSuccess t.reference := by
    rw [success]
    simp [processTransferResult, mine, Field.get, truthy, named]
  obtain ⟨entry, paid⟩ := success_alone found processing source holder live answer
  have settled : (applyAll [.insertEntry (entryOf t wallet.id .debit t.amount wallet.balance),
      mark t.id .completed none, .insertAuditLog entry] db).transactions.find? t.id =
      some (restated t .completed none) := (replaced_update found (transactionEdit _)).after
  change balanceOf wallet.id (afterEvents answer
    (runAlone answer (processTransferResult d.1 d.2) db).2 rest) = some wallet.balance
  rw [program, paid, events_ignored settled (by simp [restated, TransactionUpdate.on]) named
    (fun e mem => addressed e (by simp [mem]))]
  exact congrArg (Option.map (·.balance)) holder

theorem refunded_first (answer : Request → Option PaystackData)
    (affords : WalletRepository.storable (wallet.balance + t.amount))
    {d : Delivery} {rest : List Delivery} (first : events = d :: rest) (failure : d.1 ≠ .success) :
    balanceOf wallet.id (afterEvents answer db events) = some (wallet.balance + t.amount) := by
  subst first
  have mine := addressed d (by simp)
  obtain ⟨code, program⟩ : ∃ code, processTransferResult d.1 d.2 =
      processPayoutFailure t.reference code := by
    refine ⟨(d.2.transferCode.get "").getD "None", ?_⟩
    cases event : d.1 with
    | success => exact absurd event failure
    | failed => simp [processTransferResult, mine, Field.get, truthy, named]
    | reversed => simp [processTransferResult, mine, Field.get, truthy, named]
  obtain ⟨reason, entry, refunded⟩ :=
    failure_alone found processing source holder live answer affords code
  have settled : (applyAll [.setBalance wallet.id (wallet.balance + t.amount),
      mark t.id .failed reason, .insertAuditLog entry] db).transactions.find? t.id =
      some (restated t .failed reason) := (replaced_update found (transactionEdit _)).after
  have paid := (replaced_update holder (balanceEdit (wallet.balance + t.amount))).after
  change balanceOf wallet.id (afterEvents answer
    (runAlone answer (processTransferResult d.1 d.2) db).2 rest) = some (wallet.balance + t.amount)
  rw [program, refunded, events_ignored settled (by simp [restated, TransactionUpdate.on]) named
    (fun e mem => addressed e (by simp [mem]))]
  exact congrArg (Option.map (·.balance)) paid

omit found processing source holder live named addressed in
theorem refundable_success (rest : List TransferEvent) :
    Refundable (.success :: rest) ↔ .reversed ∈ rest := by
  constructor
  · rintro (reversed | ⟨before, after, split, unpaid⟩)
    · simpa using reversed
    · cases before with
      | nil => simp at split
      | cons first more =>
        simp only [List.cons_append, List.cons.injEq] at split
        simp [← split.1] at unpaid
  · intro reversed
    exact Or.inl (by simp [reversed])

theorem refund_follows_events_iff (positive : 0 < t.amount)
    (room : WalletRepository.storable (wallet.balance + t.amount)) :
    Honoured (kinds events) t wallet (afterEvents answer db events) ↔
      ((kinds events).head? = some .success → .reversed ∉ kinds events) := by
  cases given : events with
  | nil =>
    refine iff_of_true ⟨?_, ?_⟩ (by simp [kinds])
    · rintro (never | ⟨before, after, split, _⟩)
      · cases never
      · cases before <;> cases split
    · intro _
      exact congrArg (Option.map (·.balance)) holder
  | cons d rest =>
    by_cases success : d.1 = .success
    · have balance := succeeded_first found processing source holder live named
        addressed answer given success
      have kept : wallet.balance ≠ wallet.balance + t.amount := by omega
      rw [given] at balance
      simp [Honoured, kinds, success, refundable_success, balance, kept]
    · have balance := refunded_first found processing source holder live named
        addressed answer room given success
      rw [given] at balance
      refine iff_of_true ⟨fun _ => balance, ?_⟩ (by simp [kinds, success])
      intro all
      exact absurd (all d.1 (by simp [kinds])) success

end

section Reversed

def silence (_ : Request) : Option PaystackData := none

def heldWallet : Wallet := { id := 11, userId := 1, balance := 4000 }

def deliver (event : TransferEvent) : Delivery := (event, { reference := .str "txn_a" })

/-- The bank takes the transfer back after transfer.success: the NGN 60.00 stay gone. -/
theorem late_reversal_is_dropped :
    ¬ Honoured [.success, .reversed] (heldWithdrawal .processing) heldWallet
      (afterEvents silence (heldDb .processing) [deliver .success, deliver .reversed]) := by
  intro honoured
  have returned := honoured.1 (Or.inl (by decide))
  revert returned
  decide +kernel

theorem failure_refunds_once : Honoured [.failed, .success, .reversed] (heldWithdrawal .processing)
    heldWallet (afterEvents silence (heldDb .processing)
      [deliver .failed, deliver .success, deliver .reversed]) := by
  have holder : (heldDb .processing).wallets.find? heldWallet.id = some heldWallet := rfl
  have addressed : ∀ d ∈ [deliver .failed, deliver .success, deliver .reversed],
      d.2.reference = .str "txn_a" := by
    intro d mem
    simp only [List.mem_cons, List.not_mem_nil, or_false] at mem
    rcases mem with rfl | rfl | rfl <;> rfl
  exact (refund_follows_events_iff (t := heldWithdrawal .processing) rfl rfl rfl holder rfl (by decide)
    addressed (by decide) (by decide)).mpr (by decide)

end Reversed

end PayCoreReversals
