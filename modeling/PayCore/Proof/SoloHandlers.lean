import PayCore.Proof.Handlers

/- The handlers with nobody else at work: where their guards pass they end well, and these
   are the writes they leave behind. -/
namespace PayCoreSoloHandlers
open KeyedTable SessionProgram PayCoreTables PayCoreWrites PayCoreSessions PayCoreRepositories
open PayCoreSupport PayCoreWithdrawals PayCoreFunding PayCorePersistence PayCoreCommits
open PayCoreStatements PayCoreHandlers

abbrev Solo := Local Database IdentityMap Write Request

variable {answer : Request → Option PaystackData} {s : Solo} {db : Database}

theorem yields_select {pick : Database → Except AppError (Option Transaction)} {row : Transaction}
    (picked : pick s.seen = .ok (some row)) (unloaded : s.memory.transactions row.id = none) :
    Yields answer (TransactionRepository.select pick) s (some row)
      { s with memory := s.memory.keepTransaction row } := by
  simp [Yields, TransactionRepository.select, exec, picked, transaction_unloaded unloaded]

theorem yields_lockForUpdate {row : Wallet} (found : s.seen.wallets.find? row.id = some row)
    (live : row.deletedAt = none) (unloaded : s.memory.wallets row.id = none) :
    Yields answer (WalletRepository.lockForUpdate row.id) s (some row)
      { s with memory := s.memory.keepWallet row } := by
  have picked : WalletRepository.byId row.id s.seen = some row := by
    simp [WalletRepository.byId, found, WalletRepository.live, live]
  simp [Yields, WalletRepository.lockForUpdate, WalletRepository.select, exec, picked,
    wallet_unloaded unloaded]

/-- What a session holds of a wallet after its balance is set. -/
def rebalanced (wallet : Wallet) (balance : Int) (db : Database) : Wallet :=
  { (db.wallets.find? wallet.id).getD wallet with balance := balance }

theorem yields_updateBalance {wallet : Wallet} {balance : Int}
    (fits : WalletRepository.storable balance) :
    Yields answer (WalletRepository.updateBalance wallet balance) s (rebalanced wallet balance s.seen)
      { s with
        pending := s.pending ++ [.setBalance wallet.id balance]
        memory := s.memory.keepWallet (rebalanced wallet balance s.seen) } := by
  simp only [Yields, WalletRepository.updateBalance, exec, if_pos fits]
  rfl

theorem updateBalance_refused (answer : Request → Option PaystackData) (wallet : Wallet) {balance : Int}
    (unfit : ¬ WalletRepository.storable balance) :
    ∃ x, exec answer (WalletRepository.updateBalance wallet balance) s = (.error x, s) := by
  simp only [WalletRepository.updateBalance, exec, if_neg unfit, List.append_nil]
  split
  · exact ⟨_, rfl⟩
  · exact ⟨_, rfl⟩

theorem yields_createEntry (e : LedgerEntry) :
    Yields answer (LedgerRepository.createEntry e) s e
      { s with pending := s.pending ++ [.insertEntry e] } := rfl

def restated (row : Transaction) (status : TransactionStatus) (reason : Option String) : Transaction :=
  TransactionUpdate.on { status := some status, failureReason := reason } row

theorem yields_updateStatus {txn row : Transaction} {status : TransactionStatus}
    {reason : Option String} (valid : status ∈ validTransitions txn.status)
    (found : s.seen.transactions.find? txn.id = some row) :
    Yields answer (TransactionRepository.updateStatus txn status reason) s (restated row status reason)
      { s with
        pending := s.pending ++ [mark txn.id status reason]
        memory := s.memory.keepTransaction (restated row status reason) } := by
  simp only [Yields, TransactionRepository.updateStatus, if_pos valid, TransactionRepository.flush,
    exec, found, Option.getD_some]
  rfl

theorem yields_commit : Yields answer commit s () { s with db := s.seen, pending := [] } := rfl

theorem yields_auditLog (entry : AuditLog) (bare : s.pending = []) :
    Yields answer (auditLog entry) s () { s with db := applyWrite (.insertAuditLog entry) s.db } := by
  unfold auditLog
  refine yields_handle ?_
  refine yields_seq (a := ()) (u := { s with pending := [.insertAuditLog entry] }) ?_ ?_
  · simp [Yields, exec, bare]
  · simp [Yields, commit, exec, Local.seen]
    exact bare

section Payouts
variable {row : Transaction} {wallet : Wallet}

theorem event_skipped {settle : Transaction → Uuid → Tx Unit}
    (found : db.transactions.find? row.id = some row) (settled : row.status ≠ .processing) :
    (runAlone answer (onProcessing row.reference settle) db).2 = db := by
  have picked := byReference_stored found
  refine endsIn_alone (Q := fun s => s = db) ?_
  unfold onProcessing
  refine endsIn_seq (yields_select (congrArg Except.ok picked) rfl) ?_
  simp only [if_neg settled]
  exact ⟨(), _, rfl, rfl⟩

variable (found : db.transactions.find? row.id = some row) (status : row.status = .processing)
  (source : row.sourceWalletId = some wallet.id)
  (holder : db.wallets.find? wallet.id = some wallet) (live : wallet.deletedAt = none)
include found status source holder live

theorem success_alone (answer : Request → Option PaystackData) :
    ∃ entry, (runAlone answer (processPayoutSuccess row.reference) db).2 =
    applyAll [.insertEntry (entryOf row wallet.id .debit row.amount wallet.balance),
      mark row.id .completed none, .insertAuditLog entry] db := by
  have picked := byReference_stored found
  have ends := processing_ends status (Or.inl (rfl : TransactionStatus.completed = .completed))
  refine endsIn_alone (Q := fun s => ∃ entry, s = applyAll
    [.insertEntry (entryOf row wallet.id .debit row.amount wallet.balance),
      mark row.id .completed none, .insertAuditLog entry] db) ?_
  unfold processPayoutSuccess onProcessing
  refine endsIn_seq (yields_select (congrArg Except.ok picked) rfl) ?_
  simp only [if_pos status, source]
  unfold settlePayout
  refine endsIn_seq (yields_lockForUpdate holder live rfl) ?_
  refine endsIn_seq (yields_createEntry _) ?_
  refine endsIn_seq (yields_updateStatus ends found) ?_
  refine endsIn_seq yields_commit ?_
  exact ⟨(), _, yields_auditLog _ rfl, _, rfl⟩

theorem failure_alone (answer : Request → Option PaystackData)
    (affords : WalletRepository.storable (wallet.balance + row.amount)) (transferCode : String) :
    ∃ reason entry, (runAlone answer (processPayoutFailure row.reference transferCode) db).2 =
      applyAll [.setBalance wallet.id (wallet.balance + row.amount), mark row.id .failed reason,
        .insertAuditLog entry] db := by
  have picked := byReference_stored found
  have ends := processing_ends status (Or.inr (rfl : TransactionStatus.failed = .failed))
  refine endsIn_alone (Q := fun s => ∃ reason entry, s = applyAll
    [.setBalance wallet.id (wallet.balance + row.amount), mark row.id .failed reason,
      .insertAuditLog entry] db) ?_
  unfold processPayoutFailure onProcessing
  refine endsIn_seq (yields_select (congrArg Except.ok picked) rfl) ?_
  simp only [if_pos status, source]
  unfold refundPayout
  refine endsIn_seq (yields_lockForUpdate holder live rfl) ?_
  refine endsIn_seq (yields_updateBalance affords) ?_
  refine endsIn_seq (yields_updateStatus ends found) ?_
  refine endsIn_seq yields_commit ?_
  exact ⟨(), _, yields_auditLog _ rfl, _, _, rfl⟩

end Payouts

section Charges
variable {row : Transaction} {data : PaystackData} {reference : String}
  (named : data.reference = .str reference) (present : reference ≠ "")
  (picked : TransactionRepository.byProviderReference reference db = .ok (some row))
include named present picked

theorem charge_skipped (settled : row.status ≠ .pending) :
    (runAlone answer (processChargeSuccess data) db).2 = db := by
  have has : truthy (data.reference.get "") = true := by simp [named, Field.get, truthy, present]
  have same : (data.reference.get "").getD "" = reference := by simp [named, Field.get]
  refine endsIn_alone (Q := fun s => s = db) ?_
  unfold processChargeSuccess
  rw [if_pos has, same]
  refine endsIn_seq (yields_select picked rfl) ?_
  simp only [if_neg settled]
  exact ⟨(), _, rfl, rfl⟩

theorem charge_alone {wallet : Wallet} (pending : row.status = .pending)
    (destination : row.destinationWalletId = some wallet.id)
    (holder : db.wallets.find? wallet.id = some wallet) (live : wallet.deletedAt = none)
    (affords : WalletRepository.storable (wallet.balance + data.amount.getD 0))
    (answer : Request → Option PaystackData) :
    ∃ entry, (runAlone answer (processChargeSuccess data) db).2 =
      applyWrite (.insertAuditLog entry) (applyAll (creditWrites row wallet (data.amount.getD 0)) db) := by
  have has : truthy (data.reference.get "") = true := by simp [named, Field.get, truthy, present]
  have same : (data.reference.get "").getD "" = reference := by simp [named, Field.get]
  have found := (byProviderReference_keyed picked).1
  have marked : (applyAll [mark row.id .processing none] db).transactions.find? row.id =
      some (restated row .processing none) := (replaced_update found (transactionEdit _)).after
  refine endsIn_alone (Q := fun s => ∃ entry, s =
    applyWrite (.insertAuditLog entry) (applyAll (creditWrites row wallet (data.amount.getD 0)) db)) ?_
  unfold processChargeSuccess
  rw [if_pos has, same]
  refine endsIn_seq (yields_select picked rfl) ?_
  simp only [if_pos pending]
  refine endsIn_seq (yields_updateStatus (pending_starts pending) found) ?_
  have credits : (restated row .processing none).destinationWalletId = some wallet.id := destination
  simp only [credits]
  unfold creditFunding
  refine endsIn_seq (yields_lockForUpdate holder live rfl) ?_
  refine endsIn_seq (yields_updateBalance affords) ?_
  refine endsIn_seq (yields_createEntry _) ?_
  refine endsIn_seq (yields_updateStatus (processing_ends rfl (Or.inl rfl)) marked) ?_
  refine endsIn_seq yields_commit ?_
  exact ⟨(), _, yields_auditLog _ rfl, _, rfl⟩

end Charges

section Requests

theorem reads_require (condition : Bool) (error : AppError) : Reads (require condition error) := by
  unfold require
  split <;> trivial

theorem reads_orRaise {α : Type} (value : Option α) (error : AppError) : Reads (orRaise value error) := by
  cases value <;> trivial

theorem reads_resolveFunding (user : User) (amount : Int) : Reads (resolveFunding user amount) := by
  refine reads_seq (fun _ _ => ⟨rfl, trivial⟩) (fun found => ?_)
  refine reads_seq (reads_orRaise found _) (fun wallet => ?_)
  refine reads_seq (reads_require _ _) (fun _ => ?_)
  exact reads_seq (reads_require _ _) (fun _ => trivial)

theorem reads_lookupKey (key : Option String) : Reads (lookupKey key) := by
  unfold lookupKey
  split
  · exact fun _ _ => ⟨rfl, trivial⟩
  · trivial

theorem reads_fundingOf (t : Transaction) (url : Option String) : Reads (fundingOf t url) :=
  reads_seq (reads_orRaise url _) (fun _ => trivial)

/-- What initiate_funding stores, given Paystack's reply to its own reference. -/
structure Requested (answer : Request → Option PaystackData) (t : Transaction) : Prop where
  type : t.type = .funding
  status : t.status = .pending
  named : t.reference ≠ ""
  referred : ∃ email amount data,
    answer (.initializeTransaction email amount t.reference) = some data ∧
    t.providerReference = data.reference.get t.reference

theorem leaves_paystack {α : Type} {request : Request} {f : PaystackData → Tx α} {Q : Database → Prop}
    (lost : answer request = none → Q s.db)
    (replied : ∀ data, answer request = some data →
      Leaves answer (f data) { s with calls := s.calls ++ [request] } Q) :
    Leaves answer (paystack request >>= f) s Q := by
  unfold Leaves
  rw [exec_seq]
  simp only [paystack, exec]
  cases reply : answer request with
  | none => exact lost reply
  | some data => exact replied data reply

theorem leaves_create {α : Type} {t : Transaction} {f : Transaction → Tx α} {Q : Database → Prop}
    (bare : s.pending = []) (refused : Q s.db)
    (created : s.db.transactions.admits t = true → ∀ memory,
      Leaves answer (f t) { s with pending := [.insertTransaction t], memory := memory } Q) :
    Leaves answer (TransactionRepository.create t >>= f) s Q := by
  have here : s.seen = s.db := by simp [Local.seen, bare]
  unfold TransactionRepository.create
  split
  swap
  · exact refused
  unfold Leaves
  rw [exec_seq]
  simp only [TransactionRepository.insert, exec, here]
  by_cases free : s.db.transactions.admits t = true
  · simp only [free, if_true, exec, bare, List.nil_append]
    exact created free _
  · simp only [free]
    exact refused

theorem leaves_commit {α : Type} {f : Unit → Tx α} {Q : Database → Prop}
    (rest : Leaves answer (f ()) { s with db := s.seen, pending := [] } Q) :
    Leaves answer (commit >>= f) s Q := by
  unfold Leaves
  rw [exec_seq]
  exact rest

theorem funding_alone (user : User) (amount : Int) (key : Option String) (draws : WithdrawalDraws) :
    Leaves answer (initiateFunding user amount key draws) (start db) (fun s => s = db ∨
      ∃ t, db.transactions.admits t = true ∧ Requested answer t ∧
        s = applyWrite (.insertTransaction t) db) := by
  unfold initiateFunding
  refine leaves_after (reads_resolveFunding user amount) (Or.inl rfl) ?_
  intro wallet u db1 pending1
  refine leaves_after (reads_lookupKey key) (Or.inl db1) ?_
  intro existing v db2 pending2
  have here : v.db = db := db2.trans db1
  have bare : v.pending = [] := pending2.trans pending1
  cases existing with
  | some txn => exact leaves_reads (reads_fundingOf txn _) (Or.inl here)
  | none =>
    refine leaves_paystack (fun _ => Or.inl here) ?_
    intro data reply
    refine leaves_create bare (Or.inl here) ?_
    intro free memory
    refine leaves_commit ?_
    refine leaves_reads (reads_fundingOf _ _) (Or.inr ⟨_, by rw [← here]; exact free, ?_, ?_⟩)
    · exact ⟨rfl, rfl, by simp, user.email, amount, data, reply, rfl⟩
    · change applyWrite (.insertTransaction _) v.db = _
      rw [here]

theorem sweep_alone {transactionId : Uuid} {providerReference : String} {Q : Database → Prop}
    (lost : Q db)
    (replied : ∀ data, answer (.verifyTransaction providerReference) = some data →
      Leaves answer (applyResult transactionId data)
        ⟨db, [], default, [.verifyTransaction providerReference]⟩ Q) :
    Leaves answer (reconcileFunding transactionId providerReference) (start db) Q :=
  leaves_swallowed (leaves_paystack (fun _ => lost) replied)

end Requests

end PayCoreSoloHandlers
