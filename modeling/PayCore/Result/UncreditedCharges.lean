import PayCore.Result.ChargeAmounts

/- What the two callers of process_charge_success commit where it returns without a credit. -/
namespace PayCoreUncreditedCharges
open KeyedTable SessionProgram PayCoreTables PayCoreWrites PayCoreSessions PayCoreRepositories
open PayCoreFunding PayCorePersistence PayCoreCommits PayCoreStatements PayCoreSoloHandlers
open PayCoreHandlers PayCoreFundingCredits PayCoreChargeAmounts

inductive Caller where
  | dispatch (eventType : String)
  | reconcileFunding (transactionId : Uuid) (providerReference : String)

def Caller.program (data : PaystackData) : Caller → Tx Unit
  | .dispatch eventType => PayCoreFunding.dispatch eventType data
  | .reconcileFunding transactionId providerReference =>
      PayCoreFunding.reconcileFunding transactionId providerReference

def Hands (answer : Request → Option PaystackData) (data : PaystackData) : Caller → Prop
  | .dispatch eventType => eventType = "charge.success"
  | .reconcileFunding _ providerReference =>
      answer (.verifyTransaction providerReference) = some data ∧ data.status.get "" = some "success"

def Caller.session (db : Database) : Caller → Solo
  | .dispatch _ => ⟨db, [], default, []⟩
  | .reconcileFunding _ providerReference => ⟨db, [], default, [.verifyTransaction providerReference]⟩

/-- The sweep commits once more when process_charge_success has returned. -/
def Caller.commits : Caller → Prop
  | .dispatch _ => False
  | .reconcileFunding _ _ => True

def credits (db : Database) : List LedgerEntry := db.ledgerEntries.filter (·.entryType = .credit)

/-- Where process_charge_success returns and has posted no CREDIT entry, its caller commits nothing. -/
def Discards (answer : Request → Option PaystackData) (db : Database) (data : PaystackData)
    (caller : Caller) : Prop :=
  ∀ u, exec answer (processChargeSuccess data) (caller.session db) = (.ok (), u) →
    credits u.seen = credits db → (runAlone answer (caller.program data) db).2 = db

/-- The payload names a PENDING transaction that no live wallet stands behind. -/
def Strands (db : Database) (data : PaystackData) : Prop :=
  ∃ reference row, data.reference = .str reference ∧ reference ≠ "" ∧
    TransactionRepository.byProviderReference reference db = .ok (some row) ∧ row.status = .pending ∧
    ∀ walletId, row.destinationWalletId = some walletId → WalletRepository.byId walletId db = none

/-- How process_charge_success ends in a session that holds nothing yet. -/
inductive Outcome (db : Database) (data : PaystackData) : Except AppError Unit × Solo → Prop where
  | untouched (u : Solo) (seen : u.db = db) (bare : u.pending = []) (moored : ¬ Strands db data) :
      Outcome db data (.ok (), u)
  | stranded (u : Solo) (row : Transaction) (found : db.transactions.find? row.id = some row)
      (pending : row.status = .pending) (kept : u.db = db)
      (flushed : u.pending = [mark row.id .processing none]) (strands : Strands db data) :
      Outcome db data (.ok (), u)
  | credited (u : Solo) (entry : LedgerEntry) (credit : entry.entryType = .credit)
      (posted : u.seen.ledgerEntries = db.ledgerEntries ++ [entry]) (moored : ¬ Strands db data) :
      Outcome db data (.ok (), u)
  | refused (u : Solo) (x : AppError) (moored : ¬ Strands db data) : Outcome db data (.error x, u)

section Ends
variable {answer : Request → Option PaystackData} {db : Database} {data : PaystackData} {s : Solo}

theorem outcome_first {α : Type} {p : Tx α} {f : α → Tx Unit} {u : Solo} {a : α}
    (first : Yields answer p s a u) (rest : Outcome db data (exec answer (f a) u)) :
    Outcome db data (exec answer (p >>= f) s) := by
  unfold Yields at first
  rw [exec_seq, first]
  exact rest

theorem strands_named {reference : String} {row : Transaction} (named : data.reference = .str reference)
    (present : reference ≠ "")
    (picked : TransactionRepository.byProviderReference reference db = .ok (some row)) :
    Strands db data ↔ row.status = .pending ∧
      ∀ walletId, row.destinationWalletId = some walletId → WalletRepository.byId walletId db = none := by
  constructor
  · rintro ⟨reference', row', named', _, picked', pending, missing⟩
    rw [named] at named'
    cases named'
    rw [picked] at picked'
    cases picked'
    exact ⟨pending, missing⟩
  · rintro ⟨pending, missing⟩
    exact ⟨reference, row, named, present, picked, pending, missing⟩

theorem moored_unpicked {reference : String} (named : data.reference = .str reference)
    (unpicked : ∀ row, TransactionRepository.byProviderReference reference db ≠ .ok (some row)) :
    ¬ Strands db data := by
  rintro ⟨reference', row, named', _, picked, _⟩
  rw [named] at named'
  cases named'
  exact unpicked row picked

theorem credit_outcome {row : Transaction} {walletId : Uuid} (amount : Int) (memory : IdentityMap)
    (calls : List Request) (found : db.transactions.find? row.id = some row)
    (pending : row.status = .pending) (unloaded : memory.wallets walletId = none)
    (strands : Strands db data ↔ WalletRepository.byId walletId db = none) :
    Outcome db data (exec answer (creditFunding (restated row .processing none) walletId amount)
      ⟨db, [mark row.id .processing none], memory, calls⟩) := by
  unfold creditFunding
  cases held : WalletRepository.byId walletId db with
  | none =>
    have looked : Yields answer (WalletRepository.lockForUpdate walletId)
        ⟨db, [mark row.id .processing none], memory, calls⟩ none
        ⟨db, [mark row.id .processing none], memory, calls⟩ := by
      have missing : WalletRepository.byId walletId (applyWrite (mark row.id .processing none) db) =
          none := held
      simp [Yields, WalletRepository.lockForUpdate, WalletRepository.select, exec, Local.seen,
        Store.apply, missing]
    refine outcome_first looked ?_
    exact .stranded _ row found pending rfl rfl (strands.mpr held)
  | some wallet =>
    have moored : ¬ Strands db data := by
      rw [strands, held]
      exact Option.some_ne_none wallet
    obtain ⟨rfl, holder, live⟩ := held_wallet held
    refine outcome_first (yields_lockForUpdate holder live unloaded) ?_
    by_cases fits : WalletRepository.storable (wallet.balance + amount)
    swap
    · obtain ⟨x, refused⟩ := updateBalance_refused answer wallet fits
      rw [exec_seq, refused]
      exact .refused _ _ moored
    · have marked : (applyAll [mark row.id .processing none] db).transactions.find? row.id =
          some (restated row .processing none) := (replaced_update found (transactionEdit _)).after
      refine outcome_first (yields_updateBalance fits) ?_
      refine outcome_first (yields_createEntry _) ?_
      refine outcome_first (yields_updateStatus (processing_ends rfl (Or.inl rfl)) marked) ?_
      refine outcome_first yields_commit ?_
      rw [yields_auditLog _ rfl]
      exact .credited _ _ rfl rfl moored

/-- The ways in which process_charge_success ends: only a stranded payload leaves a write behind. -/
theorem charge_outcome (answer : Request → Option PaystackData) (db : Database) (data : PaystackData)
    (calls : List Request) :
    Outcome db data (exec answer (processChargeSuccess data) ⟨db, [], default, calls⟩) := by
  unfold processChargeSuccess
  by_cases has : truthy (data.reference.get "") = true
  swap
  · rw [if_neg has]
    refine .untouched _ rfl rfl ?_
    rintro ⟨reference, row, named, present, _⟩
    exact has (by simp [named, Field.get, truthy, present])
  obtain ⟨reference, named, present⟩ := named_reference has
  have same : (data.reference.get "").getD "" = reference := by simp [named, Field.get]
  rw [if_pos has, same]
  dsimp only
  cases picked : TransactionRepository.byProviderReference reference db with
  | error x =>
    have moored : ¬ Strands db data := moored_unpicked named (fun row => by simp [picked])
    rw [exec_seq]
    simp only [TransactionRepository.getByProviderReference, TransactionRepository.select, exec, Local.seen,
      applyAll_nil, picked]
    exact .refused _ _ moored
  | ok looked =>
    cases looked with
    | none =>
      have moored : ¬ Strands db data := moored_unpicked named (fun row => by simp [picked])
      rw [exec_seq]
      simp only [TransactionRepository.getByProviderReference, TransactionRepository.select, exec,
        Local.seen,
        applyAll_nil, picked]
      exact .untouched _ rfl rfl moored
    | some row =>
      have found := (byProviderReference_keyed picked).1
      have strands := strands_named named present picked
      refine outcome_first (yields_select picked rfl) ?_
      dsimp only
      by_cases pending : row.status = .pending
      swap
      · rw [if_neg pending]
        exact .untouched _ rfl rfl (fun stranded => pending (strands.mp stranded).1)
      rw [if_pos pending]
      refine outcome_first (yields_updateStatus (pending_starts pending) found) ?_
      have kept : (restated row .processing none).destinationWalletId = row.destinationWalletId := rfl
      rw [kept]
      cases destination : row.destinationWalletId with
      | none =>
        refine .stranded _ row found pending rfl rfl (strands.mpr ⟨pending, ?_⟩)
        intro walletId other
        rw [destination] at other
        cases other
      | some walletId =>
        refine credit_outcome _ _ _ found pending rfl (strands.trans ?_)
        constructor
        · exact fun h => h.2 walletId destination
        · intro missing
          refine ⟨pending, ?_⟩
          intro other same
          rw [destination] at same
          cases same
          exact missing

end Ends

theorem credits_posted {before after : Database} {entry : LedgerEntry} (credit : entry.entryType = .credit)
    (posted : after.ledgerEntries = before.ledgerEntries ++ [entry]) : credits after ≠ credits before := by
  intro same
  have longer := congrArg List.length same
  simp [credits, posted, credit] at longer

section Callers
variable {answer : Request → Option PaystackData} {db : Database} {data : PaystackData} {u : Solo}

theorem dispatch_commits {eventType : String} (hands : Hands answer data (.dispatch eventType))
    (returned : exec answer (processChargeSuccess data) ((Caller.dispatch eventType).session db) =
      (.ok (), u)) :
    (runAlone answer ((Caller.dispatch eventType).program data) db).2 = u.db := by
  have handler : PayCoreFunding.dispatch eventType data = processChargeSuccess data := if_pos hands
  change (exec answer (PayCoreFunding.dispatch eventType data) (start db)).2.db = u.db
  rw [handler]
  exact congrArg (fun ending => ending.2.db) returned

theorem sweep_commits {transactionId : Uuid} {providerReference : String}
    (hands : Hands answer data (.reconcileFunding transactionId providerReference))
    (returned : exec answer (processChargeSuccess data)
      ((Caller.reconcileFunding transactionId providerReference).session db) = (.ok (), u)) :
    (runAlone answer ((Caller.reconcileFunding transactionId providerReference).program data)
      db).2 = u.seen := by
  obtain ⟨replied, success⟩ := hands
  change Leaves answer (reconcileFunding transactionId providerReference) (start db)
    (fun after => after = u.seen)
  refine leaves_swallowed (leaves_paystack (fun lost => ?_) ?_)
  · rw [replied] at lost
    cases lost
  · intro data' reply
    rw [replied] at reply
    cases reply
    unfold applyResult
    rw [if_pos success]
    exact leaves_yields (u := u) (a := ()) returned rfl

end Callers

/-- A payload that process_charge_success turns away without a credit leaves no trace, unless the
    sweep hands it one whose transaction has no live wallet: there PROCESSING is committed. -/
theorem uncredited_charge_leaves_no_trace_iff {answer : Request → Option PaystackData} (db : Database)
    {data : PaystackData} {caller : Caller} (hands : Hands answer data caller) :
    Discards answer db data caller ↔ ¬ (caller.commits ∧ Strands db data) := by
  cases caller with
  | dispatch eventType =>
    constructor
    · exact fun _ both => both.1
    · intro _ u returned uncredited
      rw [dispatch_commits hands returned]
      have outcome : Outcome db data (.ok (), u) := returned ▸ charge_outcome answer db data []
      cases outcome with
      | untouched _ kept => exact kept
      | stranded _ _ _ _ kept => exact kept
      | credited _ entry credit posted => exact absurd uncredited (credits_posted credit posted)
  | reconcileFunding transactionId providerReference =>
    have outcome := charge_outcome answer db data [.verifyTransaction providerReference]
    constructor
    · rintro discards ⟨_, strands⟩
      generalize ending : exec answer (processChargeSuccess data) _ = finish at outcome
      cases outcome with
      | untouched _ _ _ moored => exact moored strands
      | credited _ _ _ _ moored => exact moored strands
      | refused _ _ moored => exact moored strands
      | stranded u row found pending kept flushed _ =>
        have seen : u.seen = applyAll [mark row.id .processing none] db := by rw [Local.seen, kept, flushed]
        have uncredited : credits u.seen = credits db := by
          rw [seen]
          rfl
        have unchanged := discards u ending uncredited
        rw [sweep_commits hands ending, seen] at unchanged
        have marked : (applyAll [mark row.id .processing none] db).transactions.find? row.id =
          some (restated row .processing none) := (replaced_update found (transactionEdit _)).after
        rw [unchanged, found] at marked
        have status := congrArg Transaction.status (Option.some.inj marked)
        rw [pending] at status
        cases status
    · intro moored u returned uncredited
      rw [sweep_commits hands returned]
      have outcome : Outcome db data (.ok (), u) := returned ▸ outcome
      cases outcome with
      | untouched _ kept bare => rw [Local.seen, kept, bare, applyAll_nil]
      | stranded _ _ _ _ _ _ strands => exact absurd ⟨trivial, strands⟩ moored
      | credited _ entry credit posted => exact absurd uncredited (credits_posted credit posted)

section Orphaned

/-- The wallet of the one PENDING funding has been soft-deleted. -/
def orphanDb : Database :=
  { fundingDb with wallets := ⟨[{ id := 11, userId := 1, deletedAt := some 5 }],
    List.pairwise_singleton _ _⟩ }

def confirmed : PaystackData := { reference := .str "txn_f", status := .str "success", amount := some 5000 }

def confirming (request : Request) : Option PaystackData :=
  if request = .verifyTransaction "txn_f" then some confirmed else none

def sweep : Caller := .reconcileFunding 200 "txn_f"

theorem sweep_hands : Hands confirming confirmed sweep := ⟨rfl, rfl⟩

/-- The sweep commits PROCESSING for a funding that nobody has been credited for. -/
theorem orphan_is_left_processing :
    ¬ ∀ (answer : Request → Option PaystackData) (db : Database) (data : PaystackData) (caller : Caller),
      Hands answer data caller → Discards answer db data caller := by
  intro claim
  have discards := claim confirming orphanDb confirmed sweep sweep_hands
  have ending : exec confirming (processChargeSuccess confirmed) (sweep.session orphanDb) =
    (.ok (), (exec confirming (processChargeSuccess confirmed) (sweep.session orphanDb)).2) := rfl
  have unchanged := discards _ ending (by decide +kernel)
  have status :
      ((runAlone confirming (sweep.program confirmed) orphanDb).2.transactions.find? 200).map (·.status) =
    some .processing := by decide +kernel
  rw [unchanged] at status
  cases status

/-- With the wallet there, the sweep credits it, and nothing is left to discard. -/
theorem credited_funding_is_not_stranded : Discards confirming fundingDb confirmed sweep := by
  apply (uncredited_charge_leaves_no_trace_iff fundingDb sweep_hands).mpr
  rintro ⟨_, reference, row, named, _, picked, _, missing⟩
  cases named
  have computed : TransactionRepository.byProviderReference "txn_f" fundingDb =
      .ok (some pendingFunding) := rfl
  rw [computed] at picked
  cases picked
  have gone := missing 11 rfl
  cases gone

end Orphaned

end PayCoreUncreditedCharges
