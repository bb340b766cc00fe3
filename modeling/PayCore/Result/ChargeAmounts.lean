import PayCore.Proof.Books
import PayCore.Proof.SoloHandlers
import PayCore.Result.FundingCredits

/- The amount that a charge.success payload reports against the amount of the funding that it
   completes. -/
namespace PayCoreChargeAmounts
open KeyedTable SessionProgram PayCoreTables PayCoreWrites PayCoreSessions PayCoreRepositories
open PayCoreFunding PayCoreCommits PayCoreStatements PayCoreSoloHandlers PayCoreFundingCredits
open PayCoreHandlers PayCoreBooks

variable {answer : Request → Option PaystackData} {db : Database} {data : PaystackData}

/-- The payload names a PENDING transaction that is paid into a live wallet. -/
structure Addressed (db : Database) (data : PaystackData) (row : Transaction) (wallet : Wallet) : Prop where
  named : ∃ reference, data.reference = .str reference ∧ reference ≠ "" ∧
    TransactionRepository.byProviderReference reference db = .ok (some row)
  pending : row.status = .pending
  destination : row.destinationWalletId = some wallet.id
  holder : db.wallets.find? wallet.id = some wallet
  live : wallet.deletedAt = none

def reported (data : PaystackData) : Int := data.amount.getD 0

structure CreditedFor (amount : Int) (row : Transaction) (wallet : Wallet)
    (before after : Database) : Prop where
  status : ∃ t, after.transactions.find? row.id = some t ∧ t.status = .completed
  credited : ∃ w, after.wallets.find? wallet.id = some w ∧ w.balance = wallet.balance + amount
  posted : after.ledgerEntries = before.ledgerEntries ++
    [entryOf row wallet.id .credit amount (wallet.balance + amount)]

def Completes (before after : Database) (row : Transaction) : Prop :=
  before.transactions.find? row.id = some row ∧ row.status ≠ .completed ∧
    ∃ t, after.transactions.find? row.id = some t ∧ t.status = .completed

/-- What would hold if the payload had to report the recorded amount. -/
structure CreditsRecorded (db : Database) (data : PaystackData) (after : Database) : Prop where
  only : ∀ row, Completes db after row → row.type = .funding ∧
    ∃ wallet, Addressed db data row wallet ∧ CreditedFor row.amount row wallet db after
  exact : ∀ row wallet, Addressed db data row wallet → row.type = .funding → reported data = row.amount →
    WalletRepository.storable (wallet.balance + row.amount) → CreditedFor row.amount row wallet db after
  otherwise : (∀ row wallet, Addressed db data row wallet → row.type = .funding →
    reported data ≠ row.amount) →
    after = db

/-- What does hold: the payload alone says how much is credited, where the balance column takes it. -/
structure CreditsReported (db : Database) (data : PaystackData) (after : Database) : Prop where
  only : ∀ row, Completes db after row →
    ∃ wallet, Addressed db data row wallet ∧ CreditedFor (reported data) row wallet db after
  exact : ∀ row wallet, Addressed db data row wallet → reported data = row.amount →
    WalletRepository.storable (wallet.balance + row.amount) → CreditedFor row.amount row wallet db after
  otherwise : (∀ row wallet, Addressed db data row wallet →
    ¬ WalletRepository.storable (wallet.balance + reported data)) → after = db

def charged (answer : Request → Option PaystackData) (db : Database) (data : PaystackData) : Database :=
  (runAlone answer (processChargeSuccess data) db).2

theorem charged_addressed {row : Transaction} {wallet : Wallet} (addressed : Addressed db data row wallet)
    (affords : WalletRepository.storable (wallet.balance + reported data)) :
    CreditedFor (reported data) row wallet db (charged answer db data) := by
  obtain ⟨reference, named, present, picked⟩ := addressed.named
  obtain ⟨entry, result⟩ := charge_alone named present picked addressed.pending addressed.destination
    addressed.holder addressed.live affords answer
  have found := (byProviderReference_keyed picked).1
  have after : charged answer db data =
      applyWrite (.insertAuditLog entry) (applyAll (creditWrites row wallet (reported data)) db) := result
  have twice := revised_twice found { status := some .processing } { status := some .completed }
  rw [after]
  constructor
  · exact ⟨_, twice.after, rfl⟩
  · refine ⟨{ wallet with balance := wallet.balance + reported data }, ?_, rfl⟩
    change (db.wallets.update wallet.id (balanceEdit _)).find? wallet.id = _
    rw [find?_update, if_pos rfl, addressed.holder]
    rfl
  · rfl

section Idle

theorem named_reference (has : truthy (data.reference.get "") = true) :
    ∃ reference, data.reference = .str reference ∧ reference ≠ "" := by
  cases named : data.reference with
  | absent => simp [named, Field.get, truthy] at has
  | null => simp [named, Field.get, truthy] at has
  | str reference =>
    refine ⟨reference, rfl, ?_⟩
    simpa [named, Field.get, truthy] using has

theorem held_wallet {walletId : Uuid} {wallet : Wallet}
    (held : WalletRepository.byId walletId db = some wallet) :
    wallet.id = walletId ∧ db.wallets.find? wallet.id = some wallet ∧ wallet.deletedAt = none := by
  unfold WalletRepository.byId at held
  rw [Option.filter_eq_some_iff] at held
  obtain ⟨found, live⟩ := held
  have keyed : wallet.id = walletId := (find?_some_iff.mp found).2
  rw [keyed]
  exact ⟨rfl, found, by simpa [WalletRepository.live] using live⟩

/-- No live wallet, or a balance that the column does not take: the session ends before it commits. -/
theorem uncredited {txn : Transaction} {walletId : Uuid} {amount : Int} {s : Solo}
    (unloaded : s.memory.wallets walletId = none)
    (broke : ∀ wallet, WalletRepository.byId walletId s.seen = some wallet →
      ¬ WalletRepository.storable (wallet.balance + amount)) :
    Leaves answer (creditFunding txn walletId amount) s (fun after => after = s.db) := by
  unfold creditFunding
  cases held : WalletRepository.byId walletId s.seen with
  | none =>
    unfold Leaves
    simp [WalletRepository.lockForUpdate, WalletRepository.select, exec_seq, exec, held]
    rfl
  | some wallet =>
    obtain ⟨rfl, holder, live⟩ := held_wallet held
    have unfit := broke wallet held
    refine leaves_yields (yields_lockForUpdate holder live unloaded) ?_
    unfold Leaves
    obtain ⟨x, refused⟩ := updateBalance_refused answer wallet unfit
    rw [exec_seq, refused]

theorem charged_idle
    (idle : ∀ row wallet, Addressed db data row wallet →
      ¬ WalletRepository.storable (wallet.balance + reported data)) :
    charged answer db data = db := by
  change Leaves answer (processChargeSuccess data) (start db) (fun after => after = db)
  unfold processChargeSuccess
  by_cases has : truthy (data.reference.get "") = true
  swap
  · rw [if_neg has]
    rfl
  obtain ⟨reference, named, present⟩ := named_reference has
  have same : (data.reference.get "").getD "" = reference := by simp [named, Field.get]
  rw [if_pos has, same]
  cases picked : TransactionRepository.byProviderReference reference db with
  | error x =>
    unfold Leaves
    simp [TransactionRepository.getByProviderReference, TransactionRepository.select, exec_seq, exec, start,
      Local.seen, picked]
  | ok found =>
    cases found with
    | none =>
      unfold Leaves
      simp [TransactionRepository.getByProviderReference, TransactionRepository.select, exec_seq,
        exec, start,
        Local.seen, picked]
      rfl
    | some row =>
      refine leaves_yields (yields_select picked rfl) ?_
      by_cases pending : row.status = .pending
      swap
      · simp only [if_neg pending]
        rfl
      simp only [if_pos pending]
      have found := (byProviderReference_keyed picked).1
      refine leaves_yields (yields_updateStatus (pending_starts pending) found) ?_
      cases destination : row.destinationWalletId with
      | none =>
        have nowhere : (restated row .processing none).destinationWalletId = none := destination
        simp only [nowhere]
        rfl
      | some walletId =>
        have credits : (restated row .processing none).destinationWalletId = some walletId := destination
        simp only [credits]
        refine uncredited rfl (fun wallet held => ?_)
        obtain ⟨rfl, holder, live⟩ := held_wallet held
        exact idle row wallet ⟨⟨reference, named, present, picked⟩, pending, destination, holder, live⟩

end Idle

theorem completes_addressed {row other : Transaction} {wallet : Wallet}
    (addressed : Addressed db data row wallet)
    (affords : WalletRepository.storable (wallet.balance + reported data))
    (completes : Completes db (charged answer db data) other) :
    other = row := by
  obtain ⟨found, open_, t, after, completed⟩ := completes
  by_contra different
  obtain ⟨reference, named, present, picked⟩ := addressed.named
  obtain ⟨entry, result⟩ := charge_alone named present picked addressed.pending addressed.destination
    addressed.holder addressed.live affords answer
  have stored := (byProviderReference_keyed picked).1
  have twice := revised_twice stored { status := some .processing } { status := some .completed }
  have apart : other.id ≠ row.id := by
    intro same
    rw [same, stored] at found
    exact different (Option.some.inj found).symm
  have untouched : (charged answer db data).transactions.find? other.id =
      db.transactions.find? other.id := by
    change (runAlone answer (processChargeSuccess data) db).2.transactions.find? other.id = _
    rw [result]
    exact twice.others other.id apart
  rw [untouched, found] at after
  cases after
  exact open_ completed

/-- process_charge_success credits, posts and completes by the amount of the payload. -/
theorem charge_credits_what_is_reported (answer : Request → Option PaystackData) (db : Database)
    (data : PaystackData) : CreditsReported db data (charged answer db data) := by
  constructor
  · intro row completes
    by_cases affordable : ∃ other wallet, Addressed db data other wallet ∧
        WalletRepository.storable (wallet.balance + reported data)
    · obtain ⟨other, wallet, addressed, affords⟩ := affordable
      have same := completes_addressed addressed affords completes
      subst same
      exact ⟨wallet, addressed, charged_addressed addressed affords⟩
    · have same : charged answer db data = db := by
        refine charged_idle (fun other wallet addressed => ?_)
        intro affords
        exact affordable ⟨other, wallet, addressed, affords⟩
      obtain ⟨found, open_, t, after, completed⟩ := completes
      rw [same, found] at after
      cases after
      exact absurd completed open_
  · intro row wallet addressed exactly room
    rw [← exactly] at room ⊢
    exact charged_addressed addressed room
  · exact charged_idle

section Underpaid

def oneKobo : PaystackData := { reference := .str "txn_f", amount := some 1 }

/-- The funding is completed, and the wallet holds NGN 0.01. -/
theorem one_kobo_completes_the_funding :
    ¬ ∀ (answer : Request → Option PaystackData) (db : Database) (data : PaystackData),
      CreditsRecorded db data (charged answer db data) := by
  intro claim
  have lawful := claim (fun _ => none) fundingDb oneKobo
  have completes : Completes fundingDb (charged (fun _ => none) fundingDb oneKobo) pendingFunding :=
    ⟨by decide, by decide, { pendingFunding with status := .completed }, by decide +kernel, rfl⟩
  obtain ⟨_, wallet, addressed, credited⟩ := lawful.only pendingFunding completes
  have place : wallet.id = 11 := (Option.some.inj addressed.destination).symm
  have holder := addressed.holder
  rw [place] at holder
  have empty : wallet.balance = 0 := by
    cases holder
    rfl
  obtain ⟨w, after, balance⟩ := credited.credited
  rw [place] at after
  have computed : ((charged (fun _ => none) fundingDb oneKobo).wallets.find? 11).map (·.balance) =
      some 1 := by
    decide +kernel
  rw [after] at computed
  have one : w.balance = 1 := Option.some.inj computed
  have recorded : pendingFunding.amount = 5000 := rfl
  omega

end Underpaid

end PayCoreChargeAmounts
