import PayCore.Proof.Handlers
import PayCore.Proof.ProperMoney

/- The handlers of charges, sweeps and payouts: proper in any interleaving, also where the status
   they have read is out of date. -/
namespace PayCoreProperHandlers
open KeyedTable SessionProgram SessionSystem RelyGuarantee PayCoreTables PayCoreWrites PayCoreSessions
open PayCoreRepositories PayCoreSupport PayCoreWithdrawals PayCoreFunding PayCorePersistence PayCoreCommits
open PayCoreStatements PayCoreGuaranteeRules PayCoreHandlers PayCoreForeignKeys PayCoreKeptRecords
open PayCoreProperCommits PayCoreProperRules PayCoreProperMoney

variable {F : Database → IdentityMap → List Row → List Write → Prop} {v u : Window}

section Rows
variable {db : Database} {t : Transaction} {ws : List Write}

/-- What the session has read of a transaction that is no movement. -/
structure Known (db : Database) (t : Transaction) : Prop where
  stored : Stored t db
  right : Righted db t
  still : ¬ moves t.type

theorem known_kept {later : Database} (kept : Kept db later) (h : Known db t) : Known later t where
  stored := stored_kept kept h.stored
  right := righted_kept kept h.right
  still := h.still

theorem open_known (sound : Sound db) (found : db.transactions.find? t.id = some t)
    (status : t.status ≠ .completed) :
    Known db t where
  stored := ⟨t, found, revised_refl t⟩
  right := sound.righted _ t found
  still moving := status ((sound.righted _ t found).moved moving).1

theorem known_revised {b : Transaction} (revised : Revised t b) (h : Known db t) : Known db b where
  stored := by
    obtain ⟨row, found, same⟩ := h.stored
    refine ⟨row, ?_, revised_trans (revised_symm revised) same⟩
    rw [revised_id revised]
    exact found
  right := righted_revised revised (fun moving => absurd moving h.still) h.right
  still := by
    rw [revised_type revised]
    exact h.still

theorem known_row (h : Known db t) : ∃ row, db.transactions.find? t.id = some row ∧ ¬ moves row.type := by
  obtain ⟨row, found, revised⟩ := h.stored
  refine ⟨row, found, ?_⟩
  rw [revised_type revised]
  exact h.still

/-- A destination means a funding, a source a withdrawal. -/
theorem known_funding (h : Known db t) {walletId : Uuid}
    (destination : t.destinationWalletId = some walletId) :
    t.type = .funding := by
  cases type : t.type with
  | funding => rfl
  | withdrawal =>
    have unpaid := (h.right.held type).1
    rw [destination] at unpaid
    cases unpaid
  | reversal => exact absurd type h.right.kind
  | transfer => exact absurd (.inl type) h.still
  | merchantPayment => exact absurd (.inr type) h.still

theorem known_withdrawal (h : Known db t) {walletId : Uuid} (source : t.sourceWalletId = some walletId) :
    t.type = .withdrawal := by
  cases type : t.type with
  | withdrawal => rfl
  | funding =>
    have unsourced := (h.right.funded type).1
    rw [source] at unsourced
    cases unsourced
  | reversal => exact absurd type h.right.kind
  | transfer => exact absurd (.inl type) h.still
  | merchantPayment => exact absurd (.inr type) h.still

theorem mark_fine (h : Known db t) {status : TransactionStatus} (reason : Option String)
    (started : status ≠ .pending) :
    Fine db (mark t.id status reason) where
  steady := by
    constructor
    · intro same
      exact started (Option.some.inj same)
    · intro _
      exact known_row h
  linked _ mem := by cases mem
  warranted := trivial

theorem refer_fine (id : Uuid) (code : Option String) : Fine db (refer id code) where
  steady := ⟨by simp, fun sets => absurd rfl sets⟩
  linked _ mem := by cases mem
  warranted := trivial

theorem balance_fine {id : Uuid} {balance : Int} (solvent : 0 ≤ balance) :
    Fine db (.setBalance id balance) :=
  ⟨solvent, (fun _ mem => by cases mem), trivial⟩

theorem entry_fine (h : Known db t) {e : LedgerEntry} (own : e.transactionId = t.id)
    (wallet : Present db (.wallet e.walletId))
    (debit : e.entryType = .debit → t.sourceWalletId = some e.walletId ∧ e.amount = t.amount)
    (credit : e.entryType = .credit → t.destinationWalletId = some e.walletId) :
    Fine db (.insertEntry e) where
  steady := trivial
  linked k mem := by
    obtain ⟨row, found, _⟩ := h.stored
    simp only [writeKeys, entryKeys, List.mem_cons, List.not_mem_nil, or_false] at mem
    rcases mem with rfl | rfl
    · rw [own]
      exact row_present found
    · exact wallet
  warranted := by
    obtain ⟨row, found, revised⟩ := h.stored
    have still : ¬ moves row.type := by
      rw [revised_type revised]
      exact h.still
    rw [← own] at found
    constructor
    · refine ⟨row, found, ?_, ?_⟩
      · intro side
        rw [revised_source revised, revised_amount revised]
        exact debit side
      · intro side
        rw [revised_destination revised]
        exact ⟨credit side, fun moving => absurd moving still⟩
    · intro b there moving
      rw [found] at there
      cases there
      exact still moving

theorem ledger_written {e : LedgerEntry} (steady : ∀ w ∈ ws, Steady db w) (mem : .insertEntry e ∈ ws) :
    e ∈ (applyAll ws db).ledgerEntries := by
  apply written (P := fun s => e ∈ s.ledgerEntries) _ _ steady mem
  · intro s t kept old
    exact kept.ledger e old
  · intro s _
    exact List.mem_append_right _ List.mem_cons_self

theorem reason_written (steady : ∀ w ∈ ws, Steady db w) {id : Uuid} {status : TransactionStatus}
    {reason : String}
    (mem : mark id status (some reason) ∈ ws) {a : Transaction}
    (found : db.transactions.find? id = some a) :
    ∃ b, (applyAll ws db).transactions.find? id = some b ∧ Revised a b ∧ b.failureReason.isSome = true := by
  apply written (P := fun s => ∃ b, s.transactions.find? id = some b ∧ Revised a b ∧
    b.failureReason.isSome = true)
    _ _ steady mem
  · rintro s t kept ⟨b, there, revised, failed⟩
    obtain ⟨c, last, again, still, _⟩ := kept.transactions id b there
    exact ⟨c, last, revised_trans revised again, still failed⟩
  · intro s kept
    obtain ⟨b, there, revised, _⟩ := kept.transactions id a found
    have after : (applyWrite (mark id status (some reason)) s).transactions.find? id =
        some ((transactionEdit { status := some status, failureReason := some reason }).on b) := by
      simp only [mark, applyWrite, find?_update, if_true, there, Option.map_some]
    exact ⟨_, after, revised_trans revised (revised_on _ b), rfl⟩

end Rows

section Steps

/-- The object that a flush refreshes is the row, whatever has been written before. -/
theorem flushed_revised {txn : Transaction} {set : TransactionUpdate} {db : Database}
    (upheld : ∀ w ∈ v.pending, Fine db w) (known : Known db txn) :
    Revised txn (set.on (((applyAll v.pending db).transactions.find? txn.id).getD txn)) := by
  obtain ⟨row, found, revised⟩ := known.stored
  have kept : Kept db (applyAll v.pending db) := kept_all fun w mem => (upheld w mem).steady
  obtain ⟨now, there, again, _⟩ := kept.transactions _ row found
  rw [there, Option.getD_some]
  exact revised_trans revised (revised_trans again (revised_on set now))

theorem setStatus_wp {txn : Transaction} {newStatus : TransactionStatus} {reason : Option String}
    {Q : Post Database IdentityMap Write Row AppError Transaction}
    (valid : newStatus ∈ validTransitions txn.status)
    (started : newStatus ≠ .pending) (upheld : Upheld v) (known : Known v.db txn)
    (failed : ∀ u, Q (.error .database) u)
    (moved : ∀ u t, Goes (Rely ProperCommit) v u → Upheld u →
      u.pending = v.pending ++ [mark txn.id newStatus reason] →
      u.memory.wallets = v.memory.wallets → Revised txn t → t.status = newStatus → Q (.ok t) u) :
    wp (Rely ProperCommit) ProperCommit F
    (TransactionRepository.updateStatus txn newStatus reason) Q v := by
  unfold TransactionRepository.updateStatus
  rw [if_pos valid]
  refine flush_wp proper_env failed ?_
  intro u t goes _ pending refreshed memory _
  have known1 := known_kept (goes_kept goes) known
  have before : ∀ w ∈ v.pending, Fine u.db w := fun w mem => fine_kept (goes_kept goes) (upheld.fine w mem)
  refine moved u t goes ⟨goes_sound goes upheld.sound, ?_⟩ pending (by rw [memory]; rfl) ?_
    (by rw [refreshed]; rfl)
  · intro w mem
    rw [pending, List.mem_append, List.mem_singleton] at mem
    rcases mem with old | rfl
    · exact before w old
    · exact mark_fine known1 reason started
  · rw [refreshed]
    exact flushed_revised before known1

theorem lockWallet_wp {id : Uuid} {Q : Post Database IdentityMap Write Row AppError (Option Wallet)}
    (upheld : Upheld v) (failed : ∀ u, Q (.error .database) u)
    (done : ∀ u found, Goes (Rely ProperCommit) v u → Upheld u → u.pending = v.pending →
      (∀ w, found = some w → w.id = id) → Q (.ok found) u) :
    wp (Rely ProperCommit) ProperCommit F (WalletRepository.lockForUpdate id) Q v := by
  have next : ∀ u, Goes (Rely ProperCommit) v u → u.pending = v.pending → Upheld u := by
    intro u goes pending
    refine ⟨goes_sound goes upheld.sound, ?_⟩
    rw [pending]
    exact fun w mem => fine_kept (goes_kept goes) (upheld.fine w mem)
  refine selectWallet_wp proper_env failed ?_ ?_
  · intro u goes pending _ _
    exact done u none goes (next u goes pending) pending (by simp)
  · intro u row goes pending _ _ _ picked
    refine done u _ goes (next u goes pending) pending ?_
    rintro w ⟨rfl⟩
    rw [wallet_id]
    exact (find?_some_iff.mp (Option.filter_eq_some_iff.mp picked).1).2

theorem setBalance_wp {wallet : Wallet} {newBalance : Int}
    {Q : Post Database IdentityMap Write Row AppError Wallet}
    (upheld : Upheld v) (failed : ∀ u x, Q (.error x) u)
    (moved : ∀ u w, Goes (Rely ProperCommit) v u → Upheld u →
      u.pending = v.pending ++ [.setBalance wallet.id newBalance] → Q (.ok w) u) :
    wp (Rely ProperCommit) ProperCommit F (WalletRepository.updateBalance wallet newBalance) Q v := by
  refine updateBalance_wp proper_env (fun u => failed u _) (fun u _ _ _ => failed u _) ?_
  intro u w goes pending _ ⟨solvent, _⟩
  refine moved u w goes ⟨goes_sound goes upheld.sound, ?_⟩ pending
  intro write mem
  rw [pending, List.mem_append, List.mem_singleton] at mem
  rcases mem with old | rfl
  · exact fine_kept (goes_kept goes) (upheld.fine write old)
  · exact balance_fine solvent

theorem postEntry_wp {e : LedgerEntry} {Q : Post Database IdentityMap Write Row AppError LedgerEntry}
    (upheld : Upheld v) (fine : ∀ u, Goes (Rely ProperCommit) v u → Fine u.db (.insertEntry e))
    (failed : ∀ u x, Q (.error x) u)
    (created : ∀ u, Goes (Rely ProperCommit) v u → Upheld u → u.pending = v.pending ++ [.insertEntry e] →
      Q (.ok e) u) :
    wp (Rely ProperCommit) ProperCommit F (LedgerRepository.createEntry e) Q v := by
  refine createEntry_wp proper_env (fun u => failed u _) ?_
  intro u goes pending _
  refine created u goes ⟨goes_sound goes upheld.sound, ?_⟩ pending
  intro write mem
  rw [pending, List.mem_append, List.mem_singleton] at mem
  rcases mem with old | rfl
  · exact fine_kept (goes_kept goes) (upheld.fine write old)
  · exact fine u goes

theorem named_wallet {db : Database} {t : Transaction} {id : Uuid} (known : Known db t)
    (named : t.sourceWalletId = some id ∧ t.type = .withdrawal ∨ t.destinationWalletId = some id ∧
      t.type = .funding) :
    Present db (.wallet id) := by
  rcases named with ⟨source, _⟩ | ⟨destination, funding⟩
  · exact owned_present (known.right.payer id source).1
  · obtain ⟨_, k, paid, own⟩ := known.right.funded funding
    rw [destination] at paid
    cases paid
    exact owned_present own

end Steps

section Fundings

theorem creditFunding_wp {txn : Transaction} {walletId : Uuid} {amount : Int}
    {Q : Post Database IdentityMap Write Row AppError Unit} (upheld : Upheld v) (known : Known v.db txn)
    (status : txn.status = .processing) (destination : txn.destinationWalletId = some walletId)
    (failed : ∀ u x, Q (.error x) u) (done : ∀ u, Upheld u → Q (.ok ()) u) :
    wp (Rely ProperCommit) ProperCommit F (creditFunding txn walletId amount) Q v := by
  have funding := known_funding known destination
  unfold creditFunding
  refine seq_wp ?_
  refine lockWallet_wp upheld (fun u => failed u _) ?_
  intro v1 found goes1 upheld1 pending1 keyed
  have known1 := known_kept (goes_kept goes1) known
  cases found with
  | none => exact done v1 upheld1
  | some wallet =>
    have key := keyed wallet rfl
    refine seq_wp ?_
    refine setBalance_wp upheld1 failed ?_
    intro v2 _ goes2 upheld2 pending2
    have known2 := known_kept (goes_kept goes2) known1
    refine seq_wp ?_
    refine postEntry_wp upheld2 ?_ failed ?_
    · intro u goes
      have knownU := known_kept (goes_kept goes) known2
      apply entry_fine knownU rfl
      · rw [show wallet.id = walletId from key]
        exact named_wallet knownU (.inr ⟨destination, funding⟩)
      · intro side
        cases side
      · intro _
        rw [show wallet.id = walletId from key]
        exact destination
    intro v3 goes3 upheld3 pending3
    have known3 := known_kept (goes_kept goes3) known2
    refine seq_wp ?_
    refine setStatus_wp (processing_ends status (.inl rfl)) (by simp) upheld3 known3
      (fun u => failed u _) ?_
    intro v4 _ goes4 upheld4 pending4 _ _ _
    have known4 := known_kept (goes_kept goes4) known3
    refine seq_wp ?_
    refine upheld_wp upheld4 (fun u => failed u _) ?_
    intro db v5 rely after clear5 kept5
    have steady : ∀ w ∈ v4.pending, Steady db w := upheld_steady rely upheld4
    obtain ⟨row, stored, id, type, initiator⟩ := stored_row (known_kept kept5 known4).stored
    refine audited_wp clear5 ?_ (fun u clear _ => done u (clear_upheld clear))
    rw [← initiator, ← id]
    apply Attested.funded row ⟨txn.id, wallet.id, .credit, amount, txn.currency,
      wallet.balance + amount⟩ stored
      (type.trans funding) _ id.symm rfl
    rw [after]
    apply ledger_written steady
    rw [pending4, pending3]
    simp

theorem processChargeSuccess_wp {data : PaystackData}
    {Q : Post Database IdentityMap Write Row AppError Unit}
    (clear : Clear v) (blank : v.memory = default) (failed : ∀ u x, Q (.error x) u)
    (done : ∀ u, Upheld u → Q (.ok ()) u) :
    wp (Rely ProperCommit) ProperCommit F (processChargeSuccess data) Q v := by
  unfold processChargeSuccess
  split
  swap
  · exact done v (clear_upheld clear)
  refine seq_wp ?_
  refine selectFresh_wp proper_env clear.bare blank
    (fun db row picked => (byProviderReference_keyed picked).1) failed ?_ ?_
  · intro u goes pending _ _
    exact done u (clear_upheld ⟨goes_sound goes clear.sound, pending⟩)
  intro v1 row goes1 pending1 _ _ _ picked
  have clear1 : Clear v1 := ⟨goes_sound goes1 clear.sound, pending1⟩
  dsimp only
  split
  swap
  · exact done v1 (clear_upheld clear1)
  rename_i unsettled
  have known1 := open_known clear1.sound (byProviderReference_keyed picked).1 (by simp [unsettled])
  refine seq_wp ?_
  refine setStatus_wp (pending_starts unsettled) (by simp) (clear_upheld clear1) known1
    (fun u => failed u _) ?_
  intro v2 txn goes2 upheld2 _ _ revised started
  have known2 := known_revised revised (known_kept (goes_kept goes2) known1)
  dsimp only
  cases destination : txn.destinationWalletId with
  | none => exact done v2 upheld2
  | some walletId => exact creditFunding_wp upheld2 known2 started destination failed done

theorem failFunding_proper {transactionId : Uuid} {status : Option String} (clear : Clear v)
    (blank : v.memory = default) :
    Proper F (failFunding transactionId status) v := by
  unfold failFunding
  refine seq_wp ?_
  refine selectFresh_wp proper_env clear.bare blank ?_ (fun _ _ => trivial) (fun _ _ _ _ _ => trivial) ?_
  · intro db row picked
    have found := Except.ok.inj picked
    rw [show row.id = transactionId from (find?_some_iff.mp found).2]
    exact found
  intro v1 row goes1 pending1 _ _ _ picked
  have clear1 : Clear v1 := ⟨goes_sound goes1 clear.sound, pending1⟩
  have found := Except.ok.inj picked
  have key : row.id = transactionId := (find?_some_iff.mp found).2
  dsimp only
  split
  swap
  · trivial
  rename_i unsettled
  have known1 : Known v1.db row := open_known clear1.sound (by rw [key]; exact found) (by simp [unsettled])
  refine seq_wp ?_
  refine setStatus_wp (pending_starts unsettled) (by simp) (clear_upheld clear1) known1
    (fun _ => trivial) ?_
  intro v2 txn goes2 upheld2 _ _ revised started
  have known2 := known_revised revised (known_kept (goes_kept goes2) known1)
  refine seq_wp ?_
  refine setStatus_wp (processing_ends started (.inr rfl)) (by simp) upheld2 known2 (fun _ => trivial) ?_
  intro v3 _ _ upheld3 _ _ _ _
  exact upheld_commit upheld3

theorem applyResult_proper {transactionId : Uuid} {data : PaystackData} (clear : Clear v)
    (blank : v.memory = default) :
    Proper F (applyResult transactionId data) v := by
  unfold applyResult
  dsimp only
  split
  · refine seq_wp ?_
    refine processChargeSuccess_wp clear blank (fun _ _ => trivial) ?_
    intro u upheld
    exact upheld_commit upheld
  · exact failFunding_proper clear blank

theorem reconcileFunding_proper {transactionId : Uuid} {providerReference : String} (clear : Clear v)
    (blank : v.memory = default) : Proper F (reconcileFunding transactionId providerReference) v := by
  unfold reconcileFunding
  refine handle_wp ?_
  refine seq_wp ?_
  refine paystack_wp proper_env (fun _ => trivial) ?_
  intro v1 data goes1 pending1 memory1
  apply wp_mono _ (applyResult_proper (goes_clear goes1 clear pending1) (memory1.trans blank))
  intro r u _
  cases r <;> trivial

end Fundings

section Payouts

theorem settlePayout_proper {txn : Transaction} {walletId : Uuid} (clear : Clear v) (known : Known v.db txn)
    (status : txn.status = .processing) (source : txn.sourceWalletId = some walletId) :
    Proper F (settlePayout txn walletId) v := by
  have withdrawal := known_withdrawal known source
  unfold settlePayout
  refine seq_wp ?_
  refine lockWallet_wp (clear_upheld clear) (fun _ => trivial) ?_
  intro v1 found goes1 upheld1 pending1 keyed
  have known1 := known_kept (goes_kept goes1) known
  cases found with
  | none => trivial
  | some wallet =>
    have key : wallet.id = walletId := keyed wallet rfl
    refine seq_wp ?_
    refine postEntry_wp upheld1 ?_ (fun _ _ => trivial) ?_
    · intro u goes
      have knownU := known_kept (goes_kept goes) known1
      apply entry_fine knownU rfl
      · rw [key]
        exact named_wallet knownU (.inl ⟨source, withdrawal⟩)
      · intro _
        rw [key]
        exact ⟨source, rfl⟩
      · intro side
        cases side
    intro v2 goes2 upheld2 pending2
    have known2 := known_kept (goes_kept goes2) known1
    refine seq_wp ?_
    refine setStatus_wp (processing_ends status (.inl rfl)) (by simp) upheld2 known2 (fun _ => trivial) ?_
    intro v3 _ goes3 upheld3 pending3 _ _ _
    have known3 := known_kept (goes_kept goes3) known2
    apply upheld_then upheld3
    intro db v4 rely after clear4 kept4
    have steady : ∀ w ∈ v3.pending, Steady db w := upheld_steady rely upheld3
    obtain ⟨row, stored, id, type, initiator⟩ := stored_row (known_kept kept4 known3).stored
    apply audited_wp clear4 _ (fun _ _ _ => trivial)
    rw [← initiator, ← id]
    apply Attested.paidOut row ⟨txn.id, wallet.id, .debit, txn.amount, txn.currency, wallet.balance⟩ stored
      (type.trans withdrawal) _ id.symm rfl
    rw [after]
    apply ledger_written steady
    rw [pending3, pending2]
    simp

theorem refundPayout_proper {txn : Transaction} {walletId : Uuid} {transferCode : String} (clear : Clear v)
    (known : Known v.db txn) (status : txn.status = .processing)
    (source : txn.sourceWalletId = some walletId) :
    Proper F (refundPayout txn walletId transferCode) v := by
  have withdrawal := known_withdrawal known source
  unfold refundPayout
  refine seq_wp ?_
  refine lockWallet_wp (clear_upheld clear) (fun _ => trivial) ?_
  intro v1 found goes1 upheld1 pending1 _
  have known1 := known_kept (goes_kept goes1) known
  cases found with
  | none => trivial
  | some wallet =>
    refine seq_wp ?_
    refine setBalance_wp upheld1 (fun _ _ => trivial) ?_
    intro v2 _ goes2 upheld2 pending2
    have known2 := known_kept (goes_kept goes2) known1
    refine seq_wp ?_
    refine setStatus_wp (processing_ends status (.inr rfl)) (by simp) upheld2 known2 (fun _ => trivial) ?_
    intro v3 _ goes3 upheld3 pending3 _ _ _
    have known3 := known_kept (goes_kept goes3) known2
    apply upheld_then upheld3
    intro db v4 rely after clear4 _
    have knownDb := known_kept (kept_rely rely) known3
    obtain ⟨a, found, first⟩ := knownDb.stored
    have steady : ∀ w ∈ v3.pending, Steady db w := upheld_steady rely upheld3
    have marked :
        mark txn.id .failed (some ("Paystack transfer failed or reversed: " ++ transferCode)) ∈
          v3.pending := by
      rw [pending3]
      simp
    obtain ⟨row, there, revised, failed⟩ := reason_written steady marked found
    rw [← after] at there
    have whole : Revised txn row := revised_trans first revised
    apply audited_wp clear4 _ (fun _ _ _ => trivial)
    rw [← revised_initiator whole, ← revised_id whole]
    exact .refunded row (by rw [revised_id whole]; exact there)
      ((revised_type whole).trans withdrawal) failed

theorem payoutEvent_proper {reference : String} {settle : Transaction → Uuid → Tx Unit}
    (handler : settle = settlePayout ∨ ∃ code, settle = fun txn wallet => refundPayout txn wallet code)
    (clear : Clear v) (blank : v.memory = default) : Proper F (onProcessing reference settle) v := by
  unfold onProcessing
  refine seq_wp ?_
  refine selectFresh_wp proper_env clear.bare blank ?_ (fun _ _ => trivial) (fun _ _ _ _ _ => trivial) ?_
  · intro db row picked
    exact (byReference_keyed (Except.ok.inj picked)).1
  intro v1 row goes1 pending1 _ _ _ picked
  have clear1 : Clear v1 := ⟨goes_sound goes1 clear.sound, pending1⟩
  dsimp only
  split
  swap
  · trivial
  rename_i status
  have known1 := open_known clear1.sound (byReference_keyed (Except.ok.inj picked)).1 (by simp [status])
  cases source : row.sourceWalletId with
  | none => trivial
  | some walletId =>
    rcases handler with rfl | ⟨code, rfl⟩
    · exact settlePayout_proper clear1 known1 status source
    · exact refundPayout_proper clear1 known1 status source

theorem recipientCodeOf_upheld {account : BankAccount}
    {Q : Post Database IdentityMap Write Row AppError String}
    (clear : Clear v) (failed : ∀ u x, Q (.error x) u)
    (done : ∀ u code, Goes (Rely ProperCommit) v u → Upheld u → Q (.ok code) u) :
    wp (Rely ProperCommit) ProperCommit F (recipientCodeOf account) Q v := by
  unfold recipientCodeOf
  split
  · exact done v _ (goes_refl proper_env v) (clear_upheld clear)
  refine seq_wp ?_
  refine paystack_wp proper_env (fun u => failed u _) ?_
  intro v1 data goes1 pending1 _
  have clear1 := goes_clear goes1 clear pending1
  refine require_wp (fun _ => failed v1 _) ?_
  intro _
  refine seq_wp ?_
  refine stmt_wp proper_env (fun u _ _ _ => failed u _) ?_
  intro v2 seen adds goes2 _ added _ _ pending2 _
  refine done v2 _ (goes_trans proper_env goes1 goes2) ⟨goes_sound goes2 clear1.sound, ?_⟩
  intro w mem
  rw [pending2, clear1.bare, added, List.nil_append, List.mem_singleton] at mem
  rw [mem]
  exact ⟨trivial, (fun _ mem => by cases mem), trivial⟩

theorem dispatchPayout_proper {txn : Transaction} {recipientCode : String} (upheld : Upheld v)
    (known : txn.status = .pending → Known v.db txn) : Proper F (dispatchPayout txn recipientCode) v := by
  have referred : ∀ (w : Window) (t : Transaction), Upheld w → Proper F (do
      let transfer ← paystack
          (.initiateTransfer t.amount recipientCode t.reference ("PayCore withdrawal " ++ t.reference))
      let transferCode := transfer.transferCode.get ""
      if transferCode = t.providerReference then commit
      else do
        let _ ← TransactionRepository.flush t { providerReference := some transferCode }
        commit) w := by
    intro w t upheldW
    refine seq_wp ?_
    refine paystack_wp proper_env (fun _ => trivial) ?_
    intro v2 transfer goes2 pending2 _
    have upheld2 : Upheld v2 := by
      refine ⟨goes_sound goes2 upheldW.sound, ?_⟩
      rw [pending2]
      exact fun w mem => fine_kept (goes_kept goes2) (upheldW.fine w mem)
    dsimp only
    split
    · exact upheld_commit upheld2
    · refine seq_wp ?_
      refine flush_wp proper_env (fun _ => trivial) ?_
      intro v3 _ goes3 _ pending3 _ _ _
      apply upheld_commit
      refine ⟨goes_sound goes3 upheld2.sound, ?_⟩
      intro w mem
      rw [pending3, List.mem_append, List.mem_singleton] at mem
      rcases mem with old | rfl
      · exact fine_kept (goes_kept goes3) (upheld2.fine w old)
      · exact refer_fine _ _
  unfold dispatchPayout
  by_cases unsettled : txn.status = .pending
  · rw [if_pos unsettled]
    refine seq_wp ?_
    refine setStatus_wp (pending_starts unsettled) (by simp) upheld (known unsettled) (fun _ => trivial) ?_
    intro v1 t _ upheld1 _ _ _ _
    exact referred v1 t upheld1
  · rw [if_neg unsettled, ret_seq]
    exact referred v txn upheld

theorem executePayout_proper {transactionId : Uuid} (clear : Clear v) (blank : v.memory = default) :
    Proper F (executePayout transactionId) v := by
  unfold executePayout
  refine seq_wp ?_
  refine selectFresh_wp proper_env clear.bare blank ?_ (fun _ _ => trivial) (fun _ _ _ _ _ => trivial) ?_
  · intro db row picked
    have found := Except.ok.inj picked
    rw [show row.id = transactionId from (find?_some_iff.mp found).2]
    exact found
  intro v1 row goes1 pending1 _ _ _ picked
  have clear1 : Clear v1 := ⟨goes_sound goes1 clear.sound, pending1⟩
  have found : v1.db.transactions.find? row.id = some row := by
    have there := Except.ok.inj picked
    rw [show row.id = transactionId from (find?_some_iff.mp there).2]
    exact there
  dsimp only
  split
  · trivial
  split
  · trivial
  cases row.extraData.bind (·.bankAccountId) with
  | none => trivial
  | some bankAccountId =>
    refine seq_wp ?_
    refine query_wp proper_env (fun _ => trivial) ?_
    intro v2 goes2 pending2 _
    have clear2 := goes_clear goes2 clear1 pending2
    dsimp only
    split
    · trivial
    refine seq_wp ?_
    refine recipientCodeOf_upheld clear2 (fun _ _ => trivial) ?_
    intro v3 code goes3 upheld3
    have kept := kept_trans (goes_kept goes2) (goes_kept goes3)
    apply dispatchPayout_proper upheld3
    intro unsettled
    exact known_kept kept (open_known clear1.sound found (by simp [unsettled]))

end Payouts

end PayCoreProperHandlers
