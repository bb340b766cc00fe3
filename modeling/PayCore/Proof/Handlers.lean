import PayCore.Proof.Statements
import PayCore.Service.Funding

/- The handlers that change a status. Each reads its transaction without a lock; what
   it commits is right as long as the status it sets finds the status it has read. -/
namespace PayCoreHandlers
open KeyedTable SessionProgram SessionSystem RelyGuarantee PayCoreTables PayCoreWrites PayCoreSessions
open PayCoreRepositories PayCoreSupport PayCoreWithdrawals PayCoreFunding PayCorePersistence
open PayCoreCommits PayCoreStatements

variable {R : (Row → Prop) → Database → Database → Prop} {G : List Write → Database → Prop}
  {F : Database → IdentityMap → List Row → List Write → Prop} {v u : Window}

theorem pending_starts {t : Transaction} (h : t.status = .pending) :
    TransactionStatus.processing ∈ validTransitions t.status := by
  rw [h]
  decide

theorem processing_ends {t : Transaction} {s : TransactionStatus} (h : t.status = .processing)
    (final : s = .completed ∨ s = .failed) : s ∈ validTransitions t.status := by
  rw [h]
  rcases final with rfl | rfl <;> decide

theorem byReference_keyed {reference : String} {db : Database} {row : Transaction}
    (picked : TransactionRepository.byReference reference db = some row) :
    db.transactions.find? row.id = some row ∧ row.reference = reference := by
  refine ⟨find?_some_iff.mpr ⟨List.mem_of_find?_eq_some picked, rfl⟩, ?_⟩
  simpa using List.find?_some picked

theorem byReference_stored {id : Uuid} {db : Database} {row : Transaction}
    (found : db.transactions.find? id = some row) :
    TransactionRepository.byReference row.reference db = some row := by
  have mem := (find?_some_iff.mp found).1
  cases picked : TransactionRepository.byReference row.reference db with
  | none =>
    have absent := List.find?_eq_none.mp picked row mem
    simp at absent
  | some other =>
    obtain ⟨there, same⟩ := byReference_keyed picked
    have clashes : clash other row = true := by simp [clash, same]
    rw [same_row_of_clash (find?_some_iff.mp there).1 mem clashes]

theorem byProviderReference_keyed {reference : String} {db : Database} {row : Transaction}
    (picked : TransactionRepository.byProviderReference reference db = .ok (some row)) :
    db.transactions.find? row.id = some row ∧ row.providerReference = some reference := by
  unfold TransactionRepository.byProviderReference at picked
  have mem : row ∈ db.transactions.rows.filter (·.providerReference == some reference) := by
    revert picked
    cases db.transactions.rows.filter (·.providerReference == some reference) with
    | nil => simp [TransactionRepository.scalarOneOrNone]
    | cons a rest =>
      cases rest with
      | nil =>
        simp only [TransactionRepository.scalarOneOrNone]
        rintro ⟨rfl⟩
        exact List.mem_singleton.mpr rfl
      | cons b more => simp [TransactionRepository.scalarOneOrNone]
  rw [List.mem_filter] at mem
  exact ⟨find?_some_iff.mpr ⟨mem.1, rfl⟩, by simpa using mem.2⟩

section
variable (env : Interference R)
  (current : ∀ s m rows adds, F s m rows adds → FreshTransactions s m rows adds)
include env

theorem lockUnloaded_wp {id : Uuid} {Q : Post Database IdentityMap Write Row AppError (Option Wallet)}
    (still : ∀ db, (applyAll v.pending db).wallets = db.wallets)
    (unloaded : ∀ id, v.memory.wallets id = none) (failed : ∀ u, Q (.error .database) u)
    (done : ∀ u found, Goes R v u → u.pending = v.pending →
      u.memory.transactions = v.memory.transactions → (∀ w, found = some w → Locked id w u) →
      (found = none → WalletRepository.byId id u.db = none) → Q (.ok found) u) :
    wp R G F (WalletRepository.lockForUpdate id) Q v := by
  refine lockForUpdate_wp env still ?_ failed done
  intro s row w _ _ loaded
  rw [unloaded id] at loaded
  cases loaded

def Unpaid (t : Transaction) (db : Database) : Prop :=
  ∀ id, t.destinationWalletId = some id → WalletRepository.byId id db = none

section Charge
variable {K : Uuid → Prop} {origin : Database}
  (charges : ∀ id ws db, K id → R Nothing origin db → ChargeCommit id db ws → G ws db)
  (sides : ∀ ws db, Side ws → G ws db)
include charges sides

theorem creditFunding_wp {row txn : Transaction} {walletId : Uuid} {amount : Int}
    {Q : Post Database IdentityMap Write Row AppError Unit} (here : R Nothing origin v.db)
    (mine : K row.id) (pending : v.pending = [mark row.id .processing none])
    (unloaded : ∀ id, v.memory.wallets id = none) (marked : Marked .pending row v)
    (revised : Revised row txn) (status : txn.status = .processing)
    (destination : txn.destinationWalletId = some walletId)
    (failed : ∀ u x, Q (.error x) u) (closed : ∀ u, u.pending = [] → Q (.ok ()) u)
    (opened : ∀ u, R Nothing origin u.db → Unpaid row u.db →
      u.pending = [mark row.id .processing none] → Marked .pending row u → Q (.ok ()) u) :
    wp R G F (creditFunding txn walletId amount) Q v := by
  unfold creditFunding
  refine seq_wp ?_
  refine lockUnloaded_wp env (fun _ => ?_) unloaded (fun u => failed u _) ?_
  · rw [pending]
    rfl
  intro v1 found goes1 pending1 _ locks missing
  have here1 := env.trans here goes1.rely
  cases found with
  | none =>
    refine opened v1 here1 ?_ (pending1.trans pending) (marked_goes goes1 marked)
    intro id paid
    rw [← revised_destination revised, destination] at paid
    cases paid
    exact missing rfl
  | some wallet =>
    have locked := locks wallet rfl
    refine seq_wp ?_
    refine updateBalance_wp env (fun u => failed u _) (fun u _ _ _ => failed u _) ?_
    intro v2 _ goes2 pending2 _ creditable
    refine seq_wp ?_
    refine createEntry_wp env (fun u => failed u _) ?_
    intro v3 goes3 pending3 _
    refine seq_wp ?_
    refine updateStatus_wp env (processing_ends status (Or.inl rfl)) (fun u => failed u _) ?_
    intro v4 _ goes4 pending4
    refine seq_wp ?_
    refine commit_wp env (fun u _ _ => failed u _) ?_ ?_
    · intro v5 goes5 pending5 _
      have whole := goes_trans env goes2 (goes_trans env goes3 (goes_trans env goes4 goes5))
      have entire := goes_trans env goes1 whole
      obtain ⟨stored, there, again, unsettled⟩ := (marked_goes entire marked).row
      obtain ⟨holder, held, key, balance⟩ := locked_row (locked_goes whole locked)
      have fits := charges row.id _ _ mine (env.trans here entire.rely)
        (ChargeCommit.credited stored holder amount there unsettled ?_ held ?_)
      · simpa [pending5, pending4, pending3, pending2, pending1, pending, creditWrites, entryOf,
          revised_id revised, revised_id again, revised_currency revised, revised_currency again,
          key, balance] using fits
      · rw [revised_destination again, ← revised_destination revised, destination, key, locked.key]
      · rw [balance]
        exact creditable
    · intro _ v5 _ _ _ bare _
      exact auditLog_wp env sides persists_true bare trivial (fun u bare _ => closed u bare)

include current

theorem processChargeSuccess_wp {data : PaystackData}
    {Q : Post Database IdentityMap Write Row AppError Unit} (here : R Nothing origin v.db)
    (bare : v.pending = []) (blank : v.memory = default)
    (picks : ∀ reference db row, R Nothing origin db →
      TransactionRepository.byProviderReference reference db = .ok (some row) →
      row.status = .pending → K row.id)
    (failed : ∀ u x, Q (.error x) u) (closed : ∀ u, u.pending = [] → Q (.ok ()) u)
    (opened : ∀ u row, K row.id → R Nothing origin u.db → Unpaid row u.db →
      u.pending = [mark row.id .processing none] → Marked .pending row u → Q (.ok ()) u) :
    wp R G F (processChargeSuccess data) Q v := by
  unfold processChargeSuccess
  split
  swap
  · exact closed v bare
  refine seq_wp ?_
  refine selectFresh_wp env bare blank (fun db row picked => (byProviderReference_keyed picked).1)
    failed (fun u _ pending _ _ => closed u pending) ?_
  intro v1 row goes1 pending1 unloaded read _ picked
  have here1 := env.trans here goes1.rely
  dsimp only
  split
  swap
  · exact closed v1 pending1
  rename_i unsettled
  have mine := picks _ _ row here1 picked unsettled
  refine seq_wp ?_
  refine startStatus_wp env (fun _ => ?_) current read (pending_starts unsettled)
    (fun u => failed u _) ?_
  · rw [pending1]
    rfl
  intro v2 txn goes2 pending2 memory2 marked revised status _
  rw [unsettled] at marked
  rw [pending1, List.nil_append] at pending2
  have here2 := env.trans here1 goes2.rely
  dsimp only
  cases destination : txn.destinationWalletId with
  | none =>
    refine opened v2 row mine here2 ?_ pending2 marked
    intro id paid
    rw [← revised_destination revised, destination] at paid
    cases paid
  | some walletId =>
    exact creditFunding_wp env charges sides here2 mine pending2 (by rw [memory2]; exact unloaded)
      marked revised status destination failed closed (fun u => opened u row mine)

end Charge

include current

theorem failFunding_wp {transactionId : Uuid} {status : Option String} {origin : Database}
    (abandons : ∀ ws db, R Nothing origin db → AbandonCommit transactionId db ws → G ws db)
    {Q : Post Database IdentityMap Write Row AppError Unit} (here : R Nothing origin v.db)
    (bare : v.pending = []) (blank : v.memory = default) (any : ∀ u r, Q r u) :
    wp R G F (failFunding transactionId status) Q v := by
  unfold failFunding
  refine seq_wp ?_
  refine selectFresh_wp env bare blank ?_ (fun u _ => any u _) (fun u _ _ _ _ => any u _) ?_
  · intro db row picked
    have found := Except.ok.inj picked
    have key : row.id = transactionId := (find?_some_iff.mp found).2
    rw [key]
    exact found
  intro v1 row goes1 pending1 _ read _ picked
  have key : row.id = transactionId := (find?_some_iff.mp (Except.ok.inj picked)).2
  dsimp only
  split
  swap
  · exact any v1 _
  rename_i unsettled
  refine seq_wp ?_
  refine startStatus_wp env (fun _ => ?_) current read (pending_starts unsettled)
    (fun u => any u _) ?_
  · rw [pending1]
    rfl
  intro v2 txn goes2 pending2 _ marked revised started _
  rw [unsettled] at marked
  refine seq_wp ?_
  refine updateStatus_wp env (processing_ends started (Or.inr rfl)) (fun u => any u _) ?_
  intro v3 _ goes3 pending3
  refine commit_wp env (fun u _ _ => any u _) ?_ (fun _ w _ _ _ _ _ => any w _)
  intro v4 goes4 pending4 _
  have whole := goes_trans env goes3 goes4
  obtain ⟨stored, there, _, still⟩ := (marked_goes whole marked).row
  rw [key] at there
  have here4 := env.trans here (env.trans goes1.rely (env.trans goes2.rely whole.rely))
  have fits := abandons _ _ here4 (AbandonCommit.abandoned stored
    (some ("Paystack reconciliation: status=" ++ pyRepr status)) there still)
  simpa [pending4, pending3, pending2, pending1, revised_id revised, key] using fits

section Sweep
variable {K : Uuid → Prop} {origin : Database} {transactionId : Uuid}
  (charges : ∀ id ws db, K id → R Nothing origin db → ChargeCommit id db ws → G ws db)
  (starts : ∀ id t s db, K id → R Nothing origin s → R Nothing s db → Unpaid t s →
    db.transactions.find? id = some t → t.status = .pending → G [mark id .processing none] db)
  (sides : ∀ ws db, Side ws → G ws db)
  (picks : ∀ reference db row, R Nothing origin db →
    TransactionRepository.byProviderReference reference db = .ok (some row) →
    row.status = .pending → K row.id)
include charges starts sides picks

theorem applyResult_wp {data : PaystackData} (abandons : data.status.get "" ≠ some "success" →
      ∀ ws db, R Nothing origin db → AbandonCommit transactionId db ws → G ws db)
    {Q : Post Database IdentityMap Write Row AppError Unit} (here : R Nothing origin v.db)
    (bare : v.pending = []) (blank : v.memory = default) (any : ∀ u r, Q r u) :
    wp R G F (applyResult transactionId data) Q v := by
  unfold applyResult
  dsimp only
  split
  · refine seq_wp ?_
    refine processChargeSuccess_wp env current charges sides here bare blank picks
      (fun u _ => any u _) ?_ ?_
    · intro u clean
      refine commit_wp env (fun u _ _ => any u _) ?_ (fun _ w _ _ _ _ _ => any w _)
      intro w _ same _
      rw [same, clean]
      exact sides _ _ side_nil
    · intro u row mine rely unpaid pending marked
      refine commit_wp env (fun u _ _ => any u _) ?_ (fun _ w _ _ _ _ _ => any w _)
      intro w goes same _
      obtain ⟨stored, there, again, still⟩ := (marked_goes goes marked).row
      rw [same, pending]
      refine starts row.id stored u.db _ mine rely goes.rely ?_ there still
      intro id paid
      rw [revised_destination again] at paid
      exact unpaid id paid
  · rename_i status
    exact failFunding_wp env current (abandons status) here bare blank any

theorem reconcileFunding_wp {providerReference : String}
    (abandons : ∀ ws db, R Nothing origin db → AbandonCommit transactionId db ws → G ws db)
    {Q : Post Database IdentityMap Write Row AppError Unit} (here : R Nothing origin v.db)
    (bare : v.pending = []) (blank : v.memory = default) (any : ∀ u r, Q r u) :
    wp R G F (reconcileFunding transactionId providerReference) Q v := by
  unfold reconcileFunding
  refine handle_wp ?_
  refine seq_wp ?_
  refine paystack_wp env (fun u => any u _) ?_
  intro v1 data goes1 pending1 memory1
  refine applyResult_wp env current charges starts sides picks (fun _ => abandons)
    (env.trans here goes1.rely) (pending1.trans bare) (memory1.trans blank) ?_
  intro u r
  cases r <;> exact any u _

end Sweep

section Payouts
variable {K : Uuid → Prop} {D : Database → Prop}
  (settles : ∀ id ws db, K id → SettleCommit id db ws → G ws db)
  (sides : ∀ ws db, Side ws → G ws db)
  (ends : ∀ id ws db, K id → SettleCommit id db ws → D (applyAll ws db))
  (lasts : Persists R D)
include settles sides ends lasts

theorem settlePayout_wp {txn : Transaction} {walletId : Uuid}
    {Q : Post Database IdentityMap Write Row AppError Unit} (mine : K txn.id) (bare : v.pending = [])
    (unloaded : ∀ id, v.memory.wallets id = none) (read : Read txn v)
    (status : txn.status = .processing) (source : txn.sourceWalletId = some walletId)
    (failed : ∀ u x, Q (.error x) u)
    (lost : ∀ u, Goes R v u → WalletRepository.byId walletId u.db = none → Q (.ok ()) u)
    (done : ∀ u, D u.db → Q (.ok ()) u) :
    wp R G F (settlePayout txn walletId) Q v := by
  unfold settlePayout
  refine seq_wp ?_
  refine lockUnloaded_wp env (fun _ => ?_) unloaded (fun u => failed u _) ?_
  · rw [bare]
    rfl
  intro v1 found goes1 pending1 memory1 locks missing
  cases found with
  | none => exact lost v1 goes1 (missing rfl)
  | some wallet =>
    have locked := locks wallet rfl
    refine seq_wp ?_
    refine createEntry_wp env (fun u => failed u _) ?_
    intro v2 goes2 pending2 memory2
    refine seq_wp ?_
    have read2 := read_goes goes2 (by rw [memory2]) (read_goes goes1 memory1 read)
    refine startStatus_wp env (fun _ => ?_) current read2 (processing_ends status (Or.inl rfl))
      (fun u => failed u _) ?_
    · rw [pending2, pending1, bare]
      rfl
    intro v3 _ goes3 pending3 _ marked _ _ _
    rw [status] at marked
    refine seq_wp ?_
    have fits : ∀ w : Window, Goes R v3 w → SettleCommit txn.id w.db v3.pending := by
      intro w goes
      have locked3 := locked_goes goes (locked_goes goes3 (locked_goes goes2 locked))
      obtain ⟨stored, there, revised, still⟩ := (marked_goes goes marked).row
      obtain ⟨holder, held, key, balance⟩ := locked_row locked3
      have shape := SettleCommit.paid stored holder there still
        (by rw [revised_source revised, source, key, locked.key]) held
      simpa [pending3, pending2, pending1, bare, entryOf, revised_id revised,
        revised_currency revised, revised_amount revised, key, balance] using shape
    refine commit_wp env (fun u _ _ => failed u _) ?_ ?_
    · intro w goes same _
      rw [same]
      exact settles _ _ _ mine (fits w goes)
    · intro w v4 goes _ after bare4 _
      refine auditLog_wp env sides lasts bare4 ?_ (fun u _ => done u)
      rw [after]
      exact ends _ _ _ mine (fits w goes)

theorem refundPayout_wp {txn : Transaction} {walletId : Uuid} {transferCode : String}
    {Q : Post Database IdentityMap Write Row AppError Unit} (mine : K txn.id) (bare : v.pending = [])
    (unloaded : ∀ id, v.memory.wallets id = none) (read : Read txn v)
    (status : txn.status = .processing) (source : txn.sourceWalletId = some walletId)
    (failed : ∀ u x, Q (.error x) u)
    (lost : ∀ u, Goes R v u → WalletRepository.byId walletId u.db = none → Q (.ok ()) u)
    (done : ∀ u, D u.db → Q (.ok ()) u) :
    wp R G F (refundPayout txn walletId transferCode) Q v := by
  unfold refundPayout
  refine seq_wp ?_
  refine lockUnloaded_wp env (fun _ => ?_) unloaded (fun u => failed u _) ?_
  · rw [bare]
    rfl
  intro v1 found goes1 pending1 memory1 locks missing
  cases found with
  | none => exact lost v1 goes1 (missing rfl)
  | some wallet =>
    have locked := locks wallet rfl
    refine seq_wp ?_
    refine updateBalance_wp env (fun u => failed u _) (fun u _ _ _ => failed u _) ?_
    intro v2 _ goes2 pending2 memory2 creditable
    refine seq_wp ?_
    have read2 := read_goes goes2 memory2 (read_goes goes1 memory1 read)
    refine startStatus_wp env (fun _ => ?_) current read2 (processing_ends status (Or.inr rfl))
      (fun u => failed u _) ?_
    · rw [pending2, pending1, bare]
      rfl
    intro v3 _ goes3 pending3 _ marked _ _ _
    rw [status] at marked
    refine seq_wp ?_
    have fits : ∀ w : Window, Goes R v3 w → SettleCommit txn.id w.db v3.pending := by
      intro w goes
      have locked3 := locked_goes goes (locked_goes goes3 (locked_goes goes2 locked))
      obtain ⟨stored, there, revised, still⟩ := (marked_goes goes marked).row
      obtain ⟨holder, held, key, balance⟩ := locked_row locked3
      have shape := SettleCommit.refunded stored holder
        (some ("Paystack transfer failed or reversed: " ++ transferCode)) there still
        (by rw [revised_source revised, source, key, locked.key]) held
        (by rw [balance, revised_amount revised]; exact creditable)
      simpa [pending3, pending2, pending1, bare, revised_amount revised, key, balance] using shape
    refine commit_wp env (fun u _ _ => failed u _) ?_ ?_
    · intro w goes same _
      rw [same]
      exact settles _ _ _ mine (fits w goes)
    · intro w v4 goes _ after bare4 _
      refine auditLog_wp env sides lasts bare4 ?_ (fun u _ => done u)
      rw [after]
      exact ends _ _ _ mine (fits w goes)

/-- Both handlers: the event is skipped, finds no wallet, or settles the withdrawal. -/
theorem payoutEvent_wp {reference : String} {settle : Transaction → Uuid → Tx Unit}
    (handler : settle = settlePayout ∨
      ∃ code, settle = fun txn wallet => refundPayout txn wallet code)
    {Q : Post Database IdentityMap Write Row AppError Unit} (bare : v.pending = [])
    (blank : v.memory = default)
    (picks : ∀ u row, Goes R v u → TransactionRepository.byReference reference u.db = some row →
      K row.id)
    (failed : ∀ u x, Q (.error x) u)
    (skipped : ∀ u, Goes R v u → (∀ row, TransactionRepository.byReference reference u.db = some row →
      F u.db default [] [] ∧ (row.status = .processing → row.sourceWalletId = none)) → Q (.ok ()) u)
    (lost : ∀ u row walletId, Goes R v u → TransactionRepository.byReference reference u.db = some row →
      row.sourceWalletId = some walletId →
      (∀ w, Goes R u w → WalletRepository.byId walletId w.db = none → Q (.ok ()) w))
    (done : ∀ u, D u.db → Q (.ok ()) u) :
    wp R G F (onProcessing reference settle) Q v := by
  unfold onProcessing
  refine seq_wp ?_
  refine selectFresh_wp env bare blank ?_ failed ?_ ?_
  · intro db row picked
    exact (byReference_keyed (Except.ok.inj picked)).1
  · intro u goes _ _ picked
    refine skipped u goes ?_
    intro row found
    rw [Except.ok.inj picked] at found
    cases found
  intro v1 row goes1 pending1 unloaded read fresh picked
  have found := Except.ok.inj picked
  have mine := picks v1 row goes1 found
  dsimp only
  split
  swap
  · rename_i unready
    refine skipped v1 goes1 ?_
    intro again same
    rw [found] at same
    cases same
    exact ⟨fresh, fun status => (unready status).elim⟩
  rename_i status
  cases source : row.sourceWalletId with
  | none =>
    refine skipped v1 goes1 ?_
    intro again same
    rw [found] at same
    cases same
    exact ⟨fresh, fun _ => source⟩
  | some walletId =>
    have missing := lost v1 row walletId goes1 found source
    rcases handler with rfl | ⟨code, rfl⟩
    · exact settlePayout_wp env current settles sides ends lasts mine pending1 unloaded read status
        source failed missing done
    · exact refundPayout_wp env current settles sides ends lasts mine pending1 unloaded read status
        source failed missing done

end Payouts

section Dispatch
variable (sides : ∀ ws db, Side ws → G ws db)
include sides

omit current sides in
theorem recipientCodeOf_wp {account : BankAccount} {Q : Post Database IdentityMap Write Row AppError String}
    (bare : v.pending = []) (failed : ∀ u x, Q (.error x) u)
    (done : ∀ u code, Goes R v u → Side u.pending → u.memory = v.memory → Q (.ok code) u) :
    wp R G F (recipientCodeOf account) Q v := by
  unfold recipientCodeOf
  split
  · exact done v _ (goes_refl env v) (by rw [bare]; exact side_nil) rfl
  refine seq_wp ?_
  refine paystack_wp env (fun u => failed u _) ?_
  intro v1 data goes1 pending1 memory1
  refine require_wp (fun _ => failed v1 _) ?_
  intro _
  refine seq_wp ?_
  refine stmt_wp env (fun u _ _ _ => failed u _) ?_
  intro v2 seen adds goes2 _ added _ _ pending2 memory2
  refine done v2 _ (goes_trans env goes1 goes2) ?_ (memory2.trans memory1)
  rw [pending2, pending1, bare, added]
  simp [Side, sideWrite]

theorem dispatchPayout_wp {origin : Database} {txn : Transaction} {recipientCode : String}
    (dispatches : ∀ ws db, R Nothing origin db → DispatchCommit txn.id db ws → G ws db)
    {Q : Post Database IdentityMap Write Row AppError Unit} (here : R Nothing origin v.db)
    (beside : Side v.pending) (read : Read txn v)
    (account : txn.extraData.bind (·.bankAccountId) ≠ none) (any : ∀ u r, Q r u) :
    wp R G F (dispatchPayout txn recipientCode) Q v := by
  have still : ∀ db, (applyAll v.pending db).transactions = db.transactions :=
    fun db => (side_money beside db).transactions
  unfold dispatchPayout
  by_cases unsettled : txn.status = .pending
  · rw [if_pos unsettled]
    refine seq_wp ?_
    refine startStatus_wp env still current read (pending_starts unsettled) (fun u => any u _) ?_
    intro v1 t goes1 pending1 _ marked revised _ _
    rw [unsettled] at marked
    refine seq_wp ?_
    refine paystack_wp env (fun u => any u _) ?_
    intro v2 transfer goes2 pending2 _
    have fits : ∀ w : Window, Goes R v2 w → ∀ code : Option (Option String), w.pending =
        v.pending ++ mark txn.id .processing none :: (code.map (refer txn.id)).toList →
        G w.pending w.db := by
      intro w goes code pending
      have whole := goes_trans env goes2 goes
      obtain ⟨stored, there, again, unstarted⟩ := (marked_goes whole marked).row
      rw [pending]
      refine dispatches _ _ (env.trans here (env.trans goes1.rely whole.rely)) ?_
      exact DispatchCommit.dispatched stored v.pending code beside there unstarted
        (by rw [revised_extra again]; exact account)
    dsimp only
    split
    · refine commit_wp env (fun u _ _ => any u _) ?_ (fun _ w _ _ _ _ _ => any w _)
      intro w goes same _
      exact fits w goes none (by simp [same, pending2, pending1])
    · refine seq_wp ?_
      refine flush_wp env (fun u => any u _) ?_
      intro v3 _ goes3 _ pending3 _ _ _
      refine commit_wp env (fun u _ _ => any u _) ?_ (fun _ w _ _ _ _ _ => any w _)
      intro w goes same _
      exact fits w (goes_trans env goes3 goes) (some (transfer.transferCode.get ""))
        (by simp [same, pending3, pending2, pending1, refer, revised_id revised])
  · rw [if_neg unsettled, ret_seq]
    refine seq_wp ?_
    refine paystack_wp env (fun u => any u _) ?_
    intro v1 transfer goes1 pending1 memory1
    dsimp only
    split
    · refine commit_wp env (fun u _ _ => any u _) ?_ (fun _ w _ _ _ _ _ => any w _)
      intro w goes same _
      rw [same, pending1]
      exact sides _ _ beside
    · refine seq_wp ?_
      refine flush_wp env (fun u => any u _) ?_
      intro v2 _ goes2 _ pending2 _ _ _
      refine commit_wp env (fun u _ _ => any u _) ?_ (fun _ w _ _ _ _ _ => any w _)
      intro w goes same memory
      -- The row can have moved on from the copy, but never back to PENDING.
      have whole := goes_trans env goes1 (goes_trans env goes2 goes)
      obtain ⟨first, found, revised, started⟩ := read.row
      obtain ⟨stored, there, again, more⟩ := whole.later.transactions _ first found
      rw [same, pending2, pending1]
      refine dispatches _ _ (env.trans here whole.rely) ?_
      exact DispatchCommit.redispatched stored v.pending _ beside there (more (started unsettled))
        (by rw [revised_extra again, revised_extra revised]; exact account)

theorem executePayout_wp {origin : Database} {transactionId : Uuid}
    (dispatches : ∀ ws db, R Nothing origin db → DispatchCommit transactionId db ws → G ws db)
    {Q : Post Database IdentityMap Write Row AppError Unit} (here : R Nothing origin v.db)
    (bare : v.pending = []) (blank : v.memory = default) (any : ∀ u r, Q r u) :
    wp R G F (executePayout transactionId) Q v := by
  unfold executePayout
  refine seq_wp ?_
  refine selectFresh_wp env bare blank ?_ (fun u _ => any u _) (fun u _ _ _ _ => any u _) ?_
  · intro db row picked
    have found := Except.ok.inj picked
    have key : row.id = transactionId := (find?_some_iff.mp found).2
    rw [key]
    exact found
  intro v1 row goes1 pending1 _ read _ picked
  have key : row.id = transactionId := (find?_some_iff.mp (Except.ok.inj picked)).2
  subst key
  dsimp only
  split
  · exact any v1 _
  split
  · exact any v1 _
  cases account : row.extraData.bind (·.bankAccountId) with
  | none => exact any v1 _
  | some bankAccountId =>
    refine seq_wp ?_
    refine query_wp env (fun u => any u _) ?_
    intro v2 goes2 pending2 memory2
    dsimp only
    split
    · exact any v2 _
    refine seq_wp ?_
    refine recipientCodeOf_wp env (pending2.trans pending1) (fun u _ => any u _) ?_
    intro v3 code goes3 beside memory3
    have here3 := env.trans here (env.trans goes1.rely (env.trans goes2.rely goes3.rely))
    have read3 := read_goes goes3 (by rw [memory3]) (read_goes goes2 (by rw [memory2]) read)
    exact dispatchPayout_wp env current sides dispatches here3 beside read3 (by simp [account]) any

end Dispatch

end

end PayCoreHandlers
