import PayCore.Proof.Requests

/- The locked section of transfers and payments: what it commits is one movement
   between two rows whose locks the session holds. -/
namespace PayCoreMovements
open KeyedTable SessionProgram SessionSystem RelyGuarantee PayCoreTables PayCoreWrites PayCoreSessions
open PayCoreRepositories PayCoreSupport PayCorePayments PayCorePersistence PayCoreCommits
open PayCoreStatements PayCoreRequests

variable {R : (Row → Prop) → Database → Database → Prop} {G : List Write → Database → Prop}
  {α : Type} {v u : Window} {origin : Database}

/-- The transaction is the one a request asks for. -/
structure Answers (type : TransactionType) (initiator : Uuid) (amount : Int)
    (source destination : Option Uuid) (t : Transaction) : Prop where
  type : t.type = type
  initiator : t.initiatedByUserId = initiator
  amount : t.amount = amount
  source : t.sourceWalletId = source
  destination : t.destinationWalletId = destination

/-- What a session knows of a wallet it has locked: `L id w u` ties the object `w` to the row. -/
structure Grip (R : (Row → Prop) → Database → Database → Prop)
    (F : Database → IdentityMap → List Row → List Write → Prop) (origin : Database)
    (L : Uuid → Wallet → Window → Prop) : Prop where
  takes : ∀ {v u : Window} {row : Wallet}, Clean R origin v → Goes R v u → u.held (.wallet row.id) →
    F u.db v.memory [.wallet row.id] [] → u.db.wallets.find? row.id = some row →
    L row.id (v.memory.wallet row) u
  stays : ∀ {v u : Window} {id w}, Goes R v u → L id w v → L id w u
  key : ∀ {id w u}, L id w u → w.id = id
  holds : ∀ {id w u}, L id w u → u.held (.wallet id)
  funded : ∀ {id w} {u : Window}, Solvent origin → R Nothing origin u.db → L id w u → 0 ≤ w.balance

theorem grip_fresh {F : Database → IdentityMap → List Row → List Write → Prop} (env : Interference R)
    (fresh : ∀ s m rows adds, F s m rows adds → FreshWallets s m rows adds) :
    Grip R F origin Locked where
  takes {v u row} _ _ held meets found := by
    refine ⟨held, wallet_id v.memory row, row, found, ?_⟩
    unfold IdentityMap.wallet
    cases loaded : v.memory.wallets row.id with
    | none => rfl
    | some w => exact (fresh _ _ _ _ meets row.id row w (by simp) found loaded).symm
  stays := locked_goes
  key := Locked.key
  holds := Locked.held
  funded solvent rely locked := locked_solvent locked ((env.later rely).solvent solvent)

/-- The session holds the lock of the row, and the object is the row as it once stood. -/
structure Grasped (R : (Row → Prop) → Database → Database → Prop) (origin : Database) (id : Uuid)
    (w : Wallet) (u : Window) : Prop where
  held : u.held (.wallet id)
  key : w.id = id
  glimpsed : Glimpsed R origin w u.db

theorem grip_grasped {F : Database → IdentityMap → List Row → List Write → Prop} (env : Interference R) :
    Grip R F origin (Grasped R origin) where
  takes {v _ row} clean goes held _ found :=
    ⟨held, wallet_id v.memory row, glimpsed_wallet env clean goes found⟩
  stays goes h := ⟨goes.keeps _ h.held, h.key, glimpsed_rely env goes.rely h.glimpsed⟩
  key := Grasped.key
  holds := Grasped.held
  funded solvent _ h := by
    obtain ⟨s, since, _, found⟩ := h.glimpsed
    exact (env.later since).solvent solvent _ (find?_some_iff.mp found).1

section
variable (env : Interference R) {type : TransactionType} {initiator : User} {amount : Int}
  {key : Option String} {draws : Draws} {F : Database → IdentityMap → List Row → List Write → Prop}
  {L : Uuid → Wallet → Window → Prop}
include env

/-- SELECT ... FOR UPDATE of a wallet, by a session that may have loaded it before. -/
theorem takeWallet_wp (grip : Grip R F origin L) {id : Uuid}
    {Q : Post Database IdentityMap Write Row AppError (Option Wallet)} (clean : Clean R origin v)
    (failed : ∀ u, Q (.error .database) u)
    (done : ∀ u found, Clean R origin u → Goes R v u → (∀ w, found = some w → L id w u) →
      Q (.ok found) u) :
    wp R G F (WalletRepository.lockForUpdate id) Q v := by
  refine selectWallet_wp env failed ?_ ?_
  · intro u goes pending memory _
    exact done u none (clean_goes env clean goes (pending.trans clean.bare) memory) goes (by simp)
  · intro u row goes pending memory held meets picked
    rw [clean.bare, applyAll_nil] at meets picked
    have there := (Option.filter_eq_some_iff.mp picked).1
    have same : row.id = id := (find?_some_iff.mp there).2
    subst same
    refine done u _ (clean_wallet env clean goes (pending.trans clean.bare) memory there) goes ?_
    rintro w ⟨rfl⟩
    exact grip.takes clean goes (held _ (by simp)) meets there

theorem postDoubleEntry_wp {transactionId debitWalletId creditWalletId : Uuid} {currency : String}
    {debitAfter creditAfter : Int}
    {Q : Post Database IdentityMap Write Row AppError (LedgerEntry × LedgerEntry)}
    (failed : ∀ u, Q (.error .database) u)
    (done : ∀ u entries, Goes R v u →
      u.pending = v.pending ++
        [.insertEntry ⟨transactionId, debitWalletId, .debit, amount, currency, debitAfter⟩,
         .insertEntry ⟨transactionId, creditWalletId, .credit, amount, currency, creditAfter⟩] →
      Q (.ok entries) u) :
    wp R G F (postDoubleEntry transactionId debitWalletId creditWalletId amount currency debitAfter
      creditAfter) Q v := by
  unfold postDoubleEntry
  refine seq_wp ?_
  refine createEntry_wp env failed ?_
  intro v1 goes1 pending1 _
  refine seq_wp ?_
  refine createEntry_wp env failed ?_
  intro v2 goes2 pending2 _
  refine done v2 _ (goes_trans env goes1 goes2) ?_
  simp [pending2, pending1]

def movementOf (type : TransactionType) (initiator : User) (amount : Int) (key : Option String)
    (draws : Draws) (payer payee : Wallet) : Transaction :=
  { id := draws.transactionId
    reference := "txn_" ++ draws.hex
    type
    status := .completed
    amount
    currency := payer.currency
    sourceWalletId := some payer.id
    destinationWalletId := some payee.id
    initiatedByUserId := initiator.id
    idempotencyKey := key
    createdAt := draws.clock.startedAt }

/-- A session about to commit `t`: both objects are gripped, the INSERT has taken effect in a
    state it met its condition in, and it has held the payer's row since. -/
structure Poised (R : (Row → Prop) → Database → Database → Prop)
    (F : Database → IdentityMap → List Row → List Write → Prop) (L : Uuid → Wallet → Window → Prop)
    (source destination : Uuid) (t : Transaction) (payer payee : Wallet) (u : Window) : Prop where
  apart : source ≠ destination
  debtor : L source payer u
  creditor : L destination payee u
  covered : t.amount ≤ payer.balance
  creditable : WalletRepository.storable (payee.balance + t.amount)
  reserved : Reserved t u
  entered : ∃ (s : Window) (memory : IdentityMap), s.held (.wallet source) ∧ Goes R s u ∧
    F s.db memory [] [.insertTransaction t]
  pending : u.pending = movementWrites t payer payee

theorem writeMovement_wp (grip : Grip R F origin L) {source destination : Uuid} {sender recipient : Wallet}
    (moves : ∀ u, R Nothing v.db u.db → Poised R F L source destination
      (movementOf type initiator amount key draws sender recipient) sender recipient u →
      G u.pending u.db)
    (positive : 0 ≤ amount) {Q : Post Database IdentityMap Write Row AppError Movement}
    (clean : Clean R origin v) (solvent : Solvent origin)
    (debtor : L source sender v) (creditor : L destination recipient v)
    (apart : source ≠ destination) (covered : amount ≤ sender.balance)
    (failed : ∀ u, Q (.error .database) u)
    (refused : ∀ u c, R Nothing v.db u.db → u.pending = [] → c ≠ .walletsBalanceNonNegative →
      Q (.error (.integrity c)) u)
    (committed : ∀ u t, u.pending = [] →
      Answers type initiator.id amount (some source) (some destination) t → Later v.db u.db →
      Stored t u.db → Q (.ok (.committed t)) u) :
    wp R G F (writeMovement type initiator amount key draws sender recipient) Q v := by
  have afford : 0 ≤ recipient.balance := grip.funded solvent clean.rely creditor
  unfold writeMovement
  refine seq_wp ?_
  refine createTransaction_wp env clean.bare failed ?_ ?_
  · intro u c goes pending other
    exact refused u c goes.rely pending other
  intro v1 memory goes1 pending1 reserved entered
  refine seq_wp ?_
  refine postDoubleEntry_wp env failed ?_
  intro v2 _ goes2 pending2
  refine seq_wp ?_
  refine updateBalance_wp env failed ?_ ?_
  · intro u _ _ overdrawn
    omega
  intro v3 _ goes3 pending3 _ _
  refine seq_wp ?_
  refine updateBalance_wp env failed ?_ ?_
  · intro u _ _ overdrawn
    omega
  intro v4 _ goes4 pending4 _ creditable
  have written : v4.pending =
      movementWrites (movementOf type initiator amount key draws sender recipient) sender recipient := by
    simp [pending4, pending3, pending2, pending1, movementWrites, entryOf, movementOf]
  have since := goes_trans env goes2 (goes_trans env goes3 goes4)
  refine seq_wp ?_
  refine commit_wp env (fun u _ _ => failed u) ?_ ?_
  · intro v5 goes5 pending5 _
    have whole := goes_trans env since goes5
    have entire := goes_trans env goes1 whole
    refine moves v5 entire.rely ⟨apart, grip.stays entire debtor, grip.stays entire creditor, covered,
      creditable, reserved_goes whole reserved, ⟨v1, memory, ?_, whole, entered⟩, pending5.trans written⟩
    exact grip.holds (grip.stays goes1 debtor)
  · intro v5 w goes5 _ after bare' _
    have whole := goes_trans env since goes5
    have regular : ∀ w ∈ v4.pending, Regular w := by
      rw [written]
      exact movementWrites_regular covered creditable.1
    refine committed w _ bare' ⟨rfl, rfl, rfl, congrArg some (grip.key debtor),
      congrArg some (grip.key creditor)⟩ ?_ ?_
    · rw [after]
      exact later_trans (goes_trans env goes1 whole).later (later_all regular _)
    · rw [after, written]
      exact movementWrites_stored (reserved_goes whole reserved).free

theorem recoverMovement_wp {error : AppError}
    {Q : Post Database IdentityMap Write Row AppError Movement}
    (other : error ≠ .integrity .walletsBalanceNonNegative)
    (failed : ∀ u x, x ≠ .integrity .walletsBalanceNonNegative → Q (.error x) u)
    (existing : ∀ u txn, u.pending = [] → R Nothing v.db u.db → truthy key = true →
      TransactionRepository.byIdempotencyKey (key.getD "") u.db = some txn →
      Q (.ok (.existing txn)) u) :
    wp R G F (recoverMovement key error) Q v := by
  cases error with
  | integrity c =>
    unfold recoverMovement
    refine seq_wp ?_
    refine rollback_wp env ?_
    intro v1 rely _ bare memory
    have clean : Clean R v.db v1 := ⟨rely, bare, by simp [memory], by simp [memory]⟩
    by_cases has : truthy key = true
    · simp only [has, if_true]
      refine seq_wp ?_
      refine getByIdempotencyKey_wp env clean (fun u => failed u _ (by simp)) ?_ ?_
      · intro u _ _
        exact failed u _ other
      · intro u txn bare rely found
        exact existing u txn bare rely has found
    · simp only [has]
      exact failed v1 _ other
  | _ => exact failed v _ (by simp)

theorem moveFunds_wp (grip : Grip R F origin L) {senderWallet recipientWallet : Wallet}
    (moves : ∀ u payer payee, R Nothing v.db u.db → Poised R F L senderWallet.id recipientWallet.id
      (movementOf type initiator amount key draws payer payee) payer payee u → G u.pending u.db)
    (positive : 0 ≤ amount) {Q : Post Database IdentityMap Write Row AppError Movement}
    (clean : Clean R origin v) (solvent : Solvent origin)
    (apart : senderWallet.id ≠ recipientWallet.id)
    (failed : ∀ u x, x ≠ .integrity .walletsBalanceNonNegative → Q (.error x) u)
    (existing : ∀ u txn, u.pending = [] → R Nothing origin u.db → truthy key = true →
      TransactionRepository.byIdempotencyKey (key.getD "") u.db = some txn →
      Q (.ok (.existing txn)) u)
    (committed : ∀ u t, u.pending = [] →
      Answers type initiator.id amount (some senderWallet.id) (some recipientWallet.id) t →
      Later v.db u.db → Stored t u.db → Q (.ok (.committed t)) u) :
    wp R G F (moveFunds type initiator amount key draws senderWallet recipientWallet) Q v := by
  unfold moveFunds
  refine seq_wp ?_
  refine takeWallet_wp env grip clean (fun u => failed u _ (by simp)) ?_
  intro v1 foundFirst clean1 goes1 first
  refine seq_wp ?_
  refine takeWallet_wp env grip clean1 (fun u => failed u _ (by simp)) ?_
  intro v2 foundSecond clean2 goes2 second
  refine orRaise_wp (fun _ => failed v2 _ (by simp)) ?_
  intro lockedFirst isFirst
  refine orRaise_wp (fun _ => failed v2 _ (by simp)) ?_
  intro lockedSecond isSecond
  have lowest := grip.stays goes2 (first _ isFirst)
  have highest := second _ isSecond
  -- Whatever the order of the two ids, each object stands for its own wallet.
  have debtor : L senderWallet.id (if min senderWallet.id recipientWallet.id = senderWallet.id
      then lockedFirst else lockedSecond) v2 := by
    split
    · rename_i order
      rw [order] at lowest
      exact lowest
    · rename_i order
      rwa [max_eq_left (le_of_not_ge (mt min_eq_left order))] at highest
  have creditor : L recipientWallet.id (if min senderWallet.id recipientWallet.id = senderWallet.id
      then lockedSecond else lockedFirst) v2 := by
    split
    · rename_i order
      have low := min_le_right senderWallet.id recipientWallet.id
      rw [order] at low
      rwa [max_eq_right low] at highest
    · rename_i order
      rwa [min_eq_right (le_of_not_ge (mt min_eq_left order))] at lowest
  refine require_wp (fun _ => failed v2 _ (by simp)) ?_
  intro covered
  refine handle_wp ?_
  refine writeMovement_wp env grip ?_ positive clean2 solvent debtor creditor apart
    (by simpa using covered) (fun u => failed u _ (by simp)) ?_ ?_
  · intro u rely poised
    exact moves u _ _ (env.trans goes1.rely (env.trans goes2.rely rely)) poised
  · intro u c rely _ other
    refine recoverMovement_wp env (by simpa using other) failed ?_
    intro w txn bare later has found
    exact existing w txn bare (env.trans clean2.rely (env.trans rely later)) has found
  · intro u t bare answers later
    exact committed u t bare answers (later_trans goes1.later (later_trans goes2.later later))

section BestEffort
variable {D : Database → Prop} (lasts : Persists R D)
include lasts

theorem createAndEnqueue_wp (sides : ∀ ws db, Side ws → G ws db) {merchant : Merchant}
    {transactionId deliveryId : Uuid} {eventType : String}
    {Q : Post Database IdentityMap Write Row AppError Unit} (bare : v.pending = []) (holds : D v.db)
    (done : ∀ u r, u.pending = [] → D u.db → Q r u) :
    wp R G F (createAndEnqueue merchant transactionId deliveryId eventType) Q v := by
  unfold createAndEnqueue
  split
  · refine seq_wp ?_
    refine stmt_wp env (fun u goes pending _ => done u _ pending (lasts.rely goes.rely holds)) ?_
    intro v1 seen adds goes1 _ added _ _ pending1 _
    have holds1 := lasts.rely goes1.rely holds
    rw [bare, List.nil_append] at pending1
    have aside : Side v1.pending := by
      rw [pending1, added]
      simp [Side, sideWrite]
    refine seq_wp ?_
    refine commit_wp env (fun u rely pending => done u _ pending (lasts.rely rely holds1)) ?_ ?_
    · intro u _ same _
      rw [same]
      exact sides _ _ aside
    · intro u v2 goes2 _ after bare2 _
      have holds2 : D v2.db := by
        rw [after]
        exact lasts.side aside (lasts.rely goes2.rely holds1)
      refine handle_wp ?_
      refine call_wp env ?_ ?_
      · intro u goes same _
        exact done u _ (same.trans bare2) (lasts.rely goes.rely holds2)
      · intro u _ goes same _
        exact done u _ (same.trans bare2) (lasts.rely goes.rely holds2)
  · exact done v _ bare holds

theorem enqueue_wp {task : Task}
    {Q : Post Database IdentityMap Write Row AppError Unit} (bare : v.pending = []) (holds : D v.db)
    (failed : ∀ u, u.pending = [] → D u.db → Q (.error .broker) u)
    (done : ∀ u, u.pending = [] → D u.db → Q (.ok ()) u) :
    wp R G F (enqueue task) Q v := by
  refine call_wp env ?_ ?_
  · intro u goes same _
    exact failed u (same.trans bare) (lasts.rely goes.rely holds)
  · intro u _ goes same _
    exact done u (same.trans bare) (lasts.rely goes.rely holds)

theorem maybeFlagRapidTransfers_wp {cfg : Settings} {now : Timestamp} {transactionId walletId : Uuid}
    {Q : Post Database IdentityMap Write Row AppError Unit} (bare : v.pending = []) (holds : D v.db)
    (failed : ∀ u x, x ≠ .integrity .walletsBalanceNonNegative → Q (.error x) u)
    (done : ∀ u, u.pending = [] → D u.db → Q (.ok ()) u) :
    wp R G F (maybeFlagRapidTransfers cfg now transactionId walletId) Q v := by
  unfold maybeFlagRapidTransfers
  refine seq_wp ?_
  refine query_wp env (fun u => failed u _ (by simp)) ?_
  intro v1 goes1 pending1 _
  have bare1 := pending1.trans bare
  have holds1 := lasts.rely goes1.rely holds
  dsimp only
  split
  · exact enqueue_wp env lasts bare1 holds1 (fun u _ _ => failed u _ (by simp)) done
  · exact done v1 bare1 holds1

theorem maybeFlagMerchantPayment_wp {cfg : Settings} {transactionId : Uuid} {user : User}
    {Q : Post Database IdentityMap Write Row AppError Unit} (bare : v.pending = []) (holds : D v.db)
    (failed : ∀ u x, x ≠ .integrity .walletsBalanceNonNegative → Q (.error x) u)
    (done : ∀ u, u.pending = [] → D u.db → Q (.ok ()) u) :
    wp R G F (maybeFlagMerchantPayment cfg transactionId user amount) Q v := by
  unfold maybeFlagMerchantPayment
  split
  · exact enqueue_wp env lasts bare holds (fun u _ _ => failed u _ (by simp)) done
  · exact done v bare holds

end BestEffort

/-- The wallet belongs to the one that the request has picked out. -/
def Receives {ρ : Type} (R : (Row → Prop) → Database → Database → Prop) (origin : Database)
    (picks : Database → Option ρ) (owner : ρ → Uuid) (walletId : Uuid) (db : Database) : Prop :=
  ∃ a s, R Nothing origin s ∧ picks s = some a ∧ Later s db ∧ Owned walletId (owner a) db

theorem initiateTransfer_wp (grip : Grip R F origin L) {normalize : String → String} {cfg : Settings}
    {recipient : Recipient}
    (moves : ∀ u source destination payer payee, R Nothing origin u.db →
      Poised R F L source destination (movementOf .transfer initiator amount key draws payer payee)
        payer payee u →
      Owned source initiator.id u.db →
      Receives R origin (recipientIn normalize recipient) (·.id) destination u.db →
      Checked R origin cfg draws.clock.utcNow initiator amount .transfer u.db →
      Passed R origin u.db (fun s => FraudRepository.recentTransfers source destination amount
        (draws.clock.utcNow - seconds cfg.fraudDuplicateWindowSeconds) s = 0) → G u.pending u.db)
    (sides : ∀ ws db, Side ws → G ws db)
    (positive : 0 ≤ amount) {Q : Post Database IdentityMap Write Row AppError Transaction}
    (clean : Clean R origin v) (solvent : Solvent origin)
    (failed : ∀ u x, x ≠ .integrity .walletsBalanceNonNegative → Q (.error x) u)
    (existing : ∀ u txn, R Nothing origin u.db → truthy key = true →
      TransactionRepository.byIdempotencyKey (key.getD "") u.db = some txn → Q (.ok txn) u)
    (committed : ∀ u txn source destination user s, Answers .transfer initiator.id amount (some source)
      (some destination) txn → R Nothing origin s → recipientIn normalize recipient s = some user →
      Later s u.db → Owned source initiator.id u.db → Owned destination user.id u.db →
      Stored txn u.db → Q (.ok txn) u) :
    wp R G F (initiateTransfer normalize initiator cfg recipient amount key draws) Q v := by
  unfold initiateTransfer
  refine seq_wp ?_
  refine resolveTransfer_wp env clean failed ?_
  intro v1 senderWallet recipientWallet user s clean1 ownsSender ownsRecipient other rely until1 found
  refine seq_wp ?_
  refine lookupKey_wp env clean1 (fun u => failed u _ (by simp)) ?_ ?_
  swap
  · intro u txn _ rely has found
    exact existing u txn rely has found
  intro v2 clean2 later2
  refine seq_wp ?_
  refine checkTransfer_wp env clean2 failed ?_
  intro v3 clean3 _ later3 checked unrepeated
  refine seq_wp ?_
  refine moveFunds_wp env grip ?_ positive clean3 solvent
    (owned_apart ownsSender ownsRecipient other) failed ?_ ?_
  · intro u payer payee onward poised
    have since := later_trans later2 (later_trans later3 (env.later onward))
    exact moves u _ _ payer payee (env.trans clean3.rely onward) poised (owned_later since ownsSender)
      ⟨user, s, rely, found, later_trans until1 since, owned_later since ownsRecipient⟩
      (checked_rely env onward checked) (passed_rely env onward unrepeated)
  · intro u txn _ rely has found
    exact existing u txn rely has found
  intro v4 txn bare4 answers later4 stored
  have lasts : Persists R (fun db => Later v1.db db ∧ Stored txn db) :=
    persists_later env (fun more h => ⟨later_trans h.1 more, stored_later more h.2⟩)
  have since1 := later_trans later2 (later_trans later3 later4)
  refine seq_wp ?_
  refine maybeFlagRapidTransfers_wp env lasts bare4 ⟨since1, stored⟩ failed ?_
  intro v5 bare5 holds5
  refine auditThen_wp env sides lasts bare5 holds5 ?_
  rintro u ⟨onward, kept⟩
  exact committed u txn _ _ user s answers rely found (later_trans until1 onward)
    (owned_later onward ownsSender) (owned_later onward ownsRecipient) kept

theorem initiatePayment_wp (grip : Grip R F origin L) {cfg : Settings} {merchantId : Uuid}
    (moves : ∀ u source destination payer payee, R Nothing origin u.db →
      Poised R F L source destination
        (movementOf .merchantPayment initiator amount key draws payer payee) payer payee u →
      Owned source initiator.id u.db →
      Receives R origin (MerchantRepository.byId merchantId) (·.userId) destination u.db →
      Checked R origin cfg draws.clock.utcNow initiator amount .merchantPayment u.db →
      G u.pending u.db)
    (sides : ∀ ws db, Side ws → G ws db)
    (positive : 0 ≤ amount) {Q : Post Database IdentityMap Write Row AppError Transaction}
    (clean : Clean R origin v) (solvent : Solvent origin)
    (failed : ∀ u x, x ≠ .integrity .walletsBalanceNonNegative → Q (.error x) u)
    (existing : ∀ u txn, R Nothing origin u.db → truthy key = true →
      TransactionRepository.byIdempotencyKey (key.getD "") u.db = some txn → Q (.ok txn) u)
    (committed : ∀ u txn source destination merchant s, Answers .merchantPayment initiator.id amount
      (some source) (some destination) txn → R Nothing origin s →
      MerchantRepository.byId merchantId s = some merchant → Later s u.db →
      Owned source initiator.id u.db → Owned destination merchant.userId u.db → Stored txn u.db →
      Q (.ok txn) u) :
    wp R G F (initiatePayment initiator cfg merchantId amount key draws) Q v := by
  unfold initiatePayment
  refine seq_wp ?_
  refine resolvePayment_wp env clean failed ?_
  intro v1 merchant payerWallet merchantWallet s clean1 ownsPayer ownsMerchant other rely until1 found
  refine seq_wp ?_
  refine lookupKey_wp env clean1 (fun u => failed u _ (by simp)) ?_ ?_
  swap
  · intro u txn _ rely has found
    exact existing u txn rely has found
  intro v2 clean2 later2
  refine seq_wp ?_
  refine checkMerchantPayment_wp env clean2 failed ?_
  intro v3 clean3 _ later3 checked
  refine seq_wp ?_
  refine moveFunds_wp env grip ?_ positive clean3 solvent
    (owned_apart ownsPayer ownsMerchant other) failed ?_ ?_
  · intro u payer payee onward poised
    have since := later_trans later2 (later_trans later3 (env.later onward))
    exact moves u _ _ payer payee (env.trans clean3.rely onward) poised (owned_later since ownsPayer)
      ⟨merchant, s, rely, found, later_trans until1 since, owned_later since ownsMerchant⟩
        (checked_rely env onward checked)
  · intro u txn _ rely has found
    exact existing u txn rely has found
  intro v4 txn bare4 answers later4 stored
  have lasts : Persists R (fun db => Later v1.db db ∧ Stored txn db) :=
    persists_later env (fun more h => ⟨later_trans h.1 more, stored_later more h.2⟩)
  have since1 := later_trans later2 (later_trans later3 later4)
  have done : ∀ u, Later v1.db u.db ∧ Stored txn u.db → Q (.ok txn) u := by
    rintro u ⟨onward, kept⟩
    exact committed u txn _ _ merchant s answers rely found (later_trans until1 onward)
      (owned_later onward ownsPayer) (owned_later onward ownsMerchant) kept
  refine seq_wp ?_
  refine maybeFlagMerchantPayment_wp env lasts bare4 ⟨since1, stored⟩ failed ?_
  intro v5 bare5 holds5
  refine seq_wp ?_
  refine handle_wp ?_
  refine createAndEnqueue_wp env lasts sides bare5 holds5 ?_
  intro v6 r bare6 holds6
  cases r with
  | ok _ => exact auditThen_wp env sides lasts bare6 holds6 done
  | error _ => exact auditThen_wp env sides lasts bare6 holds6 done

end

theorem movement_poised {F : Database → IdentityMap → List Row → List Write → Prop}
    {source destination : Uuid} {t : Transaction} {payer payee : Wallet}
    (kind : t.type = .transfer ∨ t.type = .merchantPayment) (status : t.status = .completed)
    (from_payer : t.sourceWalletId = some payer.id) (to_payee : t.destinationWalletId = some payee.id)
    (provider : t.providerReference = none) (extra : t.extraData = none)
    (h : Poised R F Locked source destination t payer payee u) : MovementCommit u.db u.pending := by
  obtain ⟨debit, found, debitKey, debitBalance⟩ := locked_row h.debtor
  obtain ⟨credit, found', creditKey, creditBalance⟩ := locked_row h.creditor
  have fits := MovementCommit.posted t debit credit kind status (by rw [debitKey]; exact from_payer)
    (by rw [creditKey]; exact to_payee) provider extra h.reserved.free found found'
    (by rw [debitKey, creditKey, h.debtor.key, h.creditor.key]; exact h.apart)
    (by rw [debitBalance]; exact h.covered) (by rw [creditBalance]; exact h.creditable)
  rw [h.pending]
  simpa [movementWrites, entryOf, debitKey, creditKey, debitBalance, creditBalance] using fits

end PayCoreMovements
