import PayCore.Proof.Movements
import PayCore.Service.Funding
import PayCore.Service.Registration

/- The requests that open something: the hold of a withdrawal, a funding, an account. -/
namespace PayCoreOpenings
open KeyedTable SessionProgram SessionSystem RelyGuarantee PayCoreTables PayCoreWrites PayCoreSessions
open PayCoreRepositories PayCoreSupport PayCorePayments PayCoreWithdrawals PayCoreFunding
open PayCoreRegistration PayCorePersistence PayCoreCommits PayCoreStatements PayCoreRequests
open PayCoreMovements

variable {R : (Row → Prop) → Database → Database → Prop} {G : List Write → Database → Prop}
  {v u : Window} {origin : Database} (env : Interference R)
include env

theorem getActiveWithdrawal_wp {userId : Uuid} {F : Database → IdentityMap → List Row → List Write → Prop}
    {Q : Post Database IdentityMap Write Row AppError (Option Transaction)} (clean : Clean R origin v)
    (failed : ∀ u x, x ≠ .integrity .walletsBalanceNonNegative → Q (.error x) u)
    (busy : ∀ u txn, Q (.ok (some txn)) u)
    (idle : ∀ u, Clean R origin u → R Nothing v.db u.db → Later v.db u.db →
      Passed R origin u.db (fun s => s.transactions.rows.filter (isActiveWithdrawal userId) = []) →
      Q (.ok none) u) :
    wp R G F (getActiveWithdrawal userId) Q v := by
  unfold getActiveWithdrawal
  refine selectTransaction_wp env ?_ ?_ (fun u row _ _ _ _ _ => busy u _)
  · intro u x _ why
    refine failed u x ?_
    rcases why with rfl | several
    · simp
    · rintro rfl
      revert several
      cases (applyAll v.pending u.db).transactions.rows.filter (isActiveWithdrawal userId) with
      | nil => simp [TransactionRepository.scalarOneOrNone]
      | cons a rest => cases rest <;> simp [TransactionRepository.scalarOneOrNone]
  · intro u goes pending memory picked
    rw [clean.bare, applyAll_nil] at picked
    have after := clean_goes env clean goes (pending.trans clean.bare) memory
    refine idle u after goes.rely goes.later ⟨u.db, after.rely, env.refl Nothing u.db, ?_⟩
    cases rows : u.db.transactions.rows.filter (isActiveWithdrawal userId) with
    | nil => exact rows
    | cons a rest =>
      rw [rows] at picked
      cases rest <;> simp [TransactionRepository.scalarOneOrNone] at picked

omit env

def withdrawalOf (user : User) (bankAccountId : Uuid) (amount : Int) (draws : WithdrawalDraws)
    (wallet : Wallet) : Transaction :=
  { id := draws.transactionId
    reference := "txn_" ++ draws.hex
    type := .withdrawal
    status := .pending
    amount
    currency := wallet.currency
    sourceWalletId := some wallet.id
    initiatedByUserId := user.id
    extraData := some { bankAccountId := some bankAccountId }
    createdAt := draws.clock.startedAt }

/-- A session about to commit the hold `t` on the wallet it grips. -/
structure HoldPoised (R : (Row → Prop) → Database → Database → Prop)
    (F : Database → IdentityMap → List Row → List Write → Prop) (L : Uuid → Wallet → Window → Prop)
    (source : Uuid) (t : Transaction) (wallet : Wallet) (u : Window) : Prop where
  debtor : L source wallet u
  covered : t.amount ≤ wallet.balance
  reserved : Reserved t u
  entered : ∃ (s : Window) (memory : IdentityMap), s.held (.wallet source) ∧ Goes R s u ∧
    F s.db memory [] [.insertTransaction t]
  pending : u.pending = [.insertTransaction t, .setBalance wallet.id (wallet.balance - t.amount)]

theorem hold_poised {F : Database → IdentityMap → List Row → List Write → Prop} {source : Uuid}
    {t : Transaction} {wallet : Wallet} (type : t.type = .withdrawal) (status : t.status = .pending)
    (from_wallet : t.sourceWalletId = some wallet.id) (destination : t.destinationWalletId = none)
    (provider : t.providerReference = none) (h : HoldPoised R F Locked source t wallet u) :
    HoldCommit u.db u.pending := by
  obtain ⟨row, there, key, balance⟩ := locked_row h.debtor
  have fits := HoldCommit.held t row type status (by rw [key]; exact from_wallet) destination provider
    h.reserved.free there (by rw [balance]; exact h.covered)
  rw [h.pending]
  simpa [key, balance] using fits

include env

theorem initiateWithdrawal_wp {F : Database → IdentityMap → List Row → List Write → Prop}
    {L : Uuid → Wallet → Window → Prop} (grip : Grip R F origin L) {cfg : Settings} {user : User}
    {bankAccountId : Uuid} {amount : Int} {draws : WithdrawalDraws}
    (holds : ∀ u source wallet, R Nothing origin u.db →
      HoldPoised R F L source (withdrawalOf user bankAccountId amount draws wallet) wallet u →
      Owned source user.id u.db →
      Checked R origin cfg draws.clock.utcNow user amount .withdrawal u.db →
      Passed R origin u.db (fun s => s.transactions.rows.filter (isActiveWithdrawal user.id) = []) →
      G u.pending u.db)
    (sides : ∀ ws db, Side ws → G ws db)
    {Q : Post Database IdentityMap Write Row AppError Transaction} (clean : Clean R origin v)
    (failed : ∀ u x, x ≠ .integrity .walletsBalanceNonNegative → Q (.error x) u)
    (done : ∀ u txn, Q (.ok txn) u) :
    wp R G F (initiateWithdrawal cfg user bankAccountId amount draws) Q v := by
  unfold initiateWithdrawal
  refine requireWallet_wp env clean (by simp) failed ?_
  intro v1 wallet clean1 _ owns
  refine seq_wp ?_
  refine checkWithdrawal_wp env clean1 failed ?_
  intro v2 clean2 _ later2 checked
  refine seq_wp ?_
  refine getActiveWithdrawal_wp env clean2 failed (fun u txn => failed u _ (by simp)) ?_
  intro v3 clean3 rely3 later3 idle
  refine require_wp (fun _ => failed v3 _ (by simp)) ?_
  intro _
  refine seq_wp ?_
  refine query_wp env (fun u => failed u _ (by simp)) ?_
  intro v4 goes4 pending4 memory4
  have clean4 := clean_goes env clean3 goes4 (pending4.trans clean3.bare) memory4
  refine orRaise_wp (fun _ => failed v4 _ (by simp)) ?_
  intro _ _
  refine seq_wp ?_
  refine takeWallet_wp env grip clean4 (fun u => failed u _ (by simp)) ?_
  intro v5 found clean5 goes5 grips
  refine orRaise_wp (fun _ => failed v5 _ (by simp)) ?_
  intro lockedWallet isLocked
  have debtor := grips _ isLocked
  refine require_wp (fun _ => failed v5 _ (by simp)) ?_
  intro covers
  have covered : amount ≤ lockedWallet.balance := by simpa using covers
  refine seq_wp ?_
  refine createTransaction_wp env clean5.bare (fun u => failed u _ (by simp)) ?_ ?_
  · intro u c _ _ other
    exact failed u _ (by simpa using other)
  intro v6 memory goes6 pending6 reserved entered
  refine seq_wp ?_
  refine updateBalance_wp env (fun u => failed u _ (by simp)) ?_ ?_
  · intro u _ _ overdrawn
    omega
  intro v7 _ goes7 pending7 _ _
  refine seq_wp ?_
  refine commit_wp env (fun u _ _ => failed u _ (by simp)) ?_ ?_
  · intro v8 goes8 pending8 _
    have whole := goes_trans env goes7 goes8
    have entire := goes_trans env goes6 whole
    have since3 := env.trans goes4.rely (env.trans goes5.rely entire.rely)
    have since2 := env.trans rely3 since3
    refine holds v8 wallet.id lockedWallet (env.trans clean5.rely entire.rely)
      ⟨grip.stays entire debtor, covered, reserved_goes whole reserved, ⟨v6, memory, ?_, whole, entered⟩,
        ?_⟩ ?_ (checked_rely env since2 checked) (passed_rely env since3 idle)
    · exact grip.holds (grip.stays goes6 debtor)
    · simp [pending8, pending7, pending6, withdrawalOf]
    · exact owned_later (later_trans later2 (env.later since2)) owns
  intro _ v8 _ _ _ bare8 _
  refine seq_wp ?_
  refine handle_wp ?_
  refine enqueue_wp env persists_true bare8 trivial ?_ ?_
  · intro v9 bare9 _
    exact auditThen_wp env sides persists_true bare9 trivial (fun u _ => done u _)
  · intro v9 bare9 _
    exact auditThen_wp env sides persists_true bare9 trivial (fun u _ => done u _)

/-- A transaction of the database is the one the response describes. -/
def Responds (out : WalletFundingOut) (t : Transaction) (db : Database) : Prop :=
  out.transactionId = t.id ∧ out.amount = t.amount ∧ Stored t db

omit env in
theorem fundingOf_wp {F : Database → IdentityMap → List Row → List Write → Prop} {t : Transaction}
    {url : Option String} {Q : Post Database IdentityMap Write Row AppError WalletFundingOut}
    (failed : Q (.error .responseModel) v)
    (done : ∀ out : WalletFundingOut, out.transactionId = t.id → out.amount = t.amount →
      Q (.ok out) v) :
    wp R G F (fundingOf t url) Q v :=
  orRaise_wp (fun _ => failed) (fun _ _ => done _ rfl rfl)

theorem initiateFunding_wp {user : User} {amount : Int} {key : Option String}
    {draws : WithdrawalDraws} {F : Database → IdentityMap → List Row → List Write → Prop}
    (requests : ∀ t id db, Answers .funding user.id amount none (some id) t → Owned id user.id db →
      RequestCommit db [.insertTransaction t] → G [.insertTransaction t] db)
    {Q : Post Database IdentityMap Write Row AppError WalletFundingOut} (clean : Clean R origin v)
    (failed : ∀ u x, x ≠ .integrity .walletsBalanceNonNegative → Q (.error x) u)
    (existing : ∀ u out txn, R Nothing origin u.db → truthy key = true →
      TransactionRepository.byIdempotencyKey (key.getD "") u.db = some txn →
      Responds out txn u.db → Q (.ok out) u)
    (committed : ∀ u out txn id, Answers .funding user.id amount none (some id) txn →
      Owned id user.id u.db → Responds out txn u.db → Q (.ok out) u) :
    wp R G F (initiateFunding user amount key draws) Q v := by
  unfold initiateFunding resolveFunding
  refine seq_wp ?_
  refine seq_wp ?_
  refine getByUserId_wp env clean (fun u => failed u _ (by simp)) ?_
  intro v1 found clean1 _ owns
  refine orRaise_wp (fun _ => failed v1 _ (by simp)) ?_
  intro wallet isWallet
  have owned := owns wallet isWallet
  refine require_wp (fun _ => failed v1 _ (by simp)) ?_
  intro _
  refine require_wp (fun _ => failed v1 _ (by simp)) ?_
  intro _
  refine seq_wp ?_
  refine lookupKey_wp env clean1 (fun u => failed u _ (by simp)) ?_ ?_
  swap
  · intro v2 txn _ rely has found
    have stored : v2.db.transactions.find? txn.id = some txn :=
      find?_some_iff.mpr ⟨List.mem_of_find?_eq_some found, rfl⟩
    refine fundingOf_wp (failed v2 _ (by simp)) ?_
    intro out sameId sameAmount
    exact existing v2 out txn rely has found ⟨sameId, sameAmount, txn, stored, rfl⟩
  intro v2 clean2 later2
  refine seq_wp ?_
  refine paystack_wp env (fun u => failed u _ (by simp)) ?_
  intro v3 data goes3 pending3 memory3
  have clean3 := clean_goes env clean2 goes3 (pending3.trans clean2.bare) (by rw [memory3])
  refine seq_wp ?_
  refine createTransaction_wp env clean3.bare (fun u => failed u _ (by simp)) ?_ ?_
  · intro u c _ _ other
    exact failed u _ (by simpa using other)
  intro v4 _ goes4 pending4 reserved _
  refine seq_wp ?_
  refine commit_wp env (fun u _ _ => failed u _ (by simp)) ?_ ?_
  · intro v5 goes5 pending5 _
    have later : Later v1.db v5.db := later_trans later2
      (later_trans goes3.later (later_trans goes4.later goes5.later))
    obtain ⟨row, there, _⟩ := owned_later later owned
    have key : row.id = wallet.id := (find?_some_iff.mp there).2
    have fits :=
      requests _ wallet.id _ ⟨rfl, rfl, rfl, rfl, rfl⟩ (owned_later later owned)
        (RequestCommit.requested _ row rfl rfl rfl
      (by rw [key]) rfl (reserved_goes goes5 reserved).free (by rw [key]; exact there))
    simpa [pending5, pending4] using fits
  intro v5 v6 goes5 _ after _ _
  have stored := find?_insert (reserved_goes goes5 reserved).free draws.transactionId
  simp only [transaction_key, if_true] at stored
  have later : Later v1.db v6.db := by
    rw [after]
    exact later_trans later2 (later_trans goes3.later (later_trans goes4.later
      (later_trans goes5.later (later_all (by simp [pending4, Regular]) _))))
  refine fundingOf_wp (failed v6 _ (by simp)) ?_
  intro out sameId sameAmount
  refine committed v6 out _ wallet.id ⟨rfl, rfl, rfl, rfl, rfl⟩ (owned_later later owned)
    ⟨sameId, sameAmount, _, ?_, revised_refl _⟩
  rw [after, pending4]
  exact stored

omit env in
theorem token_wp {cfg : Settings} {userId : Uuid} {hash : String} {now : Timestamp}
    (env : Interference R) {F : Database → IdentityMap → List Row → List Write → Prop}
    {Q : Post Database IdentityMap Write Row AppError Unit} (failed : ∀ u x, Q (.error x) u)
    (stored : ∀ u token, Goes R v u → u.pending = v.pending ++ [.insertRefreshToken token] →
      Q (.ok ()) u) :
    wp R G F (storeRefreshToken cfg userId hash now) Q v := by
  refine stmt_wp env (fun u _ _ _ => failed u _) ?_
  intro u seen adds goes _ added _ _ pending _
  split
  · rename_i free
    rw [if_pos free] at added
    exact stored u _ goes (by rw [pending, added])
  · exact failed u _

theorem createWallet_wp {walletId userId : Uuid}
    {F : Database → IdentityMap → List Row → List Write → Prop}
    {Q : Post Database IdentityMap Write Row AppError Wallet}
    (still : ∀ db, (applyAll v.pending db).wallets = db.wallets) (failed : ∀ u x, Q (.error x) u)
    (created : ∀ u w, Goes R v u → u.pending = v.pending ++ [.insertWallet w] → w.balance = 0 →
      (∀ r ∈ writeTargets (.insertWallet w), u.held r) → u.db.wallets.admits w = true →
      Q (.ok w) u) :
    wp R G F (createWallet walletId userId) Q v := by
  unfold createWallet
  refine seq_wp ?_
  refine selectWallet_wp env (fun u => failed u _) ?_ ?_
  swap
  · intro u _ _ _ _ _ _ _
    exact require_wp (fun _ => failed u _) (by simp)
  intro v1 goes1 pending1 _ _
  refine require_wp (fun _ => failed v1 _) ?_
  intro _
  refine stmt_wp env (fun u _ _ _ => failed u _) ?_
  intro u seen adds goes sees added _ held pending _
  have same : seen.wallets = u.db.wallets := by rw [sees, pending1, still]
  split
  · rename_i free
    rw [if_pos free] at added
    refine created u _ (goes_trans env goes1 goes) (by rw [pending, added, pending1]) rfl ?_
      (by rw [← same]; exact free)
    intro r mem
    refine held r ?_
    rw [added]
    simp only [needed, List.nil_append, touched_cons, touched_nil, List.append_nil]
    exact mem
  · split <;> exact failed u _

theorem register_wp {cfg : Settings} {normalize : String → String} {email hashed name : String}
    {phone : Option String} {draws : RegistrationDraws}
    {F : Database → IdentityMap → List Row → List Write → Prop}
    (registers : ∀ ws db, RegistrationCommit db ws → G ws db) (sides : ∀ ws db, Side ws → G ws db)
    {Q : Post Database IdentityMap Write Row AppError User} (bare : v.pending = [])
    (any : ∀ u r, Q r u) :
    wp R G F (register cfg normalize email hashed name phone draws) Q v := by
  unfold register
  refine seq_wp ?_
  refine query_wp env (fun u => any u _) ?_
  intro v1 _ pending1 _
  refine require_wp (fun _ => any v1 _) ?_
  intro _
  refine seq_wp ?_
  unfold UserRepository.create
  refine orRaise_wp (fun _ => any v1 _) ?_
  intro fullName _
  refine orRaise_wp (fun _ => any v1 _) ?_
  intro phone _
  refine stmt_wp env (fun u _ _ _ => any u _) ?_
  intro v2 seen adds _ _ added _ _ pending2 _
  dsimp only
  split
  swap
  · split
    · exact any v2 _
    · split <;> exact any v2 _
  rename_i free
  rw [if_pos free] at added
  rw [pending1, bare, added, List.nil_append] at pending2
  refine seq_wp ?_
  refine createWallet_wp env (fun _ => ?_) (fun u x => any u _) ?_
  · rw [pending2]
    rfl
  intro v3 w goes3 pending3 empty held admitted
  refine seq_wp ?_
  refine token_wp env (fun u x => any u _) ?_
  intro v4 token goes4 pending4
  refine seq_wp ?_
  refine commit_wp env (fun u _ _ => any u _) ?_ ?_
  · intro v5 goes5 pending5 _
    have whole := goes_trans env goes4 goes5
    have admits := wallet_admits_kept (fun r mem => whole.same r (held r mem)) admitted
    rw [pending5, pending4, pending3, pending2]
    exact registers _ _ (RegistrationCommit.registered _ w token empty admits)
  · intro _ v5 _ _ _ bare5 _
    exact auditThen_wp env sides persists_true bare5 trivial (fun u _ => any u _)

end PayCoreOpenings
