import PayCore.Proof.AccountCommits

/- The money requests commit what they flush. A lone session holds no stale object, so what it
   hands back is what its rows say. -/
namespace PayCoreMoneyCommits
open KeyedTable SessionProgram SerialRuns DurableSessions PayCoreTables PayCoreWrites PayCoreSessions
open PayCoreRepositories PayCoreSupport PayCorePayments PayCoreWithdrawals PayCoreFunding PayCoreAccounts
open PayCoreRegistration PayCoreJobs PayCoreOperations PayCoreCoherence PayCorePersistence
open PayCoreRequests PayCoreCommitRules PayCoreAccountCommits

variable {α β : Type} {T : α → Database → Prop} {s : Held}

theorem transaction_as_row {db : Database} {m : IdentityMap} (h : Coherent db m) {row : Transaction}
    (mem : row ∈ db.transactions.rows) : m.transaction row = row := by
  unfold IdentityMap.transaction
  cases held : m.transactions row.id with
  | none => rfl
  | some t => exact h.transactions _ _ _ held (find?_some_iff.mpr ⟨mem, rfl⟩)

theorem wallet_as_row {db : Database} {m : IdentityMap} (h : Coherent db m) {row : Wallet}
    (mem : row ∈ db.wallets.rows) : m.wallet row = row := by
  unfold IdentityMap.wallet
  cases held : m.wallets row.id with
  | none => rfl
  | some w => exact h.wallets _ _ _ held (find?_some_iff.mpr ⟨mem, rfl⟩)

theorem lookupKey_then {key : Option String} {k : Option Transaction → Tx α}
    (onward : ∀ (u : Held) found, u.seen = s.seen → u.pending = s.pending →
      (∀ txn, found = some txn → u.seen.transactions.find? txn.id = some txn) →
      Settles Coherent T (k found) u) :
    Settles Coherent T (lookupKey key >>= k) s := by
  unfold lookupKey
  split
  · apply silent_then
    intro coherent
    refine onward _ _ rfl rfl ?_
    intro txn found
    change (TransactionRepository.byIdempotencyKey (key.getD "") s.seen).map s.memory.transaction =
      _ at found
    obtain ⟨row, stored, same⟩ := Option.map_eq_some_iff.mp found
    have mem : row ∈ s.seen.transactions.rows := List.mem_of_find?_eq_some stored
    rw [transaction_as_row coherent mem] at same
    rw [← same]
    exact find?_some_iff.mpr ⟨mem, rfl⟩
  · exact onward s none rfl rfl (by simp)

theorem lockForUpdate_then {id : Uuid} {k : Option Wallet → Tx α}
    (onward : ∀ (u : Held) found, u.seen = s.seen → u.pending = s.pending →
      (∀ w, found = some w → w ∈ u.seen.wallets.rows) → Settles Coherent T (k found) u) :
    Settles Coherent T (WalletRepository.lockForUpdate id >>= k) s := by
  apply silent_then
  intro coherent
  refine onward _ _ rfl rfl ?_
  intro w found
  change (WalletRepository.byId id s.seen).map s.memory.wallet = _ at found
  obtain ⟨row, stored, same⟩ := Option.map_eq_some_iff.mp found
  have mem := (find?_some_iff.mp (Option.filter_eq_some_iff.mp stored).1).1
  rw [wallet_as_row coherent mem] at same
  rw [← same]
  exact mem

section Movement
variable (type : TransactionType) (initiator : User) (amount : Int) (key : Option String) (draws : Draws)

theorem writeMovement_tidy {payer payee : Wallet} {Q : Except AppError Movement → Held → Prop}
    (bare : s.pending = []) (positive : 0 ≤ amount) (enough : amount ≤ payer.balance)
    (creditable : 0 ≤ payee.balance)
    (done : ∀ (u : Held) txn, u.pending = [] → u.db.transactions.find? txn.id = some txn →
      Q (.ok (.committed txn)) u)
    (refused : ∀ (u : Held) c, u.pending = [] → Q (.error (.integrity c)) u)
    (lost : ∀ u : Held, Q (.error .database) u) :
    tidy Coherent (writeMovement type initiator amount key draws payer payee) Q s := by
  -- What the column does not take is too large, not negative, and no IntegrityError.
  have large : ∀ b : Int, 0 ≤ b → ¬ WalletRepository.storable b → ¬ b.natAbs < 10 ^ 20 := by
    intro b nonneg unfit short
    exact unfit ⟨nonneg, by omega⟩
  unfold writeMovement TransactionRepository.create
  split
  swap
  · exact lost _
  intro _
  dsimp only
  split
  · rename_i free
    intro _ _ _
    by_cases paid : WalletRepository.storable (payer.balance - amount)
    swap
    · simp only [if_neg paid, if_neg (large _ (by omega) paid)]
      exact lost _
    simp only [if_pos paid]
    intro _
    by_cases received : WalletRepository.storable (payee.balance + amount)
    swap
    · simp only [if_neg received, if_neg (large _ (by omega) received)]
      exact lost _
    simp only [if_pos received]
    apply done _ _ rfl
    simp only [Local.seen, applyAll_append]
    change (s.seen.transactions.insert _).find? _ = _
    rw [find?_insert free]
    exact if_pos rfl
  · rename_i taken
    exact refused _ _ (by simp [bare])

theorem recoverMovement_tidy {error : AppError} {Q : Except AppError Movement → Held → Prop}
    (bare : ∀ c, error = .integrity c → s.pending = []) (raised : ∀ (u : Held) x, Q (.error x) u)
    (existing : ∀ (u : Held) txn, u.pending = [] → u.db.transactions.find? txn.id = some txn →
      Q (.ok (.existing txn)) u) :
    tidy Coherent (recoverMovement key error) Q s := by
  cases error with
  | integrity c =>
    refine ⟨bare c rfl, ?_⟩
    change tidy Coherent (if truthy key then _ else _) _ _
    split
    · intro _
      dsimp only [Local.seen, applyAll_nil]
      cases found : TransactionRepository.byIdempotencyKey (key.getD "") s.db with
      | none => exact raised _ _
      | some row =>
        apply existing
        · rfl
        · exact find?_some_iff.mpr ⟨List.mem_of_find?_eq_some found, rfl⟩
    · exact raised _ _
  | _ => exact raised _ _

/-- The locked section of a payment: the transaction that it hands on is committed. -/
theorem moveFunds_then {payerWallet payeeWallet : Wallet} {k : Movement → Tx α} (bare : s.pending = [])
    (positive : 0 ≤ amount) (solvent : Solvent s.seen)
    (onward : ∀ (u : Held) moved, u.pending = [] →
      (∀ txn, moved = .committed txn ∨ moved = .existing txn → u.db.transactions.find? txn.id = some txn) →
      Settles Coherent T (k moved) u) :
    Settles Coherent T (moveFunds type initiator amount key draws payerWallet payeeWallet >>= k) s := by
  apply nested_then
  apply lockForUpdate_then
  intro t first seenT pendingT stored
  apply nested_then
  apply lockForUpdate_then
  intro v second seenV pendingV storedV
  apply nested_then
  apply orRaise_then
  intro lockedFirst found
  apply nested_then
  apply orRaise_then
  intro lockedSecond foundV
  have firstFine : 0 ≤ lockedFirst.balance := by
    apply solvent
    rw [← seenT]
    exact stored _ found
  have secondFine : 0 ≤ lockedSecond.balance := by
    apply solvent
    rw [← seenT, ← seenV]
    exact storedV _ foundV
  apply nested_then
  apply require_then
  intro enough
  apply settles_seq
  apply handle_tidy
  have unsent : v.pending = [] := by rw [pendingV, pendingT, bare]
  apply writeMovement_tidy type initiator amount key draws unsent positive (of_decide_eq_true enough)
  · split
    · exact secondFine
    · exact firstFine
  · intro u txn clean committed
    apply onward u _ clean
    intro txn' own
    rcases own with same | same
    · cases same
      exact committed
    · cases same
  · intro u c clean
    apply recoverMovement_tidy key (fun _ _ => clean)
    · exact fun _ _ => trivial
    · intro w txn tidied committed
      apply onward w _ tidied
      intro txn' own
      rcases own with same | same
      · cases same
      · cases same
        exact committed
  · exact fun _ => trivial

end Movement

theorem looks_then {p : Tx β} (looks : Looks p) {k : β → Tx α} (onward : ∀ b, Settles Coherent T (k b) s) :
    Settles Coherent T (p >>= k) s := by
  change Settles Coherent T (p.bind k) s
  induction p with
  | ret b => exact onward b
  | raise x => exact settles_raise
  | stmt rows writes memo next fault ihn ihf =>
    obtain ⟨silent, same, further⟩ := looks.1 s.seen s.memory
    intro _
    rw [silent, same, List.append_nil]
    exact ihn _ _ further
  | _ => exact looks.elim

theorem resolveTransfer_then {normalize : String → String} {sender : User} {recipient : Recipient}
    {k : Wallet × Wallet → Tx α}
    (onward : ∀ (u : Held) wallets, u.seen = s.seen → u.pending = s.pending →
      Settles Coherent T (k wallets) u) :
    Settles Coherent T (resolveTransfer normalize sender recipient >>= k) s := by
  apply nested_then
  apply getByUserId_then
  intro t payer seen pending
  apply nested_then
  apply orRaise_then
  intro payerWallet _
  apply nested_then
  apply looks_then
  · cases recipient with
    | userId id => exact looks_query _
    | email email => exact looks_query _
  intro user
  apply nested_then
  apply orRaise_then
  intro payee _
  apply nested_then
  apply require_then
  intro _
  apply nested_then
  apply getByUserId_then
  intro u receiver seenU pendingU
  apply nested_then
  apply orRaise_then
  intro payeeWallet _
  exact onward u (payerWallet, payeeWallet) (seenU.trans seen) (pendingU.trans pending)

theorem lookupKey_or {key : Option String} {p : Tx Transaction}
    (bare : s.pending = [])
    (fresh : ∀ u : Held, u.seen = s.seen → u.pending = [] →
      Settles Coherent (fun txn db => (Report.transaction txn).stands db) p u) :
    Settles Coherent (fun txn db => (Report.transaction txn).stands db)
      (lookupKey key >>= fun existing => match existing with
        | some txn => pure txn
        | none => p) s := by
  apply lookupKey_then
  intro u existing seen pending stored
  have clean : u.pending = [] := by rw [pending, bare]
  cases existing with
  | some txn =>
    apply settles_ret clean
    rw [← seen_bare clean]
    exact stored txn rfl
  | none => exact fresh u seen clean

theorem maybeFlagRapidTransfers_then {cfg : Settings} {now : Timestamp} {transactionId walletId : Uuid}
    {k : Unit → Tx α} (onward : ∀ calls, Settles Coherent T (k ()) { s with calls := calls }) :
    Settles Coherent T (maybeFlagRapidTransfers cfg now transactionId walletId >>= k) s := by
  apply nested_then
  apply query_then
  split
  · exact enqueue_then onward
  · exact onward s.calls

theorem initiateTransfer_settles {normalize : String → String} {sender : User} {cfg : Settings}
    {recipient : Recipient} {amount : Int} {key : Option String} {draws : Draws} (bare : s.pending = [])
    (positive : 0 < amount) (solvent : Solvent s.seen) :
    Settles Coherent (fun txn db => (Report.transaction txn).stands db)
      (initiateTransfer normalize sender cfg recipient amount key draws) s := by
  apply resolveTransfer_then
  intro t wallets seen pending
  apply lookupKey_or (by rw [pending, bare])
  intro u seenU clean
  apply looks_then (looks_checkTransfer cfg _ _ _ _ _)
  intro _
  apply moveFunds_then _ _ _ _ _ clean (Int.le_of_lt positive) (by rw [seenU, seen]; exact solvent)
  intro v moved bareV committed
  cases moved with
  | existing txn => exact settles_ret bareV (committed txn (.inr rfl))
  | committed txn =>
    apply maybeFlagRapidTransfers_then
    intro calls
    exact audited_settles Report.transaction bareV (committed txn (.inl rfl))

theorem resolvePayment_then {payer : User} {merchantId : Uuid} {k : Merchant × Wallet × Wallet → Tx α}
    (onward : ∀ (u : Held) found, u.seen = s.seen → u.pending = s.pending →
      Settles Coherent T (k found) u) :
    Settles Coherent T (resolvePayment payer merchantId >>= k) s := by
  apply nested_then
  apply query_then
  apply nested_then
  apply orRaise_then
  intro merchant _
  apply nested_then
  apply require_then
  intro _
  apply nested_then
  apply require_then
  intro _
  apply nested_then
  apply getByUserId_then
  intro t wallet seen pending
  apply nested_then
  apply orRaise_then
  intro payerWallet _
  apply nested_then
  apply getByUserId_then
  intro u receiver seenU pendingU
  apply nested_then
  apply orRaise_then
  intro merchantWallet _
  exact onward u (merchant, payerWallet, merchantWallet) (seenU.trans seen) (pendingU.trans pending)

theorem maybeFlagMerchantPayment_then {cfg : Settings} {transactionId : Uuid} {user : User} {amount : Int}
    {k : Unit → Tx α} (onward : ∀ calls, Settles Coherent T (k ()) { s with calls := calls }) :
    Settles Coherent T (maybeFlagMerchantPayment cfg transactionId user amount >>= k) s := by
  unfold maybeFlagMerchantPayment
  split
  · exact enqueue_then onward
  · exact onward s.calls

theorem createAndEnqueue_then {merchant : Merchant} {transactionId deliveryId : Uuid} {eventType : String}
    {k : Unit → Tx α} (bare : s.pending = [])
    (onward : ∀ u : Held, u.pending = [] → u.db.transactions = s.db.transactions →
      Settles Coherent T (k ()) u) :
    Settles Coherent T
      (Prog.handle (createAndEnqueue merchant transactionId deliveryId eventType)
        (fun _ => .ret ()) >>= k) s := by
  apply settles_seq
  apply handle_tidy
  unfold createAndEnqueue
  split
  · intro _
    constructor
    · intro _
      apply onward _ rfl
      simp only [Local.seen, applyAll_append, bare]
      rfl
    · apply onward _ rfl
      simp only [Local.seen, applyAll_append, bare]
      rfl
  · exact onward s bare rfl

theorem initiatePayment_settles {payer : User} {cfg : Settings} {merchantId : Uuid} {amount : Int}
    {key : Option String} {draws : Draws} (bare : s.pending = []) (positive : 0 < amount)
    (solvent : Solvent s.seen) :
    Settles Coherent (fun txn db => (Report.transaction txn).stands db)
      (initiatePayment payer cfg merchantId amount key draws) s := by
  apply resolvePayment_then
  intro t found seen pending
  apply lookupKey_or (by rw [pending, bare])
  intro u seenU clean
  apply looks_then (looks_checkMerchantPayment cfg _ _ _)
  intro _
  apply moveFunds_then _ _ _ _ _ clean (Int.le_of_lt positive) (by rw [seenU, seen]; exact solvent)
  intro v moved bareV committed
  cases moved with
  | existing txn => exact settles_ret bareV (committed txn (.inr rfl))
  | committed txn =>
    apply maybeFlagMerchantPayment_then
    intro calls
    apply createAndEnqueue_then (s := { v with calls := calls }) bareV
    intro w bareW kept
    apply audited_settles Report.transaction bareW
    simp only [Report.stands, kept]
    exact committed txn (.inl rfl)

theorem updateBalance_then {wallet : Wallet} {newBalance : Int} {k : Wallet → Tx α}
    (onward : ∀ (u : Held) w, u.seen = applyWrite (.setBalance wallet.id newBalance) s.seen →
      Settles Coherent T (k w) u) :
    Settles Coherent T (WalletRepository.updateBalance wallet newBalance >>= k) s := by
  intro _
  by_cases fits : WalletRepository.storable newBalance
  · simp only [if_pos fits]
    exact onward _ _ (seen_flushed s [.setBalance wallet.id newBalance] _)
  · simp only [if_neg fits]
    split <;> exact settles_raise

theorem dispatch_then {transactionId : Uuid} {k : Unit → Tx α}
    (onward : ∀ calls, Settles Coherent T (k ()) { s with calls := calls }) :
    Settles Coherent T
      (Prog.handle (enqueue (.processWithdrawal transactionId)) (fun _ => .ret ()) >>= k) s :=
  ⟨fun _ => onward _, onward _⟩

theorem initiateWithdrawal_settles {cfg : Settings} {user : User} {bankAccountId : Uuid} {amount : Int}
    {draws : WithdrawalDraws} :
    Settles Coherent (fun txn db => (Report.transaction txn).stands db)
      (initiateWithdrawal cfg user bankAccountId amount draws) s := by
  apply getByUserId_then
  intro t found _ _
  apply orRaise_then
  intro wallet _
  apply looks_then (looks_checkWithdrawal cfg _ _ _)
  intro _
  apply getActiveWithdrawal_then
  intro t active _ _
  apply require_then
  intro _
  apply query_then
  apply orRaise_then
  intro account _
  apply lockForUpdate_then
  intro t locked _ _ _
  apply orRaise_then
  intro lockedWallet _
  apply require_then
  intro enough
  apply createTransaction_then
  intro u fits created
  have enough := of_decide_eq_true enough
  apply updateBalance_then
  intro u' _ held
  apply commit_then
  intro v bare committed
  apply dispatch_then
  intro calls
  apply audited_settles Report.transaction bare
  simp only [Report.stands, committed, held, created, applyWrite, find?_insert fits]
  exact if_pos rfl

theorem fundingOf_settles {txn : Transaction} {paymentUrl : Option String} (bare : s.pending = [])
    (stored : s.db.transactions.find? txn.id = some txn) (url : storedPaymentUrl txn = paymentUrl) :
    Settles Coherent (fun out db => (Report.funding out).stands db) (fundingOf txn paymentUrl) s := by
  apply orRaise_then
  intro paid given
  apply settles_ret bare
  exact ⟨txn, stored, rfl, rfl, rfl, url.trans given⟩

theorem resolveFunding_then {user : User} {amount : Int} {k : Wallet → Tx α}
    (onward : ∀ (u : Held) wallet, u.pending = s.pending → Settles Coherent T (k wallet) u) :
    Settles Coherent T (resolveFunding user amount >>= k) s := by
  apply nested_then
  apply getByUserId_then
  intro t found _ pending
  apply nested_then
  apply orRaise_then
  intro wallet _
  apply nested_then
  apply require_then
  intro _
  apply nested_then
  apply require_then
  intro _
  exact onward t wallet pending

theorem initiateFunding_settles {user : User} {amount : Int} {key : Option String} {draws : WithdrawalDraws}
    (bare : s.pending = []) :
    Settles Coherent (fun out db => (Report.funding out).stands db)
      (initiateFunding user amount key draws) s := by
  apply resolveFunding_then
  intro t wallet pending
  apply lookupKey_then
  intro u existing seen pendingU stored
  have clean : u.pending = [] := by rw [pendingU, pending, bare]
  cases existing with
  | some txn =>
    apply fundingOf_settles clean _ rfl
    rw [← seen_bare clean]
    exact stored txn rfl
  | none =>
    apply paystack_then
    intro data calls
    apply createTransaction_then
    intro v fits created
    apply commit_then
    intro w bareW committed
    apply fundingOf_settles bareW
    · rw [committed, created]
      simp only [applyWrite, find?_insert fits]
      exact if_pos rfl
    · cases data.authorizationUrl.get "" <;> rfl

end PayCoreMoneyCommits
