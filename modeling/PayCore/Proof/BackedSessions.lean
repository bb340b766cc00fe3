import PayCore.Proof.BackingRules

/- The sessions of the platform: before each of their calls stands what it rests on. -/
namespace PayCoreBackedSessions
open KeyedTable SessionProgram RelyGuarantee LoneSessions StandingInvariants BackedCalls
open PayCoreTables PayCoreWrites PayCoreSessions PayCoreRepositories PayCoreSupport PayCoreAccounts
open PayCorePayments PayCoreWithdrawals PayCoreFunding PayCoreRegistration PayCoreEndpoints
open PayCoreReconciliation PayCoreTraffic PayCorePersistence PayCoreCommits PayCoreStatements
open PayCoreRequests PayCoreMovements PayCoreOpenings PayCoreRegularity PayCoreOwnRows
open PayCoreSharedBooks PayCoreAskRules PayCoreAskedCalls PayCoreBackings PayCoreBackingRules

variable {cfg : Settings} {readings : Timestamp → Prop} {issued : Details → String → Prop}
    {α : Type} {v u : Window}
  {origin db : Database}

abbrev Held (issued : Details → String → Prop) (origin : Database) : Uuid → Wallet → Window → Prop :=
  Grasped (Rely (GroundedCommit issued)) origin

theorem grounded_grip : Grip (Rely (GroundedCommit issued)) Whatever origin (Held issued origin) :=
  grip_grasped grounded_env

section Movements
variable {initiator : User} {amount : Int} {key : Option String} {draws : Draws}

theorem moved_grounded {source destination : Uuid} {t : Transaction} {payer payee : Wallet}
    (plain : t.extraData.bind (·.bankAccountId) = none)
    (h : Poised (Rely (GroundedCommit issued)) Whatever (Held issued origin) source destination t
      payer payee u) :
    GroundedCommit issued u.pending u.db := by
  rw [h.pending]
  constructor
  · exact movementWrites_regular h.covered h.creditable.1
  · intro a mem
    simp only [movementWrites, List.mem_cons, Write.insertTransaction.injEq, reduceCtorEq,
      List.not_mem_nil, or_false] at mem
    rw [mem]
    exact unmarked_earmarked plain
  · intro d mem
    simp [movementWrites] at mem
  · intro id code mem
    simp [movementWrites] at mem
  · intro a mem
    simp [movementWrites] at mem

theorem nodup_eraseDups {ids : List Uuid} : ids.eraseDups.Nodup := by
  induction size : ids.length using Nat.strongRecOn generalizing ids with
  | ind n ih =>
    cases ids with
    | nil => simp
    | cons id rest =>
      rw [List.eraseDups_cons, List.nodup_cons]
      constructor
      · simp [List.mem_eraseDups]
      · apply ih _ _ rfl
        rw [← size]
        exact Nat.lt_succ_of_le (List.length_filter_le _ _)

theorem recipients_listed (source : Uuid) (since : Timestamp) (db : Database) :
    ∃ recipients : List Uuid, recipients.Nodup ∧
    recipients.length = FraudRepository.distinctRecipients source since db ∧ ∀ id ∈ recipients,
      ∃ r ∈ db.transactions.rows, r.type = .transfer ∧ r.sourceWalletId = some source ∧
        r.destinationWalletId = some id ∧ since ≤ r.createdAt := by
  refine ⟨_, nodup_eraseDups, rfl, ?_⟩
  intro id mem
  obtain ⟨r, among, paid⟩ := List.mem_filterMap.mp (List.mem_eraseDups.mp mem)
  obtain ⟨row, fits⟩ := List.mem_filter.mp among
  simp only [Bool.and_eq_true, beq_iff_eq, decide_eq_true_eq] at fits
  exact ⟨r, row, fits.1.2, fits.1.1, paid, fits.2⟩

theorem stored_here {t : Transaction} (stored : Stored t db) :
    ∃ row ∈ db.transactions.rows, row.id = t.id ∧ Revised t row := by
  obtain ⟨row, found, revised⟩ := stored
  exact ⟨row, (find?_some_iff.mp found).1, revised_id revised, revised⟩

/-- What is verified up to now is verified of a state that is still grounded. -/
theorem grounded_wp {p : Tx α} {Q : Post Database IdentityMap Write Row AppError α}
    (grounded : Grounded issued v.db)
    (h : wp (Rely (GroundedCommit issued)) (GroundedCommit issued) Whatever
      p (fun r u => Grounded issued u.db → Q r u) v) :
    wp (Rely (GroundedCommit issued)) (GroundedCommit issued) Whatever p Q v := by
  apply standing_wp (I := Grounded issued) (fun _ _ commit => grounded_commit commit) grounded
  exact wp_mono (fun _ _ holds stands => holds stands) h

theorem maybeFlagRapidTransfers_backs {now : Timestamp} {t : Transaction} {walletId : Uuid}
    {k : Unit → Tx α}
    (read : readings now) (stored : Stored t v.db) (type : t.type = .transfer)
    (source : t.sourceWalletId = some walletId)
    (bare : v.pending = []) (onward : ∀ u, u.pending = [] → Backs cfg readings issued (k ()) u) :
    Backs cfg readings issued (maybeFlagRapidTransfers cfg now t.id walletId >>= k) v := by
  unfold maybeFlagRapidTransfers
  rw [seq_seq]
  apply read_backs
  intro u goes pending _
  have bare1 := pending.trans bare
  rw [bare1, applyAll_nil]
  obtain ⟨recipients, apart, many, each⟩ :=
    recipients_listed walletId (now - seconds cfg.fraudRapidTransferWindowSeconds) u.db
  rw [← many]
  split
  · rename_i rapid
    apply enqueued_backs
    · obtain ⟨row, mem, id, revised⟩ := stored_here (stored_later goes.later stored)
      refine ⟨row, mem, id, .inr ⟨(revised_type revised).trans type, walletId, now, recipients, ?_,
        read, apart, rapid, each⟩⟩
      rw [revised_source revised, source]
    · intro w _ bare2
      exact onward w (bare2.trans bare1)
  · exact onward u bare1

theorem initiateTransfer_backs {normalize : String → String} {recipient : Recipient} (positive : 0 < amount)
    (read : readings draws.clock.utcNow) (solvent : Solvent origin)
    (clean : Clean (Rely (GroundedCommit issued)) origin v) :
    Backs cfg readings issued (initiateTransfer normalize initiator cfg recipient amount key draws) v := by
  have env : Interference (Rely (GroundedCommit issued)) := grounded_env
  unfold initiateTransfer
  apply free_then (asks_resolveTransfer _ _ _)
  apply resolveTransfer_wp env clean (fun _ _ _ => trivial)
  intro v1 senderWallet recipientWallet user _ clean1 ownsSender ownsRecipient other _ _ _
  apply free_then (asks_lookupKey _)
  apply lookupKey_wp env clean1 (fun _ => trivial)
  swap
  · intro u txn _ _ _ _
    trivial
  intro v2 clean2 _
  apply free_then (asks_checkTransfer _ _ _ _ _ _)
  apply checkTransfer_wp env clean2 (fun _ _ _ => trivial)
  intro v3 clean3 _ _ _ _
  apply free_then (asks_moveFunds _ _ _ _ _ _ _)
  apply moveFunds_wp env grounded_grip _ (Int.le_of_lt positive) clean3 solvent
    (owned_apart ownsSender ownsRecipient other) (fun _ _ _ => trivial) (fun _ _ _ _ _ _ => trivial)
  swap
  · intro u payer payee _ poised
    exact moved_grounded rfl poised
  intro v4 txn bare4 answers _ stored
  apply maybeFlagRapidTransfers_backs read stored answers.type answers.source bare4
  intro v5 bare5
  exact audited_backs bare5

/-- The merchant's notification stands in the table, whether or not its id was free. -/
theorem inserted_delivery {d : WebhookDelivery}
    (grounded : Grounded issued (applyWrite (.insertDelivery d) db)) :
    ∃ e ∈ (applyWrite (.insertDelivery d) db).webhookDeliveries.rows, e.id = d.id ∧
      Announces e (applyWrite (.insertDelivery d) db) := by
  have there : ∃ e ∈ (db.webhookDeliveries.insert d).rows, e.id = d.id := by
    cases free : db.webhookDeliveries.admits d with
    | true =>
      rw [insert_rows free]
      exact ⟨d, List.mem_append_right _ (List.mem_singleton_self d), rfl⟩
    | false =>
      rw [insert_refused free]
      simpa [Table.admits, clash] using free
  obtain ⟨e, mem, same⟩ := there
  exact ⟨e, mem, same, grounded.announces e mem⟩

abbrev notice (merchant : Merchant) (transactionId deliveryId : Uuid) (eventType : String) :
    WebhookDelivery :=
  { id := deliveryId, merchantId := merchant.id, transactionId, eventType }

theorem createAndEnqueue_backs {merchant : Merchant} {transactionId deliveryId : Uuid} {eventType : String}
    {k : Unit → Tx α} (grounded : Grounded issued v.db)
    (told : Announces (notice merchant transactionId deliveryId eventType) v.db)
    (bare : v.pending = []) (onward : ∀ u, u.pending = [] → Backs cfg readings issued (k ()) u) :
    Backs cfg readings issued
    (Prog.handle (createAndEnqueue merchant transactionId deliveryId eventType)
      (fun _ => .ret ()) >>= k) v := by
  apply seq_backs
  apply handle_backs
  unfold createAndEnqueue
  split
  swap
  · exact onward v bare
  apply seq_backs
  intro db rely
  refine ⟨onward _ rfl, ?_⟩
  have good : ∀ s held, Rely (GroundedCommit issued) held db s → GroundedCommit issued
      [.insertDelivery (notice merchant transactionId deliveryId eventType)] s := by
    intro s held more
    constructor
    · intro w mem
      rw [List.mem_singleton.mp mem]
      trivial
    · intro t mem
      simp at mem
    · intro d mem
      rw [Write.insertDelivery.inj (List.mem_singleton.mp mem)]
      exact announces_stands (standing_trans (standing_rely rely) (standing_rely more)) ⟨rfl, rfl, rfl⟩ told
    · intro id code mem
      simp at mem
    · intro a mem
      simp at mem
  dsimp only
  rw [bare, List.nil_append]
  apply seq_backs
  intro s more
  have commit := good s _ more
  refine ⟨commit, ?_, onward _ rfl⟩
  have stands := grounded_commit commit (grounded_rely more (grounded_rely rely grounded))
  apply handle_backs
  intro t last
  have backed : Backed cfg readings issued (.delay (.deliverMerchantWebhook deliveryId)) t :=
    backed_stands (standing_rely last) (inserted_delivery stands)
  exact ⟨backed, fun _ _ => onward _ rfl, onward _ rfl⟩

theorem initiatePayment_backs {merchantId : Uuid} (positive : 0 < amount)
    (grounded : Grounded issued origin)
    (solvent : Solvent origin) (clean : Clean (Rely (GroundedCommit issued)) origin v) :
    Backs cfg readings issued (initiatePayment initiator cfg merchantId amount key draws) v := by
  have env : Interference (Rely (GroundedCommit issued)) := grounded_env
  unfold initiatePayment
  apply free_then (asks_resolvePayment _ _)
  apply resolvePayment_wp env clean (fun _ _ _ => trivial)
  intro v1 merchant payerWallet merchantWallet s clean1 ownsPayer ownsMerchant other _ later1 found
  apply free_then (asks_lookupKey _)
  apply lookupKey_wp env clean1 (fun _ => trivial)
  swap
  · intro u txn _ _ _ _
    trivial
  intro v2 clean2 later2
  apply free_then (asks_checkMerchantPayment _ _ _ _)
  apply checkMerchantPayment_wp env clean2 (fun _ _ _ => trivial)
  intro v3 clean3 _ later3 _
  apply free_then (asks_moveFunds _ _ _ _ _ _ _)
  apply grounded_wp (grounded_rely clean3.rely grounded)
  apply moveFunds_wp env grounded_grip _ (Int.le_of_lt positive) clean3 solvent
    (owned_apart ownsPayer ownsMerchant other) (fun _ _ _ _ => trivial) (fun _ _ _ _ _ _ _ => trivial)
  swap
  · intro u payer payee _ poised
    exact moved_grounded rfl poised
  intro v4 txn bare4 answers later4 stored grounded4
  have since := later_trans later2 (later_trans later3 later4)
  have told : Announces (notice merchant txn.id draws.deliveryId "payment.received") v4.db := by
    have listed := (find?_some_iff.mp (Option.filter_eq_some_iff.mp found).1).1
    obtain ⟨m, mem, same, owner⟩ := (later_trans later1 since).merchants merchant listed
    obtain ⟨row, there, id, revised⟩ := stored_here stored
    refine ⟨row, there, m, mem, merchantWallet.id, id, (revised_type revised).trans answers.type,
      same, ?_, ?_⟩
    · rw [revised_destination revised, answers.destination]
    · rw [owner]
      exact owned_later since ownsMerchant
  have notified : ∀ v5 : Window, v5.pending = [] → GoesOn issued v4 v5 → Backs cfg readings issued (do
      let _ ← Prog.handle (createAndEnqueue merchant txn.id draws.deliveryId "payment.received")
          (fun _ => .ret ())
      auditLog { actorId := some initiator.id, actorType := .user, action := "merchant_payment.completed",
                 targetType := some "transaction", targetId := some txn.id }
      pure txn) v5 := by
    intro v5 bare5 goes5
    apply createAndEnqueue_backs (goesOn_grounded goes5 grounded4)
      (announces_stands (goesOn_standing goes5) ⟨rfl, rfl, rfl⟩ told) bare5
    intro v6 bare6
    exact audited_backs bare6
  change Backs cfg readings issued (maybeFlagMerchantPayment cfg txn.id initiator amount >>= _) v4
  unfold maybeFlagMerchantPayment
  split
  · rename_i large
    apply enqueued_backs
    · obtain ⟨row, mem, id, revised⟩ := stored_here stored
      refine ⟨row, mem, id, .inl ⟨(revised_type revised).trans answers.type, ?_⟩⟩
      rw [revised_amount revised, answers.amount]
      exact large.2
    · intro v5 goes5 bare5
      exact notified v5 (bare5.trans bare4) goes5
  · exact notified v4 bare4 (goes_refl env v4)

end Movements

section Openings
variable {user : User} {amount : Int}

theorem hold_grounded {bankAccountId : Uuid} {draws : WithdrawalDraws} {wallet : Wallet}
    {walletId : Uuid} {balance : Int}
    (own : HasAccount user.id bankAccountId db) (rest : 0 ≤ balance) :
    GroundedCommit issued
    [.insertTransaction (withdrawalOf user bankAccountId amount draws wallet), .setBalance walletId balance]
      db where
  regular := by
    intro w mem
    simp only [List.mem_cons, List.not_mem_nil, or_false] at mem
    rcases mem with rfl | rfl
    · trivial
    · exact rest
  earmarked := by
    intro t mem id named
    simp only [List.mem_cons, Write.insertTransaction.injEq, reduceCtorEq, List.not_mem_nil,
      or_false] at mem
    subst mem
    cases named
    exact ⟨rfl, own⟩
  announces := by
    intro d mem
    simp at mem
  coded := by
    intro id code mem
    simp at mem
  uncoded := by
    intro a mem
    simp at mem

theorem initiateWithdrawal_backs {bankAccountId : Uuid} {draws : WithdrawalDraws}
    (clean : Clean (Rely (GroundedCommit issued)) origin v) :
    Backs cfg readings issued (initiateWithdrawal cfg user bankAccountId amount draws) v := by
  have env : Interference (Rely (GroundedCommit issued)) := grounded_env
  unfold initiateWithdrawal
  apply free_then (asks_selectWallet _ _)
  apply getByUserId_wp env clean (fun _ => trivial)
  intro v1 _ clean1 _ _
  apply given_backs
  intro wallet _
  apply free_then (asks_checkWithdrawal _ _ _ _)
  apply checkWithdrawal_wp env clean1 (fun _ _ _ => trivial)
  intro v2 clean2 _ _ _
  apply free_then (asks_getActiveWithdrawal _)
  apply getActiveWithdrawal_wp env clean2 (fun _ _ _ => trivial)
  · intro u txn
    apply checked_backs
    intro idle
    cases idle
  intro v3 clean3 _ _ _
  apply checked_backs
  intro _
  apply read_backs
  intro v4 goes4 pending4 memory4
  have bare4 := pending4.trans clean3.bare
  have clean4 := clean_goes env clean3 goes4 bare4 memory4
  rw [bare4, applyAll_nil]
  apply given_backs
  intro account found
  have own : HasAccount user.id bankAccountId v4.db := by
    obtain ⟨live, mine⟩ := Option.filter_eq_some_iff.mp found
    have row := find?_some_iff.mp (Option.filter_eq_some_iff.mp live).1
    exact ⟨account, row.1, row.2, by simpa using mine⟩
  apply free_then (asks_selectWallet _ _)
  apply takeWallet_wp env grounded_grip clean4 (fun _ => trivial)
  intro v5 _ clean5 goes5 _
  apply given_backs
  intro lockedWallet _
  apply checked_backs
  intro _
  apply free_then (asks_createTransaction _)
  apply createTransaction_wp env clean5.bare (fun _ => trivial) (fun _ _ _ _ _ => trivial)
  intro v6 _ goes6 pending6 reserved _
  apply free_then (asks_updateBalance _ _)
  apply updateBalance_wp env (fun _ => trivial) (fun _ _ _ _ => trivial)
  intro v7 _ goes7 pending7 _ ⟨rest, _⟩
  rw [pending6] at pending7
  have since := goes_trans env goes5 (goes_trans env goes6 goes7)
  apply committed_backs
  · intro db rely
    rw [pending7]
    exact hold_grounded
      (account_stands (standing_trans (goesOn_standing since) (standing_rely rely)) own) rest
  intro v8 db rely _ after bare8
  apply attempted_backs
  · have goes8 : GoesOn issued v7 { v7 with db := db } := goes_rely env rely (fun _ h => h)
    have free := (reserved_goes goes8 (reserved_goes goes7 reserved)).free
    have row := find?_insert free draws.transactionId
    simp only [transaction_key, if_true] at row
    have stored : v8.db.transactions.find? draws.transactionId =
        some (withdrawalOf user bankAccountId amount draws lockedWallet) := by
      rw [after, pending7]
      exact row
    exact ⟨_, (find?_some_iff.mp stored).1, rfl, rfl⟩
  intro v9 _ bare9
  exact audited_backs (bare9.trans bare8)

theorem initiateFunding_backs {key : Option String} {draws : WithdrawalDraws}
    (known : user ∈ origin.users.rows)
    (clean : Clean (Rely (GroundedCommit issued)) origin v) :
    Backs cfg readings issued (initiateFunding user amount key draws) v := by
  have env : Interference (Rely (GroundedCommit issued)) := grounded_env
  unfold initiateFunding
  apply free_then (asks_resolveFunding _ _)
  unfold resolveFunding
  apply seq_wp
  apply getByUserId_wp env clean (fun _ => trivial)
  intro v1 _ clean1 _ _
  apply orRaise_wp (fun _ => trivial)
  intro wallet _
  apply require_wp (fun _ => trivial)
  intro _
  apply require_wp (fun _ => trivial)
  intro _
  apply free_then (asks_lookupKey _)
  apply lookupKey_wp env clean1 (fun _ => trivial)
  swap
  · intro v2 txn bare _ _ _
    apply unmarked_backs (asks_fundingOf _ _) _ (none_pending bare)
    exact emits_seq (emits_orRaise _ _) (fun _ => trivial)
  intro v2 clean2 _
  apply asked_backs
  · have there :
        Backed cfg readings issued (.initializeTransaction user.email amount ("txn_" ++ draws.hex))
          origin := ⟨user, known, rfl⟩
    exact backed_stands (standing_rely clean2.rely) there
  intro data v3 _ _ pending3 _
  apply unmarked_backs _ _ (none_pending (pending3.trans clean2.bare))
  · apply asks_seq (asks_createTransaction _)
    intro _
    exact asks_seq asks_commit (fun _ => asks_fundingOf _ _)
  · apply emits_seq
    · apply emits_createTransaction
      rfl
    intro _
    apply emits_seq emits_commit
    intro _
    exact emits_seq (emits_orRaise _ _) (fun _ => trivial)

end Openings

section Payouts
variable {txn : Transaction} {id userId : Uuid} {recipientCode : String}

theorem truthy_some {s : Option String} (given : truthy s = true) : s = some (s.getD "") := by
  obtain ⟨k, rfl, _⟩ := truthy_iff.mp given
  rfl

/-- A stored withdrawal that names a bank account of its initiator. -/
structure Payable (txn : Transaction) (id : Uuid) (db : Database) : Prop where
  stored : Stored txn db
  type : txn.type = .withdrawal
  named : txn.extraData.bind (·.bankAccountId) = some id
  own : HasAccount txn.initiatedByUserId id db

theorem payable_later (goes : GoesOn issued v u) (h : Payable txn id v.db) : Payable txn id u.db where
  stored := stored_later goes.later h.stored
  type := h.type
  named := h.named
  own := account_stands (goesOn_standing goes) h.own

theorem payable_revised {t : Transaction} (revised : Revised txn t) (h : Payable txn id db) :
    Payable t id db where
  stored := by
    obtain ⟨row, found, same⟩ := h.stored
    refine ⟨row, ?_, revised_trans (revised_symm revised) same⟩
    rw [revised_id revised]
    exact found
  type := (revised_type revised).trans h.type
  named := by rw [revised_extra revised, h.named]
  own := by
    rw [show t.initiatedByUserId = txn.initiatedByUserId by rw [revised]]
    exact h.own

theorem account_owner {account : BankAccount} (own : HasAccount userId id db)
    (mem : account ∈ db.bankAccounts.rows) (key : account.id = id) : account.userId = userId := by
  obtain ⟨a, there, same, owner⟩ := own
  have found : db.bankAccounts.find? id = some a := find?_some_iff.mpr ⟨there, same⟩
  have row : db.bankAccounts.find? id = some account := find?_some_iff.mpr ⟨mem, key⟩
  rw [row] at found
  rw [Option.some.inj found]
  exact owner

theorem transfer_backed (h : Payable txn id db) (known : Issued issued id recipientCode db) :
    Backed cfg readings issued
      (.initiateTransfer txn.amount recipientCode txn.reference
        ("PayCore withdrawal " ++ txn.reference)) db := by
  obtain ⟨row, mem, _, revised⟩ := stored_here h.stored
  obtain ⟨a, listed, key, good⟩ := known
  refine ⟨row, mem, (revised_type revised).trans h.type, revised_amount revised,
    by rw [revised], rfl, a, listed, ?_, ?_, good⟩
  · rw [revised_extra revised, h.named, key]
  · rw [show row.initiatedByUserId = txn.initiatedByUserId by rw [revised]]
    exact account_owner h.own listed key

theorem recipient_backed {account : BankAccount} (h : Payable txn id db)
    (row : db.bankAccounts.find? id = some account) :
    Backed cfg readings issued
    (.createTransferRecipient account.accountName account.accountNumber account.bankCode) db := by
  obtain ⟨there, key⟩ := find?_some_iff.mp row
  obtain ⟨t, listed, _, revised⟩ := stored_here h.stored
  refine ⟨account, there, rfl, rfl, rfl, t, listed, (revised_type revised).trans h.type, ?_, ?_⟩
  · rw [revised_extra revised, h.named]
    exact congrArg some key.symm
  · rw [show t.initiatedByUserId = txn.initiatedByUserId by rw [revised]]
    exact account_owner h.own there key

theorem dispatchPayout_backs (payable : Payable txn id v.db) (known : Issued issued id recipientCode v.db)
    (still : ∀ db, (applyAll v.pending db).transactions = db.transactions)
    (plain : ∀ w ∈ v.pending, unmarkedBut id recipientCode w) :
    Backs cfg readings issued (dispatchPayout txn recipientCode) v := by
  have sends : ∀ (t : Transaction) (u : Window), Payable t id u.db → Issued issued id recipientCode u.db →
      (∀ w ∈ u.pending, unmarkedBut id recipientCode w) → Backs cfg readings issued (do
      let transfer ← paystack (.initiateTransfer t.amount recipientCode t.reference
        ("PayCore withdrawal " ++ t.reference))
      let transferCode := transfer.transferCode.get ""
      if transferCode = t.providerReference then commit
      else do
        let _ ← TransactionRepository.flush t { providerReference := some transferCode }
        commit) u := by
    intro t u ready known unmarks
    apply asked_backs (transfer_backed ready known)
    intro transfer w _ goes pending _
    have known1 := issued_stands (goesOn_standing goes) known
    rw [← pending] at unmarks
    dsimp only
    split
    · exact coded_backs known1 asks_commit emits_commit unmarks
    · apply coded_backs known1 _ _ unmarks
      · exact asks_seq (asks_flush _ _) (fun _ => asks_commit)
      · exact emits_seq (emits_flush _ (by simp [unmarked, Regular])) (fun _ => emits_commit)
  unfold dispatchPayout
  dsimp only
  split
  swap
  · exact sends txn v payable known plain
  rename_i pending
  apply free_then (asks_updateStatus _ _ _)
  unfold TransactionRepository.updateStatus
  rw [if_pos (by rw [pending]; decide)]
  apply flush_wp grounded_env (fun _ => trivial)
  intro u t goes _ adds same _ _
  have payable1 := payable_later goes payable
  obtain ⟨row, found, revised⟩ := payable1.stored
  rw [still, found, Option.getD_some] at same
  apply sends t u
  · apply payable_revised _ payable1
    rw [same]
    exact revised_trans revised (revised_on _ row)
  · exact issued_stands (goesOn_standing goes) known
  · intro w mem
    rw [adds, List.mem_append, List.mem_singleton] at mem
    rcases mem with old | rfl
    · exact plain w old
    · exact .inl (by simp [unmarked, Regular])

theorem executePayout_backs {transactionId : Uuid} (grounded : Grounded issued v.db) (bare : v.pending = [])
    (unread : ∀ id, v.memory.transactions id = none) :
    Backs cfg readings issued (executePayout transactionId) v := by
  have env : Interference (Rely (GroundedCommit issued)) := grounded_env
  unfold executePayout
  apply free_then (asks_selectTransaction _)
  apply selectTransaction_wp env (fun _ _ _ _ => trivial) (fun _ _ _ _ _ => trivial)
  intro v1 txn goes1 pending1 _ _ picked
  have bare1 := pending1.trans bare
  rw [bare, applyAll_nil] at picked
  rw [transaction_unloaded (unread txn.id)]
  have found : v1.db.transactions.find? transactionId = some txn := Except.ok.inj picked
  obtain ⟨row, key⟩ := find?_some_iff.mp found
  dsimp only
  split
  · trivial
  split
  · trivial
  split
  · trivial
  rename_i id named
  have payable : Payable txn id v1.db := by
    obtain ⟨type, own⟩ := (goesOn_grounded goes1 grounded).earmarked txn row id named
    exact ⟨⟨txn, find?_some_iff.mpr ⟨row, rfl⟩, revised_refl txn⟩, type, named, own⟩
  apply read_backs
  intro v2 goes2 pending2 _
  have bare2 := pending2.trans bare1
  have payable2 := payable_later goes2 payable
  rw [bare2, applyAll_nil]
  split
  · trivial
  rename_i account listed
  have there := (Option.filter_eq_some_iff.mp listed).1
  unfold recipientCodeOf
  split
  · rename_i stored
    apply dispatchPayout_backs payable2 _ (by simp [bare2]) (fun w mem => .inl (none_pending bare2 w mem))
    obtain ⟨mem, key⟩ := find?_some_iff.mp there
    have grounded2 := goesOn_grounded goes2 (goesOn_grounded goes1 grounded)
    exact ⟨account, mem, key, grounded2.coded account mem _ (truthy_some stored)⟩
  rw [seq_seq]
  apply asked_backs (recipient_backed payable2 there)
  intro data v3 answers goes3 pending3 _
  have bare3 := pending3.trans bare2
  have payable3 := payable_later goes3 payable2
  dsimp only
  rw [seq_seq]
  apply checked_backs
  intro replied
  rw [seq_seq]
  apply free_then (asks_setRecipientCode _ _)
  refine stmt_wp env (fun _ _ _ _ => trivial) ?_
  intro v4 seen adds goes4 _ added _ _ pending4 _
  rw [bare3, List.nil_append, added] at pending4
  have known : Issued issued id ((data.recipientCode.get "").getD "") v2.db := by
    obtain ⟨mem, key⟩ := find?_some_iff.mp there
    exact ⟨account, mem, key, answers _ (truthy_some replied)⟩
  apply dispatchPayout_backs (payable_later goes4 payable3)
  · exact issued_stands (goesOn_standing (goes_trans env goes3 goes4)) known
  · intro db
    rw [pending4]
    rfl
  · intro w mem
    rw [pending4, List.mem_singleton] at mem
    rw [mem]
    exact .inr (congrArg (Write.setRecipientCode · _) (find?_some_iff.mp there).2)

end Payouts

section Sweeps

theorem reconcileAll_backs {stale : List (Uuid × String)} {k : Unit → Tx α} (bare : v.pending = [])
    (onward : ∀ u, u.pending = [] → Backs cfg readings issued (k ()) u) :
    Backs cfg readings issued (reconcileAll stale >>= k) v := by
  induction stale generalizing v with
  | nil => exact onward v bare
  | cons entry rest ih =>
    unfold reconcileAll
    rw [seq_seq]
    apply free_then (asks_reconcileFunding (fun _ => trivial))
    have emits := emits_reconcileFunding settling_unmarked entry.1 entry.2
    apply wp_mono _ (emits_wp (fun _ _ all => unmarked_grounded all) emits (none_pending bare))
    intro r u _
    cases r with
    | error x => trivial
    | ok _ =>
      dsimp only
      rw [seq_seq]
      apply rolled_backs
      intro w _ bare1
      exact ih bare1

theorem enqueueAll_backs {ids : List Uuid}
    (known : ∀ id ∈ ids, ∃ t ∈ v.db.transactions.rows, t.id = id ∧ t.type = .withdrawal) :
    Backs cfg readings issued (enqueueAll ids) v := by
  induction ids generalizing v with
  | nil => trivial
  | cons id rest ih =>
    have backed : ∀ other ∈ id :: rest,
        Backed cfg readings issued (.delay (.processWithdrawal other)) v.db := known
    apply enqueued_backs (backed id List.mem_cons_self)
    intro u goes _
    apply ih
    intro other mem
    exact backed_stands (goesOn_standing goes) (backed other (List.mem_cons_of_mem id mem))

theorem reconcile_backs (sweep : Sweep) : Backs cfg readings issued (reconcile sweep) v := by
  unfold reconcile
  apply read_backs
  intro v1 _ _ _
  apply rolled_backs
  intro v2 _ bare2
  apply reconcileAll_backs bare2
  intro v3 bare3
  apply read_backs
  intro v4 _ pending4 _
  rw [pending4, bare3, applyAll_nil]
  apply rolled_backs
  intro v5 stands _
  apply enqueueAll_backs
  intro id mem
  obtain ⟨t, listed, same⟩ := List.mem_map.mp mem
  obtain ⟨found, stale⟩ := batch_stale listed
  have withdrawal : t.type = .withdrawal := by
    simp only [staleWithdrawal, Bool.and_eq_true, beq_iff_eq] at stale
    exact stale.1.1
  have there : Backed cfg readings issued (.delay (.processWithdrawal id)) v4.db :=
    ⟨t, (find?_some_iff.mp found).1, same, withdrawal⟩
  exact backed_stands stands there

end Sweeps

section Platform

def amountOf : Order → Int
  | .fundWallet amount _ _ => amount
  | .initiateTransfer _ _ amount _ _ => amount
  | .payMerchant _ amount _ _ => amount
  | .initiateWithdrawal _ amount _ => amount

def utcNowOf : Order → Timestamp
  | .fundWallet _ _ draws => draws.clock.utcNow
  | .initiateTransfer _ _ _ _ draws => draws.clock.utcNow
  | .payMerchant _ _ _ draws => draws.clock.utcNow
  | .initiateWithdrawal _ _ draws => draws.clock.utcNow

theorem clean_now (bare : v.pending = []) (memory : v.memory = default) :
    Clean (Rely (GroundedCommit issued)) v.db v where
  rely := .refl v.db
  bare := bare
  unread := by simp [memory]
  glimpsed := by simp [memory]

theorem order_backs {currentUserId : Uuid} (order : Order) (positive : 0 < amountOf order)
    (read : readings (utcNowOf order))
    (grounded : Grounded issued v.db) (solvent : Solvent v.db) (bare : v.pending = [])
    (memory : v.memory = default) :
    Backs cfg readings issued (order.program cfg currentUserId) v := by
  unfold Order.program getCurrentUser
  rw [seq_seq]
  apply read_backs
  intro v1 goes1 pending1 memory1
  have bare1 := pending1.trans bare
  rw [bare1, applyAll_nil, seq_seq]
  apply given_backs
  intro user found
  rw [seq_seq]
  apply checked_backs
  intro _
  have row := (find?_some_iff.mp (Option.filter_eq_some_iff.mp found).1).1
  have clean : Clean (Rely (GroundedCommit issued)) v1.db v1 := clean_now bare1 (memory1.trans memory)
  have solvent1 := goes1.later.solvent solvent
  cases order with
  | fundWallet amount key draws => exact quietly_backs (initiateFunding_backs row clean)
  | initiateTransfer normalize recipient amount key draws =>
    exact quietly_backs (initiateTransfer_backs positive read solvent1 clean)
  | payMerchant merchantId amount key draws =>
    exact quietly_backs (initiatePayment_backs positive (goesOn_grounded goes1 grounded) solvent1 clean)
  | initiateWithdrawal bankAccountId amount draws => exact quietly_backs (initiateWithdrawal_backs clean)

theorem asks_endpoint (e : Endpoint) (other : ¬ isMoney e) : Asks (Free cfg readings issued) e.program := by
  cases e with
  | request op =>
    cases op with
    | money job => exact absurd trivial other
    | login => exact asks_quietly (asks_login _ _ _ _ _ _)
    | refresh => exact asks_quietly (asks_refresh _ _ _)
    | logout => exact asks_logout _
    | updateProfile => exact asks_asUser (fun _ => asks_updateProfile _ _ _)
    | createMerchant => exact asks_asUser (fun _ => asks_createMerchant _ _ _)
    | rotateApiKey => exact asks_asUser (fun _ => asks_rotateApiKey _ _ _)
    | updateWebhookConfig => exact asks_asUser (fun _ => asks_updateWebhookConfig _ _ _)
    | submitKyc => exact asks_asUser (fun _ => asks_submitKyc (fun _ => trivial))
    | approveKyc => exact asks_quietly (asks_approveKyc _ _ _)
    | rejectKyc => exact asks_quietly (asks_rejectKyc _ _ _ _)
    | addBankAccount => exact asks_asUser (fun _ => asks_addBankAccount (fun _ => trivial))
    | removeBankAccount => exact asks_asUser (fun _ => asks_removeBankAccount _ _ _)
  | approveKyc => exact asks_seq (asks_requireRole _ _) (fun _ => asks_quietly (asks_approveKyc _ _ _))
  | rejectKyc => exact asks_seq (asks_requireRole _ _) (fun _ => asks_quietly (asks_rejectKyc _ _ _ _))
  | runReconciliation =>
    apply asks_seq (asks_requireRole _ _)
    intro _
    exact asks_seq (asks_enqueue (fun _ => trivial)) (fun _ => asks_auditLog _)

theorem endpoint_backs (e : Endpoint) (reachable : routed (.endpoint e) = true) (bare : v.pending = []) :
    Backs cfg readings issued e.program v := by
  by_cases money : isMoney e
  · cases e with
    | request op =>
      cases op with
      | money job =>
        cases job with
        | register =>
          apply unmarked_backs (asks_quietly (asks_register _ _ _ _ _ _ _)) _ (none_pending bare)
          exact emits_mono registers_unmarked (emits_job (.register _ _ _ _ _ _ _))
        | _ => simp [routed] at reachable
      | _ => exact money.elim
    | _ => exact money.elim
  · apply free_backs (asks_endpoint e money)
    apply account_guarantees e money bare
    · exact fun _ _ ws db own => unmarked_grounded (fun w mem => own_unmarked (own w mem))
    · exact fun ws db signed => unmarked_grounded (fun w mem => signs_unmarked (signed w mem))
    · exact fun _ ws db reviewed => unmarked_grounded (fun w mem => reviews_unmarked (reviewed w mem))

theorem traffic_backs (traffic : Traffic)
    (positive : ∀ currentUserId order, traffic = .ordered currentUserId order → 0 < amountOf order)
    (read : ∀ currentUserId order, traffic = .ordered currentUserId order →
      readings (utcNowOf order)) (grounded : Grounded issued db) (solvent : Solvent db) :
      Backs cfg readings issued (traffic.program cfg) ⟨db, [], default, Nothing⟩ := by
  cases traffic with
  | ordered currentUserId order =>
      exact order_backs order (positive _ _ rfl) (read _ _ rfl) grounded solvent rfl rfl
  | other work reachable =>
    cases work with
    | endpoint e => exact endpoint_backs e reachable rfl
    | processPaystackWebhook eventType data =>
      apply unmarked_backs (asks_dispatch eventType data) _ (none_pending rfl)
      exact emits_dispatch settling_unmarked eventType data
    | processWithdrawal transactionId => exact executePayout_backs grounded rfl (fun _ => rfl)
    | checkStaleTransactions sweep => exact reconcile_backs sweep

end Platform

end PayCoreBackedSessions
