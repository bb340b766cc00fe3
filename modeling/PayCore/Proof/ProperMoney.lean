import PayCore.Proof.Openings
import PayCore.Proof.ProperRules

/- The requests that move, hold or ask for money, and the registration: proper in any interleaving. -/
namespace PayCoreProperMoney
open KeyedTable SessionProgram SessionSystem RelyGuarantee PayCoreTables PayCoreWrites
open PayCoreSessions PayCoreRepositories PayCoreSupport PayCorePayments PayCoreWithdrawals
open PayCoreFunding PayCoreRegistration PayCorePersistence PayCoreCommits PayCoreStatements
open PayCoreGuaranteeRules PayCoreRequests PayCoreMovements PayCoreOpenings PayCoreForeignKeys
open PayCoreKeptRecords PayCoreProperCommits PayCoreProperRules

variable {F : Database → IdentityMap → List Row → List Write → Prop} {v u : Window} {origin : Database}

abbrev Held (origin : Database) : Uuid → Wallet → Window → Prop := Grasped (Rely ProperCommit) origin

theorem proper_grip : Grip (Rely ProperCommit) F origin (Held origin) := grip_grasped proper_env

/-- A movement from the initiator's own wallet, about to be committed. -/
theorem moved_proper {source destination : Uuid} {t : Transaction} {payer payee : Wallet} {userId : Uuid}
    (kind : moves t.type) (status : t.status = .completed) (from_payer : t.sourceWalletId = some payer.id)
    (to_payee : t.destinationWalletId = some payee.id) (positive : 0 < t.amount)
    (own : Owned source t.initiatedByUserId u.db) (other : Owned destination userId u.db)
    (h : Poised (Rely ProperCommit) F (Held origin) source destination t payer payee u) :
    ProperCommit u.pending u.db := by
  have payerKey := h.debtor.key
  have payeeKey := h.creditor.key
  apply ProperCommit.moved t payer payee h.pending kind _ from_payer to_payee _ h.reserved.free
    h.covered h.creditable.1
  · constructor
    · rcases kind with transfer | payment
      · simp [transfer]
      · simp [payment]
    · intro id pays
      rw [from_payer, payerKey] at pays
      cases pays
      exact ⟨own, positive⟩
    · intro _
      refine ⟨status, by simp [from_payer], by simp [to_payee], ?_⟩
      rw [from_payer, to_payee, payerKey, payeeKey]
      intro same
      exact h.apart (Option.some.inj same)
    · intro funding
      rcases kind with transfer | payment
      · rw [transfer] at funding
        cases funding
      · rw [payment] at funding
        cases funding
    · intro withdrawal
      rcases kind with transfer | payment
      · rw [transfer] at withdrawal
        cases withdrawal
      · rw [payment] at withdrawal
        cases withdrawal
  · rw [payeeKey]
    exact owned_present other

theorem stored_row {t : Transaction} {db : Database} (stored : Stored t db) : ∃ row,
    db.transactions.find? row.id = some row ∧ row.id = t.id ∧ row.type = t.type ∧
      row.initiatedByUserId = t.initiatedByUserId := by
  obtain ⟨row, found, revised⟩ := stored
  refine ⟨row, ?_, revised_id revised, revised_type revised, revised_initiator revised⟩
  rw [revised_id revised]
  exact found

theorem clean_sound (clean : Clean (Rely ProperCommit) origin v) (sound : Sound origin) : Sound v.db :=
  sound_rely clean.rely sound

theorem stored_kept {t : Transaction} {a b : Database} (kept : Kept a b) (stored : Stored t a) :
    Stored t b :=
  stored_later kept.later stored

section Movements
variable {initiator : User} {amount : Int} {key : Option String} {draws : Draws} {cfg : Settings}

theorem maybeFlagRapidTransfers_proper {now : Timestamp} {transactionId walletId : Uuid} {α : Type}
    {k : Unit → Tx α} (clear : Clear v) (onward : ∀ u, Clear u → Kept v.db u.db → Proper F (k ()) u) :
    Proper F (maybeFlagRapidTransfers cfg now transactionId walletId >>= k) v := by
  unfold maybeFlagRapidTransfers
  rw [seq_seq]
  apply read_then
  intro u first
  have clear1 := clear_read clear first
  have kept1 := kept_onward first
  split
  · apply enqueued_then clear1
    intro w clear2 kept2
    exact onward w clear2 (kept_trans kept1 kept2)
  · exact onward u clear1 kept1

theorem initiateTransfer_proper {normalize : String → String} {recipient : Recipient}
    (positive : 0 < amount) (sound : Sound origin) (clean : Clean (Rely ProperCommit) origin v) :
    Proper F (initiateTransfer normalize initiator cfg recipient amount key draws) v := by
  have env := proper_env
  unfold initiateTransfer
  apply seq_wp
  apply resolveTransfer_wp env clean (fun _ _ _ => trivial)
  intro v1 senderWallet recipientWallet user _ clean1 ownsSender ownsRecipient other _ _ _
  apply seq_wp
  apply lookupKey_wp env clean1 (fun _ => trivial)
  swap
  · intro u txn _ _ _ _
    trivial
  intro v2 clean2 later2
  apply seq_wp
  apply checkTransfer_wp env clean2 (fun _ _ _ => trivial)
  intro v3 clean3 _ later3 _ _
  apply seq_wp
  apply sound_wp (clean_sound clean3 sound)
  apply moveFunds_wp env proper_grip _ (Int.le_of_lt positive) clean3 sound.solvent
    (owned_apart ownsSender ownsRecipient other) (fun _ _ _ _ _ => trivial) (fun _ _ _ _ _ _ _ _ => trivial)
  swap
  · intro u payer payee onward poised
    have later := later_trans later2 (later_trans later3 (env.later onward))
    exact moved_proper (.inl rfl) rfl rfl rfl positive (owned_later later ownsSender)
      (owned_later later ownsRecipient) poised
  intro v4 txn bare4 answers _ stored sound4 _
  apply maybeFlagRapidTransfers_proper ⟨sound4, bare4⟩
  intro v5 clear5 kept5
  obtain ⟨row, found, id, type, user⟩ := stored_row (stored_kept kept5 stored)
  apply audited_proper clear5
  rw [← answers.initiator, ← user, ← id]
  exact .moved row _ found (.inl ⟨type.trans answers.type, rfl⟩)

theorem delivery_fine {db : Database} {d : WebhookDelivery} (merchant : Present db (.merchant d.merchantId))
    (transaction : Present db (.transaction d.transactionId)) : Fine db (.insertDelivery d) where
  steady := trivial
  linked k mem := by
    simp only [writeKeys, deliveryKeys, List.mem_cons, List.not_mem_nil, or_false] at mem
    rcases mem with rfl | rfl
    · exact merchant
    · exact transaction
  warranted := trivial

theorem createAndEnqueue_proper {merchant : Merchant} {transactionId deliveryId : Uuid} {eventType : String}
    {α : Type} {k : Unit → Tx α} (clear : Clear v) (known : Present v.db (.merchant merchant.id))
    (stored : Present v.db (.transaction transactionId))
    (onward : ∀ u, Clear u → Kept v.db u.db → Proper F (k ()) u) :
    Proper F
    (Prog.handle (createAndEnqueue merchant transactionId deliveryId eventType)
      (fun _ => .ret ()) >>= k) v := by
  have env := proper_env
  apply seq_wp
  apply handle_wp
  unfold createAndEnqueue
  split
  swap
  · exact onward v clear (kept_refl v.db)
  apply seq_wp
  apply stmt_wp env
  · intro u goes pending _
    exact onward u ⟨goes_sound goes clear.sound, pending⟩ (goes_kept goes)
  intro v1 seen adds goes1 _ added _ _ pending1 _
  have kept1 := goes_kept goes1
  have sound1 := goes_sound goes1 clear.sound
  rw [clear.bare, List.nil_append, added] at pending1
  have good : ∀ w : Window, Goes (Rely ProperCommit) v1 w → ProperCommit v1.pending w.db := by
    intro w more
    have kept := kept_trans kept1 (goes_kept more)
    apply ProperCommit.plain
    intro write mem
    rw [pending1, List.mem_singleton] at mem
    rw [mem]
    exact delivery_fine (present_kept kept known) (present_kept kept stored)
  apply seq_wp
  apply commit_wp env
  · intro u rely pending
    exact onward u ⟨sound_rely rely sound1, pending⟩ (kept_trans kept1 (kept_rely rely))
  · intro u more same _
    rw [same]
    exact good u more
  intro u v2 more commit after bare2 _
  have kept2 : Kept v.db v2.db := by
    rw [after]
    exact kept_trans kept1 (kept_trans (goes_kept more) (kept_all (commit_steady commit)))
  have clear2 : Clear v2 := by
    constructor
    · rw [after]
      exact sound_commit (goes_sound more sound1) commit
    · exact bare2
  apply handle_wp
  apply call_wp env
  · intro w last same _
    exact onward w (goes_clear last clear2 same) (kept_trans kept2 (goes_kept last))
  · intro w _ last same _
    exact onward w (goes_clear last clear2 same) (kept_trans kept2 (goes_kept last))

theorem initiatePayment_proper {merchantId : Uuid} (positive : 0 < amount) (sound : Sound origin)
    (clean : Clean (Rely ProperCommit) origin v) :
    Proper F (initiatePayment initiator cfg merchantId amount key draws) v := by
  have env := proper_env
  unfold initiatePayment
  apply seq_wp
  apply resolvePayment_wp env clean (fun _ _ _ => trivial)
  intro v1 merchant payerWallet merchantWallet s clean1 ownsPayer ownsMerchant other _ later1 found
  have listed : Present s (.merchant merchant.id) := by
    have row := (Option.filter_eq_some_iff.mp found).1
    exact ⟨merchant, (find?_some_iff.mp row).1, rfl⟩
  apply seq_wp
  apply lookupKey_wp env clean1 (fun _ => trivial)
  swap
  · intro u txn _ _ _ _
    trivial
  intro v2 clean2 later2
  apply seq_wp
  apply checkMerchantPayment_wp env clean2 (fun _ _ _ => trivial)
  intro v3 clean3 _ later3 _
  apply seq_wp
  apply sound_wp (clean_sound clean3 sound)
  apply moveFunds_wp env proper_grip _ (Int.le_of_lt positive) clean3 sound.solvent
    (owned_apart ownsPayer ownsMerchant other) (fun _ _ _ _ _ => trivial) (fun _ _ _ _ _ _ _ _ => trivial)
  swap
  · intro u payer payee onward poised
    have later := later_trans later2 (later_trans later3 (env.later onward))
    exact moved_proper (.inr rfl) rfl rfl rfl positive (owned_later later ownsPayer)
      (owned_later later ownsMerchant) poised
  intro v4 txn bare4 answers later4 stored sound4 _
  have known : Present v4.db (.merchant merchant.id) := by
    obtain ⟨m, mem, same⟩ := listed
    obtain ⟨n, last, still, _⟩ :=
      (later_trans later1 (later_trans later2 (later_trans later3 later4))).merchants m mem
    exact ⟨n, last, still.trans same⟩
  have audited : ∀ v5 : Window, Clear v5 → Kept v4.db v5.db → Proper F (do
      let _ ← Prog.handle (createAndEnqueue merchant txn.id draws.deliveryId "payment.received")
          (fun _ => .ret ())
      auditLog { actorId := some initiator.id, actorType := .user, action := "merchant_payment.completed",
                 targetType := some "transaction", targetId := some txn.id }
      pure txn) v5 := by
    intro v5 clear5 kept5
    have stored5 := stored_kept kept5 stored
    have row5 : Present v5.db (.transaction txn.id) := by
      obtain ⟨row, there, _⟩ := stored5
      exact row_present there
    apply createAndEnqueue_proper clear5 (present_kept kept5 known) row5
    intro v6 clear6 kept6
    obtain ⟨row, found, id, type, user⟩ := stored_row (stored_kept kept6 stored5)
    apply audited_proper clear6
    rw [← answers.initiator, ← user, ← id]
    exact .moved row _ found (.inr ⟨type.trans answers.type, rfl⟩)
  change Proper F (maybeFlagMerchantPayment cfg txn.id initiator amount >>= _) v4
  unfold maybeFlagMerchantPayment
  split
  · apply enqueued_then ⟨sound4, bare4⟩
    exact audited
  · exact audited v4 ⟨sound4, bare4⟩ (kept_refl v4.db)

end Movements

section Openings

theorem transaction_linked {db : Database} {t : Transaction} (linked : Linked db)
    (own : ∀ id, t.sourceWalletId = some id ∨ t.destinationWalletId = some id →
      Owned id t.initiatedByUserId db)
    (some_wallet : t.sourceWalletId ≠ none ∨ t.destinationWalletId ≠ none) :
    ∀ k ∈ writeKeys (.insertTransaction t), Present db k := by
  have initiator : Present db (.user t.initiatedByUserId) := by
    rcases some_wallet with pays | paid
    · obtain ⟨id, source⟩ := Option.ne_none_iff_exists'.mp pays
      exact owner_present linked (own id (.inl source))
    · obtain ⟨id, destination⟩ := Option.ne_none_iff_exists'.mp paid
      exact owner_present linked (own id (.inr destination))
  intro k mem
  simp only [writeKeys, transactionKeys, List.mem_append, Option.mem_toList, Option.map_eq_some_iff,
    List.mem_singleton] at mem
  rcases mem with (⟨id, source, rfl⟩ | ⟨id, destination, rfl⟩) | rfl
  · exact owned_present (own id (.inl source))
  · exact owned_present (own id (.inr destination))
  · exact initiator

theorem hold_fine {db : Database} {t : Transaction} {source : Uuid} (linked : Linked db)
    (type : t.type = .withdrawal) (from_wallet : t.sourceWalletId = some source)
    (destination : t.destinationWalletId = none) (own : Owned source t.initiatedByUserId db)
    (positive : 0 < t.amount) : Fine db (.insertTransaction t) where
  steady := trivial
  linked := by
    apply transaction_linked linked _ (.inl (by simp [from_wallet]))
    intro id named
    rw [from_wallet, destination] at named
    rcases named with same | none_there
    · cases same
      exact own
    · cases none_there
  warranted := by
    refine ⟨⟨by simp [type], ?_, ?_, ?_, ?_⟩, by simp [moves, type]⟩
    · intro id pays
      rw [from_wallet] at pays
      cases pays
      exact ⟨own, positive⟩
    · intro moving
      simp [moves, type] at moving
    · intro funding
      rw [type] at funding
      cases funding
    · intro _
      exact ⟨destination, by simp [from_wallet]⟩

theorem initiateWithdrawal_proper {cfg : Settings} {user : User} {bankAccountId : Uuid} {amount : Int}
    {draws : WithdrawalDraws} (positive : 0 < amount) (sound : Sound origin)
    (clean : Clean (Rely ProperCommit) origin v) :
    Proper F (initiateWithdrawal cfg user bankAccountId amount draws) v := by
  have env := proper_env
  unfold initiateWithdrawal
  apply requireWallet_wp env clean (by simp) (fun _ _ _ => trivial)
  intro v1 wallet clean1 _ owns
  apply seq_wp
  apply checkWithdrawal_wp env clean1 (fun _ _ _ => trivial)
  intro v2 clean2 _ later2 _
  apply seq_wp
  apply getActiveWithdrawal_wp env clean2 (fun _ _ _ => trivial) (fun _ _ => trivial)
  intro v3 clean3 _ later3 _
  apply require_wp (fun _ => trivial)
  intro _
  apply seq_wp
  apply query_wp env (fun _ => trivial)
  intro v4 goes4 pending4 memory4
  have clean4 := clean_goes env clean3 goes4 (pending4.trans clean3.bare) memory4
  apply orRaise_wp (fun _ => trivial)
  intro _ _
  apply seq_wp
  apply takeWallet_wp env (proper_grip (F := F)) clean4 (fun _ => trivial)
  intro v5 found clean5 goes5 grips
  apply orRaise_wp (fun _ => trivial)
  intro lockedWallet isLocked
  have debtor := grips _ isLocked
  apply require_wp (fun _ => trivial)
  intro covers
  have covered : amount ≤ lockedWallet.balance := by simpa using covers
  have own5 : Owned lockedWallet.id user.id v5.db := by
    rw [debtor.key]
    exact owned_later (later_trans later2 (later_trans later3 (later_trans goes4.later goes5.later))) owns
  apply seq_wp
  apply createTransaction_wp env clean5.bare (fun _ => trivial) (fun _ _ _ _ _ => trivial)
  intro v6 memory goes6 pending6 reserved _
  apply seq_wp
  apply updateBalance_wp env (fun _ => trivial) (fun _ _ _ _ => trivial)
  intro v7 _ goes7 pending7 _ ⟨rest, _⟩
  have whole := goes_trans env goes6 goes7
  have upheld : Upheld v7 := by
    have sound7 := sound_rely (goes_trans env goes5 whole).steady (clean_sound clean4 sound)
    constructor
    · exact sound7
    · intro w mem
      rw [pending7, pending6, List.singleton_append, List.mem_cons, List.mem_singleton] at mem
      rcases mem with rfl | rfl
      · exact hold_fine sound7.linked rfl rfl rfl (owned_later whole.later own5) positive
      · exact ⟨rest, (fun _ mem => by cases mem), trivial⟩
  apply upheld_then upheld
  intro db v8 rely after clear8 _
  have stored : v8.db.transactions.find? draws.transactionId =
      some (withdrawalOf user bankAccountId amount draws lockedWallet) := by
    have goes8 : Goes (Rely ProperCommit) v7 { v7 with db := db } := goes_rely env rely (fun _ h => h)
    have free := (reserved_goes goes8 (reserved_goes goes7 reserved)).free
    have row := find?_insert free draws.transactionId
    simp only [transaction_key, if_true] at row
    rw [after, pending7, pending6]
    exact row
  apply attempted_then clear8
  intro v9 clear9 kept9
  obtain ⟨row, there, revised, _⟩ := kept9.transactions _ _ stored
  have id : row.id = draws.transactionId := revised_id revised
  apply audited_proper clear9
  have opened := Attested.opened row (by rw [id]; exact there) (revised_type revised)
  rw [revised_initiator revised, id] at opened
  exact opened

theorem initiateFunding_proper {user : User} {amount : Int} {key : Option String} {draws : WithdrawalDraws}
    (sound : Sound origin) (clean : Clean (Rely ProperCommit) origin v) :
    Proper F (initiateFunding user amount key draws) v := by
  have env := proper_env
  have answered : ∀ {t : Transaction} {url : Option String} {w : Window}, Proper F (fundingOf t url) w := by
    intro t url w
    exact fundingOf_wp trivial (fun _ _ _ => trivial)
  unfold initiateFunding resolveFunding
  apply seq_wp
  apply seq_wp
  apply getByUserId_wp env clean (fun _ => trivial)
  intro v1 found clean1 _ owns
  apply orRaise_wp (fun _ => trivial)
  intro wallet isWallet
  have owned := owns wallet isWallet
  apply require_wp (fun _ => trivial)
  intro _
  apply require_wp (fun _ => trivial)
  intro _
  apply seq_wp
  apply lookupKey_wp env clean1 (fun _ => trivial)
  swap
  · intro v2 txn _ _ _ _
    exact answered
  intro v2 clean2 later2
  apply seq_wp
  apply paystack_wp env (fun _ => trivial)
  intro v3 data goes3 pending3 memory3
  have clean3 := clean_goes env clean2 goes3 (pending3.trans clean2.bare) (by rw [memory3])
  apply seq_wp
  apply createTransaction_wp env clean3.bare (fun _ => trivial) (fun _ _ _ _ _ => trivial)
  intro v4 _ goes4 pending4 _ _
  have own4 := owned_later (later_trans later2 (later_trans goes3.later goes4.later)) owned
  have upheld : Upheld v4 := by
    have sound4 := sound_rely goes4.steady (clean_sound clean3 sound)
    constructor
    · exact sound4
    · intro w mem
      rw [pending4, List.mem_singleton] at mem
      rw [mem]
      refine ⟨trivial, ?_, ⟨by simp, ?_, ?_, ?_, ?_⟩, by simp [moves]⟩
      · apply transaction_linked sound4.linked _ (.inr (by simp))
        intro id named
        rcases named with none_there | same
        · cases none_there
        · cases same
          exact own4
      · intro id pays
        cases pays
      · intro moving
        simp [moves] at moving
      · intro _
        exact ⟨rfl, wallet.id, rfl, own4⟩
      · intro withdrawal
        cases withdrawal
  apply upheld_then upheld
  intro _ v5 _ _ _ _
  exact answered

end Openings

section Accounts

/-- The INSERT of a wallet under writes that add none. -/
theorem insertWallet_wp {R : (Row → Prop) → Database → Database → Prop}
    {G : List Write → Database → Prop} (env : Interference R) {id userId : Uuid} {currency : String}
    {Q : Post Database IdentityMap Write Row AppError Wallet}
    (still : ∀ db, (applyAll v.pending db).wallets = db.wallets) (failed : ∀ u x, Q (.error x) u)
    (created : ∀ u, Goes R v u → u.pending = v.pending ++ [.insertWallet { id, userId, currency }] →
      (∀ r ∈ writeTargets (.insertWallet { id, userId, currency }), u.held r) →
      u.db.wallets.admits { id, userId, currency } = true → Q (.ok { id, userId, currency }) u) :
    wp R G F (WalletRepository.create id userId currency) Q v := by
  refine stmt_wp env (fun u _ _ _ => failed u _) ?_
  intro u seen adds goes sees added _ held pending _
  have same : seen.wallets = u.db.wallets := by rw [sees, still]
  split
  · rename_i free
    rw [if_pos free] at added
    apply created u goes (by rw [pending, added]) _ (by rw [← same]; exact free)
    intro r mem
    apply held r
    rw [added]
    simp only [needed, List.nil_append, touched_cons, touched_nil, List.append_nil]
    exact mem
  · split <;> exact failed u _

theorem openWallet_wp {R : (Row → Prop) → Database → Database → Prop} {G : List Write → Database → Prop}
    (env : Interference R) {walletId userId : Uuid}
    {Q : Post Database IdentityMap Write Row AppError Wallet}
    (still : ∀ db, (applyAll v.pending db).wallets = db.wallets) (failed : ∀ u x, Q (.error x) u)
    (created : ∀ u, Goes R v u →
      u.pending = v.pending ++ [.insertWallet { id := walletId, userId, currency := "NGN" }] →
      (∀ r ∈ writeTargets (.insertWallet { id := walletId, userId, currency := "NGN" }), u.held r) →
      u.db.wallets.admits { id := walletId, userId, currency := "NGN" } = true →
      Q (.ok { id := walletId, userId, currency := "NGN" }) u) :
    wp R G F (createWallet walletId userId) Q v := by
  unfold createWallet
  refine seq_wp ?_
  refine selectWallet_wp env (fun u => failed u _) ?_ ?_
  · intro v1 goes1 pending1 _ _
    refine require_wp (fun _ => failed v1 _) ?_
    intro _
    refine insertWallet_wp env (by rw [pending1]; exact still) failed ?_
    intro u goes pending held free
    exact created u (goes_trans env goes1 goes) (by rw [pending, pending1]) held free
  · intro u _ _ _ _ _ _ _
    exact require_wp (fun _ => failed u _) (by simp)

theorem insertUser_wp {R : (Row → Prop) → Database → Database → Prop} {G : List Write → Database → Prop}
    (env : Interference R) {user : User} {Q : Post Database IdentityMap Write Row AppError User}
    (bare : v.pending = []) (failed : ∀ u x, Q (.error x) u)
    (created : ∀ u, Goes R v u → u.pending = [.insertUser user] →
      (∀ r ∈ writeTargets (.insertUser user), u.held r) → u.db.users.admits user = true → Q (.ok user) u) :
    wp R G F (UserRepository.insert user) Q v := by
  refine stmt_wp env (fun u _ _ _ => failed u _) ?_
  intro u seen adds goes sees added _ held pending _
  rw [bare, applyAll_nil] at sees
  rw [bare, List.nil_append] at pending
  subst sees
  split
  · rename_i free
    rw [if_pos free] at added
    apply created u goes (by rw [pending, added]) _ free
    intro r mem
    apply held r
    rw [added]
    simp only [needed, List.nil_append, touched_cons, touched_nil, List.append_nil]
    exact mem
  · split
    · exact failed u _
    · split <;> exact failed u _

theorem storeRefreshToken_wp {R : (Row → Prop) → Database → Database → Prop}
    {G : List Write → Database → Prop}
    (env : Interference R) {cfg : Settings} {userId : Uuid} {hash : String} {now : Timestamp}
    {Q : Post Database IdentityMap Write Row AppError Unit} (failed : ∀ u x, Q (.error x) u)
    (stored : ∀ u token, Goes R v u → token.userId = userId →
      u.pending = v.pending ++ [.insertRefreshToken token] → Q (.ok ()) u) :
    wp R G F (storeRefreshToken cfg userId hash now) Q v := by
  refine stmt_wp env (fun u _ _ _ => failed u _) ?_
  intro u seen adds goes _ added _ _ pending _
  split
  · rename_i free
    rw [if_pos free] at added
    exact stored u _ goes rfl (by rw [pending, added])
  · exact failed u _

theorem register_proper {cfg : Settings} {normalize : String → String} {email hashed name : String}
    {phone : Option String} {draws : RegistrationDraws} (clear : Clear v) :
    Proper F (register cfg normalize email hashed name phone draws) v := by
  have env := proper_env
  unfold register
  apply read_then
  intro v1 first
  have clear1 := clear_read clear first
  apply checked_then
  intro _
  unfold UserRepository.create
  rw [seq_seq]
  apply given_then
  intro fullName _
  rw [seq_seq]
  apply given_then
  intro phone _
  apply seq_wp
  apply insertUser_wp env clear1.bare (fun _ _ => trivial)
  intro v2 goes2 pending2 heldUser newUser
  apply seq_wp
  apply openWallet_wp env _ (fun _ _ => trivial)
  swap
  · intro db
    rw [pending2]
    rfl
  intro v4 goes4 pending4 heldWallet freeWallet
  apply seq_wp
  apply storeRefreshToken_wp env (fun _ _ => trivial)
  intro v5 token goes5 holder pending5
  have since2 := goes_trans env goes4 goes5
  have written : v5.pending = registrationWrites
      { id := draws.userId, email := normalize email, hashedPassword := hashed, fullName, phone }
      { id := draws.walletId, userId := draws.userId, currency := "NGN" } token := by
    rw [pending5, pending4, pending2]
    rfl
  have good : ∀ w : Window, Goes (Rely ProperCommit) v5 w → ProperCommit v5.pending w.db := by
    intro w more
    have whole := goes_trans env since2 more
    have wallet := goes_trans env goes5 more
    exact .registered _ _ token written rfl rfl holder
      (user_admits_kept (fun r mem => whole.same r (heldUser r mem)) newUser)
      (wallet_admits_kept (fun r mem => wallet.same r (heldWallet r mem)) freeWallet)
  have sound5 := sound_rely (goes_trans env goes2 since2).steady clear1.sound
  apply seq_wp
  apply commit_wp env (fun _ _ _ => trivial)
  · intro u goes same _
    rw [same]
    exact good u goes
  · intro u v6 goes commit after bare _
    have clear6 : Clear v6 := by
      constructor
      · rw [after]
        exact sound_commit (goes_sound goes sound5) commit
      · exact bare
    have whole := goes_trans env since2 goes
    have inserted : Present v6.db (.user draws.userId) := by
      rw [after, written]
      exact registration_present (user_admits_kept (fun r mem => whole.same r (heldUser r mem)) newUser)
    exact audited_proper clear6 (.account draws.userId _ inserted (.inl rfl))

end Accounts

end PayCoreProperMoney
