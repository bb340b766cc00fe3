import PayCore.Proof.ProperHandlers
import PayCore.Service.Endpoints

/- The requests of accounts, merchants, reviews and bank accounts, and with them every endpoint. -/
namespace PayCoreProperAccounts
open KeyedTable SessionProgram SessionSystem RelyGuarantee PayCoreTables PayCoreWrites PayCoreSessions
open PayCoreRepositories PayCoreSupport PayCoreAccounts PayCoreMerchants PayCoreKyc PayCoreWithdrawals
open PayCoreRegistration PayCoreJobs PayCoreOperations PayCoreEndpoints PayCorePersistence PayCoreStatements
open PayCoreGuaranteeRules PayCoreRequests PayCoreForeignKeys PayCoreKeptRecords PayCoreProperCommits
open PayCoreProperRules PayCoreProperMoney PayCoreProperHandlers

variable {F : Database → IdentityMap → List Row → List Write → Prop} {α β : Type} {v u : Window}

theorem getCurrentUser_then {currentUserId : Uuid} {k : User → Tx α} (clear : Clear v)
    (onward : ∀ user u, Clear u → Kept v.db u.db → Present u.db (.user user.id) → Proper F (k user) u) :
    Proper F (getCurrentUser currentUserId >>= k) v := by
  unfold getCurrentUser
  rw [seq_seq]
  apply read_then
  intro u first
  have clear1 := clear_read clear first
  rw [clear1.bare, applyAll_nil, seq_seq]
  apply given_then
  intro user found
  rw [seq_seq]
  apply checked_then
  intro _
  have row := (Option.filter_eq_some_iff.mp found).1
  exact onward user u clear1 (kept_onward first) ⟨user, (find?_some_iff.mp row).1, rfl⟩

theorem asUser_proper {currentUserId : Uuid} {service : User → Tx α} (clear : Clear v)
    (served : ∀ user u, Clear u → Present u.db (.user user.id) → Proper F (service user) u) :
    Proper F (asUser currentUserId service) v := by
  apply getCurrentUser_then clear
  intro user u clear1 _ there
  exact quietly_guarantees (served user u clear1 there)

theorem token_fine {db : Database} {token : RefreshToken} (there : Present db (.user token.userId)) :
    Fine db (.insertRefreshToken token) where
  steady := trivial
  linked k mem := by
    simp only [writeKeys, tokenKeys, List.mem_singleton] at mem
    rw [mem]
    exact there
  warranted := trivial

theorem storeToken_proper {cfg : Settings} {userId : Uuid} {hash : String} {now : Timestamp}
    {k : Unit → Tx α} (upheld : Upheld v) (there : Present v.db (.user userId))
    (onward : ∀ u, Upheld u → Kept v.db u.db → Proper F (k ()) u) :
    Proper F (storeRefreshToken cfg userId hash now >>= k) v := by
  apply seq_wp
  apply storeRefreshToken_wp proper_env (fun _ _ => trivial)
  intro u token goes holder pending
  refine onward u ⟨goes_sound goes upheld.sound, ?_⟩ (goes_kept goes)
  intro w mem
  rw [pending, List.mem_append, List.mem_singleton] at mem
  rcases mem with old | rfl
  · exact fine_kept (goes_kept goes) (upheld.fine w old)
  · exact token_fine (by rw [holder]; exact present_kept (goes_kept goes) there)

theorem flush_proper {writes : List AccountWrite} {k : Unit → Tx α} (upheld : Upheld v)
    (fine : ∀ db, Kept v.db db → ∀ w ∈ writes, Fine db (.account w))
    (onward : ∀ u, Onward (Rely ProperCommit) v u (writes.map .account) → Upheld u → Proper F (k ()) u) :
    Proper F (flushAccount writes >>= k) v := by
  apply flush_then
  intro u first _
  apply onward u first
  apply upheld_onward upheld first
  intro w mem
  obtain ⟨a, among, rfl⟩ := List.mem_map.mp mem
  exact fine u.db (kept_onward first) a among

/-- The UPDATE of a user, a merchant, a bank account or a token sets no foreign key. -/
def plainUpdate : AccountWrite → Prop
  | .updateUser _ _ => True
  | .updateMerchant _ _ => True
  | .updateBankAccount _ _ => True
  | .revokeRefreshToken _ => True
  | _ => False

theorem plain_fine {db : Database} {w : AccountWrite} (plain : plainUpdate w) : Fine db (.account w) := by
  cases w with
  | updateUser | updateMerchant | updateBankAccount | revokeRefreshToken =>
    exact ⟨trivial, (fun _ mem => by cases mem), trivial⟩
  | _ => exact plain.elim

theorem flushPlain_proper {writes : List AccountWrite} {k : Unit → Tx α} (upheld : Upheld v)
    (plain : ∀ w ∈ writes, plainUpdate w)
    (onward : ∀ u, Onward (Rely ProperCommit) v u (writes.map .account) → Upheld u → Proper F (k ()) u) :
    Proper F (flushAccount writes >>= k) v :=
  flush_proper upheld (fun _ _ w mem => plain_fine (plain w mem)) onward

section Accounts

theorem login_proper {cfg : Settings} {normalize : String → String}
    {verifyPassword : String → String → Bool}
    {email password : String} {draws : TokenDraws} (clear : Clear v) :
    Proper F (login cfg normalize verifyPassword email password draws) v := by
  unfold login
  apply read_then
  intro v1 first
  have clear1 := clear_read clear first
  rw [clear1.bare, applyAll_nil]
  apply given_then
  intro user found
  have there : Present v1.db (.user user.id) := ⟨user, List.mem_of_find?_eq_some found, rfl⟩
  apply checked_then
  intro _
  apply checked_then
  intro _
  apply storeToken_proper (clear_upheld clear1) there
  intro v2 upheld2 kept2
  apply upheld_then upheld2
  intro _ v3 _ _ clear3 kept3
  exact audited_proper clear3 (.account user.id _ (present_kept (kept_trans kept2 kept3) there) (.inr rfl))

theorem refresh_proper {cfg : Settings} {tokenHash : String} {draws : TokenDraws} (clear : Clear v) :
    Proper F (refresh cfg tokenHash draws) v := by
  unfold refresh
  apply read_then
  intro v1 first
  have clear1 := clear_read clear first
  apply given_then
  intro token _
  apply checked_then
  intro _
  apply read_then
  intro v2 second
  have clear2 := clear_read clear1 second
  rw [clear2.bare, applyAll_nil]
  apply given_then
  intro user found
  have row := (Option.filter_eq_some_iff.mp (Option.filter_eq_some_iff.mp found).1).1
  have there : Present v2.db (.user user.id) := ⟨user, (find?_some_iff.mp row).1, rfl⟩
  unfold RefreshTokenRepository.revoke
  apply flushPlain_proper (clear_upheld clear2)
  · intro w mem
    split at mem
    · cases mem
    · rw [List.mem_singleton.mp mem]
      trivial
  intro v3 third upheld3
  apply storeToken_proper upheld3 (present_kept (kept_onward third) there)
  intro v4 upheld4 _
  apply upheld_then upheld4
  intro _ _ _ _ _ _
  trivial

theorem logout_proper {tokenHash : String} (clear : Clear v) : Proper F (logout tokenHash) v := by
  unfold logout
  apply read_then
  intro v1 first
  have clear1 := clear_read clear first
  split
  · trivial
  unfold RefreshTokenRepository.revoke
  apply flushPlain_proper (clear_upheld clear1)
  · intro w mem
    split at mem
    · cases mem
    · rw [List.mem_singleton.mp mem]
      trivial
  intro v2 _ upheld2
  exact upheld_commit upheld2

theorem updateProfileRow_proper {user : User} {fullName phone : Option String} :
    Proper F (UserRepository.updateProfile user fullName phone) v := by
  unfold UserRepository.updateProfile
  apply checked_then
  intro _ db _
  refine ⟨trivial, fun _ => ?_⟩
  dsimp only
  split <;> trivial

theorem updateProfile_proper {userId : Uuid} {fullName phone : Option String} :
    Proper F (PayCoreAccounts.updateProfile userId fullName phone) v := by
  unfold PayCoreAccounts.updateProfile
  apply read_then
  intro v1 _
  apply given_then
  intro user _
  cases phone with
  | none => exact updateProfileRow_proper
  | some number =>
    dsimp only
    split
    · exact updateProfileRow_proper
    · apply read_then
      intro v2 _
      apply checked_then
      intro _
      exact updateProfileRow_proper

end Accounts

section Merchants

theorem merchant_listed {db : Database} {userId : Uuid} {m : Merchant}
    (found : MerchantRepository.byUserId userId db = some m) : m ∈ db.merchants.rows :=
  List.mem_of_find?_eq_some found

theorem merchant_kept {s t : Database} {m : Merchant} {action : String} (kept : Kept s t)
    (row : m ∈ s.merchants.rows)
    (named : action = "merchant.created" ∨ action = "api_key.generated") :
    Attested t ⟨some m.userId, .user, action, some "merchant", some m.id⟩ :=
  attested_kept kept (.merchant m action row named)

theorem updateMerchant_proper {merchant : Merchant} {set : MerchantUpdate} {k : Merchant → Tx α}
    (clear : Clear v)
    (onward : ∀ u, Upheld u → Kept v.db u.db → Proper F (k ((merchantEdit set).on merchant)) u) :
    Proper F (MerchantRepository.update merchant set >>= k) v := by
  unfold MerchantRepository.update
  dsimp only
  rw [seq_seq]
  apply flushPlain_proper (clear_upheld clear)
  · intro w mem
    split at mem
    · cases mem
    · rw [List.mem_singleton.mp mem]
      trivial
  intro u first upheld
  exact onward u upheld (kept_onward first)

theorem getMerchantProfile_then {userId : Uuid} {k : Merchant → Tx α} (clear : Clear v)
    (onward : ∀ m u, Clear u → m ∈ u.db.merchants.rows → Proper F (k m) u) :
    Proper F (getMerchantProfile userId >>= k) v := by
  unfold getMerchantProfile
  rw [seq_seq]
  apply read_then
  intro u first
  have clear1 := clear_read clear first
  rw [clear1.bare, applyAll_nil]
  apply given_then
  intro m found
  exact onward m u clear1 (merchant_listed found)

theorem rotateApiKey_proper {userId : Uuid} {rawKey apiKeyHash : String} (clear : Clear v) :
    Proper F (rotateApiKey userId rawKey apiKeyHash) v := by
  unfold rotateApiKey
  apply getMerchantProfile_then clear
  intro m v1 clear1 row
  unfold MerchantRepository.updateApiKey
  apply updateMerchant_proper clear1
  intro v2 upheld2 kept2
  apply upheld_then upheld2
  intro _ v3 _ _ clear3 kept3
  have attested : Attested v3.db ⟨some m.userId, .user, "api_key.generated", some "merchant", some m.id⟩ :=
    merchant_kept (kept_trans kept2 kept3) row (.inr rfl)
  exact audited_proper clear3 attested

theorem updateWebhookConfig_proper {userId : Uuid} {webhookUrl newSecret : Option String}
    (clear : Clear v) :
    Proper F (updateWebhookConfig userId webhookUrl newSecret) v := by
  unfold updateWebhookConfig
  apply getMerchantProfile_then clear
  intro m v1 clear1 _
  unfold MerchantRepository.updateWebhook
  apply updateMerchant_proper clear1
  intro v2 upheld2 _
  apply upheld_then upheld2
  intro _ _ _ _ _ _
  trivial

theorem goes_onward {ws : List Write} (onward : Onward (Rely ProperCommit) v u ws) :
    Goes (Rely ProperCommit) v u where
  keeps := onward.keeps
  same r mine := proper_env.frame r onward.rely mine
  steady := onward.rely
  rely := proper_env.forget onward.rely
  later := proper_env.later onward.rely

theorem merchant_fine {db : Database} {m : Merchant} (there : Present db (.user m.userId)) :
    Fine db (.account (.insertMerchant m)) where
  steady := trivial
  linked k mem := by
    simp only [writeKeys, merchantKeys, List.mem_singleton] at mem
    rw [mem]
    exact there
  warranted := trivial

theorem wallet_fine {db : Database} {w : Wallet} (empty : w.balance = 0)
    (there : Present db (.user w.userId)) :
    Fine db (.insertWallet w) where
  steady := by simp [Steady, empty]
  linked k mem := by
    simp only [writeKeys, walletKeys, List.mem_singleton] at mem
    rw [mem]
    exact there
  warranted := trivial

theorem ensureWallet_proper {walletId userId : Uuid} {k : Unit → Tx α} (upheld : Upheld v)
    (still : ∀ db, (applyAll v.pending db).wallets = db.wallets) (there : Present v.db (.user userId))
    (onward : ∀ u ws, Goes (Rely ProperCommit) v u → Upheld u → u.pending = v.pending ++ ws →
      Proper F (k ()) u) :
    Proper F (ensureWallet walletId userId >>= k) v := by
  unfold ensureWallet
  rw [seq_seq]
  have next : ∀ u, Goes (Rely ProperCommit) v u → u.pending = v.pending → Upheld u := by
    intro u goes pending
    refine ⟨goes_sound goes upheld.sound, ?_⟩
    rw [pending]
    exact fun w mem => fine_kept (goes_kept goes) (upheld.fine w mem)
  apply seq_wp
  apply selectWallet_wp proper_env (fun _ => trivial)
  · intro v1 goes1 pending1 _ _
    apply seq_wp
    apply seq_wp
    refine insertWallet_wp proper_env (by rw [pending1]; exact still) (fun _ _ => trivial) ?_
    intro v2 goes2 pending2 _ _
    have whole := goes_trans proper_env goes1 goes2
    refine onward v2 _ whole ⟨goes_sound whole upheld.sound, ?_⟩ (by rw [pending2, pending1])
    intro w mem
    rw [pending2, pending1, List.mem_append, List.mem_singleton] at mem
    rcases mem with old | rfl
    · exact fine_kept (goes_kept whole) (upheld.fine w old)
    · exact wallet_fine rfl (present_kept (goes_kept whole) there)
  · intro v1 row goes1 pending1 _ _ _ _
    exact onward v1 [] goes1 (next v1 goes1 pending1) (by rw [pending1, List.append_nil])

theorem merchant_written {db : Database} {m : Merchant} {ws : List Write}
    (free : db.merchants.admits m = true)
    (steady : ∀ w ∈ ws, Steady (applyWrite (.account (.insertMerchant m)) db) w) {action : String}
    (named : action = "merchant.created" ∨ action = "api_key.generated") :
    Attested (applyAll (.account (.insertMerchant m) :: ws) db)
      ⟨some m.userId, .user, action, some "merchant", some m.id⟩ := by
  apply merchant_kept (kept_all steady) _ named
  have rows : (applyWrite (.account (.insertMerchant m)) db).merchants.rows = db.merchants.rows ++ [m] :=
    insert_rows free
  rw [rows]
  simp

theorem createMerchant_proper {user : User} {businessName : String} {draws : MerchantDraws}
    (clear : Clear v)
    (there : Present v.db (.user user.id)) : Proper F (createMerchant user businessName draws) v := by
  unfold createMerchant
  apply read_then
  intro v1 first
  have clear1 := clear_read clear first
  have there1 := present_kept (kept_onward first) there
  apply checked_then
  intro _
  unfold MerchantRepository.create
  rw [seq_seq]
  apply insertAccount_then
  intro v2 second free
  rw [clear1.bare, applyAll_nil] at free
  have there2 := present_kept (kept_onward second) there1
  have upheld2 : Upheld v2 := by
    apply upheld_onward (clear_upheld clear1) second
    intro w mem
    rw [List.mem_singleton.mp mem]
    exact merchant_fine there2
  have pending2 := second.pending
  rw [clear1.bare, List.nil_append] at pending2
  apply ensureWallet_proper upheld2 _ there2
  swap
  · intro db
    rw [pending2]
    rfl
  intro v3 ws goes3 upheld3 pending3
  apply flushPlain_proper upheld3
  · intro w mem
    split at mem
    · cases mem
    · rw [List.mem_singleton.mp mem]
      trivial
  intro v4 fourth upheld4
  apply upheld_then upheld4
  intro db v5 rely after clear5 _
  have steady := upheld_steady rely upheld4
  have pending4 := fourth.pending
  rw [pending3, pending2, List.append_assoc, List.singleton_append] at pending4
  have goes4 : Goes (Rely ProperCommit) v4 { v4 with db := db } := goes_rely proper_env rely (fun _ h => h)
  have whole := goes_trans proper_env goes3 (goes_trans proper_env (goes_onward fourth) goes4)
  have locked : ∀ r ∈ accountTargets (.insertMerchant
      { id := draws.merchantId, userId := user.id, businessName, apiKeyHash := draws.apiKeyHash,
        apiKeyPrefix := apiKeyPrefix draws.rawKey, webhookSecret := some draws.webhookSecret }),
        v2.held r := by
    intro r mem
    exact second.locks r (by simpa [touched, Store.targets, writeTargets] using mem)
  have admits := merchant_admits_kept (fun r mem => whole.same r (locked r mem)) free
  rw [pending4] at steady after
  have attested : ∀ action, action = "merchant.created" ∨ action = "api_key.generated" →
      Attested v5.db ⟨some user.id, .user, action, some "merchant", some draws.merchantId⟩ := by
    intro action named
    rw [after]
    apply merchant_written admits _ named
    intro w mem
    exact steady_kept (kept_write (steady _ List.mem_cons_self)) (steady w (List.mem_cons_of_mem _ mem))
  apply audited_then clear5 (attested _ (.inl rfl))
  intro v6 clear6 kept6
  exact audited_proper clear6 (attested_kept kept6 (attested _ (.inr rfl)))

end Merchants

section Reviews

theorem submission_fine {db : Database} {s : KYCSubmission} (there : Present db (.user s.userId))
    (unreviewed : s.reviewerId = none) : Fine db (.account (.insertSubmission s)) where
  steady := trivial
  linked k mem := by
    simp only [writeKeys, submissionKeys, unreviewed, Option.map_none, Option.toList_none,
      List.mem_singleton] at mem
    rw [mem]
    exact there
  warranted := trivial

theorem submitKyc_proper {user : User} {targetTier : Nat} {fileBytes : List UInt8} {submissionId : Uuid}
    {documentKey : String} (clear : Clear v) (there : Present v.db (.user user.id)) :
    Proper F (submitKyc user targetTier fileBytes submissionId documentKey) v := by
  unfold submitKyc
  apply checked_then
  intro _
  apply checked_then
  intro _
  apply checked_then
  intro _
  apply read_then
  intro v1 first
  have clear1 := clear_read clear first
  cases KYCRepository.activeForTier user.id targetTier (applyAll v1.pending v1.db) with
  | some active =>
    dsimp only
    split <;> trivial
  | none =>
    dsimp only
    apply called_then
    intro _ v2 second
    have clear2 := clear_read clear1 second
    unfold KYCRepository.create
    rw [ret_seq, seq_seq]
    apply insertAccount_then
    intro v3 third free
    rw [clear2.bare, applyAll_nil] at free
    have there3 :=
      present_kept (kept_trans (kept_trans (kept_onward first) (kept_onward second))
        (kept_onward third)) there
    have upheld3 : Upheld v3 := by
      apply upheld_onward (clear_upheld clear2) third
      intro w mem
      rw [List.mem_singleton.mp mem]
      exact submission_fine there3 rfl
    have pending3 := third.pending
    rw [clear2.bare, List.nil_append] at pending3
    apply upheld_then upheld3
    intro db v4 rely after clear4 _
    have mine : v3.held (.submission submissionId) :=
      third.locks _ (by simp [touched, Store.targets, writeTargets, accountTargets])
    have admits := submission_admits_kept (proper_env.frame _ rely mine) free
    have row := find?_insert admits submissionId
    rw [show key _ = submissionId from rfl, if_pos rfl] at row
    apply audited_proper clear4
    apply Attested.submitted
      { id := submissionId, userId := user.id, requestedTier := targetTier, documentKey := documentKey }
    rw [after, pending3]
    exact row

theorem review_fine {db : Database} {id : Uuid} {review : Review}
    (there : Present db (.user review.reviewerId))
    (status : review.status ≠ .pending) : Fine db (.account (.reviewSubmission id review)) where
  steady := status
  linked k mem := by
    simp only [writeKeys, List.mem_singleton] at mem
    rw [mem]
    exact there
  warranted := trivial

theorem review_written {db : Database} {ws : List Write} {sub : KYCSubmission} {review : Review}
    {action : String}
    (steady : ∀ w ∈ ws, Steady db w) (mem : .account (.reviewSubmission sub.id review) ∈ ws)
    (found : ∃ s, db.kycSubmissions.find? sub.id = some s ∧ s.userId = sub.userId)
    (status : review.status ≠ .pending)
    (there : Present db (.user review.reviewerId)) (other : review.reviewerId ≠ sub.userId)
    (named : action = "kyc.approved" ∨ action = "kyc.rejected") : Attested (applyAll ws db)
      ⟨some review.reviewerId, .admin, action, some "kyc_submission", some sub.id⟩ := by
  apply written
    (P := fun t => Attested t ⟨some review.reviewerId, .admin, action, some "kyc_submission", some sub.id⟩)
    (fun s t kept => attested_kept kept) _ steady mem
  intro t kept
  obtain ⟨s, first, owner⟩ := found
  obtain ⟨a, row, user, _⟩ := kept.submissions sub.id s first
  have id : a.id = sub.id := (find?_some_iff.mp row).2
  have after : (applyWrite (.account (.reviewSubmission sub.id review)) t).kycSubmissions.find? sub.id =
      some ((reviewEdit review).on a) := by
    simp only [applyWrite, applyAccount, find?_update, if_true, row, Option.map_some]
  rw [← id] at after ⊢
  have reviewer : Present (applyWrite (.account (.reviewSubmission a.id review)) t)
      (.user review.reviewerId) :=
    present_kept kept there
  apply Attested.reviewed ((reviewEdit review).on a) review.reviewerId action after status reviewer _ named
  intro same
  exact other (same.trans (user.trans owner))

theorem getSubmission_then {submissionId : Uuid} {k : KYCSubmission → Tx α} (clear : Clear v)
    (onward : ∀ sub u, Clear u → Kept v.db u.db → u.db.kycSubmissions.find? sub.id = some sub →
      Proper F (k sub) u) :
    Proper F (getSubmission submissionId >>= k) v := by
  unfold getSubmission KYCRepository.getById
  rw [seq_seq]
  apply read_then
  intro u first
  have clear1 := clear_read clear first
  rw [clear1.bare, applyAll_nil]
  apply given_then
  intro sub stored
  apply onward sub u clear1 (kept_onward first)
  rw [show sub.id = submissionId from (find?_some_iff.mp stored).2]
  exact stored

theorem reviewed_then {sub : KYCSubmission} {review : Review} {k : KYCSubmission → Tx α} (clear : Clear v)
    (there : Present v.db (.user review.reviewerId)) (status : review.status ≠ .pending)
    (onward : ∀ u, Goes (Rely ProperCommit) v u → Upheld u →
      u.pending = [.account (.reviewSubmission sub.id review)] →
        Proper F (k ((reviewEdit review).on sub)) u) :
    Proper F (KYCRepository.review sub review >>= k) v := by
  unfold KYCRepository.review
  rw [seq_seq]
  apply flush_proper (clear_upheld clear)
  · intro db kept w mem
    rw [List.mem_singleton.mp mem]
    exact review_fine (present_kept kept there) status
  intro u first upheld
  have pending := first.pending
  rw [clear.bare, List.nil_append] at pending
  exact onward u (goes_onward first) upheld pending

/-- The review that the audit log reports, once it has been committed with `ws`. -/
theorem audited_review {sub : KYCSubmission} {review : Review} {ws : List Write} {action : String}
    (upheld : Upheld v) (pending : v.pending = .account (.reviewSubmission sub.id review) :: ws)
    (stored : ∃ s, v.db.kycSubmissions.find? sub.id = some s ∧ s.userId = sub.userId)
    (there : Present v.db (.user review.reviewerId)) (status : review.status ≠ .pending)
    (other : review.reviewerId ≠ sub.userId) (named : action = "kyc.approved" ∨ action = "kyc.rejected") :
    Proper F (do
      commit
      auditLog { actorId := some review.reviewerId, actorType := .admin, action,
                 targetType := some "kyc_submission", targetId := some sub.id }
      pure ((reviewEdit review).on sub)) v := by
  apply upheld_then upheld
  intro db u rely after clear _
  apply audited_proper clear
  rw [after]
  have kept := kept_rely rely
  refine review_written (upheld_steady rely upheld) (by rw [pending]; simp) ?_ status
    (present_kept kept there) other named
  obtain ⟨s, row, owner⟩ := stored
  obtain ⟨t, last, user, _⟩ := kept.submissions sub.id s row
  exact ⟨t, last, user.trans owner⟩

theorem rejectKyc_proper {submissionId : Uuid} {reviewer : User} {reason : String} {utcNow : Timestamp}
    (clear : Clear v) (there : Present v.db (.user reviewer.id)) :
    Proper F (rejectKyc submissionId reviewer reason utcNow) v := by
  unfold rejectKyc
  apply getSubmission_then clear
  intro sub v1 clear1 kept1 stored
  apply checked_then
  intro _
  apply checked_then
  intro other
  have there1 := present_kept kept1 there
  apply reviewed_then clear1 there1 (by simp)
  intro v2 goes2 upheld2 pending2
  obtain ⟨s, row, owner, _⟩ := (goes_kept goes2).submissions sub.id sub stored
  exact audited_review upheld2 pending2 ⟨s, row, owner⟩ (present_kept (goes_kept goes2) there1) (by simp)
    (of_decide_eq_true other) (.inr rfl)

theorem approveKyc_proper {submissionId : Uuid} {reviewer : User} {utcNow : Timestamp} (clear : Clear v)
    (there : Present v.db (.user reviewer.id)) : Proper F (approveKyc submissionId reviewer utcNow) v := by
  unfold approveKyc
  apply getSubmission_then clear
  intro sub v1 clear1 kept1 stored
  apply checked_then
  intro _
  apply checked_then
  intro _
  apply checked_then
  intro other
  have there1 := present_kept kept1 there
  apply reviewed_then clear1 there1 (by simp)
  intro v2 goes2 upheld2 pending2
  unfold updateKycTier
  rw [seq_seq]
  apply read_then
  intro v3 third
  have upheld3 := upheld_read upheld2 third
  rw [seq_seq]
  apply given_then
  intro user _
  unfold UserRepository.updateKycTier
  rw [seq_seq]
  apply flushPlain_proper upheld3
  · intro w mem
    split at mem
    · cases mem
    · rw [List.mem_singleton.mp mem]
      trivial
  intro v4 fourth upheld4
  have whole := goes_trans proper_env goes2 (goes_trans proper_env (goes_onward third) (goes_onward fourth))
  obtain ⟨s, row, owner, _⟩ := (goes_kept whole).submissions sub.id sub stored
  have pending4 := fourth.pending
  rw [third.pending, List.append_nil, pending2, List.singleton_append] at pending4
  exact audited_review upheld4 pending4 ⟨s, row, owner⟩ (present_kept (goes_kept whole) there1) (by simp)
    (of_decide_eq_true other) (.inl rfl)

end Reviews

section BankAccounts

theorem bankAccount_fine {db : Database} {a : BankAccount} (there : Present db (.user a.userId)) :
    Fine db (.account (.insertBankAccount a)) where
  steady := trivial
  linked k mem := by
    simp only [writeKeys, bankAccountKeys, List.mem_singleton] at mem
    rw [mem]
    exact there
  warranted := trivial

theorem addBankAccount_proper {cfg : Settings} {user : User}
    {accountName accountNumber bankCode bankName : String} {accountId : Uuid} (clear : Clear v)
    (there : Present v.db (.user user.id)) :
    Proper F (addBankAccount cfg user accountName accountNumber bankCode bankName accountId) v := by
  have created : ∀ (name : Option String) (u : Window), Clear u → Present u.db (.user user.id) →
      Proper F (do
      let existingCount ← BankAccountRepository.countByUser user.id
      let account ← BankAccountRepository.create
        { id := accountId, userId := user.id, accountName := name.getD accountName,
          accountNumber, bankCode, bankName, isDefault := existingCount == 0 }
      commit
      pure account) u := by
    intro name u clearU thereU
    apply read_then
    intro v2 second
    have clear2 := clear_read clearU second
    unfold BankAccountRepository.create
    rw [seq_seq]
    apply insertAccount_then
    intro v3 third _
    have upheld3 : Upheld v3 := by
      apply upheld_onward (clear_upheld clear2) third
      intro w mem
      rw [List.mem_singleton.mp mem]
      exact bankAccount_fine (present_kept (kept_trans (kept_onward second) (kept_onward third)) thereU)
    apply upheld_then upheld3
    intro _ _ _ _ _ _
    trivial
  unfold addBankAccount verifyAccount
  split
  · exact created none v clear there
  · apply seq_wp
    apply handle_wp
    apply seq_wp
    apply call_wp proper_env
    · intro u goes pending _
      exact created none u (goes_clear goes clear pending) (present_kept (goes_kept goes) there)
    · intro u _ goes pending _
      exact created _ u (goes_clear goes clear pending) (present_kept (goes_kept goes) there)

theorem softDelete_proper {account : BankAccount} {now : Timestamp} (clear : Clear v) :
    Proper F (BankAccountRepository.softDelete account now >>= fun _ => commit) v := by
  unfold BankAccountRepository.softDelete
  split
  · rw [seq_seq]
    apply flushPlain_proper (clear_upheld clear) (by simp [plainUpdate])
    intro v1 _ upheld1
    rw [seq_seq]
    apply read_then
    intro v2 second
    have upheld2 := upheld_read upheld1 second
    split
    · exact upheld_commit upheld2
    · apply flushPlain_proper upheld2
      · intro w mem
        split at mem
        · cases mem
        · rw [List.mem_singleton.mp mem]
          trivial
      intro v3 _ upheld3
      exact upheld_commit upheld3
  · apply flushPlain_proper (clear_upheld clear) (by simp [plainUpdate])
    intro v1 _ upheld1
    exact upheld_commit upheld1

theorem removeBankAccount_proper {user : User} {bankAccountId : Uuid} {now : Timestamp} (clear : Clear v) :
    Proper F (removeBankAccount user bankAccountId now) v := by
  unfold removeBankAccount
  apply read_then
  intro v1 first
  have clear1 := clear_read clear first
  apply given_then
  intro account _
  unfold getActiveWithdrawal
  apply seq_wp
  have removed : ∀ (u : Window) (active : Option Transaction), Clear u → Proper F (do
      require (active.all fun t => (t.extraData.bind (·.bankAccountId)) != some bankAccountId)
        (.forbidden "Cannot remove a bank account with an active withdrawal in progress.")
      BankAccountRepository.softDelete account now
      commit) u := by
    intro u active clearU
    apply checked_then
    intro _
    exact softDelete_proper clearU
  apply selectTransaction_wp proper_env (fun _ _ _ _ => trivial)
  · intro u goes pending _ _
    exact removed u none (goes_clear goes clear1 pending)
  · intro u row goes pending _ _ _
    exact removed u _ (goes_clear goes clear1 pending)

end BankAccounts

section Endpoints

/-- The amounts of transfers, payments and withdrawals are positive, as their schemas demand. -/
def positive : Job → Prop
  | .initiateTransfer _ _ _ _ amount _ _ => 0 < amount
  | .initiatePayment _ _ _ amount _ _ => 0 < amount
  | .initiateWithdrawal _ _ _ amount _ => 0 < amount
  | _ => True

/-- What reaches the services through their routers. Reviews do so through the admin router alone. -/
def routed : Endpoint → Prop
  | .request (.money job) => positive job
  | .request (.approveKyc _ _ _) => False
  | .request (.rejectKyc _ _ _ _) => False
  | _ => True

theorem job_proper {job : Job} (admitted : positive job) {db : Database} (sound : Sound db) :
    Proper F job.program ⟨db, [], default, Nothing⟩ := by
  have clear : Clear (⟨db, [], default, Nothing⟩ : Window) := ⟨sound, rfl⟩
  have clean := clean_start proper_env db Nothing
  cases job with
  | register => exact quietly_guarantees (register_proper clear)
  | initiateFunding => exact quietly_guarantees (initiateFunding_proper sound clean)
  | initiateTransfer => exact quietly_guarantees (initiateTransfer_proper admitted sound clean)
  | initiatePayment => exact quietly_guarantees (initiatePayment_proper admitted sound clean)
  | initiateWithdrawal => exact quietly_guarantees (initiateWithdrawal_proper admitted sound clean)
  | processChargeSuccess =>
      exact processChargeSuccess_wp clear rfl (fun _ _ => trivial) (fun _ _ => trivial)
  | reconcileFunding => exact reconcileFunding_proper clear rfl
  | executePayout => exact executePayout_proper clear rfl
  | processPayoutSuccess => exact payoutEvent_proper (.inl rfl) clear rfl
  | processPayoutFailure => exact payoutEvent_proper (.inr ⟨_, rfl⟩) clear rfl

theorem requireRole_then {roles : List UserRole} {currentUserId : Uuid} {k : User → Tx α} (clear : Clear v)
    (onward : ∀ admin u, Clear u → Present u.db (.user admin.id) → Proper F (k admin) u) :
    Proper F (requireRole roles currentUserId >>= k) v := by
  unfold requireRole
  rw [seq_seq]
  apply getCurrentUser_then clear
  intro admin u clear1 _ there
  rw [seq_seq]
  apply checked_then
  intro _
  exact onward admin u clear1 there

theorem endpoint_proper {endpoint : Endpoint} (admitted : routed endpoint) {db : Database}
    (sound : Sound db) :
    Proper F endpoint.program ⟨db, [], default, Nothing⟩ := by
  have clear : Clear (⟨db, [], default, Nothing⟩ : Window) := ⟨sound, rfl⟩
  cases endpoint with
  | request op =>
    cases op with
    | money job => exact job_proper admitted sound
    | login => exact quietly_guarantees (login_proper clear)
    | refresh => exact quietly_guarantees (refresh_proper clear)
    | logout => exact logout_proper clear
    | updateProfile => exact asUser_proper clear (fun _ _ _ _ => updateProfile_proper)
    | createMerchant =>
        exact asUser_proper clear (fun _ _ clear1 there => createMerchant_proper clear1 there)
    | rotateApiKey => exact asUser_proper clear (fun _ _ clear1 _ => rotateApiKey_proper clear1)
    | updateWebhookConfig =>
        exact asUser_proper clear (fun _ _ clear1 _ => updateWebhookConfig_proper clear1)
    | submitKyc => exact asUser_proper clear (fun _ _ clear1 there => submitKyc_proper clear1 there)
    | addBankAccount =>
        exact asUser_proper clear (fun _ _ clear1 there => addBankAccount_proper clear1 there)
    | removeBankAccount => exact asUser_proper clear (fun _ _ clear1 _ => removeBankAccount_proper clear1)
    | approveKyc => exact admitted.elim
    | rejectKyc => exact admitted.elim
  | approveKyc =>
    apply requireRole_then clear
    intro admin u clear1 there
    exact quietly_guarantees (approveKyc_proper clear1 there)
  | rejectKyc =>
    apply requireRole_then clear
    intro admin u clear1 there
    exact quietly_guarantees (rejectKyc_proper clear1 there)
  | runReconciliation =>
    apply requireRole_then clear
    intro admin u clear1 there
    unfold PayCoreEndpoints.runReconciliation
    apply enqueued_then clear1
    intro v2 clear2 kept2
    apply audited_wp clear2 (.reconciled admin.id (present_kept kept2 there)) (fun _ _ _ => trivial)

end Endpoints

end PayCoreProperAccounts
