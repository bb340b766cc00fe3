import PayCore.Proof.CommitRules

/- The requests of the account services commit what they flush, but for an update of a profile. -/
namespace PayCoreAccountCommits
open KeyedTable SessionProgram SerialRuns DurableSessions PayCoreTables PayCoreWrites PayCoreSessions
open PayCoreRepositories PayCoreSupport PayCoreAccounts PayCoreMerchants PayCoreKyc PayCoreWithdrawals
open PayCoreRegistration PayCoreOperations PayCoreCommitRules

variable {α β : Type} {s : Held} {K : Database → IdentityMap → Prop}

theorem reporting_settles {p : Tx α} {report : α → Report}
    (h : Settles K (fun a db => (report a).stands db) p s) :
    Settles K Report.stands (reporting report p) s := by
  apply settles_seq
  apply tidy_mono _ h
  intro r u fine
  cases r with
  | ok a =>
    obtain ⟨bare, stands⟩ := fine a rfl
    exact settles_ret bare stands
  | error x => trivial

theorem getCurrentUser_then {T : α → Database → Prop} {userId : Uuid} {k : User → Tx α}
    (onward : ∀ user, UserRepository.byId userId s.seen = some user → user.isActive = true →
      Settles K T (k user) s) :
    Settles K T (getCurrentUser userId >>= k) s := by
  unfold getCurrentUser
  apply nested_then
  apply query_then
  apply nested_then
  apply orRaise_then
  intro user found
  apply nested_then
  apply require_then
  intro active
  exact onward user found active

theorem userReporting_settles {service : User → Tx α} {report : α → Report} {currentUserId : Uuid}
    (h : ∀ user, Settles K (fun a db => (report a).stands db) (service user) s) :
    Settles K Report.stands (userReporting report currentUserId service) s :=
  getCurrentUser_then fun user _ _ => reporting_settles (h user)

/-- No report is about the audit log. -/
theorem stands_audited {report : Report} {entry : AuditLog} {db : Database} (h : report.stands db) :
    report.stands (applyWrite (.insertAuditLog entry) db) := by
  cases report <;> exact h

theorem audited_settles {entry : AuditLog} {a : α} (report : α → Report) (bare : s.pending = [])
    (stands : (report a).stands s.db) :
    Settles K (fun a db => (report a).stands db) (auditLog entry >>= fun _ => (pure a : Tx α)) s := by
  apply auditLog_then bare
  intro u clean after
  apply settles_ret clean
  rw [after]
  exact stands_audited stands

theorem stored_token {db : Database} {token : RefreshToken} (fits : db.refreshTokens.admits token = true)
    (fresh : token.isRevoked = false) :
    (Report.refreshToken token.tokenHash).stands (applyWrite (.insertRefreshToken token) db) := by
  refine ⟨token, ?_, fresh⟩
  simp only [applyWrite, find?_insert fits]
  exact if_pos rfl

theorem login_settles {cfg : Settings} {normalize : String → String} {verify : String → String → Bool}
    {email password : String} {draws : TokenDraws} :
    Settles K (fun _ db => (Report.refreshToken draws.refreshHash).stands db)
      (login cfg normalize verify email password draws) s := by
  apply query_then
  apply orRaise_then
  intro user _
  apply require_then
  intro _
  apply require_then
  intro _
  apply storeRefreshToken_then
  intro t token fits hash fresh stored
  apply commit_then
  intro u bare committed
  apply audited_settles (fun _ => Report.refreshToken draws.refreshHash) bare
  rw [committed, stored, ← hash]
  exact stored_token fits fresh

theorem refresh_settles {cfg : Settings} {tokenHash : String} {draws : TokenDraws} :
    Settles K (fun _ db => (Report.refreshToken draws.refreshHash).stands db)
      (refresh cfg tokenHash draws) s := by
  apply query_then
  apply orRaise_then
  intro old _
  apply require_then
  intro _
  apply query_then
  apply orRaise_then
  intro user _
  apply flushAccount_then
  intro _ _
  apply storeRefreshToken_then
  intro t token fits hash fresh stored
  apply commit_then
  intro u bare committed
  apply settles_ret bare
  rw [committed, stored, ← hash]
  exact stored_token fits fresh

theorem logout_settles {tokenHash : String} (bare : s.pending = []) :
    Settles K (fun _ db => Report.nothing.stands db) (logout tokenHash) s := by
  apply query_then
  cases (s.seen.refreshTokens.find? tokenHash).filter (fun t => !t.isRevoked) with
  | none => exact settles_ret bare trivial
  | some token =>
    apply flushAccount_then
    intro _ _
    apply commit_then
    intro u clean _
    exact settles_ret clean trivial

section Rows
variable {T : α → Database → Prop}

theorem changed_getD {γ : Type} [DecidableEq γ] (value : Option γ) (current : γ) :
    (value.bind fun v => changed (some v) (some current)).getD current = value.getD current := by
  cases value with
  | none => rfl
  | some v => by_cases same : v = current <;> simp [changed, same]

theorem changed_or {γ : Type} [DecidableEq γ] (value current : Option γ) :
    (value.bind fun v => changed (some v) current).or current = value.or current := by
  cases value with
  | none => rfl
  | some v =>
    by_cases same : some v = current
    · subst same
      simp [changed]
    · simp [changed, same]

theorem createMerchant_then {merchant : Merchant} {k : Merchant → Tx α}
    (onward : ∀ u : Held, (Report.merchant merchant).stands u.seen → Settles K T (k merchant) u) :
    Settles K T (MerchantRepository.create merchant >>= k) s := by
  apply nested_then
  apply insertAccount_then
  intro u fits created
  apply onward
  rw [created]
  simp only [Report.stands, applyAccount, find?_insert fits]
  exact if_pos rfl

theorem update_dirty (merchant : Merchant) (set : MerchantUpdate) :
    (merchantEdit
      { apiKeyHash := set.apiKeyHash.bind fun h => changed (some h) (some merchant.apiKeyHash)
        apiKeyPrefix := set.apiKeyPrefix.bind fun p => changed (some p) (some merchant.apiKeyPrefix)
        webhookUrl := set.webhookUrl.bind fun u => changed (some u) merchant.webhookUrl
        webhookSecret := set.webhookSecret.bind fun s => changed (some s) merchant.webhookSecret }).on
        merchant = (merchantEdit set).on merchant := by
  simp only [merchantEdit, changed_getD, changed_or]

theorem updateMerchant_then {merchant : Merchant} {set : MerchantUpdate} {k : Merchant → Tx α}
    (stored : s.seen.merchants.find? merchant.id = some merchant)
    (onward : ∀ u : Held, (Report.merchant ((merchantEdit set).on merchant)).stands u.seen →
      Settles K T (k ((merchantEdit set).on merchant)) u) :
    Settles K T (MerchantRepository.update merchant set >>= k) s := by
  apply nested_then
  apply flushAccount_then
  intro u flushed
  apply onward
  rw [flushed, ← update_dirty]
  split
  · rename_i clean
    rw [clean]
    exact stored
  · change (s.seen.merchants.update merchant.id _).find? merchant.id = _
    rw [find?_update, if_pos rfl, stored]
    rfl

theorem createSubmission_then {submission : KYCSubmission} {k : KYCSubmission → Tx α}
    (onward : ∀ u : Held, (Report.submission submission).stands u.seen → Settles K T (k submission) u) :
    Settles K T (KYCRepository.create submission >>= k) s := by
  apply nested_then
  apply insertAccount_then
  intro u fits created
  apply onward
  rw [created]
  simp only [Report.stands, applyAccount, find?_insert fits]
  exact if_pos rfl

theorem review_then {submission : KYCSubmission} {review : Review} {k : KYCSubmission → Tx α}
    (stored : s.seen.kycSubmissions.find? submission.id = some submission)
    (onward : ∀ u : Held, (Report.submission ((reviewEdit review).on submission)).stands u.seen →
      Settles K T (k ((reviewEdit review).on submission)) u) :
    Settles K T (KYCRepository.review submission review >>= k) s := by
  apply nested_then
  apply flushAccount_then
  intro u flushed
  apply onward
  rw [flushed]
  change (s.seen.kycSubmissions.update submission.id (reviewEdit review)).find? submission.id = _
  simp [find?_update, stored]

theorem createBankAccount_then {account : BankAccount} {k : BankAccount → Tx α}
    (onward : ∀ u : Held, (Report.bankAccount account).stands u.seen → Settles K T (k account) u) :
    Settles K T (BankAccountRepository.create account >>= k) s := by
  apply nested_then
  apply insertAccount_then
  intro u fits created
  apply onward
  rw [created]
  simp only [Report.stands, applyAccount, find?_insert fits]
  exact if_pos rfl

theorem getByUserId_then {userId : Uuid} {k : Option Wallet → Tx α}
    (onward : ∀ (u : Held) found, u.seen = s.seen → u.pending = s.pending → Settles K T (k found) u) :
    Settles K T (WalletRepository.getByUserId userId >>= k) s :=
  silent_then fun _ => onward _ _ rfl rfl

end Rows

theorem ensureWallet_then {T : α → Database → Prop} {walletId userId : Uuid} {k : Unit → Tx α}
    (onward : ∀ u : Held, u.seen.merchants = s.seen.merchants → Settles K T (k ()) u) :
    Settles K T (ensureWallet walletId userId >>= k) s := by
  apply nested_then
  apply getByUserId_then
  intro t found same _
  cases found with
  | some wallet => exact onward t (by rw [same])
  | none =>
    apply nested_then
    apply createWallet_then
    intro u wallet created
    exact onward u (by rw [created, same]; rfl)

theorem createMerchant_settles {user : User} {businessName : String} {draws : MerchantDraws} :
    Settles K (fun created db => (Report.merchant created.1).stands db)
      (createMerchant user businessName draws) s := by
  apply query_then
  apply require_then
  intro _
  apply createMerchant_then
  intro t created
  apply ensureWallet_then
  intro t' kept
  apply flushAccount_then
  intro t'' flushed
  apply commit_then
  intro u bare committed
  apply auditLog_then bare
  intro v clean after
  apply audited_settles (fun created : Merchant × String => Report.merchant created.1) clean
  rw [after]
  apply stands_audited
  have same : t''.seen.merchants = t.seen.merchants := by
    rw [flushed, ← kept]
    split <;> rfl
  rw [committed]
  simp only [Report.stands, same]
  exact created

theorem getMerchantProfile_then {T : α → Database → Prop} {userId : Uuid} {k : Merchant → Tx α}
    (onward : ∀ merchant, s.seen.merchants.find? merchant.id = some merchant → Settles K T (k merchant) s) :
    Settles K T (getMerchantProfile userId >>= k) s := by
  apply nested_then
  apply query_then
  apply orRaise_then
  intro merchant found
  exact onward merchant (find?_some_iff.mpr ⟨List.mem_of_find?_eq_some found, rfl⟩)

theorem rotateApiKey_settles {userId : Uuid} {rawKey apiKeyHash : String} :
    Settles K (fun rotated db => (Report.merchant rotated.1).stands db)
      (rotateApiKey userId rawKey apiKeyHash) s := by
  apply getMerchantProfile_then
  intro merchant stored
  apply updateMerchant_then stored
  intro t written
  apply commit_then
  intro u bare committed
  apply audited_settles (fun rotated : Merchant × String => Report.merchant rotated.1) bare
  rw [committed]
  exact written

theorem updateWebhookConfig_settles {userId : Uuid} {webhookUrl newSecret : Option String} :
    Settles K (fun merchant db => (Report.merchant merchant).stands db)
      (updateWebhookConfig userId webhookUrl newSecret) s := by
  apply getMerchantProfile_then
  intro merchant stored
  apply updateMerchant_then stored
  intro t written
  apply commit_then
  intro u bare committed
  apply settles_ret bare
  rw [committed]
  exact written

theorem uploadFile_then {T : α → Database → Prop} {fileBytes : List UInt8} {documentKey : String}
    {k : Unit → Tx α} (onward : ∀ u : Held, Settles K T (k ()) u) :
    Settles K T (uploadFile fileBytes documentKey >>= k) s :=
  ⟨fun _ => onward _, settles_raise⟩

theorem submitKyc_settles {user : User} {targetTier : Nat} {fileBytes : List UInt8} {submissionId : Uuid}
    {documentKey : String} :
    Settles K (fun submission db => (Report.submission submission).stands db)
      (submitKyc user targetTier fileBytes submissionId documentKey) s := by
  apply require_then
  intro _
  apply require_then
  intro _
  apply require_then
  intro _
  apply query_then
  cases KYCRepository.activeForTier user.id targetTier s.seen with
  | some active =>
    dsimp only
    split <;> exact settles_raise
  | none =>
    apply uploadFile_then
    intro t
    apply createSubmission_then
    intro t created
    apply commit_then
    intro u bare committed
    apply audited_settles Report.submission bare
    rw [committed]
    exact created

theorem getSubmission_then {T : α → Database → Prop} {submissionId : Uuid} {k : KYCSubmission → Tx α}
    (onward : ∀ submission, s.seen.kycSubmissions.find? submission.id = some submission →
      Settles K T (k submission) s) :
    Settles K T (getSubmission submissionId >>= k) s := by
  apply nested_then
  apply query_then
  apply orRaise_then
  intro submission found
  exact onward submission (find?_some_iff.mpr ⟨(find?_some_iff.mp found).1, rfl⟩)

theorem rejectKyc_settles {submissionId : Uuid} {reviewer : User} {reason : String} {utcNow : Timestamp} :
    Settles K (fun submission db => (Report.submission submission).stands db)
      (rejectKyc submissionId reviewer reason utcNow) s := by
  apply getSubmission_then
  intro submission stored
  apply require_then
  intro _
  apply require_then
  intro _
  apply review_then stored
  intro t reviewed
  apply commit_then
  intro u bare committed
  apply audited_settles Report.submission bare
  rw [committed]
  exact reviewed

theorem updateKycTier_then {T : α → Database → Prop} {userId : Uuid} {tier : Nat} {k : User → Tx α}
    (onward : ∀ (u : Held) user, u.seen.kycSubmissions = s.seen.kycSubmissions → Settles K T (k user) u) :
    Settles K T (updateKycTier userId tier >>= k) s := by
  apply nested_then
  apply query_then
  apply nested_then
  apply orRaise_then
  intro user _
  apply nested_then
  apply flushAccount_then
  intro u flushed
  apply onward
  rw [flushed]
  split <;> rfl

theorem approveKyc_settles {submissionId : Uuid} {reviewer : User} {utcNow : Timestamp} :
    Settles K (fun submission db => (Report.submission submission).stands db)
      (approveKyc submissionId reviewer utcNow) s := by
  apply getSubmission_then
  intro submission stored
  apply require_then
  intro _
  apply require_then
  intro _
  apply require_then
  intro _
  apply review_then stored
  intro t reviewed
  apply updateKycTier_then
  intro t user same
  apply commit_then
  intro u bare committed
  apply audited_settles Report.submission bare
  rw [committed]
  simp only [Report.stands, same]
  exact reviewed

theorem verifyAccount_then {T : α → Database → Prop} {cfg : Settings} {accountNumber bankCode : String}
    {k : Option String → Tx α} (onward : ∀ (u : Held) name, Settles K T (k name) u) :
    Settles K T (verifyAccount cfg accountNumber bankCode >>= k) s := by
  unfold verifyAccount
  split
  · exact onward s none
  · apply settles_seq
    exact ⟨fun data => onward _ _, onward _ none⟩

theorem addBankAccount_settles {cfg : Settings} {user : User}
    {accountName accountNumber bankCode bankName : String} {accountId : Uuid} :
    Settles K (fun account db => (Report.bankAccount account).stands db)
      (addBankAccount cfg user accountName accountNumber bankCode bankName accountId) s := by
  apply verifyAccount_then
  intro t name
  apply query_then
  apply createBankAccount_then
  intro t created
  apply commit_then
  intro u bare committed
  apply settles_ret bare
  rw [committed]
  exact created

theorem getActiveWithdrawal_then {T : α → Database → Prop} {userId : Uuid} {k : Option Transaction → Tx α}
    (onward : ∀ (u : Held) found, u.seen = s.seen → u.pending = s.pending → Settles K T (k found) u) :
    Settles K T (getActiveWithdrawal userId >>= k) s := by
  apply silent_then
  intro _
  dsimp only
  split
  · exact onward _ _ rfl rfl
  · exact settles_raise

theorem softDelete_then {T : α → Database → Prop} {account : BankAccount} {now : Timestamp}
    {k : Unit → Tx α} (onward : ∀ u : Held, Settles K T (k ()) u) :
    Settles K T (BankAccountRepository.softDelete account now >>= k) s := by
  unfold BankAccountRepository.softDelete
  split
  · apply nested_then
    apply flushAccount_then
    intro t _
    apply nested_then
    apply query_then
    cases BankAccountRepository.liveOf account.userId t.seen with
    | nil => exact onward t
    | cons oldest younger =>
      apply flushAccount_then
      exact fun u _ => onward u
  · apply flushAccount_then
    exact fun u _ => onward u

theorem removeBankAccount_settles {user : User} {bankAccountId : Uuid} {now : Timestamp} :
    Settles K (fun _ db => Report.nothing.stands db) (removeBankAccount user bankAccountId now) s := by
  apply query_then
  apply orRaise_then
  intro account _
  apply getActiveWithdrawal_then
  intro t active _ _
  apply require_then
  intro _
  apply softDelete_then
  intro t
  apply commit_then
  intro u bare _
  exact settles_ret bare trivial

theorem register_settles {cfg : Settings} {normalize : String → String} {email hashed name : String}
    {phone : Option String} {draws : RegistrationDraws} :
    Settles K (fun user db => (Report.user user).stands db)
      (register cfg normalize email hashed name phone draws) s := by
  apply query_then
  apply require_then
  intro _
  apply createUser_then
  intro t user fits created
  apply nested_then
  apply getByUserId_then
  intro t' found same _
  apply nested_then
  apply require_then
  intro _
  apply createWallet_then
  intro t'' wallet owned
  apply storeRefreshToken_then
  intro v token _ _ _ stored
  apply commit_then
  intro u bare committed
  apply audited_settles Report.user bare
  rw [committed, stored, owned, same, created]
  simp only [Report.stands, applyWrite, find?_insert fits]
  exact if_pos rfl

end PayCoreAccountCommits
