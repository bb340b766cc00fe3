import PayCore.Proof.Regularity
import PayCore.Service.Endpoints

/- What the endpoints write of users: who is an admin stays so, and nobody becomes one. -/
namespace PayCoreRoleRules
open KeyedTable SessionProgram RelyGuarantee PayCoreTables PayCoreWrites PayCoreSessions PayCoreRepositories
open PayCoreSupport PayCoreAccounts PayCoreMerchants PayCoreKyc PayCoreWithdrawals PayCoreRegistration
open PayCoreJobs PayCoreOperations PayCoreEndpoints PayCoreRegularity PayCorePersistence

def isAdmin (id : Uuid) (db : Database) : Prop := ∃ u ∈ db.users.rows, u.id = id ∧ u.role = .admin

/-- A write leaves the admins of `db` what they are. -/
def Fair (db : Database) : Write → Prop
  | .insertUser u => u.role ≠ .admin
  | .account (.updateUser id set) => ∀ role, set.role = some role → role ≠ .admin ∧ ¬ isAdmin id db
  | _ => True

def RoleCommit (ws : List Write) (db : Database) : Prop := ∀ w ∈ ws, Fair db w

section Writes
variable {db : Database} {id : Uuid}

def adminRow (id : Uuid) (u : User) : Bool := u.id == id && u.role == .admin

theorem isAdmin_iff : isAdmin id db ↔ db.users.rows.any (adminRow id) = true := by
  simp [isAdmin, adminRow]

theorem admin_same {s : Database}
    (same : s.users.rows.any (adminRow id) = db.users.rows.any (adminRow id)) :
    isAdmin id s ↔ isAdmin id db := by
  rw [isAdmin_iff, isAdmin_iff, same]

theorem admin_inserted {u : User} (plain : u.role ≠ .admin) :
    isAdmin id (applyWrite (.insertUser u) db) ↔ isAdmin id db := by
  apply admin_same
  change (db.users.insert u).rows.any (adminRow id) = _
  cases free : db.users.admits u with
  | false => rw [insert_refused free]
  | true =>
    have other : adminRow id u = false := by simp [adminRow, plain]
    simp [insert_rows free, other]

theorem admin_updated {k : Uuid} {set : UserUpdate}
    (fair : ∀ role, set.role = some role → role ≠ .admin ∧ ¬ isAdmin k db) :
    isAdmin id (applyWrite (.account (.updateUser k set)) db) ↔ isAdmin id db := by
  have plain : set.role = none → ∀ u, ((userEdit set).on u).role = u.role := by
    intro unset u
    simp [userEdit, unset]
  constructor
  · rintro ⟨u, mem, own, admin⟩
    obtain ⟨a, old, rfl⟩ := mem_update (t := db.users) mem
    by_cases here : a.id = k
    · have moved : editAt k (userEdit set) a = (userEdit set).on a := if_pos here
      rw [moved] at own admin
      cases role : set.role with
      | none => exact ⟨a, old, own, by rw [← plain role a]; exact admin⟩
      | some r =>
        have given : r = .admin := by simpa [userEdit, role] using admin
        exact absurd given (fair r role).1
    · have stayed : editAt k (userEdit set) a = a := if_neg here
      rw [stayed] at own admin
      exact ⟨a, old, own, admin⟩
  · rintro ⟨a, old, own, admin⟩
    refine ⟨editAt k (userEdit set) a, kept_update (t := db.users) old, ?_⟩
    by_cases here : a.id = k
    · have moved : editAt k (userEdit set) a = (userEdit set).on a := if_pos here
      rw [moved]
      cases role : set.role with
      | none => exact ⟨own, by rw [plain role a]; exact admin⟩
      | some r => exact absurd ⟨a, old, here, admin⟩ (fair r role).2
    · have stayed : editAt k (userEdit set) a = a := if_neg here
      rw [stayed]
      exact ⟨own, admin⟩

theorem admin_rephoned {k : Uuid} {held : Option String} {phone : String} :
    isAdmin id (applyWrite (.account (.changePhone k held phone)) db) ↔ isAdmin id db := by
  apply admin_same
  apply any_revise
  intro u _
  unfold rephone
  split <;> rfl

theorem admin_write {w : Write} (fair : Fair db w) : isAdmin id (applyWrite w db) ↔ isAdmin id db := by
  cases w with
  | insertUser u => exact admin_inserted fair
  | account w =>
    cases w with
    | updateUser k set => exact admin_updated fair
    | changePhone k held phone => exact admin_rephoned
    | _ => exact Iff.rfl
  | _ => exact Iff.rfl

theorem fair_same {s : Database} (same : ∀ id, isAdmin id s ↔ isAdmin id db) {w : Write}
    (fair : Fair db w) :
    Fair s w := by
  cases w with
  | account w =>
    cases w with
    | updateUser k set =>
      intro role given
      exact ⟨(fair role given).1, fun admin => (fair role given).2 ((same k).mp admin)⟩
    | _ => trivial
  | insertUser u => exact fair
  | _ => trivial

theorem admin_commit {ws : List Write} (commit : RoleCommit ws db) :
    isAdmin id (applyAll ws db) ↔ isAdmin id db := by
  induction ws generalizing db with
  | nil => exact Iff.rfl
  | cons w ws ih =>
    have first := commit w (by simp)
    have rest : RoleCommit ws (applyWrite w db) := fun v mem =>
      fair_same (fun _ => admin_write first) (commit v (List.mem_cons_of_mem w mem))
    exact (ih rest).trans (admin_write first)

end Writes

def keepsRoles : Write → Prop
  | .insertUser u => u.role ≠ .admin
  | .account (.updateUser _ set) => set.role = none
  | _ => True

theorem keepsRoles_fair {w : Write} {db : Database} (h : keepsRoles w) : Fair db w := by
  cases w with
  | account w =>
    cases w with
    | updateUser id set =>
      intro role given
      rw [show set.role = none from h] at given
      cases given
    | _ => trivial
  | insertUser u => exact h
  | _ => trivial

section Endpoints
variable {α : Type} {P : Write → Prop}

theorem emits_quietly {p : Tx α} (emits : Emits P p) : Emits P (quietly p) :=
  emits_seq emits (fun _ => trivial)

theorem emits_flushAccount {writes : List AccountWrite} (allowed : ∀ w ∈ writes, P (.account w)) :
    Emits P (flushAccount writes) := by
  apply emits_writing
  · intro s m w mem
    obtain ⟨v, among, rfl⟩ := List.mem_map.mp mem
    exact allowed v among
  · intro s m
    trivial

theorem emits_insertAccount {write : AccountWrite} {admitted : Database → Bool}
    {refused : Database → Constraint}
    (allowed : P (.account write)) : Emits P (insertAccount write admitted refused) := by
  apply emits_writing
  · intro s m w mem
    split at mem
    · rw [List.mem_singleton.mp mem]
      exact allowed
    · cases mem
  · intro s m
    split <;> trivial

theorem emits_getCurrentUser (userId : Uuid) : Emits P (getCurrentUser userId) := by
  unfold getCurrentUser
  apply emits_seq (emits_query _)
  intro _
  apply emits_seq (emits_orRaise _ _)
  intro _
  exact emits_seq (emits_require _ _) (fun _ => trivial)

theorem emits_asUser {currentUserId : Uuid} {service : User → Tx α}
    (emits : ∀ user, Emits P (service user)) :
    Emits P (asUser currentUserId service) :=
  emits_seq (emits_getCurrentUser _) (fun user => emits_quietly (emits user))

theorem emits_storeRefreshToken (tokens : ∀ t, P (.insertRefreshToken t)) (cfg : Settings) (userId : Uuid)
    (refreshHash : String) (utcNow : Timestamp) :
    Emits P (storeRefreshToken cfg userId refreshHash utcNow) := by
  apply emits_writing
  · intro s m w mem
    split at mem
    · rw [List.mem_singleton.mp mem]
      exact tokens _
    · cases mem
  · intro s m
    split <;> trivial

theorem keeps_audited (entry : AuditLog) (a : α) :
    Emits keepsRoles (auditLog entry >>= fun _ => (.ret a : Tx α)) :=
  emits_audited (fun _ => trivial) entry a

theorem emits_login (tokens : ∀ t, P (.insertRefreshToken t)) (audits : ∀ l, P (.insertAuditLog l))
    (cfg : Settings)
    (normalize : String → String) (verifyPassword : String → String → Bool) (email password : String)
    (draws : TokenDraws) : Emits P (login cfg normalize verifyPassword email password draws) := by
  unfold login
  apply emits_seq (emits_query _)
  intro _
  apply emits_seq (emits_orRaise _ _)
  intro _
  apply emits_seq (emits_require _ _)
  intro _
  apply emits_seq (emits_require _ _)
  intro _
  apply emits_seq (emits_storeRefreshToken tokens _ _ _ _)
  intro _
  exact emits_seq emits_commit (fun _ => emits_audited audits _ _)

theorem emits_revoke (revokes : ∀ hash, P (.account (.revokeRefreshToken hash))) (token : RefreshToken) :
    Emits P (RefreshTokenRepository.revoke token) := by
  apply emits_flushAccount
  intro w mem
  split at mem
  · cases mem
  · rw [List.mem_singleton.mp mem]
    exact revokes _

theorem keeps_refresh (cfg : Settings) (tokenHash : String) (draws : TokenDraws) :
    Emits keepsRoles (refresh cfg tokenHash draws) := by
  unfold refresh
  apply emits_seq (emits_query _)
  intro _
  apply emits_seq (emits_orRaise _ _)
  intro _
  apply emits_seq (emits_require _ _)
  intro _
  apply emits_seq (emits_query _)
  intro _
  apply emits_seq (emits_orRaise _ _)
  intro _
  apply emits_seq (emits_revoke (fun _ => trivial) _)
  intro _
  apply emits_seq (emits_storeRefreshToken (fun _ => trivial) _ _ _ _)
  intro _
  exact emits_seq emits_commit (fun _ => trivial)

theorem emits_logout (revokes : ∀ hash, P (.account (.revokeRefreshToken hash))) (tokenHash : String) :
    Emits P (logout tokenHash) := by
  unfold logout
  apply emits_seq (emits_query _)
  intro found
  split
  · trivial
  · exact emits_seq (emits_revoke revokes _) (fun _ => emits_commit)

theorem keeps_updateProfileRow (user : User) (fullName phone : Option String) :
    Emits keepsRoles (UserRepository.updateProfile user fullName phone) := by
  apply emits_seq (emits_require _ _)
  intro _
  apply emits_writing
  · intro s m w mem
    dsimp only at mem
    split at mem
    · obtain ⟨v, among, rfl⟩ := List.mem_map.mp mem
      rcases List.mem_append.mp among with name | number
      · rw [Option.mem_toList, Option.map_eq_some_iff] at name
        obtain ⟨_, _, rfl⟩ := name
        exact rfl
      · rw [Option.mem_toList, Option.map_eq_some_iff] at number
        obtain ⟨_, _, rfl⟩ := number
        trivial
    · cases mem
  · intro s m
    dsimp only
    split <;> trivial

theorem keeps_updateProfile (userId : Uuid) (fullName phone : Option String) :
    Emits keepsRoles (PayCoreAccounts.updateProfile userId fullName phone) := by
  unfold PayCoreAccounts.updateProfile
  apply emits_seq (emits_query _)
  intro _
  apply emits_seq (emits_orRaise _ _)
  intro user
  cases phone with
  | none => exact keeps_updateProfileRow _ _ _
  | some number =>
    dsimp only
    split
    · exact keeps_updateProfileRow _ _ _
    · apply emits_seq (emits_query _)
      intro _
      apply emits_seq (emits_require _ _)
      intro _
      exact keeps_updateProfileRow _ _ _

theorem keeps_updateMerchant (merchant : Merchant) (set : MerchantUpdate) :
    Emits keepsRoles (MerchantRepository.update merchant set) := by
  unfold MerchantRepository.update
  dsimp only
  apply emits_seq
  · apply emits_flushAccount
    intro w mem
    split at mem
    · cases mem
    · rw [List.mem_singleton.mp mem]
      trivial
  · intro _
    trivial

theorem emits_getMerchantProfile (userId : Uuid) : Emits P (getMerchantProfile userId) :=
  emits_seq (emits_query _) (fun _ => emits_orRaise _ _)

theorem keeps_rotateApiKey (userId : Uuid) (rawKey apiKeyHash : String) :
    Emits keepsRoles (rotateApiKey userId rawKey apiKeyHash) := by
  unfold rotateApiKey
  apply emits_seq (emits_getMerchantProfile _)
  intro _
  apply emits_seq (keeps_updateMerchant _ _)
  intro _
  exact emits_seq emits_commit (fun _ => keeps_audited _ _)

theorem keeps_updateWebhookConfig (userId : Uuid) (webhookUrl newSecret : Option String) :
    Emits keepsRoles (updateWebhookConfig userId webhookUrl newSecret) := by
  unfold updateWebhookConfig
  apply emits_seq (emits_getMerchantProfile _)
  intro _
  apply emits_seq (keeps_updateMerchant _ _)
  intro _
  exact emits_seq emits_commit (fun _ => trivial)

theorem emits_submitKyc {user : User} {targetTier : Nat} {fileBytes : List UInt8} {submissionId : Uuid}
    {documentKey : String} (logs : ∀ l, P (.insertAuditLog l))
    (row : ∀ s : KYCSubmission, s.documentKey = documentKey → P (.account (.insertSubmission s))) :
    Emits P (submitKyc user targetTier fileBytes submissionId documentKey) := by
  unfold submitKyc
  apply emits_seq (emits_require _ _)
  intro _
  apply emits_seq (emits_require _ _)
  intro _
  apply emits_seq (emits_require _ _)
  intro _
  apply emits_seq (emits_query _)
  intro existing
  cases existing with
  | some active =>
    dsimp only
    split <;> trivial
  | none =>
    have uploaded : Emits P (uploadFile fileBytes documentKey) := ⟨fun _ => trivial, trivial⟩
    apply emits_seq uploaded
    intro _
    apply emits_seq
    · exact emits_seq (emits_insertAccount (row _ rfl)) (fun _ => trivial)
    intro _
    exact emits_seq emits_commit (fun _ => emits_audited logs _ _)

theorem keeps_submitKyc (user : User) (targetTier : Nat) (fileBytes : List UInt8) (submissionId : Uuid)
    (documentKey : String) :
    Emits keepsRoles (submitKyc user targetTier fileBytes submissionId documentKey) :=
  emits_submitKyc (fun _ => trivial) (fun _ _ => trivial)

theorem keeps_review (submission : KYCSubmission) (review : Review) :
    Emits keepsRoles (KYCRepository.review submission review) := by
  apply emits_seq
  · apply emits_flushAccount
    intro w mem
    rw [List.mem_singleton.mp mem]
    trivial
  · intro _
    trivial

theorem keeps_updateKycTier (userId : Uuid) (tier : Nat) :
    Emits keepsRoles (updateKycTier userId tier) := by
  unfold updateKycTier
  apply emits_seq (emits_query _)
  intro _
  apply emits_seq (emits_orRaise _ _)
  intro user
  apply emits_seq
  · apply emits_flushAccount
    intro w mem
    split at mem
    · cases mem
    · rw [List.mem_singleton.mp mem]
      exact rfl
  · intro _
    trivial

theorem emits_getSubmission (submissionId : Uuid) : Emits P (getSubmission submissionId) :=
  emits_seq (emits_query _) (fun _ => emits_orRaise _ _)

theorem keeps_approveKyc (submissionId : Uuid) (reviewer : User) (utcNow : Timestamp) :
    Emits keepsRoles (approveKyc submissionId reviewer utcNow) := by
  unfold approveKyc
  apply emits_seq (emits_getSubmission _)
  intro _
  apply emits_seq (emits_require _ _)
  intro _
  apply emits_seq (emits_require _ _)
  intro _
  apply emits_seq (emits_require _ _)
  intro _
  apply emits_seq (keeps_review _ _)
  intro _
  apply emits_seq (keeps_updateKycTier _ _)
  intro _
  exact emits_seq emits_commit (fun _ => keeps_audited _ _)

theorem keeps_rejectKyc (submissionId : Uuid) (reviewer : User) (reason : String) (utcNow : Timestamp) :
    Emits keepsRoles (rejectKyc submissionId reviewer reason utcNow) := by
  unfold rejectKyc
  apply emits_seq (emits_getSubmission _)
  intro _
  apply emits_seq (emits_require _ _)
  intro _
  apply emits_seq (emits_require _ _)
  intro _
  apply emits_seq (keeps_review _ _)
  intro _
  exact emits_seq emits_commit (fun _ => keeps_audited _ _)

theorem emits_verifyAccount (cfg : Settings) (accountNumber bankCode : String) :
    Emits P (verifyAccount cfg accountNumber bankCode) := by
  unfold verifyAccount
  split
  · trivial
  · apply emits_handle
    · exact emits_seq (emits_paystack _) (fun _ => trivial)
    · intro _
      trivial

theorem keeps_addBankAccount (cfg : Settings) (user : User)
    (accountName accountNumber bankCode bankName : String) (accountId : Uuid) :
    Emits keepsRoles (addBankAccount cfg user accountName accountNumber bankCode bankName accountId) := by
  unfold addBankAccount
  apply emits_seq (emits_verifyAccount _ _ _)
  intro _
  apply emits_seq (emits_query _)
  intro _
  apply emits_seq
  · have row : ∀ a : BankAccount, keepsRoles (.account (.insertBankAccount a)) := fun _ => trivial
    exact emits_seq (emits_insertAccount (row _)) (fun _ => trivial)
  intro _
  exact emits_seq emits_commit (fun _ => trivial)

theorem keeps_alterAccounts {writes : List AccountWrite}
    (accounts : ∀ w ∈ writes, ∃ id set, w = .updateBankAccount id set) :
    Emits keepsRoles (flushAccount writes) := by
  apply emits_flushAccount
  intro w mem
  obtain ⟨id, set, rfl⟩ := accounts w mem
  trivial

theorem keeps_softDelete (account : BankAccount) (now : Timestamp) :
    Emits keepsRoles (BankAccountRepository.softDelete account now) := by
  unfold BankAccountRepository.softDelete
  split
  · apply emits_seq (keeps_alterAccounts (by simp))
    intro _
    apply emits_seq (emits_query _)
    intro remaining
    split
    · trivial
    · apply keeps_alterAccounts
      intro w mem
      split at mem
      · cases mem
      · exact ⟨_, _, List.mem_singleton.mp mem⟩
  · exact keeps_alterAccounts (by simp)

theorem keeps_removeBankAccount (user : User) (bankAccountId : Uuid) (now : Timestamp) :
    Emits keepsRoles (removeBankAccount user bankAccountId now) := by
  unfold removeBankAccount
  apply emits_seq (emits_query _)
  intro _
  apply emits_seq (emits_orRaise _ _)
  intro _
  apply emits_seq (emits_selectTransaction _)
  intro _
  apply emits_seq (emits_require _ _)
  intro _
  apply emits_seq (keeps_softDelete _ _)
  intro _
  exact emits_commit

theorem keeps_job (job : Job) : Emits keepsRoles job.program := by
  have moved : ∀ {type user amount} w, moves type user amount w → keepsRoles w := by
    intro type user amount w h
    cases w <;> first | exact h.elim | trivial
  have opened : ∀ {type user amount} w, opens type user amount w → keepsRoles w := by
    intro type user amount w h
    cases w <;> first | exact h.elim | trivial
  have settled : ∀ w, settles w → keepsRoles w := by
    intro w h
    cases w <;> first | exact h.elim | trivial
  cases job with
  | register =>
    apply emits_quietly
    apply emits_register _ (fun _ _ _ => trivial) (fun _ => trivial) (fun _ => trivial)
    intro u _ role
    simp [keepsRoles, role]
  | initiateFunding => exact emits_mono opened (emits_job (.initiateFunding ..))
  | initiateTransfer => exact emits_mono moved (emits_job (.initiateTransfer ..))
  | initiatePayment => exact emits_mono moved (emits_job (.initiatePayment ..))
  | initiateWithdrawal => exact emits_mono opened (emits_job (.initiateWithdrawal ..))
  | processChargeSuccess => exact emits_mono settled (emits_job (.processChargeSuccess _))
  | reconcileFunding => exact emits_mono settled (emits_job (.reconcileFunding _ _))
  | executePayout => exact emits_mono settled (emits_job (.executePayout _))
  | processPayoutSuccess => exact emits_mono settled (emits_job (.processPayoutSuccess _))
  | processPayoutFailure => exact emits_mono settled (emits_job (.processPayoutFailure _ _))

/-- The requests of create_merchant are the only ones that write a role. -/
def createsMerchant : Endpoint → Option Uuid
  | .request (.createMerchant currentUserId _ _) => some currentUserId
  | _ => none

theorem keeps_operation {op : Operation} (other : createsMerchant (.request op) = none) :
    Emits keepsRoles op.program := by
  cases op with
  | money job => exact keeps_job job
  | login => exact emits_quietly (emits_login (fun _ => trivial) (fun _ => trivial) _ _ _ _ _ _)
  | refresh => exact emits_quietly (keeps_refresh _ _ _)
  | logout => exact emits_logout (fun _ => trivial) _
  | updateProfile => exact emits_asUser (fun _ => keeps_updateProfile _ _ _)
  | createMerchant => cases other
  | rotateApiKey => exact emits_asUser (fun _ => keeps_rotateApiKey _ _ _)
  | updateWebhookConfig => exact emits_asUser (fun _ => keeps_updateWebhookConfig _ _ _)
  | submitKyc => exact emits_asUser (fun _ => keeps_submitKyc _ _ _ _ _)
  | approveKyc => exact emits_quietly (keeps_approveKyc _ _ _)
  | rejectKyc => exact emits_quietly (keeps_rejectKyc _ _ _ _)
  | addBankAccount => exact emits_asUser (fun _ => keeps_addBankAccount _ _ _ _ _ _ _)
  | removeBankAccount => exact emits_asUser (fun _ => keeps_removeBankAccount _ _ _)

theorem emits_requireRole (roles : List UserRole) (currentUserId : Uuid) :
    Emits P (requireRole roles currentUserId) := by
  apply emits_seq (emits_getCurrentUser _)
  intro _
  exact emits_seq (emits_require _ _) (fun _ => trivial)

theorem keeps_endpoint {endpoint : Endpoint} (other : createsMerchant endpoint = none) :
    Emits keepsRoles endpoint.program := by
  cases endpoint with
  | request op => exact keeps_operation other
  | approveKyc => exact emits_seq (emits_requireRole _ _) (fun _ => emits_quietly (keeps_approveKyc _ _ _))
  | rejectKyc => exact emits_seq (emits_requireRole _ _) (fun _ => emits_quietly (keeps_rejectKyc _ _ _ _))
  | runReconciliation =>
    apply emits_seq (emits_requireRole _ _)
    intro _
    exact emits_seq (emits_enqueue _) (fun _ => emits_auditLog (fun _ => trivial) _)

end Endpoints

section Merchants
variable {db : Database} {userId : Uuid} {α : Type}

def Unavailable (userId : Uuid) (db : Database) : Prop :=
  ∃ u ∈ db.users.rows, u.id = userId ∧ (u.deletedAt ≠ none ∨ u.isActive = false)

/-- A soft-deleted profile counts: `merchants.user_id` is UNIQUE over all rows. -/
def HasProfile (userId : Uuid) (db : Database) : Prop := ∃ m ∈ db.merchants.rows, m.userId = userId

/-- create_merchant refuses this user: the account is gone or inactive, or it has a merchant
    profile already. -/
def Refused (userId : Uuid) (db : Database) : Prop := Unavailable userId db ∨ HasProfile userId db

theorem unavailable_users {f : User → User} {users : List User}
    (keeps : ∀ u, (f u).id = u.id ∧ (f u).deletedAt = u.deletedAt ∧ (f u).isActive = u.isActive)
    (h : ∃ u ∈ users, u.id = userId ∧ (u.deletedAt ≠ none ∨ u.isActive = false)) :
    ∃ u ∈ users.map f, u.id = userId ∧ (u.deletedAt ≠ none ∨ u.isActive = false) := by
  obtain ⟨u, mem, own, gone⟩ := h
  obtain ⟨id, deleted, active⟩ := keeps u
  exact ⟨f u, List.mem_map_of_mem mem, id.trans own, by rw [deleted, active]; exact gone⟩

theorem unavailable_write {w : Write} (h : Unavailable userId db) :
    Unavailable userId (applyWrite w db) := by
  cases w with
  | insertUser a =>
    obtain ⟨u, mem, facts⟩ := h
    exact ⟨u, mem_insert mem, facts⟩
  | account w =>
    cases w with
    | updateUser k set =>
      apply unavailable_users _ h
      intro u
      unfold editAt
      split <;> exact ⟨rfl, rfl, rfl⟩
    | changePhone k held phone =>
      change ∃ u ∈ (db.users.revise (rephone k held phone)).rows, _
      cases fits : db.users.allows (rephone k held phone) with
      | false =>
        rw [revise_refused fits]
        exact h
      | true =>
        rw [revise_rows fits]
        apply unavailable_users _ h
        intro u
        unfold rephone
        split <;> exact ⟨rfl, rfl, rfl⟩
    | _ => exact h
  | _ => exact h

theorem profile_write {w : Write} (h : HasProfile userId db) : HasProfile userId (applyWrite w db) := by
  obtain ⟨m, mem, own⟩ := h
  cases w with
  | account w =>
    cases w with
    | insertMerchant a => exact ⟨m, mem_insert mem, own⟩
    | updateMerchant k set =>
      refine ⟨editAt k (merchantEdit set) m, kept_update (t := db.merchants) mem, ?_⟩
      unfold editAt
      split <;> exact own
    | _ => exact ⟨m, mem, own⟩
  | _ => exact ⟨m, mem, own⟩

theorem profile_taken {m : Merchant} (h : HasProfile m.userId db) : db.merchants.admits m = false := by
  obtain ⟨other, mem, own⟩ := h
  rw [← Bool.not_eq_true, admits_iff]
  intro free
  have apart := free other mem
  simp [Keyed.clash, own] at apart

theorem profile_commit (ws : List Write) (h : HasProfile userId db) :
    HasProfile userId (applyAll ws db) := by
  induction ws generalizing db with
  | nil => exact h
  | cons w ws ih => exact ih (profile_write h)

theorem refused_commit (ws : List Write) (h : Refused userId db) : Refused userId (applyAll ws db) := by
  induction ws generalizing db with
  | nil => exact h
  | cons w ws ih => exact ih (h.imp unavailable_write profile_write)

variable {F : Database → IdentityMap → List Row → List Write → Prop}
  {v : View Database IdentityMap Write Row}

abbrev Verified (F : Database → IdentityMap → List Row → List Write → Prop) (p : Tx α)
    (v : View Database IdentityMap Write Row) : Prop :=
  wp (Rely RoleCommit) RoleCommit F p (fun _ _ => True) v

theorem currentUser_then {I : Database → Prop} {k : User → Tx α} (bare : v.pending = [])
    (keeps : ∀ ws s, RoleCommit ws s → I s → I (applyAll ws s)) (holds : I v.db)
    (onward : ∀ user u, u.pending = [] → I u.db → UserRepository.byId userId u.db = some user →
      user.isActive = true → Verified F (k user) u) : Verified F (getCurrentUser userId >>= k) v := by
  unfold getCurrentUser
  rw [seq_seq]
  apply seq_wp
  intro db rely
  refine ⟨trivial, fun _ => ?_⟩
  have here : I db := rely_keeps rely keeps holds
  simp only [bare, applyAll_nil]
  change Verified F
    ((orRaise (UserRepository.byId userId db) (.unauthorized "User not found.") >>= fun user =>
    require user.isActive (.forbidden "Account is deactivated.") >>= fun _ => pure user) >>= k) _
  cases found : UserRepository.byId userId db with
  | none => trivial
  | some user =>
    change Verified F
      ((require user.isActive (.forbidden "Account is deactivated.") >>= fun _ => pure user) >>= k) _
    cases active : user.isActive with
    | false => trivial
    | true => exact onward user _ rfl here found active

theorem read_user {user : User} (found : UserRepository.byId userId db = some user) :
    db.users.find? userId = some user ∧ user.deletedAt = none := by
  unfold UserRepository.byId at found
  rw [Option.filter_eq_some_iff] at found
  exact ⟨found.1, by simpa using found.2⟩

section
variable {α : Type} {P : Write → Prop}

/-- What stands in `createMerchant` behind the INSERT of the merchant. -/
theorem emits_merchantCreated (wallets : ∀ w, w.balance = 0 → P (.insertWallet w)) {user : User}
    (role : P (.account (.updateUser user.id { role := some .merchant })))
    (logs : ∀ l, P (.insertAuditLog l)) (walletId : Uuid) (merchant : Merchant) (rawKey : String) :
    Emits P (do
      ensureWallet walletId user.id
      flushAccount (if user.role = .merchant then [] else [.updateUser user.id { role := some .merchant }])
      commit
      auditLog { actorId := some user.id, actorType := .user, action := "merchant.created",
                 targetType := some "merchant", targetId := some merchant.id }
      auditLog { actorId := some user.id, actorType := .user, action := "api_key.generated",
                 targetType := some "merchant", targetId := some merchant.id }
      pure (merchant, rawKey)) := by
  apply emits_seq
  · unfold ensureWallet
    apply emits_seq (emits_selectWallet _ _)
    intro wallet
    cases wallet with
    | some wallet => trivial
    | none =>
        exact emits_seq (emits_createWalletRow (fun w empty _ => wallets w empty) _ _ _) (fun _ => trivial)
  intro _
  apply emits_seq
  · apply emits_flushAccount
    intro w mem
    split at mem
    · cases mem
    · rw [List.mem_singleton.mp mem]
      exact role
  intro _
  apply emits_seq emits_commit
  intro _
  apply emits_seq (emits_auditLog logs _)
  intro _
  exact emits_audited logs _ _

theorem emits_createMerchant {user : User} {businessName : String} {draws : MerchantDraws}
    (row : P (.account (.insertMerchant
      { id := draws.merchantId, userId := user.id, businessName, apiKeyHash := draws.apiKeyHash,
        apiKeyPrefix := apiKeyPrefix draws.rawKey, webhookSecret := some draws.webhookSecret })))
    (wallets : ∀ w, w.balance = 0 → P (.insertWallet w))
    (role : P (.account (.updateUser user.id { role := some .merchant })))
      (logs : ∀ l, P (.insertAuditLog l)) :
    Emits P (createMerchant user businessName draws) := by
  unfold createMerchant
  apply emits_seq (emits_query _)
  intro _
  apply emits_seq (emits_require _ _)
  intro _
  apply emits_seq
  · exact emits_seq (emits_insertAccount row) (fun _ => trivial)
  intro merchant
  exact emits_merchantCreated wallets role logs _ merchant _

end

theorem createMerchant_plain {user : User} {businessName : String} {draws : MerchantDraws}
    (bare : v.pending = []) (plain : ¬ isAdmin user.id v.db) :
    Verified F (quietly (createMerchant user businessName draws)) v := by
  have emits : Emits (fun w => keepsRoles w ∨ w = .account (.updateUser user.id { role := some .merchant }))
      (quietly (createMerchant user businessName draws)) := by
    apply emits_quietly
    apply emits_createMerchant
    · exact .inl trivial
    · exact fun _ _ => .inl trivial
    · exact .inr rfl
    · exact fun _ => .inl trivial
  apply emits_wp_under (I := fun s => ¬ isAdmin user.id s) _ _ emits (by simp [bare]) plain
  · intro ws s commit outside admin
    exact outside ((admin_commit commit).mp admin)
  · intro ws s outside all w mem
    rcases all w mem with keeps | rfl
    · exact keepsRoles_fair keeps
    · intro role given
      cases given
      exact ⟨by decide, outside⟩

theorem createMerchant_refused {user : User} {businessName : String} {draws : MerchantDraws}
    (bare : v.pending = []) (profile : HasProfile user.id v.db) :
    Verified F (quietly (createMerchant user businessName draws)) v := by
  unfold quietly createMerchant
  rw [seq_seq]
  apply seq_wp
  intro db rely
  refine ⟨trivial, fun _ => ?_⟩
  have here : HasProfile user.id db := rely_keeps rely (fun ws _ _ => profile_commit ws) profile
  cases found : (MerchantRepository.byUserId user.id db).isNone with
  | false =>
    simp only [bare, applyAll_nil, wp, found]
    trivial
  | true =>
    simp only [bare, applyAll_nil, wp, found, require, if_true]
    apply seq_wp
    apply seq_wp
    unfold MerchantRepository.create
    simp only [wp]
    apply seq_wp
    apply seq_wp
    -- The profile is soft-deleted, and the INSERT meets it.
    intro later again
    refine ⟨trivial, fun _ => ?_⟩
    have there : HasProfile user.id later := rely_keeps again (fun ws _ _ => profile_commit ws) here
    simp only [List.append_nil, applyAll_nil]
    rw [profile_taken]
    · trivial
    · exact there

theorem createMerchant_wp {currentUserId : Uuid} {businessName : String} {draws : MerchantDraws}
    (bare : v.pending = []) (spared : isAdmin currentUserId v.db → Refused currentUserId v.db) :
    Verified F (Endpoint.request (.createMerchant currentUserId businessName draws)).program v := by
  by_cases admin : isAdmin currentUserId v.db
  · apply currentUser_then bare (fun ws _ _ => refused_commit ws) (spared admin)
    intro user u clean refused found active
    obtain ⟨stored, live⟩ := read_user found
    have own : user.id = currentUserId := (find?_some_iff.mp stored).2
    subst own
    rcases refused with ⟨other, mem, same, gone⟩ | profile
    · have again : u.db.users.find? user.id = some other := find?_some_iff.mpr ⟨mem, same⟩
      rw [stored] at again
      cases again
      rcases gone with deleted | inactive
      · exact absurd live deleted
      · rw [active] at inactive
        cases inactive
    · exact createMerchant_refused clean profile
  · apply currentUser_then (I := fun s => ¬ isAdmin currentUserId s) bare _ admin
    · intro user u clean plain found active
      have own : user.id = currentUserId := (find?_some_iff.mp (read_user found).1).2
      subst own
      exact createMerchant_plain clean plain
    · intro ws s commit outside admin
      exact outside ((admin_commit commit).mp admin)

theorem endpoint_wp {endpoint : Endpoint} (bare : v.pending = [])
    (spared : ∀ userId, createsMerchant endpoint = some userId → isAdmin userId v.db →
      Refused userId v.db) :
    Verified F endpoint.program v := by
  cases creates : createsMerchant endpoint with
  | none =>
    refine emits_wp (fun ws s all w mem => ?_) (keeps_endpoint creates) (by simp [bare])
    exact keepsRoles_fair (all w mem)
  | some userId =>
    have named := spared userId creates
    cases endpoint with
    | request op =>
      cases op with
      | createMerchant currentUserId businessName draws =>
        cases creates
        exact createMerchant_wp bare named
      | _ => cases creates
    | _ => cases creates

end Merchants

end PayCoreRoleRules
