import PayCore.Proof.GuaranteeRules
import PayCore.Proof.RoleRules

/- The policy on account rows: what a request writes on behalf of a user are that user's own rows. -/
namespace PayCoreOwnRows
open KeyedTable SessionProgram SessionSystem RelyGuarantee PayCoreTables PayCoreWrites
open PayCoreSessions PayCoreRepositories PayCoreSupport PayCoreAccounts PayCoreMerchants PayCoreKyc
open PayCoreWithdrawals PayCoreOperations PayCoreEndpoints PayCorePersistence PayCoreStatements
open PayCoreGuaranteeRules PayCoreRegularity PayCoreRoleRules

/-- A merchant or bank account that is there belongs to the user. -/
def HasMerchant (userId id : Uuid) (db : Database) : Prop := ∃ m ∈ db.merchants.rows, m.id = id ∧
    m.userId = userId

def HasAccount (userId id : Uuid) (db : Database) : Prop := ∃ a ∈ db.bankAccounts.rows, a.id = id ∧
    a.userId = userId

/-- The writes that a request of the user may issue where `db` is committed. -/
def Own (userId : Uuid) (db : Database) : Write → Prop
  | .account (.updateUser id set) => id = userId ∧ set.kycTier = none ∧ set.role ≠ some .admin
  | .account (.changePhone id _ _) => id = userId
  | .account (.insertMerchant m) => m.userId = userId
  | .account (.updateMerchant id _) => HasMerchant userId id db
  | .account (.insertBankAccount a) => a.userId = userId ∧ a.paystackRecipientCode = none
  | .account (.updateBankAccount id _) => HasAccount userId id db
  | .account (.insertSubmission s) => s.userId = userId ∧ s.status = .pending
  | .account (.revokeRefreshToken _) => True
  | .insertRefreshToken _ => True
  | .insertAuditLog _ => True
  | .insertWallet w => w.balance = 0
  | _ => False

section Ownership
variable {userId id : Uuid} {s t db : Database}

/-- No write at all takes a merchant or a bank account from its owner. -/
theorem merchant_owner_write (w : Write) (h : HasMerchant userId id db) :
    HasMerchant userId id (applyWrite w db) := by
  obtain ⟨m, mem, own, owner⟩ := h
  cases w with
  | account w =>
    cases w with
    | insertMerchant a => exact ⟨m, mem_insert mem, own, owner⟩
    | updateMerchant k set =>
      refine ⟨editAt k (merchantEdit set) m, kept_update (t := db.merchants) mem, ?_⟩
      unfold editAt
      split <;> exact ⟨own, owner⟩
    | _ => exact ⟨m, mem, own, owner⟩
  | _ => exact ⟨m, mem, own, owner⟩

theorem account_owner_edit {k : Uuid} {e : Edit BankAccount}
    (keeps : ∀ a, (e.on a).id = a.id ∧ (e.on a).userId = a.userId)
    (same : t.bankAccounts = s.bankAccounts.update k e) (h : HasAccount userId id s) :
    HasAccount userId id t := by
  obtain ⟨a, mem, own, owner⟩ := h
  refine ⟨editAt k e a, by rw [same]; exact kept_update mem, ?_⟩
  unfold editAt
  split
  · exact ⟨(keeps a).1.trans own, (keeps a).2.trans owner⟩
  · exact ⟨own, owner⟩

theorem account_owner_write (w : Write) (h : HasAccount userId id db) :
    HasAccount userId id (applyWrite w db) := by
  cases w with
  | setRecipientCode k code =>
      exact account_owner_edit (e := recipientEdit code) (fun _ => ⟨rfl, rfl⟩) rfl h
  | account w =>
    cases w with
    | insertBankAccount a =>
      obtain ⟨b, mem, facts⟩ := h
      exact ⟨b, mem_insert mem, facts⟩
    | updateBankAccount k set =>
        exact account_owner_edit (e := bankAccountEdit set) (fun _ => ⟨rfl, rfl⟩) rfl h
    | _ => exact h
  | _ => exact h

theorem own_write {v : Write} (w : Write) (h : Own userId db v) : Own userId (applyWrite w db) v := by
  cases v with
  | account v =>
    cases v with
    | updateMerchant id set => exact merchant_owner_write w h
    | updateBankAccount id set => exact account_owner_write w h
    | _ => exact h
  | _ => exact h

theorem own_all {v : Write} (ws : List Write) (h : Own userId db v) : Own userId (applyAll ws db) v := by
  induction ws generalizing db with
  | nil => exact h
  | cons w ws ih => exact ih (own_write w h)

theorem own_rely {G : List Write → Database → Prop} {held : Row → Prop} {v : Write} (rely : Rely G held s t)
    (h : Own userId s v) : Own userId t v :=
  rely_keeps (P := fun db => Own userId db v) rely (fun ws _ _ own => own_all ws own) h

end Ownership

section Sessions
variable {G : List Write → Database → Prop} {F : Database → IdentityMap → List Row → List Write → Prop}
  {α β : Type} {userId : Uuid} {v u : Window}

def OwnPending (userId : Uuid) (v : Window) : Prop := ∀ w ∈ v.pending, Own userId v.db w

theorem own_bare (bare : v.pending = []) : OwnPending userId v := by
  intro w mem
  rw [bare] at mem
  cases mem

theorem own_onward {ws : List Write} (h : OwnPending userId v) (onward : Onward (Rely G) v u ws)
    (own : ∀ w ∈ ws, Own userId u.db w) : OwnPending userId u := by
  intro w mem
  rw [onward.pending, List.mem_append] at mem
  rcases mem with old | new
  · exact own_rely onward.rely (h w old)
  · exact own w new

theorem bare_read (bare : v.pending = []) (onward : Onward (Rely G) v u []) : u.pending = [] := by
  rw [onward.pending, bare, List.append_nil]

theorem flushOwn_then {writes : List AccountWrite} {k : Unit → Tx α} (h : OwnPending userId v)
    (own : ∀ db, Rely G v.held v.db db → ∀ w ∈ writes, Own userId db (.account w))
    (onward : ∀ u, Onward (Rely G) v u (writes.map .account) → OwnPending userId u →
      Guarantees (Rely G) G F (k ()) u) :
    Guarantees (Rely G) G F (flushAccount writes >>= k) v := by
  apply flush_then
  intro u first _
  apply onward u first
  apply own_onward h first
  intro w mem
  obtain ⟨a, among, rfl⟩ := List.mem_map.mp mem
  exact own u.db first.rely a among

theorem asUser_own {service : User → Tx α} (bare : v.pending = [])
    (served : ∀ user u, user.id = userId → u.pending = [] → Guarantees (Rely G) G F (service user) u) :
    Guarantees (Rely G) G F (asUser userId service) v := by
  unfold asUser getCurrentUser
  rw [seq_seq]
  apply read_then
  intro u first
  have bare1 := bare_read bare first
  rw [bare1, applyAll_nil, seq_seq]
  apply given_then
  intro user found
  rw [seq_seq]
  apply checked_then
  intro _
  have row := (Option.filter_eq_some_iff.mp found).1
  exact quietly_guarantees (served user u (find?_some_iff.mp row).2 bare1)

variable (allows : ∀ ws db, (∀ w ∈ ws, Own userId db w) → G ws db)
include allows

theorem commitOwn_then {k : Unit → Tx α} (h : OwnPending userId v)
    (onward : ∀ u, u.pending = [] → Guarantees (Rely G) G F (k ()) u) :
    Guarantees (Rely G) G F (commit >>= k) v := by
  apply committed_then _ onward
  intro db rely
  apply allows
  intro w mem
  exact own_rely rely (h w mem)

/-- Writes that are the user's own in every state. -/
theorem emitsOwn {p : Tx α} (emits : Emits (fun w => ∀ db, Own userId db w) p) (bare : v.pending = []) :
    Guarantees (Rely G) G F p v := by
  apply emits_wp _ emits (by simp [bare])
  intro ws db all
  exact allows ws db (fun w mem => all w mem db)

theorem createMerchant_own {user : User} {businessName : String} {draws : MerchantDraws}
    (named : user.id = userId)
    (bare : v.pending = []) : Guarantees (Rely G) G F (createMerchant user businessName draws) v := by
  subst named
  apply emitsOwn allows _ bare
  apply emits_createMerchant
  · exact fun _ => rfl
  · exact fun _ empty _ => empty
  · exact fun _ => ⟨rfl, rfl, by simp⟩
  · exact fun _ _ => trivial

theorem submitKyc_own {user : User} {targetTier : Nat} {fileBytes : List UInt8} {submissionId : Uuid}
    {documentKey : String} (named : user.id = userId) (bare : v.pending = []) :
    Guarantees (Rely G) G F (submitKyc user targetTier fileBytes submissionId documentKey) v := by
  subst named
  apply emitsOwn allows _ bare
  unfold submitKyc
  apply emits_seq (emits_require _ _)
  intro _
  apply emits_seq (emits_require _ _)
  intro _
  apply emits_seq (emits_require _ _)
  intro _
  apply emits_seq (emits_query _)
  intro existing
  cases existing with
  | some active =>
    dsimp only
    split <;> trivial
  | none =>
    have uploaded : Emits (fun w => ∀ db, Own user.id db w) (uploadFile fileBytes documentKey) :=
      ⟨fun _ => trivial, trivial⟩
    apply emits_seq uploaded
    intro _
    apply emits_seq
    · apply emits_seq
      · apply emits_insertAccount
        intro db
        exact ⟨rfl, rfl⟩
      · intro _
        trivial
    intro _
    exact emits_seq emits_commit (fun _ => emits_audited (fun _ _ => trivial) _ _)

theorem addBankAccount_own {cfg : Settings} {user : User}
    {accountName accountNumber bankCode bankName : String}
    {accountId : Uuid} (named : user.id = userId) (bare : v.pending = []) :
    Guarantees (Rely G) G F
    (addBankAccount cfg user accountName accountNumber bankCode bankName accountId) v := by
  subst named
  apply emitsOwn allows _ bare
  unfold addBankAccount
  apply emits_seq (emits_verifyAccount _ _ _)
  intro _
  apply emits_seq (emits_query _)
  intro _
  apply emits_seq
  · apply emits_seq
    · apply emits_insertAccount
      exact fun db => ⟨rfl, rfl⟩
    · intro _
      trivial
  intro _
  exact emits_seq emits_commit (fun _ => trivial)

omit allows in
theorem getMerchantProfile_own {k : Merchant → Tx α} (bare : v.pending = [])
    (onward : ∀ m u, u.pending = [] → HasMerchant userId m.id u.db → Guarantees (Rely G) G F (k m) u) :
    Guarantees (Rely G) G F (getMerchantProfile userId >>= k) v := by
  unfold getMerchantProfile
  rw [seq_seq]
  apply read_then
  intro u first
  have bare1 := bare_read bare first
  rw [bare1, applyAll_nil]
  apply given_then
  intro m found
  have owner := List.find?_some found
  simp only [Bool.and_eq_true, beq_iff_eq] at owner
  exact onward m u bare1 ⟨m, List.mem_of_find?_eq_some found, rfl, owner.1⟩

omit allows in
theorem updateMerchant_own {merchant : Merchant} {set : MerchantUpdate} {k : Merchant → Tx α}
    (bare : v.pending = []) (owner : HasMerchant userId merchant.id v.db)
    (onward : ∀ u, OwnPending userId u → Guarantees (Rely G) G F (k ((merchantEdit set).on merchant)) u) :
    Guarantees (Rely G) G F (MerchantRepository.update merchant set >>= k) v := by
  unfold MerchantRepository.update
  dsimp only
  rw [seq_seq]
  apply flushOwn_then (own_bare bare)
  · intro db rely w mem
    split at mem
    · cases mem
    · rw [List.mem_singleton.mp mem]
      have own : Own userId v.db (.account (.updateMerchant merchant.id set)) := owner
      exact own_rely rely own
  · intro u _ own
    exact onward u own

theorem rotateApiKey_own {rawKey apiKeyHash : String} (bare : v.pending = []) :
    Guarantees (Rely G) G F (rotateApiKey userId rawKey apiKeyHash) v := by
  unfold rotateApiKey
  apply getMerchantProfile_own bare
  intro m v1 bare1 owner
  unfold MerchantRepository.updateApiKey
  apply updateMerchant_own bare1 owner
  intro v2 own2
  apply commitOwn_then allows own2
  intro v3 bare3
  exact emitsOwn allows (emits_audited (fun _ _ => trivial) _ _) bare3

theorem updateWebhookConfig_own {webhookUrl newSecret : Option String} (bare : v.pending = []) :
    Guarantees (Rely G) G F (updateWebhookConfig userId webhookUrl newSecret) v := by
  unfold updateWebhookConfig
  apply getMerchantProfile_own bare
  intro m v1 bare1 owner
  unfold MerchantRepository.updateWebhook
  apply updateMerchant_own bare1 owner
  intro v2 own2
  apply commitOwn_then allows own2
  intro v3 _
  trivial

omit allows in
theorem updateProfile_own {fullName phone : Option String} :
    Guarantees (Rely G) G F (PayCoreAccounts.updateProfile userId fullName phone) v := by
  have row : ∀ (user : User) (w : Window),
      Guarantees (Rely G) G F (UserRepository.updateProfile user fullName phone) w := by
    intro user w
    unfold UserRepository.updateProfile
    apply checked_then
    intro _ db _
    refine ⟨trivial, fun _ => ?_⟩
    dsimp only
    split <;> trivial
  unfold PayCoreAccounts.updateProfile
  apply read_then
  intro v1 _
  apply given_then
  intro user _
  cases phone with
  | none => exact row _ _
  | some number =>
    dsimp only
    split
    · exact row _ _
    · apply read_then
      intro v2 _
      apply checked_then
      intro _
      exact row _ _

omit allows in
theorem altered_account {db : Database} {id : Uuid} {set : BankAccountUpdate} {a : BankAccount}
    (mem : a ∈ BankAccountRepository.liveOf userId (applyWrite (.account (.updateBankAccount id set)) db)) :
    HasAccount userId a.id db := by
  obtain ⟨row, live⟩ := List.mem_filter.mp mem
  simp only [Bool.and_eq_true, beq_iff_eq] at live
  obtain ⟨old, before, same⟩ := mem_update (t := db.bankAccounts) row
  have kept : a.id = old.id ∧ a.userId = old.userId := by
    rw [same]
    unfold editAt
    split <;> exact ⟨rfl, rfl⟩
  exact ⟨old, before, kept.1.symm, kept.2.symm.trans live.1⟩

omit allows in
theorem softDelete_own {account : BankAccount} {now : Timestamp} {k : Unit → Tx α} (bare : v.pending = [])
    (named : account.userId = userId) (owner : HasAccount userId account.id v.db)
    (onward : ∀ u, OwnPending userId u → Guarantees (Rely G) G F (k ()) u) :
    Guarantees (Rely G) G F (BankAccountRepository.softDelete account now >>= k) v := by
  have own : ∀ db set, Rely G v.held v.db db →
      Own userId db (.account (.updateBankAccount account.id set)) := by
    intro db set rely
    have here : Own userId v.db (.account (.updateBankAccount account.id set)) := owner
    exact own_rely rely here
  unfold BankAccountRepository.softDelete
  split
  · rw [seq_seq]
    apply flushOwn_then (own_bare bare)
    · intro db rely w mem
      rw [List.mem_singleton.mp mem]
      exact own db _ rely
    intro v1 first own1
    unfold BankAccountRepository.getByUserId
    rw [seq_seq]
    apply read_then
    intro v2 second
    have pending2 : v2.pending = [.account (.updateBankAccount account.id
        { isDefault := some false, deletedAt := some now })] := by
      rw [second.pending, first.pending, bare]
      rfl
    have own2 : OwnPending userId v2 := own_onward own1 second (fun _ mem => by cases mem)
    have listed : ∀ a ∈ BankAccountRepository.liveOf userId (applyAll v2.pending v2.db),
        HasAccount userId a.id v2.db := by
      intro a mem
      rw [pending2] at mem
      exact altered_account mem
    rw [named]
    generalize BankAccountRepository.liveOf userId (applyAll v2.pending v2.db) = remaining at listed
    cases remaining with
    | nil => exact onward v2 own2
    | cons oldest rest =>
      apply flushOwn_then own2
      · intro db rely w mem
        split at mem
        · cases mem
        · rw [List.mem_singleton.mp mem]
          have here :
              Own userId v2.db (.account (.updateBankAccount oldest.id { isDefault := some true })) :=
            listed oldest List.mem_cons_self
          exact own_rely rely here
      intro v3 _ own3
      exact onward v3 own3
  · apply flushOwn_then (own_bare bare)
    · intro db rely w mem
      rw [List.mem_singleton.mp mem]
      exact own db _ rely
    intro v1 _ own1
    exact onward v1 own1

theorem removeBankAccount_own {user : User} {bankAccountId : Uuid} {now : Timestamp}
    (named : user.id = userId)
    (bare : v.pending = []) : Guarantees (Rely G) G F (removeBankAccount user bankAccountId now) v := by
  unfold removeBankAccount
  apply read_then
  intro v1 first
  have bare1 := bare_read bare first
  rw [bare1, applyAll_nil]
  apply given_then
  intro account found
  obtain ⟨picked, mine⟩ := Option.filter_eq_some_iff.mp found
  have row := find?_some_iff.mp (Option.filter_eq_some_iff.mp picked).1
  have owner : account.userId = userId := (beq_iff_eq.mp mine).trans named
  have there : HasAccount userId account.id v1.db := ⟨account, row.1, rfl, owner⟩
  apply seq_wp
  intro db rely
  refine ⟨trivial, fun _ => ?_⟩
  simp only [bare1, applyAll_nil]
  cases TransactionRepository.scalarOneOrNone
    (db.transactions.rows.filter (isActiveWithdrawal user.id)) with
  | error x => trivial
  | ok active =>
    dsimp only [wp]
    apply checked_then
    intro _
    apply softDelete_own rfl owner
    · exact own_rely (v := .account (.updateBankAccount account.id {})) rely there
    · intro v2 own2
      exact commitOwn_then (k := fun _ => .ret ()) allows own2 (fun _ _ => trivial)

end Sessions

section Endpoints
variable {α : Type} {P : Write → Prop}

def signs : Write → Prop
  | .insertRefreshToken _ => True
  | .account (.revokeRefreshToken _) => True
  | .insertAuditLog _ => True
  | _ => False

def reviews : Write → Prop
  | .account (.reviewSubmission _ _) => True
  | .account (.updateUser _ set) => set.fullName = none ∧ set.role = none
  | .insertAuditLog _ => True
  | _ => False

theorem signs_refresh (cfg : Settings) (tokenHash : String) (draws : TokenDraws) :
    Emits signs (refresh cfg tokenHash draws) := by
  unfold refresh
  apply emits_seq (emits_query _)
  intro _
  apply emits_seq (emits_orRaise _ _)
  intro _
  apply emits_seq (emits_require _ _)
  intro _
  apply emits_seq (emits_query _)
  intro _
  apply emits_seq (emits_orRaise _ _)
  intro _
  apply emits_seq (emits_revoke (fun _ => trivial) _)
  intro _
  apply emits_seq (emits_storeRefreshToken (fun _ => trivial) _ _ _ _)
  intro _
  exact emits_seq emits_commit (fun _ => trivial)

theorem reviews_review (submission : KYCSubmission) (review : Review) :
    Emits reviews (KYCRepository.review submission review) := by
  apply emits_seq
  · apply emits_flushAccount
    intro w mem
    rw [List.mem_singleton.mp mem]
    trivial
  · intro _
    trivial

theorem reviews_updateKycTier (userId : Uuid) (tier : Nat) : Emits reviews (updateKycTier userId tier) := by
  unfold updateKycTier
  apply emits_seq (emits_query _)
  intro _
  apply emits_seq (emits_orRaise _ _)
  intro user
  apply emits_seq
  · apply emits_flushAccount
    intro w mem
    split at mem
    · cases mem
    · rw [List.mem_singleton.mp mem]
      exact ⟨rfl, rfl⟩
  · intro _
    trivial

theorem reviews_approveKyc (submissionId : Uuid) (reviewer : User) (utcNow : Timestamp) :
    Emits reviews (approveKyc submissionId reviewer utcNow) := by
  unfold approveKyc
  apply emits_seq (emits_getSubmission _)
  intro _
  apply emits_seq (emits_require _ _)
  intro _
  apply emits_seq (emits_require _ _)
  intro _
  apply emits_seq (emits_require _ _)
  intro _
  apply emits_seq (reviews_review _ _)
  intro _
  apply emits_seq (reviews_updateKycTier _ _)
  intro _
  exact emits_seq emits_commit (fun _ => emits_audited (fun _ => trivial) _ _)

theorem reviews_rejectKyc (submissionId : Uuid) (reviewer : User) (reason : String) (utcNow : Timestamp) :
    Emits reviews (rejectKyc submissionId reviewer reason utcNow) := by
  unfold rejectKyc
  apply emits_seq (emits_getSubmission _)
  intro _
  apply emits_seq (emits_require _ _)
  intro _
  apply emits_seq (emits_require _ _)
  intro _
  apply emits_seq (reviews_review _ _)
  intro _
  exact emits_seq emits_commit (fun _ => emits_audited (fun _ => trivial) _ _)

def actor : Endpoint → Option Uuid
  | .request (.updateProfile currentUserId _ _) => some currentUserId
  | .request (.createMerchant currentUserId _ _) => some currentUserId
  | .request (.rotateApiKey currentUserId _ _) => some currentUserId
  | .request (.updateWebhookConfig currentUserId _ _) => some currentUserId
  | .request (.submitKyc currentUserId _ _ _ _) => some currentUserId
  | .request (.addBankAccount _ currentUserId _ _ _ _ _) => some currentUserId
  | .request (.removeBankAccount currentUserId _ _) => some currentUserId
  | _ => none

def isMoney : Endpoint → Prop
  | .request (.money _) => True
  | _ => False

def isReview : Endpoint → Prop
  | .request (.approveKyc ..) => True
  | .request (.rejectKyc ..) => True
  | .approveKyc .. => True
  | .rejectKyc .. => True
  | _ => False

theorem account_guarantees {G : List Write → Database → Prop}
    {F : Database → IdentityMap → List Row → List Write → Prop}
    {v : Window} (endpoint : Endpoint) (other : ¬ isMoney endpoint) (bare : v.pending = [])
    (allows : ∀ userId, actor endpoint = some userId → ∀ ws db, (∀ w ∈ ws, Own userId db w) → G ws db)
    (signed : ∀ ws db, (∀ w ∈ ws, signs w) → G ws db)
    (reviewed : isReview endpoint → ∀ ws db, (∀ w ∈ ws, reviews w) → G ws db) :
    Guarantees (Rely G) G F endpoint.program v := by
  have signing : ∀ {p : Tx Unit}, Emits signs p → Guarantees (Rely G) G F p v :=
    fun emits => emits_wp signed emits (by simp [bare])
  have reviewing : ∀ {p : Tx Unit}, isReview endpoint → Emits reviews p → Guarantees (Rely G) G F p v :=
    fun review emits => emits_wp (reviewed review) emits (by simp [bare])
  cases endpoint with
  | request op =>
    cases op with
    | money job => exact absurd trivial other
    | login => exact signing (emits_quietly (emits_login (fun _ => trivial) (fun _ => trivial) _ _ _ _ _ _))
    | refresh => exact signing (emits_quietly (signs_refresh _ _ _))
    | logout => exact signing (emits_logout (fun _ => trivial) _)
    | updateProfile currentUserId =>
      apply asUser_own bare
      intro user u named _
      rw [named]
      exact updateProfile_own
    | createMerchant currentUserId =>
      exact asUser_own bare (fun user u named bare1 => createMerchant_own (allows _ rfl) named bare1)
    | rotateApiKey currentUserId =>
      apply asUser_own bare
      intro user u named bare1
      rw [named]
      exact rotateApiKey_own (allows _ rfl) bare1
    | updateWebhookConfig currentUserId =>
      apply asUser_own bare
      intro user u named bare1
      rw [named]
      exact updateWebhookConfig_own (allows _ rfl) bare1
    | submitKyc currentUserId =>
      exact asUser_own bare (fun user u named bare1 => submitKyc_own (allows _ rfl) named bare1)
    | addBankAccount cfg currentUserId =>
      exact asUser_own bare (fun user u named bare1 => addBankAccount_own (allows _ rfl) named bare1)
    | removeBankAccount currentUserId =>
      exact asUser_own bare (fun user u named bare1 => removeBankAccount_own (allows _ rfl) named bare1)
    | approveKyc => exact reviewing trivial (emits_quietly (reviews_approveKyc _ _ _))
    | rejectKyc => exact reviewing trivial (emits_quietly (reviews_rejectKyc _ _ _ _))
  | approveKyc =>
    apply reviewing trivial
    exact emits_seq (emits_requireRole _ _) (fun _ => emits_quietly (reviews_approveKyc _ _ _))
  | rejectKyc =>
    apply reviewing trivial
    exact emits_seq (emits_requireRole _ _) (fun _ => emits_quietly (reviews_rejectKyc _ _ _ _))
  | runReconciliation =>
    apply signing
    apply emits_seq (emits_requireRole _ _)
    intro _
    exact emits_seq (emits_enqueue _) (fun _ => emits_auditLog (fun _ => trivial) _)

end Endpoints

end PayCoreOwnRows
