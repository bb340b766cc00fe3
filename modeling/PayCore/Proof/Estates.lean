import PayCore.Proof.SharedBooks

/- What belongs to one user, and the writes that leave it alone. -/
namespace PayCoreEstates
open KeyedTable SessionProgram RelyGuarantee PayCoreTables PayCoreWrites PayCoreSessions
open PayCorePersistence PayCoreStatements PayCoreJobs PayCoreOperations PayCoreEndpoints
open PayCoreFunding PayCoreReconciliation PayCoreRegularity PayCoreGuaranteeRules PayCoreRoleRules
open PayCoreOwnRows PayCoreSharedBooks

structure Estate where
  profile : Option User
  merchants : List Merchant
  bankAccounts : List BankAccount
  submissions : List KYCSubmission
  deriving DecidableEq

/-- The user's rows, without the tier and the review that an admin gives and the recipient code
of a payout. -/
def estate (userId : Uuid) (db : Database) : Estate where
  profile := (db.users.find? userId).map (fun u => { u with kycTier := 0 })
  merchants := db.merchants.rows.filter (·.userId == userId)
  bankAccounts :=
    (db.bankAccounts.rows.filter (·.userId == userId)).map
      (fun a => { a with paystackRecipientCode := none })
  submissions := (db.kycSubmissions.rows.filter (·.userId == userId)).map
    (fun s => { s with
      status := .pending, reviewerId := none, rejectionReason := none, reviewedAt := none })

/-- A write of rows that are not the user's. -/
def Spares (userId : Uuid) (db : Database) : Write → Prop
  | .account (.updateUser id set) => id ≠ userId ∨ set.fullName = none ∧ set.role = none
  | .account (.changePhone id _ _) => id ≠ userId
  | .account (.insertMerchant m) => m.userId ≠ userId
  | .account (.updateMerchant id _) => ∃ other, other ≠ userId ∧ HasMerchant other id db
  | .account (.insertBankAccount a) => a.userId ≠ userId
  | .account (.updateBankAccount id _) => ∃ other, other ≠ userId ∧ HasAccount other id db
  | .account (.insertSubmission s) => s.userId ≠ userId
  | _ => True

section Writes
variable {userId : Uuid} {db : Database}

theorem spares_write {v : Write} (w : Write) (h : Spares userId db v) :
    Spares userId (applyWrite w db) v := by
  cases v with
  | account v =>
    cases v with
    | updateMerchant id set =>
      obtain ⟨other, apart, owned⟩ := h
      exact ⟨other, apart, merchant_owner_write w owned⟩
    | updateBankAccount id set =>
      obtain ⟨other, apart, owned⟩ := h
      exact ⟨other, apart, account_owner_write w owned⟩
    | _ => exact h
  | _ => exact h

theorem own_spares {other : Uuid} (apart : other ≠ userId) {w : Write} (own : Own other db w) :
    Spares userId db w := by
  cases w with
  | account w =>
    cases w with
    | updateUser id set => exact .inl (by rw [own.1]; exact apart)
    | changePhone id held phone =>
      have mine : id = other := own
      rw [← mine] at apart
      exact apart
    | insertMerchant m =>
      have mine : m.userId = other := own
      rw [← mine] at apart
      exact apart
    | updateMerchant id set => exact ⟨other, apart, own⟩
    | insertBankAccount a =>
      have mine : a.userId = other := own.1
      rw [← mine] at apart
      exact apart
    | updateBankAccount id set => exact ⟨other, apart, own⟩
    | insertSubmission s =>
      have mine : s.userId = other := own.1
      rw [← mine] at apart
      exact apart
    | _ => trivial
  | _ => trivial

theorem signs_spares {w : Write} (h : signs w) : Spares userId db w := by
  cases w with
  | account w =>
    cases w with
    | revokeRefreshToken => trivial
    | _ => exact h.elim
  | _ => trivial

theorem reviews_spares {w : Write} (h : reviews w) : Spares userId db w := by
  cases w with
  | account w =>
    cases w with
    | updateUser id set => exact .inr h
    | reviewSubmission => trivial
    | _ => exact h.elim
  | _ => trivial

theorem issues_spares {job : Job} {w : Write} (h : Job.issues job w) : Spares userId db w := by
  cases w with
  | account w => cases job <;> exact h.elim
  | _ => trivial

theorem profile_same {t : Database} (same : Same (.user userId) db t) (m : t.merchants = db.merchants)
    (b : t.bankAccounts = db.bankAccounts) (k : t.kycSubmissions = db.kycSubmissions) :
    estate userId t = estate userId db := by
  have row : db.users.find? userId = t.users.find? userId := same
  unfold estate
  rw [row, m, b, k]

theorem merchants_spared {id other : Uuid} (apart : other ≠ userId) (owned : HasMerchant other id db) :
    ∀ m ∈ db.merchants.rows, key m = id → (m.userId == userId) = false := by
  obtain ⟨m, row, own, owner⟩ := owned
  intro a mem same
  have first : db.merchants.find? id = some a := find?_some_iff.mpr ⟨mem, same⟩
  have second : db.merchants.find? id = some m := find?_some_iff.mpr ⟨row, own⟩
  rw [first] at second
  cases second
  rw [owner]
  exact beq_eq_false_iff_ne.mpr apart

theorem accounts_spared {id other : Uuid} (apart : other ≠ userId) (owned : HasAccount other id db) :
    ∀ a ∈ db.bankAccounts.rows, key a = id → (a.userId == userId) = false := by
  obtain ⟨a, row, own, owner⟩ := owned
  intro b mem same
  have first : db.bankAccounts.find? id = some b := find?_some_iff.mpr ⟨mem, same⟩
  have second : db.bankAccounts.find? id = some a := find?_some_iff.mpr ⟨row, own⟩
  rw [first] at second
  cases second
  rw [owner]
  exact beq_eq_false_iff_ne.mpr apart

theorem estate_account {w : AccountWrite} (spared : Spares userId db (.account w)) :
    estate userId (applyAccount w db) = estate userId db := by
  cases w with
  | updateUser id set =>
    rcases spared with other | ⟨name, role⟩
    · apply profile_same (frame_account db _) rfl rfl rfl
      simp [accountTargets, Ne.symm other]
    · simp only [estate, applyAccount, find?_update, Estate.mk.injEq, and_true]
      split
      · cases db.users.find? userId with
        | none => rfl
        | some u => simp [userEdit, name, role]
      · rfl
  | changePhone id held phone =>
    apply profile_same (frame_account db _) rfl rfl rfl
    have other : id ≠ userId := spared
    simp [accountTargets, Ne.symm other]
  | insertMerchant m =>
    have other : (m.userId == userId) = false := beq_eq_false_iff_ne.mpr spared
    unfold estate applyAccount
    rw [filter_insert (p := fun x : Merchant => x.userId == userId) other]
  | updateMerchant id set =>
    obtain ⟨other, apart, owned⟩ := spared
    unfold estate applyAccount
    rw [filter_update_other _ (fun _ => rfl) (merchants_spared apart owned)]
  | insertBankAccount a =>
    have other : (a.userId == userId) = false := beq_eq_false_iff_ne.mpr spared
    unfold estate applyAccount
    rw [filter_insert (p := fun x : BankAccount => x.userId == userId) other]
  | updateBankAccount id set =>
    obtain ⟨other, apart, owned⟩ := spared
    unfold estate applyAccount
    rw [filter_update_other _ (fun _ => rfl) (accounts_spared apart owned)]
  | revokeRefreshToken hash => rfl
  | insertSubmission s =>
    have other : (s.userId == userId) = false := beq_eq_false_iff_ne.mpr spared
    unfold estate applyAccount
    rw [filter_insert (p := fun x : KYCSubmission => x.userId == userId) other]
  | reviewSubmission id review =>
    unfold estate applyAccount
    rw [filter_update_blind _ _ (fun _ => rfl) (fun _ => rfl)]

theorem estate_write {w : Write} (known : (estate userId db).profile.isSome = true)
    (spared : Spares userId db w) :
    estate userId (applyWrite w db) = estate userId db := by
  cases w with
  | account w => exact estate_account spared
  | insertUser u =>
    have row : (db.users.find? userId).isSome = true := by simpa [estate] using known
    obtain ⟨v, found⟩ := Option.isSome_iff_exists.mp row
    unfold estate applyWrite
    rw [find?_insert_kept found, found]
  | setRecipientCode id code =>
    unfold estate applyWrite
    rw [filter_update_blind _ _ (fun _ => rfl) (fun _ => rfl)]
  | _ => rfl

/-- What the sessions commit where the user does nothing. -/
def SparingCommit (userId : Uuid) (ws : List Write) (db : Database) : Prop := ∀ w ∈ ws, Spares userId db w

theorem estate_commit {ws : List Write} (known : (estate userId db).profile.isSome = true)
    (spared : SparingCommit userId ws db) : estate userId (applyAll ws db) = estate userId db := by
  induction ws generalizing db with
  | nil => rfl
  | cons w ws ih =>
    have first := estate_write known (spared w List.mem_cons_self)
    apply Eq.trans _ first
    apply ih
    · rw [← first] at known
      exact known
    · exact fun v mem => spares_write w (spared v (List.mem_cons_of_mem w mem))

end Writes

def workActor : Work → Option Uuid
  | .endpoint e => actor e
  | _ => none

section Works
variable {userId : Uuid} {F : Database → IdentityMap → List Row → List Write → Prop} {v : Window}

abbrev Sparing (F : Database → IdentityMap → List Row → List Write → Prop) (userId : Uuid)
    (p : Tx Unit) (v : Window) :
    Prop := Guarantees (Rely (SparingCommit userId)) (SparingCommit userId) F p v

theorem emits_sparing {P : Write → Prop} (spares : ∀ db w, P w → Spares userId db w) {p : Tx Unit}
    (emits : Emits P p) (bare : v.pending = []) : Sparing F userId p v :=
  emits_wp (fun ws db all w mem => spares db w (all w mem)) emits (by simp [bare])

theorem job_sparing (job : Job) (bare : v.pending = []) : Sparing F userId job.program v :=
  emits_sparing (fun _ _ => issues_spares) (emits_job job) bare

theorem emits_reconcileAll (stale : List (Uuid × String)) : Emits settles (reconcileAll stale) := by
  induction stale with
  | nil => trivial
  | cons entry rest ih =>
    have rolled : Emits settles rollback := trivial
    apply emits_seq (emits_reconcileFunding settling_settles entry.1 entry.2)
    intro _
    exact emits_seq rolled (fun _ => ih)

theorem emits_enqueueAll (ids : List Uuid) : Emits settles (enqueueAll ids) := by
  induction ids with
  | nil => trivial
  | cons id rest ih => exact emits_seq (emits_enqueue _) (fun _ => ih)

theorem emits_reconcile (sweep : Sweep) : Emits settles (reconcile sweep) := by
  have rolled : Emits settles rollback := trivial
  apply emits_seq (emits_query _)
  intro stale
  apply emits_seq rolled
  intro _
  apply emits_seq (emits_reconcileAll stale)
  intro _
  apply emits_seq (emits_query _)
  intro ids
  exact emits_seq rolled (fun _ => emits_enqueueAll ids)

theorem work_sparing {work : Work} (other : workActor work ≠ some userId) (bare : v.pending = []) :
    Sparing F userId work.program v := by
  cases work with
  | endpoint e =>
    by_cases money : isMoney e
    · cases e with
      | request op =>
        cases op with
        | money job => exact job_sparing job bare
        | _ => exact money.elim
      | _ => exact money.elim
    · apply account_guarantees e money bare
      · intro acting named ws db own w mem
        have apart : acting ≠ userId := by
          intro same
          rw [← same] at other
          exact other named
        exact own_spares apart (own w mem)
      · exact fun ws db signed w mem => signs_spares (signed w mem)
      · exact fun _ ws db reviewed w mem => reviews_spares (reviewed w mem)
  | processPaystackWebhook eventType data =>
    change Sparing F userId (dispatch eventType data) v
    rcases dispatched_job eventType data with nothing | ⟨job, _, _, same⟩
    · rw [nothing]
      trivial
    · rw [same]
      exact job_sparing job bare
  | processWithdrawal transactionId => exact job_sparing (.executePayout transactionId) bare
  | checkStaleTransactions sweep =>
    have never : ∀ db w, settles w → Spares userId db w := by
      intro db w h
      cases w <;> first | exact h.elim | trivial
    exact emits_sparing never (emits_reconcile sweep) bare

end Works

end PayCoreEstates
