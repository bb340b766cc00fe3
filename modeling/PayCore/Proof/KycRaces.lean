import PayCore.Proof.GuaranteeRules
import PayCore.Proof.KycRules

/- The KYC requests among others that run at the same time. Their checks are made without a
   lock, so they guarantee something only where the checks still hold at the commit. -/
namespace PayCoreKycRaces
open KeyedTable SessionProgram SessionSystem RelyGuarantee PayCoreTables PayCoreWrites PayCoreSessions
open PayCoreRepositories PayCoreSupport PayCoreAccounts PayCoreKyc PayCoreJobs PayCoreOperations
open PayCoreRegularity PayCorePersistence PayCoreKycRules PayCoreStatements PayCoreGuaranteeRules

/-- What the session has checked of the state it commits to: the tier of a submission is free,
    and a review finds its submission pending. -/
def stillChecked (s : Database) : Write → Bool
  | .account (.insertSubmission sub) => (KYCRepository.activeForTier sub.userId sub.requestedTier s).isNone
  | .account (.reviewSubmission id _) => (s.kycSubmissions.find? id).any (·.status == .pending)
  | _ => true

def Unraced (ws : List Write) (s : Database) : Prop := ws.all (stillChecked s) = true

instance (ws : List Write) (s : Database) : Decidable (Unraced ws s) :=
  inferInstanceAs (Decidable (_ = true))

def Checked (ws : List Write) (s : Database) : Prop := Unraced ws s → KycCommit ws s

def SameSubmissions (a b : Database) : Prop :=
  ∀ id s, a.kycSubmissions.find? id = some s →
    ∃ t, b.kycSubmissions.find? id = some t ∧ t.userId = s.userId ∧ t.requestedTier = s.requestedTier

/-- How a state stands to an earlier one. -/
structure Since (a b : Database) : Prop where
  tiered : Tiered b
  risen : Risen a b
  same : SameSubmissions a b

section States
variable {a b c : Database} {ws : List Write}

theorem same_refl (a : Database) : SameSubmissions a a := fun _ s found => ⟨s, found, rfl, rfl⟩

theorem same_trans (left : SameSubmissions a b) (right : SameSubmissions b c) : SameSubmissions a c := by
  intro id s found
  obtain ⟨t, there, user, tier⟩ := left id s found
  obtain ⟨r, final, owner, asked⟩ := right id t there
  exact ⟨r, final, owner.trans user, asked.trans tier⟩

theorem same_write (w : Write) (a : Database) : SameSubmissions a (applyWrite w a) := by
  intro id s found
  cases w with
  | account w =>
    cases w with
    | insertSubmission t => exact ⟨s, find?_insert_kept found, rfl, rfl⟩
    | reviewSubmission k review =>
      have after : (applyWrite (.account (.reviewSubmission k review)) a).kycSubmissions.find? id =
          if k = id then (a.kycSubmissions.find? id).map (reviewEdit review).on
            else a.kycSubmissions.find? id :=
        find?_update _ _ _ _
      by_cases here : k = id
      · rw [if_pos here, found] at after
        exact ⟨_, after, rfl, rfl⟩
      · rw [if_neg here, found] at after
        exact ⟨s, after, rfl, rfl⟩
    | _ => exact ⟨s, found, rfl, rfl⟩
  | _ => exact ⟨s, found, rfl, rfl⟩

theorem same_writes (ws : List Write) (a : Database) : SameSubmissions a (applyAll ws a) := by
  induction ws generalizing a with
  | nil => exact same_refl a
  | cons w ws ih => exact same_trans (same_write w a) (ih (applyWrite w a))

theorem since_refl (tiered : Tiered a) : Since a a := ⟨tiered, risen_refl a, same_refl a⟩

theorem since_commit (h : Since a b) (commit : KycCommit ws b) : Since a (applyAll ws b) := by
  obtain ⟨tiered, risen⟩ := tiered_commit h.tiered commit
  exact ⟨tiered, risen_trans h.risen risen, same_trans h.same (same_writes ws b)⟩

theorem since_rely {held : Row → Prop} (h : Since a b) (rely : Rely KycCommit held b c) : Since a c :=
  rely_keeps rely (fun _ _ commit since => since_commit since commit) h

theorem risen_user {u : User} (h : Since a b) (found : a.users.find? u.id = some u) :
    ∃ v, b.users.find? u.id = some v ∧ v.id = u.id ∧ u.kycTier ≤ v.kycTier := by
  obtain ⟨v, mem, id, up⟩ := h.risen u (find?_some_iff.mp found).1
  exact ⟨v, find?_some_iff.mpr ⟨mem, id⟩, id, up⟩

theorem submission_commit {u : User} {sub : KYCSubmission} (since : Since a b)
    (found : a.users.find? u.id = some u)
    (owner : sub.userId = u.id) (next : sub.requestedTier = u.kycTier + 1) (pending : sub.status = .pending)
    (fresh : sub.reviewerId = none) : Checked [.account (.insertSubmission sub)] b := by
  intro unraced
  have free : KYCRepository.activeForTier u.id sub.requestedTier b = none := by
    rw [← owner]
    simpa [Unraced, stillChecked] using unraced
  obtain ⟨v, there, id, up⟩ := risen_user since found
  -- A user who had risen to the tier meanwhile would have an approved submission for it.
  have still : v.kycTier = u.kycTier := by
    by_contra other
    obtain ⟨s, mem, user, asked, status⟩ :=
      since.tiered.climbed v (find?_some_iff.mp there).1 sub.requestedTier
      (by omega) (by omega)
    have absent := List.find?_eq_none.mp free s mem
    simp [user, id, asked, status] at absent
  apply KycCommit.submitted v sub _ (owner.trans id.symm) _ pending fresh _ rfl
  · rw [id]
    exact there
  · omega
  · rw [id]
    exact free

theorem pending_row {id : Uuid} {review : Review} {ws : List Write}
    (unraced : Unraced (.account (.reviewSubmission id review) :: ws) b) :
    ∃ s, b.kycSubmissions.find? id = some s ∧ s.id = id ∧ s.status = .pending := by
  simp only [Unraced, List.all_cons, Bool.and_eq_true, stillChecked, Option.any_eq_true] at unraced
  obtain ⟨⟨s, found, pending⟩, _⟩ := unraced
  exact ⟨s, found, (find?_some_iff.mp found).2, by simpa using pending⟩

theorem rejection_commit {sub : KYCSubmission} {review : Review} (since : Since a b)
    (stored : a.kycSubmissions.find? sub.id = some sub) (status : review.status = .rejected)
    (other : review.reviewerId ≠ sub.userId) : Checked [.account (.reviewSubmission sub.id review)] b := by
  intro unraced
  obtain ⟨s, found, id, pending⟩ := pending_row unraced
  obtain ⟨t, there, owner, _⟩ := since.same _ _ stored
  rw [found] at there
  cases there
  rw [← id] at found ⊢
  rw [← owner] at other
  exact .rejected s review found pending status other rfl

def promotion (sub : KYCSubmission) (review : Review) (u : User) : List Write :=
  .account (.reviewSubmission sub.id review) :: (if u.kycTier = sub.requestedTier then [] else
    [AccountWrite.updateUser u.id { kycTier := some sub.requestedTier }]).map .account

theorem approval_commit {sub : KYCSubmission} {review : Review} {u : User} (since : Since a b)
    (stored : a.kycSubmissions.find? sub.id = some sub) (found : c.users.find? sub.userId = some u)
    (later : Since c b) (status : review.status = .approved) (other : review.reviewerId ≠ sub.userId) :
    Checked (promotion sub review u) b := by
  intro unraced
  obtain ⟨s, row, id, pending⟩ := pending_row unraced
  obtain ⟨t, there, owner, tier⟩ := since.same _ _ stored
  rw [row] at there
  cases there
  obtain ⟨holder, mine, stands⟩ := since.tiered.stands s (find?_some_iff.mp row).1
  simp only [Stands, pending] at stands
  have own : u.id = sub.userId := (find?_some_iff.mp found).2
  rw [← own] at found
  obtain ⟨v, now, same, up⟩ := risen_user later found
  have one : holder = v := by
    rw [owner, ← own, now] at mine
    exact (Option.some.inj mine).symm
  subst one
  have lower : u.kycTier ≠ sub.requestedTier := by omega
  rw [← id] at row
  apply KycCommit.approved holder s review row pending status _ mine stands
  · simp [promotion, lower, id, tier, same]
  · rw [owner]
    exact other

end States

section Sessions
variable {α : Type} {F : Database → IdentityMap → List Row → List Write → Prop} {v : Window}

abbrev Racing (F : Database → IdentityMap → List Row → List Write → Prop) (p : Tx α) (v : Window) : Prop :=
  Guarantees (Rely KycCommit) Checked F p v

theorem enrols_racing {p : Tx α} (emits : Emits enrols p) (bare : v.pending = []) : Racing F p v := by
  apply emits_wp _ emits
  · simp [bare]
  · intro ws s all _
    exact .enrolled all

theorem recorded_racing {entry : AuditLog} {a : α} (bare : v.pending = []) :
    Racing F (auditLog entry >>= fun _ => (.ret a : Tx α)) v :=
  enrols_racing (emits_audited (fun _ => trivial) entry a) bare

theorem submitKyc_racing {user : User} {targetTier : Nat} {fileBytes : List UInt8} {submissionId : Uuid}
    {documentKey : String} (bare : v.pending = []) (tiered : Tiered v.db)
    (found : v.db.users.find? user.id = some user) :
    Racing F (submitKyc user targetTier fileBytes submissionId documentKey) v := by
  unfold submitKyc
  apply checked_then
  intro _
  apply checked_then
  intro _
  apply checked_then
  intro next
  apply read_then
  intro u first
  have clean : u.pending = [] := by rw [first.pending, bare]; rfl
  cases KYCRepository.activeForTier user.id targetTier (applyAll u.pending u.db) with
  | some active =>
    dsimp only
    split <;> trivial
  | none =>
    dsimp only
    apply called_then
    intro _ w second
    unfold KYCRepository.create
    rw [ret_seq, seq_seq]
    apply insertAccount_then
    intro x third _
    have pending : x.pending = [.account (.insertSubmission
        { id := submissionId, userId := user.id, requestedTier := targetTier, documentKey })] := by
      rw [third.pending, second.pending, clean]
      rfl
    apply committed_then
    · intro db rely
      have since : Since v.db db :=
        since_rely (since_rely (since_rely (since_rely (since_refl tiered) first.rely) second.rely)
          third.rely) rely
      rw [pending]
      apply submission_commit since found rfl _ rfl rfl
      exact (of_decide_eq_true next).symm
    · intro y empty
      exact recorded_racing empty

theorem getSubmission_racing {submissionId : Uuid} {k : KYCSubmission → Tx α} (bare : v.pending = [])
    (onward : ∀ sub u, Onward (Rely KycCommit) v u [] → u.pending = [] → sub.id = submissionId →
      u.db.kycSubmissions.find? sub.id = some sub → Racing F (k sub) u) :
    Racing F (getSubmission submissionId >>= k) v := by
  unfold getSubmission KYCRepository.getById
  rw [seq_seq]
  apply read_then
  intro u first
  have clean : u.pending = [] := by rw [first.pending, bare]; rfl
  rw [clean, applyAll_nil]
  apply given_then
  intro sub stored
  have own : sub.id = submissionId := (find?_some_iff.mp stored).2
  apply onward sub u first clean own
  rw [own]
  exact stored

theorem rejectKyc_racing {submissionId : Uuid} {reviewer : User} {reason : String} {utcNow : Timestamp}
    (bare : v.pending = []) (tiered : Tiered v.db) :
    Racing F (rejectKyc submissionId reviewer reason utcNow) v := by
  unfold rejectKyc
  apply getSubmission_racing bare
  intro sub u first clean _ stored
  apply checked_then
  intro _
  apply checked_then
  intro other
  unfold KYCRepository.review
  rw [seq_seq]
  apply flush_then
  intro w second _
  apply committed_then
  · intro db rely
    have read : Tiered u.db := (since_rely (since_refl tiered) first.rely).tiered
    have since : Since u.db db := since_rely (since_rely (since_refl read) second.rely) rely
    rw [second.pending, clean]
    exact rejection_commit since stored rfl (of_decide_eq_true other)
  · intro y empty
    exact recorded_racing empty

theorem approveKyc_racing {submissionId : Uuid} {reviewer : User} {utcNow : Timestamp}
    (bare : v.pending = []) (tiered : Tiered v.db) :
    Racing F (approveKyc submissionId reviewer utcNow) v := by
  unfold approveKyc
  apply getSubmission_racing bare
  intro sub u first clean _ stored
  apply checked_then
  intro _
  apply checked_then
  intro _
  apply checked_then
  intro other
  unfold KYCRepository.review
  rw [seq_seq]
  apply flush_then
  intro w second _
  unfold updateKycTier UserRepository.getById
  rw [pure_bind, seq_seq]
  apply read_then
  intro x third
  have users : (applyAll x.pending x.db).users = x.db.users := by
    rw [third.pending, second.pending, clean]
    rfl
  rw [seq_seq]
  apply given_then
  intro user picked
  have found : x.db.users.find? sub.userId = some user := by
    rw [← users]
    exact (Option.filter_eq_some_iff.mp picked).1
  unfold UserRepository.updateKycTier
  rw [seq_seq]
  apply flush_then
  intro y fourth _
  apply committed_then
  · intro db rely
    have read : Since u.db u.db := since_refl (since_rely (since_refl tiered) first.rely).tiered
    have then_ : Since u.db x.db := since_rely (since_rely read second.rely) third.rely
    have later : Since x.db db := since_rely (since_rely (since_refl then_.tiered) fourth.rely) rely
    have since : Since u.db db := since_rely (since_rely then_ fourth.rely) rely
    rw [fourth.pending, third.pending, second.pending, clean]
    exact approval_commit since stored found later rfl (of_decide_eq_true other)
  · intro z empty
    exact recorded_racing empty

theorem currentUser_racing {userId : Uuid} {k : User → Tx α} (bare : v.pending = []) (tiered : Tiered v.db)
    (onward : ∀ user u, u.pending = [] → Tiered u.db → u.db.users.find? user.id = some user →
      Racing F (k user) u) :
    Racing F (getCurrentUser userId >>= k) v := by
  unfold getCurrentUser UserRepository.getById
  rw [seq_seq]
  apply read_then
  intro u first
  have clean : u.pending = [] := by rw [first.pending, bare]; rfl
  rw [clean, applyAll_nil, seq_seq]
  apply given_then
  intro user picked
  have stored : u.db.users.find? userId = some user := (Option.filter_eq_some_iff.mp picked).1
  rw [seq_seq]
  apply checked_then
  intro _
  apply onward user u clean (since_rely (since_refl tiered) first.rely).tiered
  rw [show user.id = userId from (find?_some_iff.mp stored).2]
  exact stored

theorem request_racing {op : Operation} (kind : concernsKyc op) (bare : v.pending = [])
    (tiered : Tiered v.db) :
    Racing F op.program v := by
  cases op with
  | money job =>
    cases job with
    | register cfg normalize email hashed name phone draws =>
      have emits :
          Emits enrols (Operation.money (.register cfg normalize email hashed name phone draws)).program :=
        emits_seq (emits_register (fun _ h _ => h) (fun _ _ _ => trivial) (fun _ => trivial)
          (fun _ => trivial)
          _ _ _ _ _ _ _) (fun _ => trivial)
      exact enrols_racing emits bare
    | _ => exact kind.elim
  | submitKyc currentUserId targetTier fileBytes submissionId documentKey =>
    apply currentUser_racing bare tiered
    intro user u clean there found
    exact quietly_guarantees (submitKyc_racing clean there found)
  | approveKyc submissionId reviewer utcNow => exact quietly_guarantees (approveKyc_racing bare tiered)
  | rejectKyc submissionId reviewer reason utcNow => exact quietly_guarantees (rejectKyc_racing bare tiered)
  | _ => exact kind.elim

end Sessions

end PayCoreKycRaces
