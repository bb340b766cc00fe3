import PayCore.Proof.LoneRules
import PayCore.Proof.Regularity
import PayCore.Service.Operations

/- What the KYC requests commit, whatever fails, and how tiers and submissions stand to each
   other after it. -/
namespace PayCoreKycRules
open KeyedTable SessionProgram SessionSystem LoneSessions PayCoreTables PayCoreWrites PayCoreSessions
open PayCoreRepositories PayCoreSupport PayCoreAccounts PayCoreKyc PayCoreJobs PayCoreOperations
open PayCoreRegularity PayCorePersistence PayCoreLoneRules

def concernsKyc : Operation → Prop
  | .money (.register ..) => True
  | .submitKyc _ targetTier .. => targetTier = 1 ∨ targetTier = 2
  | .approveKyc .. => True
  | .rejectKyc .. => True
  | _ => False

def Anything (_ : Request) (_ : PaystackData) : Prop := True

/-- Where a submission stands between the tier it asks for and the tier of its owner. -/
def Stands (s : KYCSubmission) (tier : Nat) : Prop :=
  match s.status with
  | .pending => s.requestedTier = tier + 1
  | .approved => 1 ≤ s.requestedTier ∧ s.requestedTier ≤ tier
  | .rejected => True

def ApprovedAt (userId : Uuid) (tier : Nat) (db : Database) : Prop :=
  ∃ s ∈ db.kycSubmissions.rows, s.userId = userId ∧ s.requestedTier = tier ∧ s.status = .approved

structure Tiered (db : Database) : Prop where
  stands : ∀ s ∈ db.kycSubmissions.rows, ∃ u, db.users.find? s.userId = some u ∧ Stands s u.kycTier
  climbed : ∀ u ∈ db.users.rows, ∀ tier, 1 ≤ tier → tier ≤ u.kycTier → ApprovedAt u.id tier db
  single : ∀ s ∈ db.kycSubmissions.rows, ∀ t ∈ db.kycSubmissions.rows, s.userId = t.userId →
    s.requestedTier = t.requestedTier → s.status ≠ .rejected → t.status ≠ .rejected → s = t
  reviewed : ∀ s ∈ db.kycSubmissions.rows, s.reviewerId ≠ some s.userId

def Risen (a b : Database) : Prop :=
  ∀ u ∈ a.users.rows, ∃ v ∈ b.users.rows, v.id = u.id ∧ u.kycTier ≤ v.kycTier

def enrols : Write → Prop
  | .insertUser u => u.kycTier = 0
  | .insertWallet _ => True
  | .insertRefreshToken _ => True
  | .insertAuditLog _ => True
  | _ => False

/-- What the requests commit. -/
inductive KycCommit (ws : List Write) (db : Database) : Prop where
  | enrolled (all : ∀ w ∈ ws, enrols w)
  | submitted (u : User) (s : KYCSubmission) (found : db.users.find? u.id = some u)
      (owner : s.userId = u.id) (next : s.requestedTier = u.kycTier + 1) (pending : s.status = .pending)
      (fresh : s.reviewerId = none) (free : KYCRepository.activeForTier u.id s.requestedTier db = none)
      (only : ws = [.account (.insertSubmission s)])
  | approved (u : User) (s : KYCSubmission) (review : Review)
      (stored : db.kycSubmissions.find? s.id = some s) (pending : s.status = .pending)
      (status : review.status = .approved) (other : review.reviewerId ≠ s.userId)
      (found : db.users.find? s.userId = some u) (next : s.requestedTier = u.kycTier + 1)
      (both : ws = [.account (.reviewSubmission s.id review),
        .account (.updateUser u.id { kycTier := some s.requestedTier })])
  | rejected (s : KYCSubmission) (review : Review) (stored : db.kycSubmissions.find? s.id = some s)
      (pending : s.status = .pending) (status : review.status = .rejected)
      (other : review.reviewerId ≠ s.userId)
      (only : ws = [.account (.reviewSubmission s.id review)])

section Commits
variable {db : Database} {s : KYCSubmission} {u : User}

theorem risen_refl (db : Database) : Risen db db := fun u mem => ⟨u, mem, rfl, Nat.le_refl _⟩

theorem risen_trans {a b c : Database} (left : Risen a b) (right : Risen b c) : Risen a c := by
  intro u mem
  obtain ⟨v, there, id, up⟩ := left u mem
  obtain ⟨w, final, same, higher⟩ := right v there
  exact ⟨w, final, same.trans id, Nat.le_trans up higher⟩

theorem tiered_enrols {w : Write} (h : Tiered db) (all : enrols w) :
    Tiered (applyWrite w db) ∧ Risen db (applyWrite w db) := by
  cases w with
  | insertUser a =>
    constructor
    · constructor
      · intro s mem
        obtain ⟨u, found, stands⟩ := h.stands s mem
        exact ⟨u, find?_insert_kept found, stands⟩
      · intro u mem tier low high
        cases free : db.users.admits a with
        | false =>
          simp only [applyWrite, insert_refused free] at mem
          exact h.climbed u mem tier low high
        | true =>
          simp only [applyWrite, insert_rows free, List.mem_append, List.mem_singleton] at mem
          rcases mem with old | new
          · exact h.climbed u old tier low high
          · rw [new] at high
            have zero : a.kycTier = 0 := all
            omega
      · exact h.single
      · exact h.reviewed
    · intro u mem
      exact ⟨u, mem_insert mem, rfl, Nat.le_refl _⟩
  | insertWallet => exact ⟨⟨h.stands, h.climbed, h.single, h.reviewed⟩, risen_refl db⟩
  | insertRefreshToken => exact ⟨⟨h.stands, h.climbed, h.single, h.reviewed⟩, risen_refl db⟩
  | insertAuditLog => exact ⟨⟨h.stands, h.climbed, h.single, h.reviewed⟩, risen_refl db⟩
  | _ => exact all.elim

theorem tiered_enrolled {ws : List Write} (h : Tiered db) (all : ∀ w ∈ ws, enrols w) :
    Tiered (applyAll ws db) ∧ Risen db (applyAll ws db) := by
  induction ws generalizing db with
  | nil => exact ⟨h, risen_refl db⟩
  | cons w ws ih =>
    obtain ⟨tiered, risen⟩ := tiered_enrols h (all w (by simp))
    obtain ⟨after, higher⟩ := ih tiered (fun v mem => all v (List.mem_cons_of_mem w mem))
    exact ⟨after, risen_trans risen higher⟩

theorem tiered_submitted (h : Tiered db) (found : db.users.find? u.id = some u) (owner : s.userId = u.id)
    (next : s.requestedTier = u.kycTier + 1) (pending : s.status = .pending) (fresh : s.reviewerId = none)
    (free : KYCRepository.activeForTier u.id s.requestedTier db = none) :
    Tiered (applyWrite (.account (.insertSubmission s)) db) := by
  cases admitted : db.kycSubmissions.admits s with
  | false =>
    have same : applyWrite (.account (.insertSubmission s)) db = db := by
      simp [applyWrite, applyAccount, insert_refused admitted]
    rw [same]
    exact h
  | true =>
    have rows : (applyWrite (.account (.insertSubmission s)) db).kycSubmissions.rows =
        db.kycSubmissions.rows ++ [s] := insert_rows admitted
    have alone : ∀ t ∈ db.kycSubmissions.rows, t.userId = s.userId → t.requestedTier = s.requestedTier →
        t.status ≠ .rejected → False := by
      intro t mem user tier live
      have absent := List.find?_eq_none.mp free t mem
      simp [user, owner, tier, live] at absent
    constructor
    · intro t mem
      rw [rows, List.mem_append, List.mem_singleton] at mem
      rcases mem with old | rfl
      · exact h.stands t old
      · refine ⟨u, by rw [owner]; exact found, ?_⟩
        simp [Stands, pending, next]
    · intro v mem tier low high
      obtain ⟨t, among, facts⟩ := h.climbed v mem tier low high
      exact ⟨t, by rw [rows]; exact List.mem_append_left _ among, facts⟩
    · intro t memT r memR user tier liveT liveR
      rw [rows, List.mem_append, List.mem_singleton] at memT memR
      rcases memT with oldT | rfl
      · rcases memR with oldR | rfl
        · exact h.single t oldT r oldR user tier liveT liveR
        · exact (alone t oldT user tier liveT).elim
      · rcases memR with oldR | rfl
        · exact (alone r oldR user.symm tier.symm liveR).elim
        · rfl
    · intro t mem
      rw [rows, List.mem_append, List.mem_singleton] at mem
      rcases mem with old | rfl
      · exact h.reviewed t old
      · simp [fresh]

/-- The table after the review of one submission. -/
structure Reviewed (s : KYCSubmission) (review : Review) (a b : Table KYCSubmission) : Prop where
  old : ∀ t ∈ b.rows, t = (reviewEdit review).on s ∨ (t ∈ a.rows ∧ t.id ≠ s.id)
  kept : ∀ t ∈ a.rows, t.id ≠ s.id → t ∈ b.rows
  here : (reviewEdit review).on s ∈ b.rows

theorem reviewed_update {table : Table KYCSubmission} (stored : table.find? s.id = some s)
    (review : Review) :
    Reviewed s review table (table.update s.id (reviewEdit review)) := by
  obtain ⟨mem, _⟩ := find?_some_iff.mp stored
  have edited : ∀ t ∈ table.rows, (t.id = s.id ∧ t = s) ∨ t.id ≠ s.id := by
    intro t among
    by_cases same : t.id = s.id
    · have found : table.find? s.id = some t := find?_some_iff.mpr ⟨among, same⟩
      rw [stored] at found
      cases found
      exact .inl ⟨rfl, rfl⟩
    · exact .inr same
  constructor
  · intro t among
    obtain ⟨a, first, rfl⟩ := mem_update among
    rcases edited a first with ⟨_, rfl⟩ | other
    · exact .inl (if_pos rfl)
    · have same : editAt s.id (reviewEdit review) a = a := if_neg other
      rw [same]
      exact .inr ⟨first, other⟩
  · intro t among other
    have same : editAt s.id (reviewEdit review) t = t := if_neg other
    rw [← same]
    exact kept_update among
  · have changes : editAt s.id (reviewEdit review) s = (reviewEdit review).on s := if_pos rfl
    rw [← changes]
    exact kept_update mem

theorem review_keeps {db after : Database} {review : Review} (h : Tiered db)
    (stored : db.kycSubmissions.find? s.id = some s) (pending : s.status = .pending)
    (other : review.reviewerId ≠ s.userId)
    (reviewed : Reviewed s review db.kycSubmissions after.kycSubmissions) :
    (∀ t ∈ after.kycSubmissions.rows, ∀ r ∈ after.kycSubmissions.rows, t.userId = r.userId →
      t.requestedTier = r.requestedTier → t.status ≠ .rejected → r.status ≠ .rejected → t = r) ∧
    ∀ t ∈ after.kycSubmissions.rows, t.reviewerId ≠ some t.userId := by
  have mem := (find?_some_iff.mp stored).1
  have live : s.status ≠ .rejected := by simp [pending]
  constructor
  · intro t memT r memR user tier liveT liveR
    rcases reviewed.old t memT with rfl | ⟨oldT, otherT⟩
    · rcases reviewed.old r memR with rfl | ⟨oldR, otherR⟩
      · rfl
      · have same := h.single s mem r oldR user tier live liveR
        exact absurd (by rw [same]) otherR
    · rcases reviewed.old r memR with rfl | ⟨oldR, otherR⟩
      · have same := h.single t oldT s mem user tier liveT live
        exact absurd (by rw [same]) otherT
      · exact h.single t oldT r oldR user tier liveT liveR
  · intro t memT
    rcases reviewed.old t memT with rfl | ⟨oldT, _⟩
    · simpa [reviewEdit] using other
    · exact h.reviewed t oldT

theorem approved_kept {db after : Database} {review : Review} {userId : Uuid} {tier : Nat}
    (stored : db.kycSubmissions.find? s.id = some s) (pending : s.status = .pending)
    (reviewed : Reviewed s review db.kycSubmissions after.kycSubmissions)
    (approved : ApprovedAt userId tier db) : ApprovedAt userId tier after := by
  obtain ⟨t, mem, user, asked, status⟩ := approved
  have other : t.id ≠ s.id := by
    intro same
    have found : db.kycSubmissions.find? s.id = some t := find?_some_iff.mpr ⟨mem, same⟩
    rw [stored] at found
    cases found
    rw [pending] at status
    cases status
  exact ⟨t, reviewed.kept t mem other, user, asked, status⟩

theorem tiered_rejected {review : Review} (h : Tiered db) (stored : db.kycSubmissions.find? s.id = some s)
    (pending : s.status = .pending) (status : review.status = .rejected)
    (other : review.reviewerId ≠ s.userId) :
    Tiered (applyWrite (.account (.reviewSubmission s.id review)) db) := by
  have reviewed : Reviewed s review db.kycSubmissions
      (applyWrite (.account (.reviewSubmission s.id review)) db).kycSubmissions :=
      reviewed_update stored review
  obtain ⟨single, apart⟩ := review_keeps h stored pending other reviewed
  constructor
  · intro t mem
    rcases reviewed.old t mem with rfl | ⟨old, _⟩
    · obtain ⟨u, found, _⟩ := h.stands s (find?_some_iff.mp stored).1
      refine ⟨u, found, ?_⟩
      simp [Stands, reviewEdit, status]
    · exact h.stands t old
  · intro v mem tier low high
    exact approved_kept stored pending reviewed (h.climbed v mem tier low high)
  · exact single
  · exact apart

theorem promoted_rows {users : Table User} (found : users.find? u.id = some u) (tier : Nat) :
    (∀ v ∈ (users.update u.id (userEdit { kycTier := some tier })).rows,
      v = { u with kycTier := tier } ∨ (v ∈ users.rows ∧ v.id ≠ u.id)) ∧
    (∀ v ∈ users.rows, v = u ∨ v.id ≠ u.id) := by
  have apart : ∀ v ∈ users.rows, v = u ∨ v.id ≠ u.id := by
    intro v mem
    by_cases same : v.id = u.id
    · have there : users.find? u.id = some v := find?_some_iff.mpr ⟨mem, same⟩
      rw [found] at there
      cases there
      exact .inl rfl
    · exact .inr same
  constructor
  · intro v mem
    obtain ⟨a, first, rfl⟩ := mem_update mem
    rcases apart a first with rfl | other
    · exact .inl (if_pos rfl)
    · have same : editAt u.id (userEdit { kycTier := some tier }) a = a := if_neg other
      rw [same]
      exact .inr ⟨first, other⟩
  · exact apart

theorem tiered_approved {review : Review} (h : Tiered db) (stored : db.kycSubmissions.find? s.id = some s)
    (pending : s.status = .pending) (status : review.status = .approved)
    (other : review.reviewerId ≠ s.userId) (found : db.users.find? s.userId = some u)
    (next : s.requestedTier = u.kycTier + 1) :
    let after := applyAll [Write.account (.reviewSubmission s.id review),
      Write.account (.updateUser u.id { kycTier := some s.requestedTier })] db
    Tiered after ∧ Risen db after := by
  intro after
  have own : u.id = s.userId := (find?_some_iff.mp found).2
  have reviewed : Reviewed s review db.kycSubmissions after.kycSubmissions := reviewed_update stored review
  obtain ⟨single, apart⟩ := review_keeps h stored pending other reviewed
  have users : after.users = db.users.update u.id (userEdit { kycTier := some s.requestedTier }) := rfl
  have there : db.users.find? u.id = some u := by
    rw [own]
    exact found
  obtain ⟨promoted, distinct⟩ := promoted_rows there s.requestedTier
  have mine : after.users.find? s.userId = some { u with kycTier := s.requestedTier } := by
    rw [users, find?_update, if_pos own, found]
    rfl
  constructor
  · constructor
    · intro t mem
      rcases reviewed.old t mem with rfl | ⟨old, different⟩
      · refine ⟨_, mine, ?_⟩
        simp only [Stands, reviewEdit, status]
        omega
      · obtain ⟨v, holder, stands⟩ := h.stands t old
        by_cases same : t.userId = s.userId
        · rw [same, found] at holder
          cases holder
          rw [same]
          refine ⟨_, mine, ?_⟩
          unfold Stands at stands ⊢
          cases state : t.status with
          | rejected => trivial
          | approved =>
            simp only [state] at stands ⊢
            omega
          | pending =>
            -- A second pending submission would ask for the same tier.
            simp only [state] at stands
            have one := h.single t old s (find?_some_iff.mp stored).1 same (stands.trans next.symm)
              (by simp [state]) (by simp [pending])
            exact absurd (by rw [one]) different
        · refine ⟨v, ?_, stands⟩
          rw [users, find?_update_other (by rw [own]; exact Ne.symm same)]
          exact holder
    · intro v mem tier low high
      rcases promoted v mem with rfl | ⟨old, _⟩
      · by_cases top : tier = s.requestedTier
        · refine ⟨_, reviewed.here, own.symm, top.symm, status⟩
        · apply approved_kept stored pending reviewed
          apply h.climbed u (find?_some_iff.mp there).1 tier low
          change tier ≤ s.requestedTier at high
          omega
      · exact approved_kept stored pending reviewed (h.climbed v old tier low high)
    · exact single
    · exact apart
  · intro v mem
    rcases distinct v mem with rfl | different
    · refine ⟨_, (find?_some_iff.mp mine).1, rfl, ?_⟩
      change v.kycTier ≤ s.requestedTier
      omega
    · refine ⟨v, ?_, rfl, Nat.le_refl _⟩
      have same : editAt u.id (userEdit { kycTier := some s.requestedTier }) v = v := if_neg different
      rw [users, ← same]
      exact kept_update mem

theorem tiered_commit {ws : List Write} (h : Tiered db) (commit : KycCommit ws db) :
    Tiered (applyAll ws db) ∧ Risen db (applyAll ws db) := by
  cases commit with
  | enrolled all => exact tiered_enrolled h all
  | submitted u s found owner next pending fresh free only =>
    subst only
    exact ⟨tiered_submitted h found owner next pending fresh free, risen_refl db⟩
  | approved u s review stored pending status other found next both =>
    subst both
    exact tiered_approved h stored pending status other found next
  | rejected s review stored pending status other only =>
    subst only
    exact ⟨tiered_rejected h stored pending status other, risen_refl db⟩

end Commits

section Requests
variable {db : Database} {s : Held}

abbrev Always (_ : Request) (_ : Database) : Prop := True

theorem recorded {entry : AuditLog} {s : Held} {α : Type} {a : α} (bare : s.pending = []) :
    Sure Anything Always KycCommit (auditLog entry >>= fun _ => (.ret a : Tx α)) s := by
  apply auditLog_then bare
  · apply KycCommit.enrolled
    intro w mem
    rw [List.mem_singleton.mp mem]
    trivial
  · intros
    trivial

theorem quietly_sure {α : Type} {p : Tx α} {s : Held} (h : Sure Anything Always KycCommit p s) :
    Sure Anything Always KycCommit (quietly p) s := by
  apply sure_seq
  apply careful_mono _ h
  intro r u _
  cases r <;> trivial

theorem uploadFile_then {α : Type} {fileBytes : List UInt8} {documentKey : String} {k : Unit → Tx α}
    (onward : Sure Anything Always KycCommit (k ()) s) :
    Sure Anything Always KycCommit (uploadFile fileBytes documentKey >>= k) s :=
  ⟨trivial, fun _ _ => onward, trivial⟩

theorem create_then {α : Type} {submission : KYCSubmission} {k : KYCSubmission → Tx α}
    (onward : Sure Anything Always KycCommit (k submission)
      { s with pending := s.pending ++ [.account (.insertSubmission submission)] }) :
    Sure Anything Always KycCommit (KYCRepository.create submission >>= k) s := by
  unfold KYCRepository.create
  apply nested_then
  apply insertAccount_then
  intro _
  exact onward

theorem review_then {α : Type} {submission : KYCSubmission} {review : Review} {k : KYCSubmission → Tx α}
    (onward : Sure Anything Always KycCommit (k ((reviewEdit review).on submission))
      { s with pending := s.pending ++ [.account (.reviewSubmission submission.id review)] }) :
    Sure Anything Always KycCommit (KYCRepository.review submission review >>= k) s := by
  unfold KYCRepository.review
  apply nested_then
  exact flushAccount_then onward

theorem submitKyc_sure {user : User} {targetTier : Nat} {fileBytes : List UInt8} {submissionId : Uuid}
    {documentKey : String} (found : db.users.find? user.id = some user) :
    Sure Anything Always KycCommit (submitKyc user targetTier fileBytes submissionId documentKey)
      ⟨db, [], default, []⟩ := by
  unfold submitKyc
  apply require_then
  intro _
  apply require_then
  intro _
  apply require_then
  intro next
  apply query_then
  cases free : KYCRepository.activeForTier user.id targetTier db with
  | some active =>
    simp only [Local.seen, applyAll_nil, free]
    split <;> trivial
  | none =>
    simp only [Local.seen, applyAll_nil, free]
    apply uploadFile_then
    apply create_then
    apply commit_then
    · apply KycCommit.submitted user _ found rfl _ rfl rfl free rfl
      exact (of_decide_eq_true next).symm
    · exact recorded rfl

theorem getSubmission_then {α : Type} {submissionId : Uuid} {k : KYCSubmission → Tx α}
    (onward : ∀ sub, s.seen.kycSubmissions.find? submissionId = some sub →
      Sure Anything Always KycCommit (k sub) s) :
    Sure Anything Always KycCommit (getSubmission submissionId >>= k) s := by
  unfold getSubmission KYCRepository.getById
  apply nested_then
  apply query_then
  apply orRaise_then
  exact onward

theorem rejectKyc_sure {submissionId : Uuid} {reviewer : User} {reason : String} {utcNow : Timestamp} :
    Sure Anything Always KycCommit (rejectKyc submissionId reviewer reason utcNow)
      ⟨db, [], default, []⟩ := by
  unfold rejectKyc
  apply getSubmission_then
  intro sub stored
  have own : sub.id = submissionId := (find?_some_iff.mp stored).2
  subst own
  apply require_then
  intro pending
  apply require_then
  intro other
  apply review_then
  apply commit_then
  · exact KycCommit.rejected sub _ stored (of_decide_eq_true pending) rfl (of_decide_eq_true other) rfl
  · exact recorded rfl

theorem approveKyc_sure (tiered : Tiered db) {submissionId : Uuid} {reviewer : User} {utcNow : Timestamp} :
    Sure Anything Always KycCommit (approveKyc submissionId reviewer utcNow) ⟨db, [], default, []⟩ := by
  unfold approveKyc
  apply getSubmission_then
  intro sub stored
  have own : sub.id = submissionId := (find?_some_iff.mp stored).2
  subst own
  apply require_then
  intro notApproved
  apply require_then
  intro notRejected
  apply require_then
  intro other
  have pending : sub.status = .pending := by
    cases status : sub.status with
    | pending => rfl
    | approved => simp [status] at notApproved
    | rejected => simp [status] at notRejected
  apply review_then
  unfold updateKycTier
  apply nested_then
  apply query_then
  apply nested_then
  apply orRaise_then
  intro user picked
  obtain ⟨holder, _⟩ := Option.filter_eq_some_iff.mp picked
  have found : db.users.find? sub.userId = some user := holder
  obtain ⟨owner, there, stands⟩ := tiered.stands sub (find?_some_iff.mp stored).1
  rw [found] at there
  cases there
  simp only [Stands, pending] at stands
  have higher : user.kycTier ≠ sub.requestedTier := by omega
  unfold UserRepository.updateKycTier
  apply nested_then
  apply flushAccount_then
  apply commit_then
  · have apart : reviewer.id ≠ sub.userId := of_decide_eq_true other
    apply KycCommit.approved user sub
      { status := .approved, reviewerId := reviewer.id, reviewedAt := utcNow } stored pending rfl
        apart found stands
    simp [reviewEdit, higher, show user.id = sub.userId from (find?_some_iff.mp found).2]
  · exact recorded rfl

theorem getCurrentUser_then {α : Type} {userId : Uuid} {k : User → Tx α}
    (onward : ∀ user, s.seen.users.find? user.id = some user → Sure Anything Always KycCommit (k user) s) :
    Sure Anything Always KycCommit (getCurrentUser userId >>= k) s := by
  unfold getCurrentUser
  apply nested_then
  apply query_then
  apply nested_then
  apply orRaise_then
  intro user picked
  obtain ⟨found, _⟩ := Option.filter_eq_some_iff.mp picked
  have own : user.id = userId := (find?_some_iff.mp found).2
  apply nested_then
  apply require_then
  intro _
  apply onward
  rw [own]
  exact found

theorem request_sure (tiered : Tiered db) {op : Operation} (kind : concernsKyc op) :
    Sure Anything Always KycCommit op.program ⟨db, [], default, []⟩ := by
  cases op with
  | money job =>
    cases job with
    | register cfg normalize email hashed name phone draws =>
      apply quietly_sure
      have emits :
          Emits enrols (PayCoreRegistration.register cfg normalize email hashed name phone draws) :=
        emits_register (fun _ h _ => h) (fun _ _ _ => trivial) (fun _ => trivial) (fun _ => trivial)
          _ _ _ _ _ _ _
      exact emits_careful (fun _ _ _ => trivial) (fun ws db all => KycCommit.enrolled all)
        (asks_anything _) emits (by simp)
    | _ => exact kind.elim
  | submitKyc currentUserId targetTier fileBytes submissionId documentKey =>
    apply getCurrentUser_then
    intro user found
    exact quietly_sure (submitKyc_sure found)
  | approveKyc submissionId reviewer utcNow => exact quietly_sure (approveKyc_sure tiered)
  | rejectKyc submissionId reviewer reason utcNow => exact quietly_sure rejectKyc_sure
  | _ => exact kind.elim

end Requests

end PayCoreKycRules
