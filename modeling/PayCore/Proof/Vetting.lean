import PayCore.Proof.Persistence
import PayCore.Service.Support

/- Who may move money, and how much: the reviews that stand behind every tier and every transaction. -/
namespace PayCoreVetting
open KeyedTable SessionProgram PayCoreTables PayCoreWrites PayCoreSessions PayCoreSupport PayCorePersistence

section Policy
variable (admin : Uuid → Prop) (cfg : Settings)

/-- An admin who is somebody else has reviewed documents of the user for the tier or for a higher one. -/
def Reviewed (userId : Uuid) (tier : Nat) (db : Database) : Prop :=
  ∃ s ∈ db.kycSubmissions.rows, s.userId = userId ∧ tier ≤ s.requestedTier ∧ s.status ≠ .pending ∧
    ∃ r, s.reviewerId = some r ∧ r ≠ userId ∧ admin r

def singleLimit (tier : Nat) : Int :=
  kobo (if tier = 1 then cfg.kycTier1SingleLimit else cfg.kycTier2SingleLimit)

def Suffices (type : TransactionType) (amount : Int) (tier : Nat) : Prop :=
  tier ≠ 0 ∧ (type = .withdrawal → 2 ≤ tier) ∧ amount ≤ singleLimit cfg tier

/-- The transactions that take money from a wallet at the wish of its owner. -/
def spends : TransactionType → Prop
  | .transfer | .merchantPayment | .withdrawal => True
  | _ => False

/-- The initiator has been reviewed for a tier that allows the transaction. -/
def Justified (t : Transaction) (db : Database) : Prop :=
  spends t.type → ∃ tier, Suffices cfg t.type t.amount tier ∧ Reviewed admin t.initiatedByUserId tier db

structure Vetted (db : Database) : Prop where
  admins : ∀ u ∈ db.users.rows, u.role = .admin → admin u.id
  tiers : ∀ u ∈ db.users.rows, u.kycTier ≠ 0 → Reviewed admin u.id u.kycTier db
  spendings : ∀ t ∈ db.transactions.rows, Justified admin cfg t db

def OfAnother (reviewer id : Uuid) (db : Database) : Prop :=
  ∃ s ∈ db.kycSubmissions.rows, s.id = id ∧ s.userId ≠ reviewer

def Sanctioned (db : Database) : Write → Prop
  | .insertUser u => u.role ≠ .admin ∧ u.kycTier = 0
  | .insertTransaction t => Justified admin cfg t db
  | .account (.updateUser id set) =>
      set.role ≠ some .admin ∧ ∀ tier, set.kycTier = some tier → tier ≠ 0 → Reviewed admin id tier db
  | .account (.reviewSubmission id review) =>
      review.status ≠ .pending ∧ admin review.reviewerId ∧ OfAnother review.reviewerId id db
  | _ => True

/-- Each write is sanctioned where those before it stand. -/
def VettedCommit : List Write → Database → Prop
  | [], _ => True
  | w :: ws, db => Sanctioned admin cfg db w ∧ VettedCommit ws (applyWrite w db)

end Policy

section Writes
variable {admin : Uuid → Prop} {cfg : Settings} {db : Database} {userId : Uuid} {tier : Nat}

theorem submission_stays {w : Write} {s : KYCSubmission} (mem : s ∈ db.kycSubmissions.rows)
    (other : ∀ id review, w ≠ .account (.reviewSubmission id review)) :
    s ∈ (applyWrite w db).kycSubmissions.rows := by
  cases w with
  | account w =>
    cases w with
    | insertSubmission a => exact mem_insert mem
    | reviewSubmission id review => exact absurd rfl (other id review)
    | _ => exact mem
  | _ => exact mem

theorem reviewed_again {id : Uuid} {review : Review} (status : review.status ≠ .pending)
    (reviewer : admin review.reviewerId)
    (another : OfAnother review.reviewerId id db) (h : Reviewed admin userId tier db) :
    Reviewed admin userId tier (applyWrite (.account (.reviewSubmission id review)) db) := by
  obtain ⟨s, mem, owner, enough, past, r, named, apart, vouched⟩ := h
  obtain ⟨a, there, own, other⟩ := another
  refine ⟨editAt id (reviewEdit review) s, kept_update (t := db.kycSubmissions) mem, ?_⟩
  by_cases here : s.id = id
  · have moved : editAt id (reviewEdit review) s = (reviewEdit review).on s := if_pos here
    rw [moved]
    have one : a = s := by
      have first : db.kycSubmissions.find? id = some a := find?_some_iff.mpr ⟨there, own⟩
      have second : db.kycSubmissions.find? id = some s := find?_some_iff.mpr ⟨mem, here⟩
      rw [first] at second
      exact Option.some.inj second
    rw [one, owner] at other
    exact ⟨owner, enough, status, review.reviewerId, rfl, Ne.symm other, reviewer⟩
  · have stayed : editAt id (reviewEdit review) s = s := if_neg here
    rw [stayed]
    exact ⟨owner, enough, past, r, named, apart, vouched⟩

theorem reviewed_write {w : Write} (ok : Sanctioned admin cfg db w) (h : Reviewed admin userId tier db) :
    Reviewed admin userId tier (applyWrite w db) := by
  by_cases review : ∃ id review, w = .account (.reviewSubmission id review)
  · obtain ⟨id, review, rfl⟩ := review
    exact reviewed_again ok.1 ok.2.1 ok.2.2 h
  · obtain ⟨s, mem, facts⟩ := h
    exact ⟨s, submission_stays mem (fun id set same => review ⟨id, set, same⟩), facts⟩

/-- Nothing takes a submission from its owner, or changes the tier that it asks for. -/
def Asked (userId id : Uuid) (tier : Nat) (db : Database) : Prop :=
  ∃ s ∈ db.kycSubmissions.rows, s.id = id ∧ s.userId = userId ∧ s.requestedTier = tier

theorem asked_write {id : Uuid} (w : Write) (h : Asked userId id tier db) :
    Asked userId id tier (applyWrite w db) := by
  obtain ⟨s, mem, facts⟩ := h
  by_cases review : ∃ k review, w = .account (.reviewSubmission k review)
  · obtain ⟨k, review, rfl⟩ := review
    refine ⟨editAt k (reviewEdit review) s, kept_update (t := db.kycSubmissions) mem, ?_⟩
    unfold editAt
    split <;> exact facts
  · exact ⟨s, submission_stays mem (fun id set same => review ⟨id, set, same⟩), facts⟩

theorem asked_all {id : Uuid} (ws : List Write) (h : Asked userId id tier db) :
    Asked userId id tier (applyAll ws db) := by
  induction ws generalizing db with
  | nil => exact h
  | cons w ws ih => exact ih (asked_write w h)

theorem another_write {reviewer id : Uuid} (w : Write) (h : OfAnother reviewer id db) :
    OfAnother reviewer id (applyWrite w db) := by
  obtain ⟨s, mem, own, other⟩ := h
  obtain ⟨a, there, same, owner, _⟩ := asked_write w ⟨s, mem, own, rfl, rfl⟩
  exact ⟨a, there, same, by rw [owner]; exact other⟩

theorem justified_write {w : Write} {t : Transaction} (ok : Sanctioned admin cfg db w)
    (h : Justified admin cfg t db) :
    Justified admin cfg t (applyWrite w db) := by
  intro spending
  obtain ⟨tier, enough, reviewed⟩ := h spending
  exact ⟨tier, enough, reviewed_write ok reviewed⟩

theorem sanctioned_write {v w : Write} (ok : Sanctioned admin cfg db w) (h : Sanctioned admin cfg db v) :
    Sanctioned admin cfg (applyWrite w db) v := by
  cases v with
  | insertTransaction t => exact justified_write ok h
  | insertUser u => exact h
  | account v =>
    cases v with
    | updateUser id set =>
      exact ⟨h.1, fun tier sets climbs => reviewed_write ok (h.2 tier sets climbs)⟩
    | reviewSubmission id review => exact ⟨h.1, h.2.1, another_write w h.2.2⟩
    | _ => trivial
  | _ => trivial

theorem vetted_plain {ws : List Write} (all : ∀ w ∈ ws, Sanctioned admin cfg db w) :
    VettedCommit admin cfg ws db := by
  induction ws generalizing db with
  | nil => trivial
  | cons w ws ih =>
    have first := all w List.mem_cons_self
    refine ⟨first, ih ?_⟩
    exact fun v mem => sanctioned_write first (all v (List.mem_cons_of_mem w mem))

theorem reviewed_commit {ws : List Write} (commit : VettedCommit admin cfg ws db)
    (h : Reviewed admin userId tier db) :
    Reviewed admin userId tier (applyAll ws db) := by
  induction ws generalizing db with
  | nil => exact h
  | cons w ws ih => exact ih commit.2 (reviewed_write commit.1 h)

theorem spendings_write {w : Write} (ok : Sanctioned admin cfg db w) (h : Vetted admin cfg db) :
    ∀ t ∈ (applyWrite w db).transactions.rows, Justified admin cfg t (applyWrite w db) := by
  have kept : ∀ t ∈ db.transactions.rows, Justified admin cfg t (applyWrite w db) :=
    fun t mem => justified_write ok (h.spendings t mem)
  intro t mem
  cases w with
  | insertTransaction a =>
    rcases insert_back mem with old | rfl
    · exact kept t old
    · exact justified_write ok ok
  | updateTransaction id set =>
    obtain ⟨a, old, rfl⟩ := mem_update (t := db.transactions) mem
    have same := kept a old
    unfold editAt
    split
    · exact same
    · exact same
  | account w =>
    rw [applyWrite, account_transactions] at mem
    exact kept t mem
  | _ => exact kept t mem

theorem users_write {w : Write} (ok : Sanctioned admin cfg db w) (h : Vetted admin cfg db) :
    ∀ u ∈ (applyWrite w db).users.rows, (u.role = .admin → admin u.id) ∧
      (u.kycTier ≠ 0 → Reviewed admin u.id u.kycTier (applyWrite w db)) := by
  have kept : ∀ u ∈ db.users.rows, (u.role = .admin → admin u.id) ∧
      (u.kycTier ≠ 0 → Reviewed admin u.id u.kycTier (applyWrite w db)) :=
    fun u mem => ⟨h.admins u mem, fun climbed => reviewed_write ok (h.tiers u mem climbed)⟩
  intro u mem
  cases w with
  | insertUser a =>
    rcases insert_back mem with old | rfl
    · exact kept u old
    · exact ⟨fun role => absurd role ok.1, fun climbed => absurd ok.2 climbed⟩
  | account w =>
    cases w with
    | updateUser id set =>
      obtain ⟨a, old, rfl⟩ := mem_update (t := db.users) mem
      have same := kept a old
      by_cases here : a.id = id
      · have moved : editAt id (userEdit set) a = (userEdit set).on a := if_pos here
        rw [moved]
        constructor
        · cases role : set.role with
          | none => simpa [userEdit, role] using same.1
          | some r =>
            intro becomes
            have given : r = .admin := by simpa [userEdit, role] using becomes
            rw [given] at role
            exact absurd role ok.1
        · cases climbs : set.kycTier with
          | none => simpa [userEdit, climbs] using same.2
          | some tier =>
            intro climbed
            have sets : ((userEdit set).on a).kycTier = tier := by simp [userEdit, climbs]
            rw [sets] at climbed ⊢
            change Reviewed admin a.id tier _
            rw [here]
            have justified : Reviewed admin id tier db := ok.2 tier climbs climbed
            exact reviewed_write ok justified
      · have stayed : editAt id (userEdit set) a = a := if_neg here
        rw [stayed]
        exact same
    | changePhone id held phone =>
      rcases revise_back mem with old | ⟨a, old, rfl⟩
      · exact kept u old
      have same := kept a old
      unfold rephone
      split
      · exact same
      · exact same
    | _ => exact kept u mem
  | _ => exact kept u mem

theorem vetted_write {w : Write} (ok : Sanctioned admin cfg db w) (h : Vetted admin cfg db) :
    Vetted admin cfg (applyWrite w db) where
  admins u mem := (users_write ok h u mem).1
  tiers u mem := (users_write ok h u mem).2
  spendings := spendings_write ok h

theorem vetted_commit {ws : List Write} (commit : VettedCommit admin cfg ws db) (h : Vetted admin cfg db) :
    Vetted admin cfg (applyAll ws db) := by
  induction ws generalizing db with
  | nil => exact h
  | cons w ws ih => exact ih commit.2 (vetted_write commit.1 h)

end Writes

end PayCoreVetting
