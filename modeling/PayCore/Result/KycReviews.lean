import PayCore.Proof.KycRaces
import PayCore.Result.KycTiers

/- Submissions, reviews and tiers over every interleaving of the KYC requests. -/
namespace PayCoreKycReviews
open KeyedTable SessionProgram SessionSystem RelyGuarantee PayCoreTables PayCoreWrites PayCoreSessions
open PayCoreRepositories PayCoreSupport PayCorePersistence PayCoreKyc PayCoreOperations PayCoreKycRules
open PayCoreKycRaces PayCoreKycTiers

variable {ι : Type}

abbrev Reviewing (ι : Type) := System ι Database IdentityMap Write Row Request PaystackData AppError Unit

def reviewing (db : Database) (ops : ι → Operation) : Reviewing ι := initial db (fun i => (ops i).program)

def Settled (a b : Database) : Prop :=
  ∀ s ∈ a.kycSubmissions.rows, s.status ≠ .pending → s ∈ b.kycSubmissions.rows

/-- What is promised of a committed state and a later one. -/
structure Upheld (a b : Database) : Prop where
  settled : Settled a b
  risen : Risen a b
  backed : ∀ u ∈ b.users.rows, 0 < u.kycTier → ApprovedAt u.id u.kycTier b

section Commits
variable {db : Database} {ws : List Write}

theorem enrolled_submissions (all : ∀ w ∈ ws, enrols w) :
    (applyAll ws db).kycSubmissions = db.kycSubmissions := by
  induction ws generalizing db with
  | nil => rfl
  | cons w ws ih =>
    have first := all w (by simp)
    have rest : (applyAll ws (applyWrite w db)).kycSubmissions = (applyWrite w db).kycSubmissions :=
      ih (fun v mem => all v (List.mem_cons_of_mem w mem))
    cases w with
    | account => exact first.elim
    | _ => exact rest

theorem settled_review {s t : KYCSubmission} {review : Review} {after : Database}
    (stored : db.kycSubmissions.find? s.id = some s) (pending : s.status = .pending)
    (reviewed : Reviewed s review db.kycSubmissions after.kycSubmissions) (mem : t ∈ db.kycSubmissions.rows)
    (done : t.status ≠ .pending) : t ∈ after.kycSubmissions.rows := by
  apply reviewed.kept t mem
  intro same
  have found : db.kycSubmissions.find? s.id = some t := find?_some_iff.mpr ⟨mem, same⟩
  rw [stored] at found
  cases found
  exact done pending

theorem settled_commit (commit : KycCommit ws db) : Settled db (applyAll ws db) := by
  intro t mem done
  cases commit with
  | enrolled all =>
    rw [enrolled_submissions all]
    exact mem
  | submitted u s found owner next pending fresh free only =>
    subst only
    exact mem_insert mem
  | approved u s review stored pending status other found next both =>
    subst both
    exact settled_review stored pending (reviewed_update stored review) mem done
  | rejected s review stored pending status other only =>
    subst only
    exact settled_review stored pending (reviewed_update stored review) mem done

end Commits

/-- The checks of each session still hold when it commits: the tier that a submission asks for is
    free, and what is reviewed is pending. -/
def Unhurried (S : Reviewing ι) (a : Action ι PaystackData) : Prop := Commits (fun _ => Unraced) S a

instance (S : Reviewing ι) (a : Action ι PaystackData) : Decidable (Unhurried S a) :=
  inferInstanceAs (Decidable (Commits (fun _ => Unraced) S a))

def Unasked (_ : ι) (_ : Database) (_ : IdentityMap) (_ : List Row) (_ : List Write) : Prop := True

variable {db : Database} {ops : ι → Operation} {S T : Reviewing ι}

theorem unhurried_when [DecidableEq ι] (run : Run Unhurried S T) :
    RunWhen (fun _ => Unraced) Unasked S T := by
  apply run_weaken _ run
  intro S a unhurried
  exact ⟨fun _ _ _ _ _ _ _ _ => trivial, unhurried⟩

theorem reviewing_safe (tiered : Tiered db) (kinds : ∀ i, concernsKyc (ops i)) :
    SafeWhen KycCommit (fun _ => Unraced) Unasked (fun _ _ _ => True) (reviewing db ops) := by
  apply initial_safe_by
  intro i
  exact request_racing (kinds i) rfl tiered

theorem reviewing_lasts :
    Lasting KycCommit (fun (_ : ι) (_ : Except AppError Unit) (_ : Database) => True) :=
  fun _ _ _ _ _ h => h

variable [DecidableEq ι]

theorem tiered_reviewing (tiered : Tiered db) (kinds : ∀ i, concernsKyc (ops i))
    (run : Run Unhurried (reviewing db ops) T) : Tiered T.db :=
  run_keeps_when reviewing_lasts (reviewing_safe tiered kinds) (unhurried_when run)
    (P := fun _ s => Tiered s)
    (fun _ _ _ _ commit h => (tiered_commit h commit).1) tiered

theorem reviews_stand (unranked : Unranked db) (kinds : ∀ i, concernsKyc (ops i))
    (earlier : Run Unhurried (reviewing db ops) S) (later : Run Unhurried S T) : Upheld S.db T.db := by
  have tiered := tiered_reviewing (unranked_tiered unranked) kinds earlier
  have safe := run_safe_when reviewing_lasts (reviewing_safe (unranked_tiered unranked) kinds)
      (unhurried_when earlier)
  obtain ⟨final, settled, risen⟩ := run_keeps_when reviewing_lasts safe (unhurried_when later)
    (P := fun _ s => Tiered s ∧ Settled S.db s ∧ Risen S.db s)
    (fun _ _ _ _ commit h => ⟨(tiered_commit h.1 commit).1,
      fun s mem done => settled_commit commit s (h.2.1 s mem done) done,
      risen_trans h.2.2 (tiered_commit h.1 commit).2⟩)
    ⟨tiered, fun _ mem _ => mem, risen_refl S.db⟩
  exact ⟨settled, risen, fun u mem ranked => final.climbed u mem u.kycTier ranked (Nat.le_refl _)⟩

section Races

def reviewerDave : User :=
  { id := 8, email := "dave", hashedPassword := "", fullName := "Dave", role := .admin }

def applicant : User := { id := 1, email := "alice", hashedPassword := "", fullName := "Alice" }

def applicantDb : Database := { emptyDatabase with users := ⟨[applicant], by decide⟩ }

def applying (i : Fin 3) : Operation :=
  if i = 0 then .submitKyc 1 1 passport 50 "kyc"
  else if i = 1 then .approveKyc 50 reviewerCarol 0
  else .rejectKyc 50 reviewerDave "blurred" 0

def submitted : List (Action (Fin 3) PaystackData) := [.run 0, .run 0, .reply 0 {}, .run 0, .run 0]

/-- Both admins have read the submission when the first one approves it. -/
def approved : List (Action (Fin 3) PaystackData) :=
  submitted ++ [.run 1, .run 2] ++ List.replicate 4 (.run 1)

def rejected : List (Action (Fin 3) PaystackData) := [.run 2, .run 2]

def standingOf (T : Reviewing (Fin 3)) : List (Nat × KYCStatus) :=
  T.db.kycSubmissions.rows.map (fun s => (s.id, s.status))

theorem unranked_applicant : Unranked applicantDb where
  tiers u mem := by
    rw [List.mem_singleton.mp mem]
    rfl
  submissions := rfl

theorem applying_kinds (i : Fin 3) : concernsKyc (applying i) := by
  unfold applying
  split
  · exact .inl rfl
  · split <;> trivial

theorem approval_is_overruled : ¬ ∀ (db : Database) (ops : Fin 3 → Operation) (S T : Reviewing (Fin 3)),
    Unranked db → (∀ i, concernsKyc (ops i)) → Run Anyhow (reviewing db ops) S → Run Anyhow S T →
    Upheld S.db T.db := by
  intro claim
  have computed : (schedule Anyhow (reviewing applicantDb applying) approved).bind (fun S =>
      (schedule Anyhow S rejected).map (fun T => (standingOf S, standingOf T))) =
      some ([(50, .approved)], [(50, .rejected)]) := by decide +kernel
  obtain ⟨S, T, earlier, later, values⟩ :=
    reached_twice (f := fun S T => (standingOf S, standingOf T)) computed
  obtain ⟨first, second⟩ := Prod.mk.inj values
  have settled := (claim _ _ S T unranked_applicant applying_kinds earlier later).settled
  have before : (50, KYCStatus.approved) ∈ standingOf S := by
    rw [first]
    exact List.mem_singleton.mpr rfl
  obtain ⟨s, mem, same⟩ := List.mem_map.mp before
  have after : (50, KYCStatus.approved) ∈ standingOf T := by
    rw [← same]
    apply List.mem_map_of_mem
    apply settled s mem
    rw [(Prod.mk.inj same).2]
    decide
  rw [second] at after
  simp at after

/-- The second admin reads the submission when it is approved. -/
def inTurn : List (Action (Fin 3) PaystackData) := submitted ++ List.replicate 5 (.run 1)

theorem approval_in_turn_stands : ∃ S T : Reviewing (Fin 3), standingOf S = [(50, .approved)] ∧
    T.db.users.rows.map (·.kycTier) = [1] ∧ Upheld S.db T.db := by
  have computed : (schedule Unhurried (reviewing applicantDb applying) inTurn).bind (fun S =>
      (schedule Unhurried S [.run 2]).map (fun T => (standingOf S, T.db.users.rows.map (·.kycTier)))) =
      some ([(50, .approved)], [1]) := by decide +kernel
  obtain ⟨S, T, earlier, later, values⟩ := reached_twice
    (f := fun S T => (standingOf S, T.db.users.rows.map (·.kycTier))) computed
  exact ⟨S, T, congrArg Prod.fst values, congrArg Prod.snd values,
    reviews_stand unranked_applicant applying_kinds earlier later⟩

end Races

end PayCoreKycReviews
