import PayCore.Proof.KycRules

/- The KYC tier of a user and the submissions behind it, over runs in which one request
   follows the other and anything may fail. -/
namespace PayCoreKycTiers
open KeyedTable SessionProgram SessionSystem LoneSessions PayCoreTables PayCoreWrites PayCoreSessions
open PayCoreOperations PayCoreKycRules

/-- Registrations, submissions and reviews one after the other, and nothing else. -/
def KycRun (start s : Database) : Prop :=
  ∃ history, Turns Anything concernsKyc Operation.program (fun _ _ => False) start history s

structure Unranked (db : Database) : Prop where
  tiers : ∀ u ∈ db.users.rows, u.kycTier = 0
  submissions : db.kycSubmissions.rows = []

section Runs
variable {start s t : Database}

theorem tiered_chain {trail : List (Event Database Write Request)} (h : Tiered s)
    (chain : Chain Always KycCommit s trail t) : Tiered t ∧ Risen s t := by
  induction chain with
  | start => exact ⟨h, risen_refl s⟩
  | asked before ok ih => exact ih
  | committed before ok ih =>
    obtain ⟨tiered, risen⟩ := tiered_commit ih.1 ok
    exact ⟨tiered, risen_trans ih.2 risen⟩

theorem tiered_run (h : Tiered start) (run : KycRun start s) : Tiered s ∧ Risen start s := by
  obtain ⟨history, turns⟩ := run
  induction turns with
  | start => exact ⟨h, risen_refl start⟩
  | aside before change ih => exact change.elim
  | @turn history trail s op S before kind trace ih =>
    have chain : Chain Always KycCommit s trail S.db := by
      apply trace_chain _ trace
      exact request_sure ih.1 kind
    obtain ⟨tiered, risen⟩ := tiered_chain ih.1 chain
    exact ⟨tiered, risen_trans ih.2 risen⟩

theorem unranked_tiered (h : Unranked start) : Tiered start where
  stands s mem := by
    rw [h.submissions] at mem
    cases mem
  climbed u mem tier low high := by
    rw [h.tiers u mem] at high
    omega
  single s mem := by
    rw [h.submissions] at mem
    cases mem
  reviewed s mem := by
    rw [h.submissions] at mem
    cases mem

def approvedTiers (userId : Uuid) (db : Database) : List Nat :=
  (db.kycSubmissions.rows.filter (fun s => s.userId == userId && s.status == .approved)).map
    (·.requestedTier)

def highestApproved (userId : Uuid) (db : Database) : Nat := (approvedTiers userId db).foldr max 0

theorem approvedTiers_iff {userId : Uuid} {tier : Nat} {db : Database} :
    tier ∈ approvedTiers userId db ↔ ApprovedAt userId tier db := by
  simp only [approvedTiers, List.mem_map, List.mem_filter, Bool.and_eq_true, beq_iff_eq, ApprovedAt]
  constructor
  · rintro ⟨s, ⟨mem, user, status⟩, asked⟩
    exact ⟨s, mem, user, asked, status⟩
  · rintro ⟨s, mem, user, asked, status⟩
    exact ⟨s, ⟨mem, user, status⟩, asked⟩

theorem highest_le {tiers : List Nat} {top : Nat} (below : ∀ n ∈ tiers, n ≤ top) :
    tiers.foldr max 0 ≤ top := by
  induction tiers with
  | nil => exact Nat.zero_le top
  | cons n tiers ih =>
    have first := below n (by simp)
    have rest := ih (fun m mem => below m (List.mem_cons_of_mem n mem))
    simp only [List.foldr_cons]
    omega

theorem le_highest {tiers : List Nat} {n : Nat} (mem : n ∈ tiers) : n ≤ tiers.foldr max 0 := by
  induction tiers with
  | nil => cases mem
  | cons m tiers ih =>
    simp only [List.foldr_cons]
    rcases List.mem_cons.mp mem with rfl | later
    · omega
    · have below := ih later
      omega

theorem tiers_follow_approvals (unranked : Unranked start) (run : KycRun start s) :
    (∀ u ∈ s.users.rows, u.kycTier = highestApproved u.id s ∧
      ∀ tier, 1 ≤ tier → tier < u.kycTier → ApprovedAt u.id tier s) ∧
    (∀ a ∈ s.kycSubmissions.rows, ∀ b ∈ s.kycSubmissions.rows, a.userId = b.userId →
      a.requestedTier = b.requestedTier → a.status ≠ .rejected → b.status ≠ .rejected → a = b) ∧
    (∀ a ∈ s.kycSubmissions.rows, a.reviewerId ≠ some a.userId) ∧
    ∀ t, KycRun s t → Risen s t := by
  have tiered := (tiered_run (unranked_tiered unranked) run).1
  refine ⟨?_, tiered.single, tiered.reviewed, fun t onward => (tiered_run tiered onward).2⟩
  intro u mem
  constructor
  · apply Nat.le_antisymm
    · by_cases zero : u.kycTier = 0
      · omega
      · exact le_highest (approvedTiers_iff.mpr (tiered.climbed u mem u.kycTier (by omega) (Nat.le_refl _)))
    · apply highest_le
      intro n approved
      obtain ⟨a, among, user, asked, status⟩ := approvedTiers_iff.mp approved
      obtain ⟨v, found, stands⟩ := tiered.stands a among
      have mine : s.users.find? u.id = some u := find?_some_iff.mpr ⟨mem, rfl⟩
      rw [user, mine] at found
      cases found
      simp only [Stands, status] at stands
      omega
  · intro tier low high
    exact tiered.climbed u mem tier low (by omega)

end Runs

section Climb

instance (request : Request) (data : PaystackData) : Decidable (Anything request data) := .isTrue trivial

def passport : List UInt8 := [0x25, 0x50, 0x44, 0x46]

def reviewerCarol : User :=
  { id := 9, email := "carol", hashedPassword := "", fullName := "Carol", role := .admin }

def signUp : Operation := .money (.register {} (fun s => s) "alice" "" "Alice" none ⟨1, 11, "a", 0⟩)

def submitting (tier : Nat) (id : Uuid) : Operation × List (Action Unit PaystackData) :=
  (.submitKyc 1 tier passport id "kyc", [.run (), .run (), .reply () {}, .run (), .run ()])

/-- Alice climbs to Tier 2, with one rejection on the way. -/
def climb : List (Operation × List (Action Unit PaystackData)) :=
  [(signUp, List.replicate 6 (.run ())), submitting 1 50,
   (.rejectKyc 50 reviewerCarol "blurred" 0, List.replicate 3 (.run ())), submitting 1 51,
   (.approveKyc 51 reviewerCarol 0, List.replicate 5 (.run ())), submitting 2 52,
   (.approveKyc 52 reviewerCarol 0, List.replicate 5 (.run ()))]

theorem climbed_tiers_are_approved : ∃ s, KycRun emptyDatabase s ∧
    (s.users.rows.map (·.kycTier) = [2] ∧ s.kycSubmissions.rows.map (·.status) =
      [.rejected, .approved, .approved]) ∧
    (∀ u ∈ s.users.rows, u.kycTier = highestApproved u.id s ∧
      ∀ tier, 1 ≤ tier → tier < u.kycTier → ApprovedAt u.id tier s) ∧
    (∀ a ∈ s.kycSubmissions.rows, ∀ b ∈ s.kycSubmissions.rows, a.userId = b.userId →
      a.requestedTier = b.requestedTier → a.status ≠ .rejected → b.status ≠ .rejected → a = b) ∧
    (∀ a ∈ s.kycSubmissions.rows, a.reviewerId ≠ some a.userId) ∧
    ∀ t, KycRun s t → Risen s t := by
  have computed : (takeTurns Anything Operation.program emptyDatabase climb).map (fun out =>
      (out.2.users.rows.map (·.kycTier), out.2.kycSubmissions.rows.map (·.status))) =
      some ([2], [.rejected, .approved, .approved]) := by decide +kernel
  obtain ⟨⟨history, s⟩, reached, value⟩ := Option.map_eq_some_iff.mp computed
  have kinds : ∀ op ∈ climb, concernsKyc op.1 := by simp [climb, signUp, submitting, concernsKyc]
  have nobody : ∀ u ∈ emptyDatabase.users.rows, u.kycTier = 0 := by simp [emptyDatabase, Table.empty]
  have unranked : Unranked emptyDatabase := ⟨nobody, rfl⟩
  have run : KycRun emptyDatabase s := ⟨history, turns_of_plan kinds reached⟩
  exact ⟨s, run, Prod.mk.inj value, tiers_follow_approvals unranked run⟩

end Climb

end PayCoreKycTiers
