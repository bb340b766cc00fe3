import PayCore.Proof.VettingRules

/- Nobody moves money out of a wallet unless somebody else, who was an admin, has reviewed their
documents. -/
namespace PayCoreVettedSpendings
open KeyedTable SessionProgram SessionSystem RelyGuarantee PayCoreTables PayCoreWrites
open PayCoreSessions PayCoreSupport PayCorePayments PayCoreReconciliation PayCoreTraffic
open PayCoreRoleRules PayCoreSharedBooks PayCoreVetting PayCoreVettingRules

variable {ι : Type} {cfg : Settings} {db : Database} {traffic : ι → Traffic} {T : Running ι}

def busy (cfg : Settings) (db : Database) (traffic : ι → Traffic) : Running ι :=
  initial db (fun i => (traffic i).program cfg)

theorem busy_keeps [DecidableEq ι] {admin : Uuid → Prop} (vetted : Vetted admin cfg db)
    (run : Run Anyhow (busy cfg db traffic) T) : Vetted admin cfg T.db := by
  have safe : Safe (VettedCommit admin cfg) (fun _ _ _ _ _ => True) (fun _ _ _ => True)
      (busy cfg db traffic) := by
    apply initial_safe
    intro i
    exact traffic_vetting (traffic i) vetted rfl
  have lasting :
      Lasting (VettedCommit admin cfg) (fun (_ : ι) (_ : Except AppError Unit) (_ : Database) => True) :=
    fun _ _ _ _ _ h => h
  apply run_keeps lasting safe (run_unconditional run) (P := fun _ s => Vetted admin cfg s)
  · intro _ _ _ s commit before
    exact vetted_commit commit before
  · exact vetted

/-- Before anybody has a tier and anybody has spent, all is vetted. -/
theorem vetted_start (untiered : ∀ u ∈ db.users.rows, u.kycTier = 0)
    (unspent : ∀ t ∈ db.transactions.rows, ¬ spends t.type) : Vetted (fun id => isAdmin id db) cfg db where
  admins u mem role := ⟨u, mem, rfl, role⟩
  tiers u mem tier := absurd (untiered u mem) tier
  spendings t mem spent := absurd spent (unspent t mem)

/-- Each tier, and each transfer, payment and withdrawal, has a review behind it by an admin of
the first hour who is not the user: one for the tier, or for a tier that allows the transaction
and its amount. -/
theorem every_spending_is_vetted [DecidableEq ι] (vetted : Vetted (fun id => isAdmin id db) cfg db)
    (run : Run Anyhow (busy cfg db traffic) T) :
    (∀ u ∈ T.db.users.rows, u.kycTier ≠ 0 → Reviewed (fun id => isAdmin id db) u.id u.kycTier T.db) ∧
      ∀ t ∈ T.db.transactions.rows, spends t.type → ∃ tier, Suffices cfg t.type t.amount tier ∧
        Reviewed (fun id => isAdmin id db) t.initiatedByUserId tier T.db := by
  have reached := busy_keeps vetted run
  constructor
  · exact reached.tiers
  · exact reached.spendings

section Day

def root : User := { id := 1, email := "root", hashedPassword := "", fullName := "Root", role := .admin }

def alice : User := { id := 2, email := "alice", hashedPassword := "", fullName := "Alice" }

def bob : User := { id := 3, email := "bob", hashedPassword := "", fullName := "Bob" }

/-- Alice has money, and her documents wait for a review. -/
def waitingDb : Database :=
  { emptyDatabase with
    users := ⟨[root, alice, bob], by decide⟩
    wallets := ⟨[{ id := 11, userId := 2, balance := 5000 }, { id := 12, userId := 3 }], by decide⟩
    kycSubmissions := ⟨[{ id := 61, userId := 2, requestedTier := 1, documentKey := "doc" }], by decide⟩ }

def ask (transactionId : Uuid) (hex : String) : Traffic :=
  .ordered 2 (.initiateTransfer id (.userId 3) 2000 none ⟨transactionId, hex, 0, ⟨0, 0⟩⟩)

def day : Fin 3 → Traffic
  | 0 => ask 101 "a"
  | 1 => .other (.endpoint (.approveKyc 1 61 0)) rfl
  | 2 => ask 102 "b"

def seen (T : Running (Fin 3)) : List Nat × List (Uuid × TransactionStatus) :=
  (T.db.users.rows.map (·.kycTier), T.db.transactions.rows.map (fun t => (t.id, t.status)))

theorem waiting_vetted : Vetted (fun id => isAdmin id waitingDb) {} waitingDb :=
  vetted_start (by decide) (fun t mem => by cases mem)

theorem alice_spends_once_vetted : ∃ T : Running (Fin 3), seen T = ([0, 1, 0], [(102, .completed)]) ∧
    ∀ t ∈ T.db.transactions.rows, spends t.type → ∃ tier, Suffices {} t.type t.amount tier ∧
      Reviewed (fun id => isAdmin id waitingDb) t.initiatedByUserId tier T.db := by
  have computed : (schedule Anyhow (busy {} waitingDb day)
      (List.replicate 8 (.run 0) ++ List.replicate 8 (.run 1) ++ List.replicate 24 (.run 2))).map seen =
      some ([0, 1, 0], [(102, .completed)]) := by decide +kernel
  obtain ⟨T, run, values⟩ := reached_of_schedule computed
  exact ⟨T, values, (every_spending_is_vetted waiting_vetted run).2⟩

end Day

end PayCoreVettedSpendings
