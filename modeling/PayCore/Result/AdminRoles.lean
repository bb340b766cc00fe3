import PayCore.Proof.RoleRules

/- The users with the role ADMIN, over every interleaving of the endpoints. -/
namespace PayCoreAdminRoles
open KeyedTable SessionProgram SessionSystem RelyGuarantee PayCoreTables PayCoreWrites PayCoreSessions
open PayCoreSupport PayCoreOperations PayCoreEndpoints PayCoreRoleRules

variable {ι : Type}

abbrev Serving (ι : Type) := System ι Database IdentityMap Write Row Request PaystackData AppError Unit

def serving (db : Database) (endpoints : ι → Endpoint) : Serving ι :=
  initial db (fun i => (endpoints i).program)

/-- An admin who asks for a merchant profile gets none: the account is gone or inactive, or it
    has one already, be it a soft-deleted one. -/
def AdminsRefused (db : Database) (endpoints : ι → Endpoint) : Prop :=
  ∀ i userId, createsMerchant (endpoints i) = some userId → isAdmin userId db → Refused userId db

theorem admins_stay_the_same [DecidableEq ι] {db : Database} {endpoints : ι → Endpoint}
    (refused : AdminsRefused db endpoints) {T : Serving ι}
    (run : Run Anyhow (serving db endpoints) T) (id : Uuid) :
    isAdmin id T.db ↔ isAdmin id db := by
  have safe : Safe RoleCommit (fun _ _ _ _ _ => True) (fun _ _ _ => True) (serving db endpoints) := by
    apply initial_safe
    intro i
    exact endpoint_wp rfl (refused i)
  have lasting : Lasting RoleCommit (fun (_ : ι) (_ : Except AppError Unit) (_ : Database) => True) :=
    fun _ _ _ _ _ h => h
  refine run_keeps lasting safe (run_unconditional run) (P := fun _ s => isAdmin id s ↔
    isAdmin id db) ?_ Iff.rfl
  intro i ws log s commit same
  exact (admin_commit commit).trans same

section Promotion

def root : User := { id := 1, email := "root", hashedPassword := "", fullName := "Root", role := .admin }

def shopkeeper : User := { id := 2, email := "bob", hashedPassword := "", fullName := "Bob" }

def usersDb (merchants : List Merchant) (apart : merchants.Pairwise fun a b => clash a b = false) :
    Database :=
  { emptyDatabase with
    users := ⟨[root, shopkeeper], by decide⟩
    wallets := ⟨[{ id := 11, userId := 1 }, { id := 12, userId := 2 }], by decide⟩
    merchants := ⟨merchants, apart⟩ }

def promotion (userId : Uuid) : Endpoint :=
  .request (.createMerchant userId "Shop" ⟨40 + userId, 50 + userId, "pk_12345", "hash", "secret"⟩)

def roles (T : Serving (Fin 2)) : List UserRole := T.db.users.rows.map (·.role)

/-- The admin opens a shop and is an admin no more. -/
theorem promoted_admin_is_no_admin :
    ¬ ∀ (db : Database) (endpoints : Fin 2 → Endpoint) (T : Serving (Fin 2)),
    Run Anyhow (serving db endpoints) T → ∀ id, isAdmin id T.db ↔ isAdmin id db := by
  intro claim
  have computed : (schedule Anyhow (serving (usersDb [] .nil) (fun _ => promotion 1))
      (List.replicate 6 (.run 0) : List (Action (Fin 2) PaystackData))).map roles =
      some [.merchant, .user] := by
    decide +kernel
  obtain ⟨T, run, values⟩ := reached_of_schedule computed
  have before : isAdmin 1 (usersDb [] .nil) := ⟨root, by decide, rfl, rfl⟩
  obtain ⟨u, mem, _, admin⟩ := (claim _ _ T run 1).mpr before
  have among : UserRole.admin ∈ roles T := List.mem_map.mpr ⟨u, mem, admin⟩
  rw [values] at among
  simp at among

def rootShop : Merchant := { id := 40, userId := 1, businessName := "Shop" }

def shopDb : Database := usersDb [rootShop] (List.pairwise_singleton _ _)

/-- An admin who has a shop is refused a second one, a user without one is promoted. -/
theorem admin_with_a_shop_stays : ∃ T : Serving (Fin 2), roles T = [.admin, .merchant] ∧
    ∀ id, isAdmin id T.db ↔ isAdmin id shopDb := by
  have computed : (schedule Anyhow (serving shopDb (fun i => promotion (i.val + 1)))
      ([.run 0, .run 0] ++ List.replicate 6 (.run 1) : List (Action (Fin 2) PaystackData))).map roles =
      some [.admin, .merchant] := by decide +kernel
  obtain ⟨T, run, values⟩ := reached_of_schedule computed
  have refused : AdminsRefused shopDb (fun i : Fin 2 => promotion (i.val + 1)) := by
    intro i userId creates admin
    cases creates
    obtain ⟨u, mem, own, role⟩ := admin
    have known : u = root ∨ u = shopkeeper := by simpa [shopDb, usersDb] using mem
    rcases known with rfl | rfl
    · exact .inr ⟨rootShop, by decide, own⟩
    · cases role
  exact ⟨T, values, admins_stay_the_same refused run⟩

end Promotion

end PayCoreAdminRoles
