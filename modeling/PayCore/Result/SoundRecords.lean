import PayCore.Proof.ProperAccounts
import PayCore.Result.AdminRoles

/- What the ledger, the audit log and the tables record, in every state that requests, tasks and
   webhooks reach together, whatever fails in between. -/
namespace PayCoreSoundRecords
open KeyedTable SessionProgram SessionSystem RelyGuarantee PayCoreTables PayCoreWrites PayCoreSessions
open PayCoreJobs PayCoreEndpoints PayCoreAdminRoles PayCorePersistence PayCoreBooks PayCoreStatements
open PayCoreForeignKeys PayCoreKeptRecords PayCoreProperCommits PayCoreProperAccounts

section Runs
variable {ι : Type} [DecidableEq ι] {db : Database} {endpoints : ι → Endpoint} {T : Serving ι}

/-- A sound state stays sound over any run. -/
theorem run_sound (sound : Sound db) (admitted : ∀ i, routed (endpoints i))
    (run : Run Anyhow (serving db endpoints) T) : Sound T.db := by
  have safe : Safe ProperCommit (fun _ _ _ _ _ => True) (fun _ _ _ => True) (serving db endpoints) := by
    apply initial_safe
    intro i
    exact endpoint_proper (admitted i) sound
  have lasting : Lasting ProperCommit (fun (_ : ι) (_ : Except AppError Unit) (_ : Database) => True) :=
    fun _ _ _ _ _ h => h
  apply run_keeps lasting safe (run_unconditional run) (P := fun _ s => Sound s) _ sound
  intro _ _ _ _ commit here
  exact sound_commit here commit

theorem movements_are_whole (sound : Sound db) (admitted : ∀ i, routed (endpoints i))
    (run : Run Anyhow (serving db endpoints) T) (t : Transaction) (mem : t ∈ T.db.transactions.rows)
    (moving : moves t.type) : t.status = .completed ∧ 0 < t.amount ∧
      t.sourceWalletId ≠ t.destinationWalletId ∧ Doubled t (entriesOf t.id T.db.ledgerEntries) := by
  have here := run_sound sound admitted run
  have found : T.db.transactions.find? t.id = some t := find?_some_iff.mpr ⟨mem, rfl⟩
  have right := here.righted t.id t found
  obtain ⟨status, pays, _, apart⟩ := right.moved moving
  obtain ⟨source, named⟩ := Option.ne_none_iff_exists'.mp pays
  exact ⟨status, (right.payer source named).2, apart, here.doubled t.id t found moving⟩

theorem debits_are_the_initiators (sound : Sound db) (admitted : ∀ i, routed (endpoints i))
    (run : Run Anyhow (serving db endpoints) T) (e : LedgerEntry) (mem : e ∈ T.db.ledgerEntries)
    (side : e.entryType = .debit) : ∃ t ∈ T.db.transactions.rows, ∃ w ∈ T.db.wallets.rows,
      t.id = e.transactionId ∧ w.id = e.walletId ∧ w.userId = t.initiatedByUserId ∧
      t.sourceWalletId = some w.id ∧ e.amount = t.amount ∧ 0 < e.amount := by
  have here := run_sound sound admitted run
  obtain ⟨t, found, debit, _⟩ := here.accounted e mem
  obtain ⟨source, amount⟩ := debit side
  obtain ⟨⟨w, row, owner⟩, positive⟩ := (here.righted _ t found).payer e.walletId source
  obtain ⟨among, own⟩ := find?_some_iff.mp found
  obtain ⟨listed, key⟩ := find?_some_iff.mp row
  refine ⟨t, among, w, listed, own, key, owner, ?_, amount, ?_⟩
  · rw [source]
    exact congrArg some key.symm
  · rw [amount]
    exact positive

theorem audit_records_are_true (sound : Sound db) (admitted : ∀ i, routed (endpoints i))
    (run : Run Anyhow (serving db endpoints) T) : ∀ l ∈ T.db.auditLogs, Attested T.db l :=
  (run_sound sound admitted run).attested

theorem each_user_has_one_wallet (sound : Sound db) (admitted : ∀ i, routed (endpoints i))
    (run : Run Anyhow (serving db endpoints) T) :
    (∀ u ∈ T.db.users.rows, ∃ w, T.db.wallets.rows.filter (fun a => a.userId == u.id) = [w]) ∧
      ∀ w ∈ T.db.wallets.rows, ∃ u ∈ T.db.users.rows, u.id = w.userId := by
  have here := run_sound sound admitted run
  constructor
  · intro u mem
    obtain ⟨w, row, owner⟩ := here.housed u mem
    refine ⟨w, filter_unique row (by simp [owner]) ?_⟩
    intro a _ own
    simp [clash, beq_iff_eq.mp own, owner]
  · intro w row
    exact wallet_user here.linked row

theorem foreign_keys_hold (sound : Sound db) (admitted : ∀ i, routed (endpoints i))
    (run : Run Anyhow (serving db endpoints) T) : ∀ r ∈ foreignKeys T.db, Present T.db r :=
  (run_sound sound admitted run).linked

end Runs

section Day

def person (id : Uuid) (email : String) (tier : Nat) : User :=
  { id, email, hashedPassword := "", fullName := email, kycTier := tier }

/-- Two users with NGN 500.00 each, and an admin. -/
def townDb : Database :=
  { emptyDatabase with
    users := ⟨[person 1 "alice" 1, person 2 "bob" 2, { person 3 "root" 0 with role := .admin }], by decide⟩
    wallets := ⟨[{ id := 11, userId := 1, balance := 50000 }, { id := 12, userId := 2, balance := 50000 },
      { id := 13, userId := 3 }], by decide⟩ }

theorem town_sound : Sound townDb where
  solvent := by simp [Solvent, townDb]
  linked := by
    intro k mem
    have users : k = .user 1 ∨ k = .user 2 ∨ k = .user 3 := by
      simpa [foreignKeys, townDb, emptyDatabase, walletKeys, Table.empty] using mem
    rcases users with rfl | rfl | rfl <;> simp [Present, townDb, person]
  righted _ _ found := by cases found
  accounted _ mem := by cases mem
  doubled _ _ found := by cases found
  attested _ mem := by cases mem
  housed := by simp [townDb, person]

/-- Alice pays Bob while he pays her, and the admin starts the sweep. -/
def errands : Fin 3 → Endpoint
  | 0 => .request (.money (.initiateTransfer (fun s => s) (person 1 "alice" 1) {} (.userId 2) 10000 none
      ⟨101, "a", 0, ⟨0, 0⟩⟩))
  | 1 => .request (.money (.initiateTransfer (fun s => s) (person 2 "bob" 2) {} (.userId 1) 20000 none
      ⟨102, "b", 0, ⟨0, 0⟩⟩))
  | _ => .runReconciliation 3

theorem errands_routed : ∀ i, routed (errands i)
  | 0 => (by decide : (0 : Int) < 10000)
  | 1 => (by decide : (0 : Int) < 20000)
  | 2 => trivial

/-- Bob's request starts while Alice's is under way, and waits for her locks. -/
def interleaved : List (Action (Fin 3) PaystackData) :=
  List.replicate 6 (.run 0) ++ List.replicate 5 (.run 1) ++ List.replicate 10 (.run 0) ++
    List.replicate 11 (.run 1) ++ [.run 2, .reply 2 {}, .run 2, .run 2]

def evening (T : Serving (Fin 3)) : List Uuid × List Int × List String :=
  (T.db.transactions.rows.map (·.id), T.db.wallets.rows.map (·.balance), T.db.auditLogs.map (·.action))

theorem errands_run :
    ∃ T, Run Anyhow (serving townDb errands) T ∧ evening T = ([101, 102], [70000, 30000, 0],
    ["transfer.completed", "transfer.completed", "admin.reconciliation_triggered"]) := by
  have computed : (schedule Anyhow (serving townDb errands) interleaved).map evening =
      some ([101, 102], [70000, 30000, 0],
      ["transfer.completed", "transfer.completed", "admin.reconciliation_triggered"]) := by decide +kernel
  exact reached_of_schedule computed

theorem errands_are_whole : ∃ T : Serving (Fin 3), T.db.transactions.rows.map (·.id) = [101, 102] ∧
    ∀ t ∈ T.db.transactions.rows, moves t.type → t.status = .completed ∧ 0 < t.amount ∧
      t.sourceWalletId ≠ t.destinationWalletId ∧ Doubled t (entriesOf t.id T.db.ledgerEntries) := by
  obtain ⟨T, run, values⟩ := errands_run
  exact ⟨T, congrArg (·.1) values, movements_are_whole town_sound errands_routed run⟩

theorem errands_debit_the_initiators :
    ∃ T : Serving (Fin 3), T.db.transactions.rows.map (·.id) = [101, 102] ∧
    ∀ e ∈ T.db.ledgerEntries, e.entryType = .debit → ∃ t ∈ T.db.transactions.rows,
    ∃ w ∈ T.db.wallets.rows,
      t.id = e.transactionId ∧ w.id = e.walletId ∧ w.userId = t.initiatedByUserId ∧
      t.sourceWalletId = some w.id ∧ e.amount = t.amount ∧ 0 < e.amount := by
  obtain ⟨T, run, values⟩ := errands_run
  exact ⟨T, congrArg (·.1) values, debits_are_the_initiators town_sound errands_routed run⟩

theorem errands_are_attested : ∃ T : Serving (Fin 3), T.db.auditLogs.map (·.action) =
      ["transfer.completed", "transfer.completed", "admin.reconciliation_triggered"] ∧
    ∀ l ∈ T.db.auditLogs, Attested T.db l := by
  obtain ⟨T, run, values⟩ := errands_run
  exact ⟨T, congrArg (·.2.2) values, audit_records_are_true town_sound errands_routed run⟩

theorem town_keeps_one_wallet_each :
    ∃ T : Serving (Fin 3), T.db.wallets.rows.map (·.balance) = [70000, 30000, 0] ∧
    (∀ u ∈ T.db.users.rows, ∃ w, T.db.wallets.rows.filter (fun a => a.userId == u.id) = [w]) ∧
      ∀ w ∈ T.db.wallets.rows, ∃ u ∈ T.db.users.rows, u.id = w.userId := by
  obtain ⟨T, run, values⟩ := errands_run
  exact ⟨T, congrArg (·.2.1) values, each_user_has_one_wallet town_sound errands_routed run⟩

theorem errands_refer_to_rows : ∃ T : Serving (Fin 3), T.db.transactions.rows.map (·.id) = [101, 102] ∧
    ∀ r ∈ foreignKeys T.db, Present T.db r := by
  obtain ⟨T, run, values⟩ := errands_run
  exact ⟨T, congrArg (·.1) values, foreign_keys_hold town_sound errands_routed run⟩

end Day

end PayCoreSoundRecords
