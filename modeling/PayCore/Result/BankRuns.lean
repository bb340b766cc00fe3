import PayCore.Proof.BankMoves
import PayCore.Result.SoundRecords

/- Requests, tasks and webhooks that run side by side, with no session acting on a stale object: their
   books, and the bank that they make up together. -/
namespace PayCoreBankRuns
open KeyedTable SessionProgram SessionSystem EscrowBank PayCoreTables PayCoreWrites PayCoreSessions
open PayCoreJobs PayCoreOperations PayCoreEndpoints PayCoreReconciliation PayCorePersistence
open PayCoreBooks PayCoreSerialJobs PayCoreForeignKeys PayCoreProperCommits PayCoreSharedBooks
open PayCoreBankMoves PayCoreSoundRecords

section Runs
variable {ι : Type} [DecidableEq ι] {db : Database} {works : ι → Work} {T : Running ι}

theorem concurrent_books_balance (order : InOrder db) (fine : ∀ i, admitted (works i))
    (run : Run (Meets (fun _ => Fresh)) (platform db works) T) :
    (∀ w ∈ T.db.wallets.rows, w.balance = bookBalance w.id T.db ∧ 0 ≤ w.balance) ∧
      (∀ t ∈ T.db.transactions.rows, Posted t (entriesOf t.id T.db.ledgerEntries)) ∧
      db.ledgerEntries <+: T.db.ledgerEntries := by
  obtain ⟨here, grown⟩ :=
    platform_keeps order fine run (P := fun _ s => db.ledgerEntries <+: s.ledgerEntries)
    (fun _ ws _ s _ _ before => before.trans (ledger_grows_all ws s)) (List.prefix_refl _)
  constructor
  · intro w mem
    exact ⟨here.books.balanced w.id w (find?_some_iff.mpr ⟨mem, rfl⟩), here.books.solvent w mem⟩
  · constructor
    · intro t mem
      exact here.books.posted t.id t (find?_some_iff.mpr ⟨mem, rfl⟩)
    · exact grown

/-- Commit by commit the platform does what a bank does: each is one legal move or none, and the
bank stays whole. -/
theorem platform_is_a_bank (order : InOrder db) (fine : ∀ i, admitted (works i))
    (run : Run (Meets (fun _ => Fresh)) (platform db works) T) :
    ∃ moves, Told db T.log moves T.db ∧ GuardedRuns.Along after Legal (bankOf db) moves ∧
      bankOf T.db = GuardedRuns.run after (bankOf db) moves ∧ Whole (bankOf T.db) := by
  obtain ⟨-, moves, told⟩ := platform_keeps order fine run (P := fun log s => ∃ moves, Told db log moves s)
    (by
      rintro i ws log s good here ⟨moves, told⟩
      obtain ⟨more, longer, -⟩ := told_commit i told here good
      exact ⟨moves ++ more, longer⟩)
    ⟨[], .start⟩
  obtain ⟨arrived, legal⟩ := told_run told
  refine ⟨moves, told, legal, arrived, ?_⟩
  rw [arrived]
  exact whole_run (bank_whole order) legal

end Runs

section Day

instance (s : Database) (m : IdentityMap) (rows : List Row) (adds : List Write) :
    Decidable (Fresh s m rows adds) :=
  inferInstanceAs (Decidable (_ ∧ _))

/-- Alice and Bob with nothing yet, and a bank account of hers. -/
def newDb : Database :=
  { emptyDatabase with
    users := ⟨[person 1 "alice" 2, person 2 "bob" 2], by decide⟩
    wallets := ⟨[{ id := 21, userId := 1 }, { id := 22, userId := 2 }], by decide⟩
    bankAccounts := ⟨[⟨50, 1, "Alice", "0123456701", "058", "Bank", true, none, none⟩], by decide⟩ }

theorem new_books : Books newDb where
  shaped _ _ found := by cases found
  posted _ _ found := by cases found
  sourced _ _ _ found := by cases found
  entered _ mem := by cases mem
  balanced id w found := by
    have mem := (find?_some_iff.mp found).1
    simp only [newDb, List.mem_cons, List.not_mem_nil, or_false] at mem
    rcases mem with rfl | rfl <;> rfl
  solvent := by simp [PayCorePersistence.Solvent, newDb]

theorem new_sound : Sound newDb where
  solvent := new_books.solvent
  linked := by
    intro k mem
    have users : k = .user 1 ∨ k = .user 2 := by
      simp [foreignKeys, newDb, emptyDatabase, walletKeys, bankAccountKeys, Table.empty] at mem
      rcases mem with first | second | own
      · exact .inl first
      · exact .inr second
      · exact .inl own
    rcases users with rfl | rfl <;> simp [Present, newDb, person]
  righted _ _ found := by cases found
  accounted _ mem := by cases mem
  doubled _ _ found := by cases found
  attested _ mem := by cases mem
  housed := by simp [newDb, person]

def works : Fin 7 → Work
  | 0 => .endpoint (.request (.money (.initiateFunding (person 1 "alice" 2) 50000 none ⟨100, "f", ⟨0, 0⟩⟩)))
  | 1 => .processPaystackWebhook "charge.success" { reference := .str "txn_f", amount := some 50000 }
  | 2 => .endpoint
      (.request (.money (.initiateTransfer (fun s => s) (person 1 "alice" 2) {} (.userId 2) 10000 none
      ⟨101, "t", 0, ⟨0, 0⟩⟩)))
  | 3 => .endpoint
      (.request (.money (.initiateWithdrawal {} (person 1 "alice" 2) 50 15000 ⟨102, "w", ⟨0, 0⟩⟩)))
  | 4 => .processWithdrawal 102
  | 5 => .processPaystackWebhook "transfer.success" { reference := .str "txn_w" }
  | _ => .checkStaleTransactions ⟨0, tableOrder, tableOrder⟩

def steps (n : Nat) (i : Fin 7) : List (Action (Fin 7) PaystackData) := List.replicate n (.run i)

/-- The worker takes the withdrawal up before the request has ended, and the sweep runs in between. -/
def day : List (Action (Fin 7) PaystackData) :=
  [.run 0, .reply 0 { authorizationUrl := .str "https://checkout" }] ++ steps 2 0 ++ steps 9 1 ++
    steps 16 2 ++
    steps 8 3 ++ [.reply 3 {}] ++ steps 2 4 ++ [.reply 4 { recipientCode := .str "RCP_1" }] ++
      steps 2 6 ++ steps 2 4 ++
    steps 2 3 ++ [.reply 4 { transferCode := .str "TRF_1" }] ++ steps 2 4 ++ steps 20 5

def ledgerOf (T : Running (Fin 7)) : List Int × List Int :=
  (T.db.wallets.rows.map (·.balance), T.db.ledgerEntries.map signed)

theorem works_admitted : ∀ i, admitted (works i)
  | 0 => trivial
  | 1 => trivial
  | 2 => (by decide : (0 : Int) < 10000)
  | 3 => (by decide : (0 : Int) < 15000)
  | 4 => trivial
  | 5 => trivial
  | 6 => trivial

theorem day_run : ∃ T, Run (Meets (fun _ => Fresh)) (platform newDb works) T ∧
    ledgerOf T = ([25000, 10000], [50000, -10000, 10000, -15000]) := by
  have computed : (schedule (Meets (fun _ => Fresh)) (platform newDb works) day).map ledgerOf =
      some ([25000, 10000], [50000, -10000, 10000, -15000]) := by decide +kernel
  exact reached_of_schedule computed

theorem day_balances : ∃ T : Running (Fin 7), T.db.wallets.rows.map (·.balance) = [25000, 10000] ∧
    (∀ w ∈ T.db.wallets.rows, w.balance = bookBalance w.id T.db ∧ 0 ≤ w.balance) ∧
      (∀ t ∈ T.db.transactions.rows, Posted t (entriesOf t.id T.db.ledgerEntries)) ∧
      newDb.ledgerEntries <+: T.db.ledgerEntries := by
  obtain ⟨T, run, values⟩ := day_run
  exact ⟨T, congrArg Prod.fst values, concurrent_books_balance ⟨new_books, new_sound⟩ works_admitted run⟩

theorem day_at_the_bank : ∃ T : Running (Fin 7),
    T.db.ledgerEntries.map signed = [50000, -10000, 10000, -15000] ∧
    ∃ moves, Told newDb T.log moves T.db ∧ GuardedRuns.Along after Legal (bankOf newDb) moves ∧
      bankOf T.db = GuardedRuns.run after (bankOf newDb) moves ∧ Whole (bankOf T.db) := by
  obtain ⟨T, run, values⟩ := day_run
  exact ⟨T, congrArg Prod.snd values, platform_is_a_bank ⟨new_books, new_sound⟩ works_admitted run⟩

end Day

end PayCoreBankRuns
