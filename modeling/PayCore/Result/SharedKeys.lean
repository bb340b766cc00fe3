import PayCore.Result.IdempotencyKeys

/- Transfers and payments that all carry one idempotency key: however they interleave,
   the money moves at most once. The loser of a race has its INSERT refused, and the
   winner committed from the balances the race began with. -/
namespace PayCoreSharedKeys
open KeyedTable SessionProgram SessionSystem RelyGuarantee PayCoreTables PayCoreWrites PayCoreSessions
open PayCorePayments PayCorePersistence PayCoreCommits PayCoreStatements PayCoreRequests
open PayCoreMovements PayCoreJobs PayCoreRegularity PayCoreWalletBalances PayCoreIdempotencyKeys

variable {ι : Type} {key : String} {db s : Database}

def carriers (key : String) (db : Database) : List Transaction :=
  db.transactions.rows.filter (·.idempotencyKey == some key)

theorem carriers_nil_iff : carriers key db = [] ↔
    ∀ t ∈ db.transactions.rows, t.idempotencyKey ≠ some key := by
  simp [carriers, List.filter_eq_nil_iff]

def underKey (key : String) : Job → Prop
  | .initiateTransfer _ _ _ _ amount k _ => k = some key ∧ 0 < amount
  | .initiatePayment _ _ _ amount k _ => k = some key ∧ 0 < amount
  | _ => False

/-- What such requests commit. -/
inductive KeyCommit (key : String) : List Write → Database → Prop where
  | movement {db t payer payee} (keyed : t.idempotencyKey = some key)
      (fits : MovementCommit db (movementWrites t payer payee)) :
      KeyCommit key (movementWrites t payer payee) db
  | side {ws db} (h : Side ws) : KeyCommit key ws db

theorem key_regular {ws : List Write} (h : KeyCommit key ws db) : ∀ w ∈ ws, Regular w := by
  cases h with
  | movement _ fits => exact movement_regular fits
  | side h => exact side_regular h

theorem key_env : Interference (Rely (KeyCommit key)) := interference_rely fun _ _ h => key_regular h

theorem sameMoney_refl (a : Database) : SameMoney a a := ⟨rfl, rfl, rfl⟩

theorem sameMoney_trans {a b c : Database} (left : SameMoney a b) (right : SameMoney b c) :
    SameMoney a c :=
  ⟨right.wallets.trans left.wallets, right.transactions.trans left.transactions,
    right.ledgerEntries.trans left.ledgerEntries⟩

theorem movement_free {ws : List Write} (h : MovementCommit db ws) {t : Transaction} {rest : List Write}
    (first : ws = .insertTransaction t :: rest) : db.transactions.admits t = true := by
  cases h with
  | posted t' sender recipient type status source destination provider extra free =>
    simp only [movementWrites, List.cons.injEq, Write.insertTransaction.injEq] at first
    rw [← first.1]
    exact free

theorem movement_same {a b : Database} (same : SameMoney a b) {ws : List Write}
    (h : MovementCommit b ws) : MovementCommit a ws := by
  cases h with
  | posted t sender recipient type status source destination provider extra free payer payee apart
      covered creditable =>
    rw [same.transactions] at free
    rw [same.wallets] at payer payee
    exact .posted t sender recipient type status source destination provider extra free payer payee
      apart covered creditable

theorem sameMoney_movement {a b : Database} (same : SameMoney a b) (t : Transaction)
    (payer payee : Wallet) :
    SameMoney (applyAll (movementWrites t payer payee) a) (applyAll (movementWrites t payer payee) b) := by
  constructor
  · simp [movementWrites, applyWrite, same.wallets]
  · simp [movementWrites, applyWrite, same.transactions]
  · simp [movementWrites, applyWrite, same.ledgerEntries]

theorem movement_transactions {t : Transaction} (payer payee : Wallet)
    (free : db.transactions.admits t = true) :
    (applyAll (movementWrites t payer payee) db).transactions.rows = db.transactions.rows ++ [t] :=
  insert_rows free

theorem unmoved_while_free (rely : Rely (KeyCommit key) Nothing db s) (free : carriers key s = []) :
    SameMoney db s := by
  induction rely with
  | refl => exact sameMoney_refl _
  | step before commit spares ih =>
    cases commit with
    | @movement _ t payer payee keyed fits =>
      have added := movement_transactions payer payee (movement_free fits rfl)
      have carries := carriers_nil_iff.mp free t (by rw [added]; simp)
      exact absurd keyed carries
    | side h =>
      have aside := side_money h
      unfold carriers at free ih
      rw [(aside _).transactions] at free
      exact sameMoney_trans (ih free) (aside _)

/-- The INSERT that is about to be committed was admitted, so the objects are the rows. -/
theorem poised_keyed {F : Database → IdentityMap → List Row → List Write → Prop}
    {source destination : Uuid} {t : Transaction} {payer payee : Wallet} {u : Window}
    (kind : t.type = .transfer ∨ t.type = .merchantPayment) (status : t.status = .completed)
    (from_payer : t.sourceWalletId = some payer.id) (to_payee : t.destinationWalletId = some payee.id)
    (provider : t.providerReference = none) (extra : t.extraData = none)
    (keyed : t.idempotencyKey = some key)
    (poised : Poised (Rely (KeyCommit key)) F (Grasped (Rely (KeyCommit key)) db) source destination t
      payer payee u) : KeyCommit key u.pending u.db := by
  have free := poised.reserved.free
  have unused : carriers key u.db = [] := by
    apply carriers_nil_iff.mpr
    intro a mem has
    have taken := (transaction_admits_iff.mp free).2.2 key keyed
    rw [List.any_eq_false] at taken
    exact taken a mem (by simp [has])
  have current : ∀ {id w}, Grasped (Rely (KeyCommit key)) db id w u →
      u.db.wallets.find? w.id = some w := by
    intro id w grasped
    obtain ⟨moment, _, since, found⟩ := grasped.glimpsed
    rw [(unmoved_while_free since unused).wallets]
    exact found
  rw [poised.pending]
  apply KeyCommit.movement keyed
  apply MovementCommit.posted t payer payee kind status from_payer to_payee provider extra free
    (current poised.debtor) (current poised.creditor)
  · rw [poised.debtor.key, poised.creditor.key]
    exact poised.apart
  · exact poised.covered
  · exact poised.creditable

theorem underKey_wp (solvent : Solvent db) {job : Job} (keyed : underKey key job) :
    wp (Rely (KeyCommit key)) (KeyCommit key) (fun _ _ _ _ => True) job.program (fun _ _ => True)
      (⟨db, [], default, Nothing⟩ : Window) := by
  have env : Interference (Rely (KeyCommit key)) := key_env
  have clean := clean_start env db Nothing
  have grip : Grip (Rely (KeyCommit key)) (fun _ _ _ _ => True) db
      (Grasped (Rely (KeyCommit key)) db) := grip_grasped key_env
  have sides : ∀ ws s, Side ws → KeyCommit key ws s := fun _ _ => .side
  cases job with
  | initiateTransfer normalize sender cfg recipient amount k draws =>
    obtain ⟨rfl, positive⟩ := keyed
    apply seq_wp
    apply initiateTransfer_wp key_env grip _ sides (Int.le_of_lt positive) clean solvent
    · intros
      trivial
    · intros
      trivial
    · intros
      trivial
    · intro u source destination payer payee _ poised _ _ _ _
      exact poised_keyed (Or.inl rfl) rfl rfl rfl rfl rfl rfl poised
  | initiatePayment payer cfg merchantId amount k draws =>
    obtain ⟨rfl, positive⟩ := keyed
    apply seq_wp
    apply initiatePayment_wp key_env grip _ sides (Int.le_of_lt positive) clean solvent
    · intros
      trivial
    · intros
      trivial
    · intros
      trivial
    · intro u source destination payer payee _ poised _ _ _
      exact poised_keyed (Or.inr rfl) rfl rfl rfl rfl rfl rfl poised
  | _ => exact keyed.elim

/-- Nothing has moved; or one transaction carries the key, the ledger has its debit and its
    credit, and every balance has changed by that movement alone. -/
inductive MovedOnce (key : String) (before after : Database) : Prop where
  | unmoved (unused : carriers key after = []) (same : SameMoney before after)
  | moved (t : Transaction) (payer payee : Wallet) (sole : carriers key after = [t])
      (added : after.transactions.rows = before.transactions.rows ++ [t])
      (source : t.sourceWalletId = some payer.id) (destination : t.destinationWalletId = some payee.id)
      (entries : after.ledgerEntries = before.ledgerEntries ++
        [entryOf t payer.id .debit t.amount (payer.balance - t.amount),
         entryOf t payee.id .credit t.amount (payee.balance + t.amount)])
      (balances : ∀ id old, before.wallets.find? id = some old →
        ∃ new, after.wallets.find? id = some new ∧ new.balance = old.balance +
          (if t.destinationWalletId = some id then t.amount else 0) -
          (if t.sourceWalletId = some id then t.amount else 0))

theorem movement_shape {ws : List Write} (h : MovementCommit db ws) {t : Transaction}
    {payer payee : Wallet} (same : ws = movementWrites t payer payee) :
    t.sourceWalletId = some payer.id ∧ t.destinationWalletId = some payee.id := by
  cases h with
  | posted t' sender recipient type status source destination =>
    simp only [movementWrites, entryOf, List.cons.injEq, Write.insertTransaction.injEq,
      Write.setBalance.injEq] at same
    obtain ⟨rfl, _, _, ⟨payerId, _⟩, ⟨payeeId, _⟩, _⟩ := same
    rw [← payerId, ← payeeId]
    exact ⟨source, destination⟩

theorem movedOnce_movement (unused : carriers key db = []) {t : Transaction} {payer payee : Wallet}
    (keyed : t.idempotencyKey = some key) (fits : MovementCommit db (movementWrites t payer payee))
    (same : SameMoney (applyAll (movementWrites t payer payee) db) s) : MovedOnce key db s := by
  have added := movement_transactions payer payee (movement_free fits rfl)
  have shape := movement_shape fits rfl
  apply MovedOnce.moved t payer payee _ _ shape.1 shape.2
  · rw [same.ledgerEntries]
    simp [movementWrites, applyWrite]
  · intro id old found
    obtain ⟨new, there, balance⟩ := movement_balance fits found
    refine ⟨new, by rw [same.wallets]; exact there, ?_⟩
    simpa [movementWrites, creditOf, debitOf] using balance
  · unfold carriers at unused ⊢
    rw [same.transactions, added, List.filter_append, unused]
    simp [keyed]
  · rw [same.transactions]
    exact added

/-- From a state where no transaction carries the key, transfers and payments under it,
    any number of them and in any interleaving, add at most one movement to the books. -/
theorem one_key_moves_money_once [DecidableEq ι] (solvent : Solvent db) (unused : carriers key db = [])
    {jobs : ι → Job} (keyed : ∀ i, underKey key (jobs i)) {T : Machine ι}
    (run : Run Anyhow (opening db jobs) T) : MovedOnce key db T.db := by
  have lasting : Lasting (KeyCommit key) (fun (_ : ι) (_ : Except AppError Unit) _ => True) :=
    fun _ _ _ _ _ h => h
  have safe : Safe (KeyCommit key) (fun _ _ _ _ _ => True) (fun _ _ _ => True) (opening db jobs) := by
    apply initial_safe
    intro i
    exact underKey_wp solvent (keyed i)
  have free : Run (Meets (fun _ _ _ _ _ => True)) (opening db jobs) T := by
    apply run_weaken _ run
    intro S a _ j rows writes memo next fault _ _
    trivial
  have kept := run_keeps lasting safe free (P := fun _ s => (carriers key s = [] ∧ SameMoney db s) ∨
    ∃ t payer payee, t.idempotencyKey = some key ∧ MovementCommit db (movementWrites t payer payee) ∧
      SameMoney (applyAll (movementWrites t payer payee) db) s) ?_ ?_
  · rcases kept with ⟨none_yet, same⟩ | ⟨t, payer, payee, has, fits, same⟩
    · exact .unmoved none_yet same
    · exact movedOnce_movement unused has fits same
  · intro i ws log s commit before
    cases commit with
    | side h =>
      have aside := side_money h s
      rcases before with ⟨none_yet, same⟩ | ⟨t, payer, payee, has, fits, same⟩
      · refine .inl ⟨?_, sameMoney_trans same aside⟩
        unfold carriers
        rw [aside.transactions]
        exact none_yet
      · exact .inr ⟨t, payer, payee, has, fits, sameMoney_trans same aside⟩
    | @movement _ t payer payee has fits =>
      rcases before with ⟨_, same⟩ | ⟨first, _, _, had, earlier, same⟩
      · exact .inr ⟨t, payer, payee, has, movement_same same fits, sameMoney_movement same t payer payee⟩
      · -- The key is taken, so the second INSERT was never admitted.
        have taken := (transaction_admits_iff.mp (movement_free fits rfl)).2.2 key has
        rw [same.transactions, movement_transactions _ _ (movement_free earlier rfl)] at taken
        simp [had] at taken
  · exact .inl ⟨unused, sameMoney_refl db⟩

/-- Bob's transfer to Carol, sent twice under one key. -/
def twins (i : Fin 2) : Job :=
  .initiateTransfer id (member 2 "bob") {} (.userId 3) 5000 (some "own")
    ⟨100 + i, toString i.val, 0, ⟨0, 0⟩⟩

def verdict (T : Machine (Fin 2)) : Bool × Bool × Option Int :=
  ((T.session 0).prog.returned, (T.session 1).prog.returned, (T.db.wallets.find? 13).map (·.balance))

/-- The second copy has passed every check before the first one commits. -/
theorem twins_move_money_once :
    ∃ T : Machine (Fin 2), Run Anyhow (opening keyDb twins) T ∧
      verdict T = (true, true, some 5000) ∧ MovedOnce "own" keyDb T.db := by
  have computed : (schedule Anyhow (opening keyDb twins)
      (List.replicate 6 (.run 1) ++ List.replicate 17 (.run 0) ++ List.replicate 5 (.run 1))).map verdict =
      some (true, true, some 5000) := by decide +kernel
  obtain ⟨T, run, values⟩ := reached_of_schedule computed
  refine ⟨T, run, values, ?_⟩
  apply one_key_moves_money_once keyDb_solvent (by decide) _ run
  intro i
  exact ⟨rfl, by decide⟩

end PayCoreSharedKeys
