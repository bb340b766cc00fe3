import PayCore.Proof.Regularity
import PayCore.Result.WalletBalances

/- What a request with an idempotency key hands back. All users and operations share one
   column of keys, and a lookup asks only for the key. -/
namespace PayCoreIdempotencyKeys
open KeyedTable SessionProgram SessionSystem RelyGuarantee PayCoreTables PayCoreWrites PayCoreSessions
open PayCoreRepositories PayCoreSupport PayCorePayments PayCoreFunding PayCorePersistence PayCoreCommits
open PayCoreStatements PayCoreRequests PayCoreMovements PayCoreOpenings PayCoreJobs PayCoreRegularity
open PayCoreWalletBalances

variable {ι : Type}

def addressed (normalize : String → String) (user : User) : Recipient → Prop
  | .userId id => user.id = id
  | .email email => user.email = normalize email

def idempotencyKeyOf : Job → Option String
  | .initiateFunding _ _ key _ => key
  | .initiateTransfer _ _ _ _ _ key _ => key
  | .initiatePayment _ _ _ _ key _ => key
  | _ => none

/-- The transaction is the one the request describes: its initiator, its type, its amount,
    and the wallets of the parties it names. -/
inductive AsRequested (db : Database) : Job → Transaction → Prop where
  | funding {user amount key draws t id} (answers : Answers .funding user.id amount none (some id) t)
      (owns : Owned id user.id db) : AsRequested db (.initiateFunding user amount key draws) t
  | transfer {normalize sender cfg recipient amount key draws t source destination} {payee : User}
      (answers : Answers .transfer sender.id amount (some source) (some destination) t)
      (pays : Owned source sender.id db) (known : payee ∈ db.users.rows)
      (named : addressed normalize payee recipient) (receives : Owned destination payee.id db) :
      AsRequested db (.initiateTransfer normalize sender cfg recipient amount key draws) t
  | payment {payer cfg merchantId amount key draws t source destination} {payee : Merchant}
      (answers : Answers .merchantPayment payer.id amount (some source) (some destination) t)
      (pays : Owned source payer.id db) (known : payee ∈ db.merchants.rows)
      (named : payee.id = merchantId) (receives : Owned destination payee.userId db) :
      AsRequested db (.initiatePayment payer cfg merchantId amount key draws) t

structure HasKey (db : Database) (job : Job) (t : Transaction) : Prop where
  given : truthy (idempotencyKeyOf job) = true
  carried : t.idempotencyKey = idempotencyKeyOf job
  stored : Stored t db

/-- It was stored before the requests, or another session of theirs has inserted it. -/
structure Replayed (before : Database) (i : ι) (job : Job) (T : Answering ι) (t : Transaction) : Prop where
  carries : HasKey T.db job t
  foreign : before.transactions.find? t.id ≠ none ∨
    ∃ j ≠ i, ∃ ws x, (j, ws) ∈ T.log ∧ .insertTransaction x ∈ ws ∧ x.id = t.id

def RepliesWith (P : Transaction → Prop) (db : Database) : Reply → Prop
  | .transaction t => P t
  | .funding out => ∃ t, Responds out t db ∧ P t
  | .nothing => True

def Explained (before : Database) (i : ι) (job : Job) (T : Answering ι) : Reply → Prop :=
  RepliesWith (fun t => AsRequested T.db job t ∨ Replayed before i job T t) T.db

theorem addressed_same {normalize : String → String} {a b : User} {recipient : Recipient}
    (id : b.id = a.id) (email : b.email = a.email) (h : addressed normalize a recipient) :
    addressed normalize b recipient := by
  cases recipient with
  | userId k => exact id.trans h
  | email e => exact email.trans h

section Lasting
variable {s t : Database} (later : Later s t)
include later

theorem asRequested_later {job : Job} {txn : Transaction} (h : AsRequested s job txn) :
    AsRequested t job txn := by
  cases h with
  | funding answers owns => exact .funding answers (owned_later later owns)
  | transfer answers pays known named receives =>
    obtain ⟨row, there, id, email⟩ := later.users _ known
    exact .transfer answers (owned_later later pays) there (addressed_same id email named)
      (by rw [id]; exact owned_later later receives)
  | payment answers pays known named receives =>
    obtain ⟨row, there, id, owner⟩ := later.merchants _ known
    exact .payment answers (owned_later later pays) there (id.trans named)
      (by rw [owner]; exact owned_later later receives)

theorem carries_later {job : Job} {txn : Transaction} (h : HasKey s job txn) : HasKey t job txn :=
  ⟨h.given, h.carried, stored_later later h.stored⟩

theorem hands_later {P P' : Transaction → Prop} (lasts : ∀ txn, P txn → P' txn) {reply : Reply}
    (h : RepliesWith P s reply) : RepliesWith P' t reply := by
  cases reply with
  | transaction txn => exact lasts txn h
  | funding out =>
    obtain ⟨txn, ⟨id, amount, row⟩, why⟩ := h
    exact ⟨txn, ⟨id, amount, stored_later later row⟩, lasts txn why⟩
  | nothing => trivial

end Lasting

theorem carries_found {db : Database} {job : Job} {txn : Transaction}
    (given : truthy (idempotencyKeyOf job) = true)
    (found : TransactionRepository.byIdempotencyKey ((idempotencyKeyOf job).getD "") db = some txn) :
    HasKey db job txn := by
  obtain ⟨key, same, _⟩ := truthy_iff.mp given
  have carries := List.find?_some found
  simp only [same, Option.getD_some, beq_iff_eq] at carries
  exact ⟨given, carries.trans same.symm, txn,
    find?_some_iff.mpr ⟨List.mem_of_find?_eq_some found, rfl⟩, revised_refl txn⟩

theorem recipient_addressed {normalize : String → String} {recipient : Recipient} {db : Database}
    {user : User} (found : recipientIn normalize recipient db = some user) :
    user ∈ db.users.rows ∧ addressed normalize user recipient := by
  cases recipient with
  | userId id =>
    have stored := find?_some_iff.mp (Option.filter_eq_some_iff.mp found).1
    exact ⟨stored.1, stored.2⟩
  | email email =>
    have fits := List.find?_some found
    simp only [Bool.and_eq_true, beq_iff_eq] at fits
    exact ⟨List.mem_of_find?_eq_some found, fits.1⟩

section Parties
variable {R : (Row → Prop) → Database → Database → Prop} {origin db : Database} {source destination : Uuid}
  {t : Transaction}

theorem transfer_asRequested {normalize : String → String} {sender : User} {cfg : Settings}
    {recipient : Recipient} {amount : Int} {key : Option String} {draws : Draws}
    (answers : Answers .transfer sender.id amount (some source) (some destination) t)
    (pays : Owned source sender.id db)
    (receives : Receives R origin (recipientIn normalize recipient) (·.id) destination db) :
    AsRequested db (.initiateTransfer normalize sender cfg recipient amount key draws) t := by
  obtain ⟨user, s, _, found, later, owned⟩ := receives
  obtain ⟨known, named⟩ := recipient_addressed found
  obtain ⟨row, there, id, email⟩ := later.users _ known
  exact .transfer answers pays there (addressed_same id email named) (by rw [id]; exact owned)

theorem payment_asRequested {payer : User} {cfg : Settings} {merchantId : Uuid} {amount : Int}
    {key : Option String} {draws : Draws}
    (answers : Answers .merchantPayment payer.id amount (some source) (some destination) t)
    (pays : Owned source payer.id db)
    (receives : Receives R origin (MerchantRepository.byId merchantId) (·.userId) destination db) :
    AsRequested db (.initiatePayment payer cfg merchantId amount key draws) t := by
  obtain ⟨merchant, s, _, found, later, owned⟩ := receives
  have known := find?_some_iff.mp (Option.filter_eq_some_iff.mp found).1
  obtain ⟨row, there, id, owner⟩ := later.merchants _ known.1
  exact .payment answers pays there (id.trans known.2) (by rw [owner]; exact owned)

theorem asRequested_revised {a b : Transaction} {job : Job} (revised : Revised a b)
    (h : AsRequested db job a) :
    AsRequested db job b := by
  have same : ∀ {type user amount source destination}, Answers type user amount source destination a →
      Answers type user amount source destination b := by
    intro type user amount source destination h
    rw [Revised] at revised
    rw [revised]
    exact ⟨h.type, h.initiator, h.amount, h.source, h.destination⟩
  cases h with
  | funding answers owns => exact .funding (same answers) owns
  | transfer answers pays known named receives => exact .transfer (same answers) pays known named receives
  | payment answers pays known named receives => exact .payment (same answers) pays known named receives

end Parties

def asksPositive : Job → Prop
  | .initiateTransfer _ _ _ _ amount _ _ => 0 < amount
  | .initiatePayment _ _ _ amount _ _ => 0 < amount
  | _ => True

def returns : Job → Prop
  | .initiateFunding .. => True
  | .initiateTransfer .. => True
  | .initiatePayment .. => True
  | _ => False

theorem returns_keyed {job : Job} (given : truthy (idempotencyKeyOf job) = true) : returns job := by
  cases job <;> trivial

/-- What a session commits: regular writes, and no transaction but the one it was asked for. -/
def Orders (job : Job) (ws : List Write) (db : Database) : Prop :=
  RegularCommit ws db ∧ (returns job → ∀ t, .insertTransaction t ∈ ws → AsRequested db job t)

def Answered (job : Job) (r : Except AppError Reply) (db : Database) : Prop :=
  ∀ reply, r = .ok reply → RepliesWith (fun t => AsRequested db job t ∨ HasKey db job t) db reply

theorem answered_error {job : Job} {x : AppError} {db : Database} : Answered job (.error x) db := by
  rintro reply ⟨⟩

theorem answered_ok {job : Job} {reply : Reply} {db : Database}
    (h : RepliesWith (fun t => AsRequested db job t ∨ HasKey db job t) db reply) :
    Answered job (.ok reply) db := by
  rintro _ ⟨⟩
  exact h

section Verified
variable {db : Database} {F : Database → IdentityMap → List Row → List Write → Prop}
  {L : Uuid → Wallet → Window → Prop} {source destination : Uuid} {t : Transaction} {payer payee : Wallet}
  {u : Window}

theorem poised_orders {job : Job}
    (poised : Poised (Rely RegularCommit) F L source destination t payer payee u)
    (asked : AsRequested u.db job t) : Orders job u.pending u.db := by
  rw [poised.pending]
  refine ⟨movementWrites_regular poised.covered poised.creditable.1, ?_⟩
  intro _ a mem
  have same : a = t := by simpa [movementWrites] using mem
  rw [same]
  exact asked

theorem poised_answers {type : TransactionType} {initiator : User} {amount : Int} {key : Option String}
    {draws : Draws}
    (poised : Poised (Rely RegularCommit) F (Grasped (Rely RegularCommit) db) source destination
      (movementOf type initiator amount key draws payer payee) payer payee u) :
    Answers type initiator.id amount (some source) (some destination)
      (movementOf type initiator amount key draws payer payee) :=
  ⟨rfl, rfl, rfl, congrArg some poised.debtor.key, congrArg some poised.creditor.key⟩

theorem side_orders {job : Job} {ws : List Write} (side : Side ws) : Orders job ws db := by
  refine ⟨side_regular side, ?_⟩
  intro _ t mem
  have never := side _ mem
  cases never

theorem nothing_answered {job : Job} (silent : ¬ returns job)
    (asks : job.replying = (do job.program; .ret .nothing)) :
    wp (Rely RegularCommit) (Orders job) (fun _ _ _ _ => True) job.replying
      (fun r v => Answered job r v.db) (⟨db, [], default, Nothing⟩ : Window) := by
  rw [asks]
  apply seq_wp
  refine wp_mono ?_ (emits_wp (fun _ _ h => ⟨h, fun returns => absurd returns silent⟩)
    (regular_job job) (by simp))
  intro r u _
  cases r with
  | ok _ => exact answered_ok trivial
  | error _ => exact answered_error

theorem replying_answered {job : Job} (positive : asksPositive job) (solvent : Solvent db) :
    wp (Rely RegularCommit) (Orders job) (fun _ _ _ _ => True) job.replying
      (fun r v => Answered job r v.db) (⟨db, [], default, Nothing⟩ : Window) := by
  have clean := clean_start regular_env db Nothing
  have grip : Grip (Rely RegularCommit) (fun _ _ _ _ => True) db (Grasped (Rely RegularCommit) db) :=
    grip_grasped regular_env
  cases job with
  | initiateTransfer normalize sender cfg recipient amount key draws =>
    apply seq_wp
    apply initiateTransfer_wp regular_env grip _ (fun _ _ => side_orders) (Int.le_of_lt positive)
      clean solvent
    · intro _ _ _
      exact answered_error
    · intro u txn _ given found
      exact answered_ok (.inr (carries_found given found))
    · intro u txn source destination user s answers rely found later pays receives _
      exact answered_ok (.inl (transfer_asRequested answers pays ⟨user, s, rely, found, later, receives⟩))
    · intro u source destination payer payee _ poised pays receives _ _
      exact poised_orders poised (transfer_asRequested (poised_answers poised) pays receives)
  | initiatePayment payer cfg merchantId amount key draws =>
    apply seq_wp
    apply initiatePayment_wp regular_env grip _ (fun _ _ => side_orders) (Int.le_of_lt positive)
      clean solvent
    · intro _ _ _
      exact answered_error
    · intro u txn _ given found
      exact answered_ok (.inr (carries_found given found))
    · intro u txn source destination merchant s answers rely found later pays receives _
      exact answered_ok
        (.inl (payment_asRequested answers pays ⟨merchant, s, rely, found, later, receives⟩))
    · intro u source destination payer payee _ poised pays receives _
      exact poised_orders poised (payment_asRequested (poised_answers poised) pays receives)
  | initiateFunding user amount key draws =>
    apply seq_wp
    apply initiateFunding_wp regular_env _ clean
    · intro _ _ _
      exact answered_error
    · intro u out txn _ given found responds
      exact answered_ok ⟨txn, responds, .inr (carries_found given found)⟩
    · intro u out txn id answers owns responds
      exact answered_ok ⟨txn, responds, .inl (.funding answers owns)⟩
    · intro t id s answers owns request
      refine ⟨request_regular request, ?_⟩
      intro _ a mem
      have same : a = t := by simpa using mem
      rw [same]
      exact .funding answers owns
  | _ => exact nothing_answered id rfl

end Verified

section Provenance
variable {db s : Database}

/-- Each row was there before the requests, or one of their sessions has inserted it, as it was
asked to. -/
def Traced (before : Database) (jobs : ι → Job) (log : List (ι × List Write)) (s : Database) : Prop :=
  ∀ id row, s.transactions.find? id = some row → before.transactions.find? id ≠ none ∨
    ∃ j ws x, (j, ws) ∈ log ∧ .insertTransaction x ∈ ws ∧ x.id = id ∧ Revised x row ∧
      (returns (jobs j) → AsRequested s (jobs j) x)

theorem row_origin (w : Write) {id : Uuid} {b : Transaction}
    (found : (applyWrite w s).transactions.find? id = some b) :
    (∃ a, s.transactions.find? id = some a ∧ Revised a b) ∨ w = .insertTransaction b := by
  have untouched : (applyWrite w s).transactions = s.transactions →
      ∃ a, s.transactions.find? id = some a ∧ Revised a b := by
    intro same
    rw [same] at found
    exact ⟨b, found, revised_refl b⟩
  cases w with
  | insertTransaction t =>
    cases free : s.transactions.admits t with
    | false => exact .inl (untouched (insert_refused free))
    | true =>
      simp only [applyWrite, find?_insert free] at found
      split at found
      · cases found
        exact .inr rfl
      · exact .inl ⟨b, found, revised_refl b⟩
  | updateTransaction k set =>
    simp only [applyWrite, find?_update] at found
    split at found
    · obtain ⟨a, old, rfl⟩ := Option.map_eq_some_iff.mp found
      exact .inl ⟨a, old, revised_on set a⟩
    · exact .inl ⟨b, found, revised_refl b⟩
  | account w => exact .inl (untouched (account_transactions w s))
  | _ => exact .inl (untouched rfl)

theorem rows_origin (ws : List Write) {id : Uuid} {b : Transaction}
    (found : (applyAll ws s).transactions.find? id = some b) :
    (∃ a, s.transactions.find? id = some a ∧ Revised a b) ∨
      ∃ x, .insertTransaction x ∈ ws ∧ x.id = id ∧ Revised x b := by
  induction ws generalizing s with
  | nil => exact .inl ⟨b, found, revised_refl b⟩
  | cons w ws ih =>
    rcases ih found with ⟨a, there, revised⟩ | ⟨x, mem, same, revised⟩
    · rcases row_origin w there with ⟨c, old, before⟩ | rfl
      · exact .inl ⟨c, old, revised_trans before revised⟩
      · exact .inr ⟨a, by simp, (find?_some_iff.mp there).2, revised⟩
    · exact .inr ⟨x, List.mem_cons_of_mem w mem, same, revised⟩

theorem traced_commit {before : Database} {jobs : ι → Job} {log : List (ι × List Write)} {i : ι}
    {ws : List Write} (orders : Orders (jobs i) ws s) (traced : Traced before jobs log s) :
    Traced before jobs (log ++ [(i, ws)]) (applyAll ws s) := by
  have later : Later s (applyAll ws s) := later_all orders.1 s
  intro id row found
  rcases rows_origin ws found with ⟨a, old, revised⟩ | ⟨x, mem, same, revised⟩
  · rcases traced id a old with there | ⟨j, vs, x, told, mem, same, first, asked⟩
    · exact .inl there
    · exact .inr ⟨j, vs, x, List.mem_append_left _ told, mem, same, revised_trans first revised,
        fun answers => asRequested_later later (asked answers)⟩
  · exact .inr ⟨i, ws, x, List.mem_append_right _ (by simp), mem, same, revised,
      fun answers => asRequested_later later (orders.2 answers x mem)⟩

/-- A row under the key that the session has inserted itself is what it was asked for. -/
theorem carries_origin {before : Database} {jobs : ι → Job} {T : Answering ι}
    (traced : Traced before jobs T.log T.db)
    {i : ι} {t : Transaction} (carries : HasKey T.db (jobs i) t) :
    AsRequested T.db (jobs i) t ∨ Replayed before i (jobs i) T t := by
  obtain ⟨row, found, revised⟩ := carries.stored
  rcases traced t.id row found with there | ⟨j, ws, x, told, mem, same, first, asked⟩
  · exact .inr ⟨carries, .inl there⟩
  · by_cases mine : j = i
    · subst mine
      have whole := revised_trans first (revised_symm revised)
      exact .inl (asRequested_revised whole (asked (returns_keyed carries.given)))
    · exact .inr ⟨carries, .inr ⟨j, mine, ws, x, told, mem, same⟩⟩

end Provenance

section
variable [DecidableEq ι] {db : Database}

/-- Whatever keys are stored and however the sessions interleave, a request hands back the transaction it
    describes, or, where its key is not empty, an older or foreign one with that key. -/
theorem returned_is_requested_or_carries_the_key (solvent : Solvent db) {jobs : ι → Job}
    (positive : ∀ i, asksPositive (jobs i)) {T : Answering ι} (run : Run Anyhow (asking db jobs) T)
    {i : ι} {reply : Reply} (ends : (T.session i).prog = .ret reply) :
    Explained db i (jobs i) T reply := by
  have lasting : Lasting RegularCommit (fun (i : ι) r s => Answered (jobs i) r s) := by
    intro i r s t rely answered reply same
    have later := regular_env.later rely
    refine hands_later later ?_ (answered reply same)
    rintro txn (asked | carries)
    · exact .inl (asRequested_later later asked)
    · exact .inr (carries_later later carries)
  have safe : SafeBy RegularCommit (fun i => Orders (jobs i)) (fun _ _ _ _ _ => True)
      (fun i r s => Answered (jobs i) r s) (asking db jobs) := by
    apply initial_safe_by
    intro i
    exact replying_answered (positive i) solvent
  have free :=
    run_allowed (O := fun i => Orders (jobs i)) (fun _ _ _ orders => orders.1) (run_unconditional run)
  have traced : Traced db jobs T.log T.db := by
    apply run_keeps_by lasting safe free (P := Traced db jobs)
    · intro i ws log s orders _ before
      exact traced_commit orders before
    · intro id row found
      exact .inl (by simp [show db.transactions.find? id = some row from found])
  have verified := (run_safe_by lasting safe free).verified i
  rw [ends] at verified
  refine hands_later (later_refl T.db) ?_ (verified reply rfl)
  rintro txn (asked | carries)
  · exact .inl asked
  · exact carries_origin traced carries

end

section Collision

/-- Alice has sent NGN 10.00 to Carol under the key "k". -/
def aliceTransfer : Transaction :=
  { id := 90
    reference := "txn_90"
    type := .transfer
    status := .completed
    amount := 1000
    sourceWalletId := some 11
    destinationWalletId := some 13
    initiatedByUserId := 1
    idempotencyKey := some "k"
    createdAt := 0 }

def keyDb : Database :=
  { raceDb with
    wallets := ⟨[{ id := 11, userId := 1, balance := 10000 },
      { id := 12, userId := 2, balance := 10000 }, { id := 13, userId := 3 }], by decide⟩
    transactions := ⟨[aliceTransfer], by decide⟩ }

/-- Bob sends NGN 50.00 to Carol under a key of his choice. -/
def keyJobs (key : Option String) (_ : Fin 1) : Job :=
  .initiateTransfer id (member 2 "bob") {} (.userId 3) 5000 key ⟨100, "100", 0, ⟨0, 0⟩⟩

def answer (T : Answering (Fin 1)) : Option (Uuid × Uuid × Int) :=
  match (T.session 0).prog with
  | .ret (.transaction t) => some (t.id, t.initiatedByUserId, t.amount)
  | _ => none

theorem keyDb_solvent : Solvent keyDb := by
  unfold Solvent
  decide

theorem answer_iff {T : Answering (Fin 1)} {id user : Uuid} {amount : Int}
    (h : answer T = some (id, user, amount)) : ∃ t, (T.session 0).prog = .ret (.transaction t) ∧
      t.id = id ∧ t.initiatedByUserId = user ∧ t.amount = amount := by
  unfold answer at h
  split at h
  · rename_i t prog
    cases h
    exact ⟨t, prog, rfl, rfl, rfl⟩
  · cases h

/-- Bob is handed Alice's transaction under Alice's key. -/
theorem foreign_key_discloses_a_foreign_transaction :
    ¬ ∀ T : Answering (Fin 1), Run Anyhow (asking keyDb (keyJobs (some "k"))) T →
      ∀ t, (T.session 0).prog = .ret (.transaction t) →
        AsRequested T.db (keyJobs (some "k") 0) t := by
  intro claim
  have computed : (schedule Anyhow (asking keyDb (keyJobs (some "k")))
      (List.replicate 4 (.run 0))).map answer = some (some (90, 1, 1000)) := by decide +kernel
  obtain ⟨T, run, values⟩ := reached_of_schedule computed
  obtain ⟨t, prog, _, initiator, _⟩ := answer_iff values
  cases claim T run t prog with
  | transfer answers =>
    have bob : (1 : Uuid) = 2 := initiator.symm.trans answers.initiator
    exact absurd bob (by decide)

/-- Under a key of his own Bob gets the transfer he has asked for. -/
theorem own_key_gets_the_transfer :
    ∃ (T : Answering (Fin 1)) (t : Transaction), (T.session 0).prog = .ret (.transaction t) ∧
      t.amount = 5000 ∧ AsRequested T.db (keyJobs (some "own") 0) t := by
  have computed : (schedule Anyhow (asking keyDb (keyJobs (some "own")))
      (List.replicate 19 (.run 0))).map answer = some (some (100, 2, 5000)) := by decide +kernel
  obtain ⟨T, run, values⟩ := reached_of_schedule computed
  obtain ⟨t, prog, id, _, amount⟩ := answer_iff values
  refine ⟨T, t, prog, amount, ?_⟩
  have positive : ∀ i, asksPositive (keyJobs (some "own") i) := fun _ => (by decide : (0 : Int) < 5000)
  have explained := returned_is_requested_or_carries_the_key keyDb_solvent positive run prog
  rcases explained with asked | ⟨_, old | ⟨j, other, _⟩⟩
  · exact asked
  · rw [id] at old
    exact absurd (by decide) old
  · exact absurd (Subsingleton.elim j 0) other

end Collision

end PayCoreIdempotencyKeys
