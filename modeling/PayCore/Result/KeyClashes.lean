import PayCore.Proof.FailureRules
import PayCore.Proof.KeyBlindness
import PayCore.Result.SerialBooks

/- Requests with idempotency keys, one after the other. The services take an empty key for no
   key, the unique constraint does not: the second request with the empty key ends with an
   IntegrityError, whoever sent the first. -/
namespace PayCoreKeyClashes
open KeyedTable SessionProgram Failures AlikeRuns SerialRuns PayCoreTables PayCoreWrites
open PayCoreSessions PayCoreRepositories PayCoreSupport PayCorePayments PayCoreFunding
open PayCoreWithdrawals PayCorePersistence PayCoreCoherence PayCoreCommits PayCoreJobs
open PayCoreJobRules PayCoreSoloHandlers PayCoreIdempotencyKeys PayCoreSharedKeys PayCoreBooks
open PayCoreSerialJobs PayCoreKeyBlindness PayCoreFailureRules

variable {answer : Request → Option PaystackData} {db s : Database} {job : Job}

def admissibleKey (key : Option String) : Prop := ∀ k, key = some k → k.length ≤ 255

/-- A request as its schema admits it, that draws a fresh id and reference. -/
def Accepted (db : Database) : Job → Prop
  | .initiateTransfer _ _ _ _ amount key draws =>
      0 < amount ∧ admissibleKey key ∧ FreshRow draws.transactionId draws.hex db
  | .initiatePayment _ _ _ amount key draws =>
      0 < amount ∧ admissibleKey key ∧ FreshRow draws.transactionId draws.hex db
  | .initiateFunding _ amount key draws =>
      0 < amount ∧ admissibleKey key ∧ FreshRow draws.transactionId draws.hex db
  | _ => False

def takesNoKey : Job → Prop
  | .initiateTransfer .. => False
  | .initiatePayment .. => False
  | .initiateFunding .. => False
  | _ => True

structure Call where
  state : Database
  answer : Request → Option PaystackData
  job : Job

def Call.ended (c : Call) : Except AppError Reply := (runAlone c.answer c.job.replying c.state).1

/-- A serial run from the empty database, with its calls of the three services. -/
inductive KeyRun : List Call → Database → Prop where
  | start : KeyRun [] emptyDatabase
  | call {calls : List Call} {s : Database} (before : KeyRun calls s)
      (answer : Request → Option PaystackData) (job : Job) (accepted : Accepted s job) :
      KeyRun (⟨s, answer, job⟩ :: calls) (runAlone answer job.replying s).2
  | operation {calls : List Call} {s : Database} (before : KeyRun calls s)
      (answer : Request → Option PaystackData) (job : Job) (other : takesNoKey job)
      (admitted : Admitted s job) : KeyRun calls (runAlone answer job.program s).2
  | directory {calls : List Call} {s t : Database} (before : KeyRun calls s) (same : SameMoney s t) :
      KeyRun calls t

def answerWith : Job → Transaction → Except AppError Reply
  | .initiateFunding .., t =>
      match storedPaymentUrl t with
      | some paymentUrl => .ok (.funding { transactionId := t.id, reference := t.reference, paymentUrl,
                                           amount := t.amount, currency := t.currency })
      | none => .error .responseModel
  | _, t => .ok (.transaction t)

def Replays (db : Database) (job : Job) (r : Except AppError Reply) : Prop :=
  truthy (idempotencyKeyOf job) = true ∧
    ∃ t ∈ db.transactions.rows, t.idempotencyKey = idempotencyKeyOf job ∧ r = answerWith job t

/-- The call ends with no IntegrityError, and with other keys in the stored transactions it
    would have ended the same, unless it hands back the one stored under its own key. -/
def Indifferent (c : Call) : Prop :=
  (∀ x, c.ended ≠ .error (.integrity x)) ∧
    ∀ other, Rekeyed c.state other → Clear (idempotencyKeyOf c.job) other →
      let elsewhere := (runAlone c.answer c.job.replying other).1
      elsewhere = c.ended ∨ Replays c.state c.job c.ended ∨ Replays other c.job elsewhere

section Answers
variable {α β : Type} {p : Tx α}

theorem exec_mapped (f : α → β) (s : Solo) : exec answer (p >>= fun a => (.ret (f a) : Tx β)) s =
    ((exec answer p s).1.map f, (exec answer p s).2) := by
  rw [exec_seq]
  cases ends : exec answer p s with
  | mk r u => cases r <;> rfl

theorem runAlone_mapped (answer : Request → Option PaystackData) (f : α → β) (db : Database) :
    runAlone answer (p >>= fun a => (.ret (f a) : Tx β)) db =
    ((runAlone answer p db).1.map f, (runAlone answer p db).2) := by
  unfold runAlone
  rw [exec_mapped]

/-- Whether a job raises, and what it leaves behind, does not depend on its answer. -/
theorem program_replying (accepted : Accepted db job) :
    (∀ x, (runAlone answer job.replying s).1 = .error x → (runAlone answer job.program s).1 = .error x) ∧
      (runAlone answer job.replying s).2 = (runAlone answer job.program s).2 := by
  have mapped : ∀ {α : Type} (p : Tx α) (f : α → Reply),
      (∀ x, (runAlone answer (p >>= fun a => .ret (f a)) s).1 = .error x →
        (runAlone answer (quietly p) s).1 = .error x) ∧
      (runAlone answer (p >>= fun a => .ret (f a)) s).2 = (runAlone answer (quietly p) s).2 := by
    intro α p f
    have quiet := runAlone_mapped answer (p := p) (fun _ => ()) s
    rw [runAlone_mapped answer f s]
    unfold quietly
    rw [quiet]
    cases (runAlone answer p s).1 with
    | ok a =>
      refine ⟨?_, rfl⟩
      rintro x ⟨⟩
    | error y =>
      refine ⟨?_, rfl⟩
      rintro x ⟨⟩
      rfl
  cases job with
  | initiateTransfer => exact mapped _ _
  | initiatePayment => exact mapped _ _
  | initiateFunding => exact mapped _ _
  | _ => exact accepted.elim

end Answers

section Clashes

def breakable (job : Job) (c : Constraint) : Prop := job.movesMoney ∧ c = .walletsBalanceNonNegative

theorem unclashing_replying (accepted : Accepted db job) (clear : Clear (idempotencyKeyOf job) db)
    {x : AppError} (ends : (runAlone answer job.replying db).1 = .error x) :
    Unclashing (breakable job) x := by
  have tail : ∀ {α : Type} {p : Tx α} (f : α → Reply), FailsAs (Unclashing (breakable job)) answer p
      (start db) →
      (runAlone answer (p >>= fun a => .ret (f a)) db).1 = .error x → Unclashing (breakable job) x := by
    intro α p f fails ends
    have whole : FailsAs (Unclashing (breakable job)) answer (p >>= fun a => .ret (f a)) (start db) :=
      failsAs_seq fails (fun _ _ _ => failsAs_throws trivial)
    exact whole x _ (Prod.ext ends rfl)
  cases job with
  | initiateTransfer => exact tail _ (failsAs_initiateTransfer ⟨accepted.1, rfl⟩ clear accepted.2.2) ends
  | initiatePayment => exact tail _ (failsAs_initiatePayment ⟨accepted.1, rfl⟩ clear accepted.2.2) ends
  | initiateFunding => exact tail _ (failsAs_initiateFunding clear accepted.2.2) ends
  | _ => exact accepted.elim

theorem accepted_admitted (accepted : Accepted db job) : Admitted db job := by
  cases job with
  | initiateTransfer => exact accepted.1
  | initiatePayment => exact accepted.1
  | initiateFunding => trivial
  | _ => exact accepted.elim

theorem no_integrity_error (books : Books db) (accepted : Accepted db job)
    (clear : Clear (idempotencyKeyOf job) db) (c : Constraint) :
    (runAlone answer job.replying db).1 ≠ .error (.integrity c) := by
  intro ends
  obtain ⟨money, rfl⟩ := (unclashing_replying accepted clear ends).allowed c rfl
  have alone := job_alone answer (Q := fun r _ => job.movesMoney → ¬ FailsBalanceCheck r)
    (admitted_wp books (accepted_admitted accepted))
  exact alone.1 money ((program_replying accepted).1 _ ends)

end Clashes

section Elsewhere
variable {α : Type} {key : Option String} {other : Database}

theorem rekeyed_symm (rekeyed : Rekeyed db other) : Rekeyed other db := by
  obtain ⟨table, rfl, same⟩ := rekeyed
  exact ⟨db.transactions, rfl, same.symm⟩

/-- A request that looks up its key once it has resolved its parties. -/
structure LooksUp (key : Option String) (replay : Transaction → Except AppError Reply) (program : Tx Reply)
    (p : Tx α) (f : α → Option Transaction → Tx Reply) : Prop where
  shape : program = p >>= fun a => lookupKey key >>= f a
  reads : Reads p
  keeps : Keeps Coherent p
  parties : Blind (Alike none) p
  blind : Blind (Alike key) program
  answers : ∀ answer a t s, (exec answer (f a (some t)) s).1 = replay t

variable {replay : Transaction → Except AppError Reply} {program : Tx Reply} {p : Tx α}
  {f : α → Option Transaction → Tx Reply}

theorem lookup_found (answer : Request → Option PaystackData) {u : Solo} {k : String}
    {t : Transaction} (given : k ≠ "") (mem : t ∈ u.seen.transactions.rows)
    (carried : t.idempotencyKey = some k) (coherent : Coherent u.seen u.memory) :
    ∃ row ∈ u.seen.transactions.rows, row.idempotencyKey = some k ∧
      ∃ v, Yields answer (lookupKey (some k)) u (some row) v := by
  cases found : TransactionRepository.byIdempotencyKey k u.seen with
  | none => exact absurd carried (by simpa using List.find?_eq_none.mp found t mem)
  | some row =>
    have stored := List.mem_of_find?_eq_some found
    have carries := List.find?_some found
    refine ⟨row, stored, by simpa using carries, ?_⟩
    have held : u.memory.transaction row = row := by
      unfold IdentityMap.transaction
      cases loaded : u.memory.transactions row.id with
      | none => rfl
      | some held => exact coherent.transactions row.id held row loaded (find?_some_iff.mpr ⟨stored, rfl⟩)
    have asked : truthy (some k) = true := truthy_iff.mpr ⟨k, rfl, given⟩
    refine ⟨{ u with memory := u.memory.keepTransaction (u.memory.transaction row) }, ?_⟩
    simp [Yields, lookupKey, asked, TransactionRepository.getByIdempotencyKey,
      TransactionRepository.select, exec, found, held]

/-- The key of a request is taken: it hands back a transaction that carries it, or it fails
   before it asks for the key. -/
theorem taken_replays (answer : Request → Option PaystackData)
    (looks : LooksUp key replay program p f) {k : String} (given : key = some k) (named : k ≠ "")
    {t : Transaction} (mem : t ∈ db.transactions.rows) (carried : t.idempotencyKey = some k) :
    (∃ row ∈ db.transactions.rows, row.idempotencyKey = key ∧
      (runAlone answer program db).1 = replay row) ∨
    ∀ other, Rekeyed db other → (runAlone answer program other).1 =
      (runAlone answer program db).1 := by
  subst given
  have still := reads_exec answer looks.reads (start db)
  have coherent := keeps_exec coherent_blank answer looks.keeps (s := start db) (coherent_blank db)
  unfold runAlone
  simp only [looks.shape, exec_seq]
  cases resolved : exec answer p (start db) with
  | mk r u =>
    rw [resolved] at still coherent
    dsimp only at still coherent ⊢
    have seen : u.seen = db := by
      unfold Local.seen
      rw [still.1, still.2]
      rfl
    cases r with
    | ok a =>
      left
      obtain ⟨row, stored, carries, v, ends⟩ :=
        lookup_found answer named (seen.symm ▸ mem) carried coherent
      refine ⟨row, seen ▸ stored, carries, ?_⟩
      unfold Yields at ends
      dsimp only
      rw [ends]
      exact looks.answers answer a row v
    | error x =>
      right
      intro other rekeyed
      have alike : Alike none db other := by
        refine ⟨rekeyed, ?_⟩
        rintro k' ⟨⟩
      have same := blind_alone answer looks.parties alike
      have elsewhere : (exec answer p (start other)).1 = .error x := by
        exact same.symm.trans (congrArg Prod.fst resolved)
      cases resolved' : exec answer p (start other) with
      | mk r' u' =>
        rw [resolved'] at elsewhere
        cases elsewhere
        rfl

/-- The same request on a database with other keys. -/
theorem answered_alike (answer : Request → Option PaystackData)
    (looks : LooksUp key replay program p f) (rekeyed : Rekeyed db other) (clear : Clear key db)
    (clear' : Clear key other) :
    let answered := fun s => (runAlone answer program s).1
    let replays := fun s => truthy key = true ∧
      ∃ t ∈ s.transactions.rows, t.idempotencyKey = key ∧ answered s = replay t
    answered other = answered db ∨ replays db ∨ replays other := by
  intro answered replays
  by_cases given : truthy key = true
  · obtain ⟨k, rfl, named⟩ := truthy_iff.mp given
    by_cases here : ∃ t ∈ db.transactions.rows, t.idempotencyKey = some k
    · obtain ⟨t, mem, carried⟩ := here
      rcases taken_replays answer looks rfl named mem carried with found | same
      · exact .inr (.inl ⟨given, found⟩)
      · exact .inl (same other rekeyed)
    by_cases there : ∃ t ∈ other.transactions.rows, t.idempotencyKey = some k
    · obtain ⟨t, mem, carried⟩ := there
      rcases taken_replays answer looks rfl named mem carried with found | same
      · exact .inr (.inr ⟨given, found⟩)
      · exact .inl (same db (rekeyed_symm rekeyed)).symm
    · left
      have free : ∀ s : Database, (¬ ∃ t ∈ s.transactions.rows, t.idempotencyKey = some k) →
          carriers k s = [] := by
        intro s none
        exact carriers_nil_iff.mpr fun t mem carried => none ⟨t, mem, carried⟩
      have alike : Alike (some k) db other := by
        refine ⟨rekeyed, ?_⟩
        rintro k' ⟨⟩
        rw [free other there, free db here]
      exact (blind_alone answer looks.blind alike).symm
  · left
    have alike : Alike key db other := by
      refine ⟨rekeyed, ?_⟩
      rintro k rfl
      have empty : k = "" := by
        by_contra named
        exact given (truthy_iff.mpr ⟨k, rfl, named⟩)
      subst empty
      rw [clear rfl, clear' rfl]
    exact (blind_alone answer looks.blind alike).symm

end Elsewhere

theorem looks_up (accepted : Accepted db job) :
    ∃ (α : Type) (p : Tx α) (f : α → Option Transaction → Tx Reply),
      LooksUp (idempotencyKeyOf job) (answerWith job) job.replying p f := by
  have blind_reply : ∀ {α : Type} {key : Option String} {p : Tx α} (g : α → Reply), Blind (Alike key) p →
      Blind (Alike key) (p >>= fun a => .ret (g a)) := fun g blind => blind_seq blind (fun _ => trivial)
  cases job with
  | initiateTransfer normalize sender cfg recipient amount key draws =>
    refine ⟨_, resolveTransfer normalize sender recipient, ?transferring, ?transfer,
      (show Looks (Unclashing fun _ => True) _ from looks_resolveTransfer normalize sender recipient).reads,
      keeps_resolveTransfer normalize sender recipient, blind_resolveTransfer normalize sender recipient,
      blind_reply _ (blind_initiateTransfer cfg normalize sender recipient amount draws), ?_⟩
    case transfer =>
      unfold Job.replying initiateTransfer
      dsimp only [idempotencyKeyOf]
      rw [seq_seq]
      congr 1
      funext wallets
      rw [seq_seq]
    intro answer a t s
    rfl
  | initiatePayment payer cfg merchantId amount key draws =>
    refine ⟨_, resolvePayment payer merchantId, ?paying, ?payment,
      (show Looks (Unclashing fun _ => True) _ from looks_resolvePayment payer merchantId).reads,
      keeps_resolvePayment payer merchantId, blind_resolvePayment payer merchantId,
      blind_reply _ (blind_initiatePayment cfg payer merchantId amount draws), ?_⟩
    case payment =>
      unfold Job.replying initiatePayment
      dsimp only [idempotencyKeyOf]
      rw [seq_seq]
      congr 1
      funext parties
      rw [seq_seq]
    intro answer a t s
    rfl
  | initiateFunding user amount key draws =>
    refine ⟨_, resolveFunding user amount, ?charging, ?funding, reads_resolveFunding user amount,
      keeps_resolveFunding user amount, blind_resolveFunding user amount,
      blind_reply _ (blind_initiateFunding user amount draws), ?_⟩
    case funding =>
      unfold Job.replying initiateFunding
      dsimp only [idempotencyKeyOf]
      rw [seq_seq]
      congr 1
      funext wallet
      rw [seq_seq]
    intro answer a t s
    dsimp only [answerWith]
    rw [exec_mapped]
    unfold fundingOf
    cases storedPaymentUrl t <;> rfl
  | _ => exact accepted.elim

section Runs
variable {calls : List Call}

theorem books_keyRun (run : KeyRun calls db) : Books db := by
  induction run with
  | start => exact books_empty
  | call before answer job accepted ih =>
    rw [(program_replying accepted).2]
    exact books_operation ih (accepted_admitted accepted) answer
  | operation before answer job other admitted ih => exact books_operation ih admitted answer
  | directory before same ih => exact books_same ih same

theorem indifferent_call (books : Books s) (accepted : Accepted s job)
    (clear : Clear (idempotencyKeyOf job) s) :
    Indifferent ⟨s, answer, job⟩ := by
  constructor
  · exact no_integrity_error books accepted clear
  · intro other rekeyed clear'
    obtain ⟨α, p, f, looks⟩ := looks_up accepted
    rcases answered_alike answer looks rekeyed clear clear' with same | ⟨given, here⟩ | ⟨given, there⟩
    · exact .inl same
    · exact .inr (.inl ⟨given, here⟩)
    · exact .inr (.inr ⟨given, there⟩)

/-- In every serial run: a call whose key is not the empty one, or is the first with it, ends
    with no IntegrityError and as it would with any other keys in the database. -/
theorem keys_do_not_clash (run : KeyRun calls db) :
    ∀ c ∈ calls, Clear (idempotencyKeyOf c.job) c.state → Indifferent c := by
  induction run with
  | start => simp
  | @call calls s before answer job accepted ih =>
    intro c mem clear
    rcases List.mem_cons.mp mem with rfl | earlier
    · exact indifferent_call (books_keyRun before) accepted clear
    · exact ih c earlier clear
  | operation before answer job other admitted ih => exact ih
  | directory before same ih => exact ih

end Runs

section EmptyKeys
open PayCoreSerialBooks

def bob : User := { id := 2, email := "bob", hashedPassword := "", fullName := "Bob", kycTier := 1 }

/-- Alice and Bob each ask to fund their wallets, both with the empty key. -/
def funds (user : User) (transactionId : Uuid) (hex : String) : Job :=
  .initiateFunding user 50000 (some "") ⟨transactionId, hex, ⟨0, 0⟩⟩

def registered : Database := inTurn paystackUp emptyDatabase (morning.take 2)

def afterAlice : Database := (runAlone paystackUp (funds alice 100 "f").replying registered).2

def requests : List Call :=
  [⟨afterAlice, paystackUp, funds bob 101 "g"⟩, ⟨registered, paystackUp, funds alice 100 "f"⟩]

theorem requests_run :
    KeyRun requests (runAlone paystackUp (funds bob 101 "g").replying afterAlice).2 := by
  have short : admissibleKey (some "") := by
    rintro k ⟨⟩
    decide
  have enrolled : KeyRun [] registered := by
    apply KeyRun.operation _ paystackUp
      (.register {} (fun s => s) "bob" "" "Bob" none ⟨2, 12, "b", 0⟩) trivial trivial
    exact KeyRun.start.operation paystackUp
      (.register {} (fun s => s) "alice" "" "Alice" none ⟨1, 11, "a", 0⟩) trivial trivial
  apply KeyRun.call
  · apply KeyRun.call enrolled
    exact ⟨by decide, short, by decide +kernel, by decide +kernel⟩
  · exact ⟨by decide, short, by decide +kernel, by decide +kernel⟩

def constraintOf : Except AppError Reply → Option Constraint
  | .error (.integrity c) => some c
  | _ => none

theorem second_empty_key_clashes : ∃ calls db, KeyRun calls db ∧
    ∃ c ∈ calls, c.ended = .error (.integrity .transactionsIdempotencyKey) := by
  refine ⟨requests, _, requests_run, ⟨afterAlice, paystackUp, funds bob 101 "g"⟩, by simp [requests], ?_⟩
  have named : constraintOf (runAlone paystackUp (funds bob 101 "g").replying afterAlice).1 =
      some .transactionsIdempotencyKey := by decide +kernel
  unfold Call.ended
  cases ends : (runAlone paystackUp (funds bob 101 "g").replying afterAlice).1 with
  | ok reply =>
    rw [ends] at named
    cases named
  | error x =>
    rw [ends] at named
    cases x <;> cases named
    rfl

theorem first_empty_key_is_indifferent : Indifferent ⟨registered, paystackUp, funds alice 100 "f"⟩ :=
  keys_do_not_clash requests_run _ (by simp [requests]) (fun _ => by decide +kernel)

end EmptyKeys

end PayCoreKeyClashes
