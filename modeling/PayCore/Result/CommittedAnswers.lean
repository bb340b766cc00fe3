import PayCore.Library.SessionHistories
import PayCore.Proof.Statements
import PayCore.Result.WalletBalances
import PayCore.Service.Operations

/- What the client of a transfer, a payment or a withdrawal is told, whatever statement, call or
   commit of its session fails. -/
namespace PayCoreCommittedAnswers
open SessionProgram SessionSystem SessionHistories PayCoreTables PayCoreWrites PayCoreSessions
open PayCoreRepositories PayCoreStatements PayCoreSupport PayCorePayments PayCoreWithdrawals
open PayCoreOperations PayCoreJobs PayCoreWalletBalances

abbrev Marks := List (Mark Write Request)

abbrev Point := Standing IdentityMap Write Request

variable {α β : Type} {Q : Except AppError β → Point → Prop} {u : Point}

/-- Nothing is committed, or the client gets the transaction that the session has committed first. -/
def Honest (history : Marks) (answer : Answer) : Prop :=
  ∀ ws rest, sinceCommit history = some (ws, rest) → ∃ t, .insertTransaction t ∈ ws ∧
    answer = .transaction t

/-- The broker calls whose exceptions are caught. -/
def guarded : Option Request → Prop
  | some (.delay (.processWithdrawal _)) => True
  | some (.delay (.deliverMerchantWebhook _)) => True
  | _ => False

/-- After its first commit the session meets no failure, except of guarded broker calls. -/
def Calm (history : Marks) : Prop :=
  ∀ ws rest, sinceCommit history = some (ws, rest) → ∀ c, .fails c ∈ rest → guarded c

section Before
variable (idle : ∀ x (v : Point), sinceCommit v.history = none → Q (.error x) v)
include idle

theorem before_then {p : Tx α} {k : α → Tx β} (commitless : Commitless p) (h : sinceCommit u.history = none)
    (onward : ∀ a v, sinceCommit v.history = none → recounts Q (k a) v) : recounts Q (p >>= k) u := by
  apply seq_recounts
  apply recounts_mono _ (commitless_recounts commitless h)
  intro r v none_yet
  cases r with
  | ok a => exact onward a v none_yet
  | error x => exact idle _ v none_yet

/-- The transaction is inserted, not committed, and the session holds the object. -/
structure Written (t : Transaction) (u : Point) : Prop where
  none_yet : sinceCommit u.history = none
  inserted : .insertTransaction t ∈ u.pending
  held : u.memory.transactions t.id = some t

theorem create_then {t : Transaction} {k : Transaction → Tx β} (h : sinceCommit u.history = none)
    (onward : ∀ v, Written t v → recounts Q (k t) v) :
    recounts Q (TransactionRepository.create t >>= k) u := by
  unfold TransactionRepository.create
  split
  swap
  · exact idle _ _ h
  constructor
  · intro _ s
    dsimp only
    by_cases free : s.transactions.admits t = true
    · simp only [free, if_true]
      exact onward _ ⟨h, by simp, keepTransaction_self _ t⟩
    · simp only [free]
      exact idle _ _ h
  · exact idle _ _ ((sinceCommit_idle h).trans rfl)

theorem adding_then {t : Transaction} {rows : List Row} {writes : Database → IdentityMap → List Write}
    {memo : Database → IdentityMap → IdentityMap} {next : Database → IdentityMap → Tx β} {x : AppError}
    (same : ∀ s m, (memo s m).transactions = m.transactions) (h : Written t u)
    (onward : ∀ s m v, Written t v → recounts Q (next s m) v) :
    recounts Q (.stmt rows writes memo next (.raise x)) u := by
  constructor
  · intro _ s
    apply onward
    constructor
    · exact h.none_yet
    · exact List.mem_append_left _ h.inserted
    · rw [same]
      exact h.held
  · exact idle _ _ ((sinceCommit_idle h.none_yet).trans rfl)

theorem createEntry_then {t : Transaction} {e : LedgerEntry} {k : LedgerEntry → Tx β} (h : Written t u)
    (onward : ∀ v, Written t v → recounts Q (k e) v) :
    recounts Q (LedgerRepository.createEntry e >>= k) u := by
  apply adding_then idle (fun _ _ => rfl) h
  exact fun _ _ v written => onward v written

theorem updateBalance_then {t : Transaction} {wallet : Wallet} {b : Int} {k : Wallet → Tx β}
    (h : Written t u) (onward : ∀ w v, Written t v → recounts Q (k w) v) :
    recounts Q (WalletRepository.updateBalance wallet b >>= k) u := by
  apply adding_then idle _ h
  · intro s m v written
    dsimp only
    split
    · exact onward _ v written
    · split <;> exact idle _ v written.none_yet
  · intro s m
    dsimp only
    split <;> rfl

structure Moved (t : Transaction) (u : Point) : Prop where
  moved : ∃ ws rest, sinceCommit u.history = some (ws, rest) ∧ .insertTransaction t ∈ ws ∧
    ∀ c, .fails c ∈ rest → guarded c
  held : u.memory.transactions t.id = some t
  able : u.aborted = false

theorem commit_then {t : Transaction} {k : Unit → Tx β} (h : Written t u)
    (onward : ∀ v, Moved t v → recounts Q (k ()) v) : recounts Q (commit >>= k) u := by
  constructor
  · intro able
    apply onward
    refine ⟨⟨u.pending, [], (sinceCommit_idle h.none_yet).trans rfl, h.inserted, ?_⟩, h.held, able⟩
    intro c mem
    cases mem
  · exact idle _ _ ((sinceCommit_idle h.none_yet).trans rfl)

end Before

/-- What is wanted of the end: the answer is honest exactly if the history is calm. -/
def Told (r : Except AppError Transaction) (u : Point) : Prop :=
  Honest u.history (respond u.memory r) ↔ Calm u.history

theorem idle_told (r : Except AppError Transaction) (v : Point) (none_yet : sinceCommit v.history = none) :
    Told r v := by
  constructor
  · intro _ ws rest first
    rw [none_yet] at first
    cases first
  · intro _ ws rest first
    rw [none_yet] at first
    cases first

theorem moved_told {t : Transaction} (h : Moved t u) : Told (.ok t) u := by
  obtain ⟨ws, rest, first, inserted, calm⟩ := h.moved
  constructor
  · intro _ ws' rest' first'
    rw [first] at first'
    cases first'
    exact calm
  · intro _ ws' rest' first'
    rw [first] at first'
    cases first'
    refine ⟨t, inserted, ?_⟩
    simp [respond, modelValidate, h.held]

/-- The transaction is committed, and something failed since. -/
def Spoilt (u : Point) : Prop :=
  ∃ ws rest c, sinceCommit u.history = some (ws, rest) ∧ .fails c ∈ rest ∧ ¬ guarded c

theorem spoilt_told {r : Except AppError Transaction} (h : Spoilt u) (fails : respond u.memory r = .error) :
    Told r u := by
  obtain ⟨ws, rest, c, first, failed, unguarded⟩ := h
  constructor
  · intro honest
    obtain ⟨t, _, answer⟩ := honest ws rest first
    rw [fails] at answer
    cases answer
  · intro calm
    exact absurd (calm ws rest first c failed) unguarded

section After
variable {t : Transaction}

theorem spoilt_by {c : Option Request} {pending : List Write} {m : IdentityMap} {aborted : Bool}
    (h : Moved t u) (unguarded : ¬ guarded c) :
    Spoilt ⟨u.history ++ [.fails c], pending, m, aborted⟩ := by
  obtain ⟨ws, rest, first, _, _⟩ := h.moved
  exact ⟨ws, rest ++ [.fails c], c, sinceCommit_append first, by simp, unguarded⟩

theorem spoilt_more {marks : Marks} {pending : List Write} {m : IdentityMap} {aborted : Bool}
    (h : Spoilt u) :
    Spoilt ⟨u.history ++ marks, pending, m, aborted⟩ := by
  obtain ⟨ws, rest, c, first, failed, unguarded⟩ := h
  exact ⟨ws, rest ++ marks, c, sinceCommit_append first, by simp [failed], unguarded⟩

theorem moved_more {mark : Mark Write Request} {pending : List Write} (h : Moved t u)
    (harmless : ∀ c, .fails c = mark → guarded c) :
    Moved t { u with history := u.history ++ [mark], pending := pending } := by
  obtain ⟨ws, rest, first, inserted, calm⟩ := h.moved
  refine ⟨⟨ws, rest ++ [mark], sinceCommit_append first, inserted, ?_⟩, h.held, h.able⟩
  intro c mem
  rcases List.mem_append.mp mem with old | new
  · exact calm c old
  · exact harmless c (List.mem_singleton.mp new)

theorem moved_pending {pending : List Write} (h : Moved t u) : Moved t { u with pending := pending } :=
  ⟨h.moved, h.held, h.able⟩

/-- After a rollback the session holds no object, so that the response cannot be built. -/
theorem audited_told {entry : AuditLog} (h : Moved t u) :
    recounts Told (auditLog entry >>= fun _ => .ret t) u := by
  constructor
  · intro _ s
    constructor
    · intro _
      exact moved_told (moved_more (moved_pending h) (by simp))
    · exact spoilt_told (spoilt_by (moved_pending h) not_false) rfl
  · exact spoilt_told (spoilt_by h not_false) rfl

theorem spoilt_audited {entry : AuditLog} (h : Spoilt u) (aborted : u.aborted = true) :
    recounts Told (auditLog entry >>= fun _ => .ret t) u := by
  constructor
  · intro able
    rw [aborted] at able
    cases able
  · exact spoilt_told (spoilt_more h) rfl

theorem enqueue_then {task : Task} {k : Unit → Tx Transaction} (h : Moved t u)
    (unguarded : ¬ guarded (some (.delay task))) (onward : recounts Told (k ()) u) :
    recounts Told (enqueue task >>= k) u :=
  ⟨fun _ => onward, spoilt_told (spoilt_by h unguarded) rfl⟩

theorem flagRapid_then {cfg : Settings} {now : Timestamp} {transactionId walletId : Uuid}
    {k : Unit → Tx Transaction} (h : Moved t u) (onward : ∀ v, Moved t v → recounts Told (k ()) v) :
    recounts Told (maybeFlagRapidTransfers cfg now transactionId walletId >>= k) u := by
  constructor
  · intro _ s
    have still : Moved t { u with pending := u.pending ++ [] } := moved_pending h
    change recounts Told ((if _ then _ else _) >>= k) _
    split
    · exact enqueue_then still not_false (onward _ still)
    · exact onward _ still
  · exact spoilt_told (spoilt_by h not_false) rfl

theorem flagPayment_then {cfg : Settings} {transactionId : Uuid} {user : User} {amount : Int}
    {k : Unit → Tx Transaction} (h : Moved t u) (onward : recounts Told (k ()) u) :
    recounts Told (maybeFlagMerchantPayment cfg transactionId user amount >>= k) u := by
  unfold maybeFlagMerchantPayment
  split
  · exact enqueue_then h not_false onward
  · exact onward

theorem guarded_then {task : Task} {k : Unit → Tx Transaction} (h : Moved t u)
    (caught : guarded (some (.delay task))) (onward : ∀ v, Moved t v → recounts Told (k ()) v) :
    recounts Told (Prog.handle (enqueue task) (fun _ => .ret ()) >>= k) u := by
  constructor
  · exact fun _ => onward u h
  · apply onward
    apply moved_more h
    rintro c ⟨rfl⟩
    exact caught

theorem deliver_then {merchant : Merchant} {transactionId deliveryId : Uuid} {eventType : String}
    {k : Unit → Tx Transaction} (h : Moved t u) (onward : ∀ v, Moved t v → recounts Told (k ()) v)
    (broken : ∀ v, Spoilt v → v.aborted = true → recounts Told (k ()) v) :
    recounts Told
      (Prog.handle (createAndEnqueue merchant transactionId deliveryId eventType)
        (fun _ => .ret ()) >>= k) u := by
  unfold createAndEnqueue
  split
  · constructor
    · intro _ s
      constructor
      · intro _
        exact guarded_then (moved_more (moved_pending h) (by simp)) trivial onward
      · exact broken _ (spoilt_by (moved_pending h) not_false) rfl
    · exact broken _ (spoilt_by h not_false) rfl
  · exact onward u h

end After

section Commitless

theorem commitless_require {condition : Bool} {error : AppError} :
    Commitless (require condition error) := by
  unfold require
  split <;> trivial

theorem commitless_orRaise {value : Option α} {error : AppError} : Commitless (orRaise value error) := by
  cases value <;> trivial

theorem commitless_query (f : Database → α) : Commitless (query f) := ⟨fun _ _ => trivial, trivial⟩

theorem commitless_selectWallet (rows : List Row) (pick : Database → Option Wallet) :
    Commitless (WalletRepository.select rows pick) := ⟨fun _ _ => trivial, trivial⟩

theorem commitless_selectTransaction (pick : Database → Except AppError (Option Transaction)) :
    Commitless (TransactionRepository.select pick) := by
  constructor
  · intro s m
    dsimp only
    split <;> trivial
  · trivial

theorem commitless_lookupKey (key : Option String) : Commitless (lookupKey key) := by
  unfold lookupKey
  split
  · exact commitless_selectTransaction _
  · trivial

theorem commitless_limits (cfg : Settings) (now : Timestamp) (user : Uuid) (tier : Nat) (amount : Int)
    (type : TransactionType) :
    Commitless
    (enforceKycSingleLimit cfg tier amount >>= fun _ => enforceDailyLimit cfg now user tier amount
      type) := by
  apply commitless_seq
  · unfold enforceKycSingleLimit
    split
    · trivial
    · exact commitless_require
  · exact fun _ => commitless_seq (commitless_query _) (fun _ => commitless_require)

theorem commitless_checkTransfer (cfg : Settings) (now : Timestamp) (user : User) (wallet : Wallet)
    (recipient : Uuid) (amount : Int) :
    Commitless (checkTransfer cfg now user wallet recipient amount) := by
  apply commitless_seq
  · unfold enforceKycSingleLimit
    split
    · trivial
    · exact commitless_require
  intro _
  apply commitless_seq
  · exact commitless_seq (commitless_query _) (fun _ => commitless_require)
  · exact fun _ => commitless_seq (commitless_query _) (fun _ => commitless_require)

theorem commitless_resolveTransfer (normalize : String → String) (sender : User) (recipient : Recipient) :
    Commitless (resolveTransfer normalize sender recipient) := by
  apply commitless_seq (commitless_selectWallet _ _)
  intro _
  apply commitless_seq commitless_orRaise
  intro _
  apply commitless_seq
  · cases recipient with
    | userId id => exact commitless_query _
    | email email => exact commitless_query _
  intro _
  apply commitless_seq commitless_orRaise
  intro _
  apply commitless_seq commitless_require
  intro _
  apply commitless_seq (commitless_selectWallet _ _)
  intro _
  exact commitless_seq commitless_orRaise (fun _ => trivial)

theorem commitless_resolvePayment (payer : User) (merchantId : Uuid) :
    Commitless (resolvePayment payer merchantId) := by
  apply commitless_seq (commitless_query _)
  intro _
  apply commitless_seq commitless_orRaise
  intro _
  apply commitless_seq commitless_require
  intro _
  apply commitless_seq commitless_require
  intro _
  apply commitless_seq (commitless_selectWallet _ _)
  intro _
  apply commitless_seq commitless_orRaise
  intro _
  apply commitless_seq (commitless_selectWallet _ _)
  intro _
  exact commitless_seq commitless_orRaise (fun _ => trivial)

end Commitless

section Requests

theorem writeMovement_ends {type : TransactionType} {initiator : User} {amount : Int} {key : Option String}
    {draws : Draws} {payer payee : Wallet} (h : sinceCommit u.history = none) :
    recounts (fun r v => match r with
      | .ok moved => ∃ t, moved = .committed t ∧ Moved t v
      | .error _ => sinceCommit v.history = none)
      (writeMovement type initiator amount key draws payer payee) u := by
  apply create_then (fun _ _ none_yet => none_yet) h
  intro v written
  rw [postDoubleEntry, seq_seq]
  apply createEntry_then (fun _ _ none_yet => none_yet) written
  intro v written
  rw [seq_seq]
  apply createEntry_then (fun _ _ none_yet => none_yet) written
  intro v written
  apply updateBalance_then (fun _ _ none_yet => none_yet) written
  intro _ v written
  apply updateBalance_then (fun _ _ none_yet => none_yet) written
  intro _ v written
  apply commit_then (fun _ _ none_yet => none_yet) written
  exact fun v moved => ⟨_, rfl, moved⟩

def Recovered (r : Except AppError Movement) (v : Point) : Prop :=
  (∀ moved, r = .ok moved → ∃ txn, moved = .existing txn) ∧ sinceCommit v.history = none

theorem recoverMovement_ends {key : Option String} {x : AppError} (h : sinceCommit u.history = none) :
    recounts Recovered (recoverMovement key x) u := by
  have failed : ∀ (y : AppError) (v : Point), sinceCommit v.history = none → Recovered (.error y) v := by
    intro y v none_yet
    apply And.intro _ none_yet
    intro moved same
    cases same
  cases x with
  | integrity c =>
    unfold recoverMovement
    change recounts Recovered (if _ then _ else _) _
    split
    · have cleared : sinceCommit (⟨u.history, [], default, false⟩ : Point).history = none := h
      apply before_then failed (commitless_selectTransaction _) cleared
      intro found v none_yet
      cases found with
      | none => exact failed _ v none_yet
      | some txn =>
        apply And.intro _ none_yet
        intro moved same
        cases same
        exact ⟨txn, rfl⟩
    · exact failed _ _ h
  | _ => exact failed _ u h

theorem moveFunds_then {type : TransactionType} {initiator : User} {amount : Int} {key : Option String}
    {draws : Draws} {payer payee : Wallet} {k : Movement → Tx Transaction}
    (h : sinceCommit u.history = none) (kept : ∀ txn, k (.existing txn) = .ret txn)
    (onward : ∀ t v, Moved t v → recounts Told (k (.committed t)) v) :
    recounts Told (moveFunds type initiator amount key draws payer payee >>= k) u := by
  have idle : ∀ x (v : Point), sinceCommit v.history = none → Told (.error x) v :=
    fun x => idle_told (.error x)
  unfold moveFunds
  rw [seq_seq]
  apply before_then idle (commitless_selectWallet _ _) h
  intro _ v h
  rw [seq_seq]
  apply before_then idle (commitless_selectWallet _ _) h
  intro _ v h
  rw [seq_seq]
  apply before_then idle commitless_orRaise h
  intro lockedFirst v h
  rw [seq_seq]
  apply before_then idle commitless_orRaise h
  intro lockedSecond v h
  rw [seq_seq]
  apply before_then idle commitless_require h
  intro _ v h
  apply seq_recounts
  apply handle_recounts
  apply recounts_mono _ (writeMovement_ends h)
  intro r v ended
  cases r with
  | ok moved =>
    obtain ⟨t, rfl, moved⟩ := ended
    exact onward t v moved
  | error x =>
    apply recounts_mono _ (recoverMovement_ends ended)
    rintro r v ⟨handed, none_yet⟩
    cases r with
    | ok moved =>
      obtain ⟨txn, rfl⟩ := handed moved rfl
      change recounts Told (k (.existing txn)) v
      rw [kept]
      exact idle_told _ v none_yet
    | error y => exact idle_told _ v none_yet

theorem initiateTransfer_told (normalize : String → String) (sender : User) (cfg : Settings)
    (recipient : Recipient) (amount : Int) (key : Option String) (draws : Draws)
    (h : sinceCommit u.history = none) :
    recounts Told (initiateTransfer normalize sender cfg recipient amount key draws) u := by
  have idle : ∀ x (v : Point), sinceCommit v.history = none → Told (.error x) v :=
    fun x => idle_told (.error x)
  apply before_then idle (commitless_resolveTransfer _ _ _) h
  intro wallets v h
  apply before_then idle (commitless_lookupKey key) h
  intro existing v h
  cases existing with
  | some txn => exact idle_told _ v h
  | none =>
    apply before_then idle (commitless_checkTransfer _ _ _ _ _ _) h
    intro _ v h
    apply moveFunds_then h (fun _ => rfl)
    intro t v moved
    apply flagRapid_then moved
    exact fun v moved => audited_told moved

theorem initiatePayment_told (payer : User) (cfg : Settings) (merchantId : Uuid) (amount : Int)
    (key : Option String) (draws : Draws) (h : sinceCommit u.history = none) :
    recounts Told (initiatePayment payer cfg merchantId amount key draws) u := by
  have idle : ∀ x (v : Point), sinceCommit v.history = none → Told (.error x) v :=
    fun x => idle_told (.error x)
  apply before_then idle (commitless_resolvePayment _ _) h
  intro found v h
  apply before_then idle (commitless_lookupKey key) h
  intro existing v h
  cases existing with
  | some txn => exact idle_told _ v h
  | none =>
    apply before_then idle (commitless_limits _ _ _ _ _ _) h
    intro _ v h
    apply moveFunds_then h (fun _ => rfl)
    intro t v moved
    apply flagPayment_then moved
    apply deliver_then moved
    · exact fun v moved => audited_told moved
    · exact fun v spoilt aborted => spoilt_audited spoilt aborted

theorem initiateWithdrawal_told (cfg : Settings) (user : User) (bankAccountId : Uuid) (amount : Int)
    (draws : WithdrawalDraws) (h : sinceCommit u.history = none) :
    recounts Told (initiateWithdrawal cfg user bankAccountId amount draws) u := by
  have idle : ∀ x (v : Point), sinceCommit v.history = none → Told (.error x) v :=
    fun x => idle_told (.error x)
  apply before_then idle (commitless_selectWallet _ _) h
  intro _ v h
  apply before_then idle commitless_orRaise h
  intro wallet v h
  apply before_then idle (commitless_seq commitless_require (fun _ => commitless_limits _ _ _ _ _ _)) h
  intro _ v h
  apply before_then idle (commitless_selectTransaction _) h
  intro _ v h
  apply before_then idle commitless_require h
  intro _ v h
  apply before_then idle (commitless_query _) h
  intro _ v h
  apply before_then idle commitless_orRaise h
  intro _ v h
  apply before_then idle (commitless_selectWallet _ _) h
  intro _ v h
  apply before_then idle commitless_orRaise h
  intro lockedWallet v h
  apply before_then idle commitless_require h
  intro _ v h
  apply create_then idle h
  intro v written
  apply updateBalance_then idle written
  intro _ v written
  apply commit_then idle written
  intro v moved
  have caught : guarded (some (.delay (.processWithdrawal draws.transactionId))) := trivial
  apply guarded_then moved caught
  exact fun v moved => audited_told moved

theorem request_told {p : Tx Transaction} (request : MoneyRequest p) (h : sinceCommit u.history = none) :
    recounts Told p u := by
  cases request with
  | transfer => exact initiateTransfer_told _ _ _ _ _ _ _ h
  | payment => exact initiatePayment_told _ _ _ _ _ _ h
  | withdrawal => exact initiateWithdrawal_told _ _ _ _ _ h

end Requests

section
variable {ι : Type} [DecidableEq ι] {db : Database} {progs : ι → Tx Transaction} {i : ι} {history : Marks}

abbrev Sessions (ι : Type) :=
  System ι Database IdentityMap Write Row Request PaystackData AppError Transaction

def answerOf (T : Sessions ι) (i : ι) : Option Answer :=
  match (T.session i).prog with
  | .ret txn => some (respond (T.session i).memory (.ok txn))
  | .raise x => some (respond (T.session i).memory (.error x))
  | _ => none

/-- Among any sessions and through any failures, a transfer, payment or withdrawal answers honestly
    exactly if after its commit nothing fails but guarded broker calls. -/
theorem answers_honestly_iff_calm (request : MoneyRequest (progs i)) {T : Sessions ι}
    (run : History i (initial db progs) history T) {answer : Answer} (ended : answerOf T i = some answer) :
    Honest history answer ↔ Calm history := by
  have told : recounts Told (T.session i).prog (standing history T i) := by
    apply history_recounts _ _ run
    · exact fun _ _ h => h
    · exact request_told request rfl
  unfold answerOf at ended
  cases prog : (T.session i).prog with
  | ret txn =>
    rw [prog] at told ended
    cases ended
    exact told
  | raise x =>
    rw [prog] at told ended
    cases ended
    exact told
  | _ => simp [prog] at ended

end

section Audit

/-- Alice sends NGN 50.00 to Bob. -/
def aliceSends (_ : Fin 1) : Tx Transaction :=
  initiateTransfer id (member 1 "alice") {} (.userId 2) 5000 none ⟨100, "100", 0, ⟨0, 0⟩⟩

/-- The transfer is committed and its recipients are counted; then the INSERT of the audit entry fails. -/
def unaudited : List (Action (Fin 1) PaystackData) := List.replicate 14 (.run 0) ++ [.fault 0, .run 0]

def seen (out : Marks × Sessions (Fin 1)) : Bool × Option Answer :=
  ((sinceCommit out.1).isSome, answerOf out.2 0)

theorem unaudited_transfer_is_not_reported :
    ¬ ∀ history (T : Sessions (Fin 1)), History 0 (initial raceDb aliceSends) history T →
      ∀ answer, answerOf T 0 = some answer → Honest history answer := by
  intro claim
  have computed : (chronicle 0 (initial raceDb aliceSends) unaudited).map seen =
      some (true, some .error) := by
    decide +kernel
  obtain ⟨⟨history, T⟩, reached, values⟩ := Option.map_eq_some_iff.mp computed
  have moved : (sinceCommit history).isSome = true := congrArg Prod.fst values
  obtain ⟨⟨ws, rest⟩, first⟩ := Option.isSome_iff_exists.mp moved
  obtain ⟨t, _, answer⟩ :=
    claim history T (history_of_chronicle reached) .error (congrArg Prod.snd values) ws
    rest first
  cases answer

theorem unaudited_transfer_is_not_calm :
    ∃ history T, History 0 (initial raceDb aliceSends) history T ∧ answerOf T 0 = some .error ∧
      (Honest history .error ↔ Calm history) := by
  have computed : (chronicle 0 (initial raceDb aliceSends) unaudited).map seen =
      some (true, some .error) := by
    decide +kernel
  obtain ⟨⟨history, T⟩, reached, values⟩ := Option.map_eq_some_iff.mp computed
  have ended : answerOf T 0 = some .error := congrArg Prod.snd values
  have run := history_of_chronicle reached
  have request : MoneyRequest (aliceSends 0) := .transfer _ _ _ _ _ _ _
  exact ⟨history, T, run, ended, answers_honestly_iff_calm request run ended⟩

end Audit

end PayCoreCommittedAnswers
