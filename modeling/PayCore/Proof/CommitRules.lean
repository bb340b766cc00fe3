import PayCore.Library.DurableSessions
import PayCore.Proof.Coherence
import PayCore.Service.Operations

/- The rules for what is committed of a request at its end, statement by statement. What raises
   reports nothing, so only the way on has to be looked at. -/
namespace PayCoreCommitRules
open KeyedTable SessionProgram SerialRuns DurableSessions PayCoreTables PayCoreWrites PayCoreSessions
open PayCoreRepositories PayCoreSupport PayCoreAccounts PayCoreRegistration PayCoreOperations
open PayCoreCoherence

abbrev Held := Local Database IdentityMap Write Request

variable {K : Database → IdentityMap → Prop} {α β : Type} {T : α → Database → Prop} {s : Held}
  {k : β → Tx α}

/-- The session commits all that it flushes and ends with a report that stands in what it
    committed, or raises. -/
def Settles (K : Database → IdentityMap → Prop) (T : α → Database → Prop) (p : Tx α) (s : Held) : Prop :=
  tidy K p (fun r u => ∀ a, r = .ok a → u.pending = [] ∧ T a u.db) s

theorem settles_raise {x : AppError} : Settles K T (.raise x) s := by
  rintro a ⟨⟩

theorem settles_ret {a : α} (bare : s.pending = []) (told : T a s.db) : Settles K T (.ret a) s := by
  rintro b ⟨⟩
  exact ⟨bare, told⟩

theorem settles_seq {p : Tx β} (h : tidy K p (fun r u => match r with
    | .ok a => Settles K T (k a) u
    | .error _ => True) s) : Settles K T (p >>= k) s := by
  apply seq_tidy
  apply tidy_mono _ h
  intro r u fine
  cases r with
  | ok a => exact fine
  | error x =>
    rintro a ⟨⟩

theorem nested_then {γ : Type} {p : Tx γ} {f : γ → Tx β}
    (h : Settles K T (p >>= fun c => f c >>= k) s) : Settles K T ((p >>= f) >>= k) s := by
  change Settles K T ((p.bind f).bind k) s
  rw [bind_assoc]
  exact h

theorem silent_then {rows : List Row} {memo : Database → IdentityMap → IdentityMap}
    {next : Database → IdentityMap → Tx α} {fault : Tx α}
    (onward : K s.seen s.memory →
      Settles K T (next s.seen s.memory) { s with memory := memo s.seen s.memory }) :
    Settles K T (.stmt rows (fun _ _ => []) memo next fault) s := by
  intro inStep
  rw [List.append_nil]
  exact onward inStep

theorem seen_flushed (s : Held) (ws : List Write) (m : IdentityMap) :
    Local.seen { s with pending := s.pending ++ ws, memory := m } = applyAll ws s.seen := by
  simp only [Local.seen, applyAll_append]

theorem seen_bare {s : Held} (bare : s.pending = []) : s.seen = s.db := by
  simp only [Local.seen, bare, applyAll_nil]

theorem query_then {f : Database → β} (onward : Settles K T (k (f s.seen)) s) :
    Settles K T (query f >>= k) s :=
  silent_then (fun _ => onward)

theorem require_then {condition : Bool} {error : AppError} {k : Unit → Tx α}
    (onward : condition = true → Settles K T (k ()) s) : Settles K T (require condition error >>= k) s := by
  cases condition with
  | true => exact onward rfl
  | false => exact settles_raise

theorem orRaise_then {value : Option β} {error : AppError}
    (onward : ∀ b, value = some b → Settles K T (k b) s) : Settles K T (orRaise value error >>= k) s := by
  cases value with
  | some b => exact onward b rfl
  | none => exact settles_raise

theorem flushAccount_then {writes : List AccountWrite} {k : Unit → Tx α}
    (onward : ∀ u : Held, u.seen = applyAll (writes.map Write.account) s.seen → Settles K T (k ()) u) :
    Settles K T (flushAccount writes >>= k) s :=
  fun _ => onward _ (seen_flushed s _ _)

theorem insert_then {admitted : Database → Bool} {write : Write}
    {memo : Database → IdentityMap → IdentityMap}
    {next : Database → IdentityMap → Tx α} {fault b : Tx α}
    (goes : ∀ m, admitted s.seen = true → next s.seen m = b)
    (stops : ∀ m u, admitted s.seen = false → Settles K T (next s.seen m) u)
    (onward : ∀ u : Held, admitted s.seen = true → u.seen = applyWrite write s.seen → Settles K T b u) :
    Settles K T (.stmt [] (fun db _ => if admitted db then [write] else []) memo next fault) s := by
  intro _
  cases fits : admitted s.seen with
  | true =>
    rw [goes _ fits]
    apply onward _ fits
    simp only [fits, if_true]
    exact seen_flushed s [write] _
  | false => exact stops _ _ fits

theorem insertAccount_then {write : AccountWrite} {admitted : Database → Bool}
    {refused : Database → Constraint} {k : Unit → Tx α}
    (onward : ∀ u : Held, admitted s.seen = true → u.seen = applyAccount write s.seen →
      Settles K T (k ()) u) :
    Settles K T (insertAccount write admitted refused >>= k) s := by
  apply insert_then (b := k ()) _ _ onward
  · intro m fits
    simp [fits, Prog.bind]
  · intro m u taken
    simp only [taken, Bool.false_eq_true, if_false]
    exact settles_raise

theorem createUser_then {normalize : String → String} {id : Uuid} {email hashed name : String}
    {phone : Option String} {k : User → Tx α}
    (onward : ∀ (u : Held) user, s.seen.users.admits user = true →
      u.seen = applyWrite (.insertUser user) s.seen → Settles K T (k user) u) :
    Settles K T (UserRepository.create normalize id email hashed name phone >>= k) s := by
  apply nested_then
  apply orRaise_then
  intro name _
  apply nested_then
  apply orRaise_then
  intro phone _
  let user : User := { id, email := normalize email, hashedPassword := hashed, fullName := name, phone }
  apply insert_then (b := k user) _ _ (fun u => onward u user)
  · intro m fits
    simp [user, fits, Prog.bind]
  · intro m u taken
    simp only [taken, Bool.false_eq_true, if_false]
    split
    · exact settles_raise
    · split <;> exact settles_raise

theorem createWallet_then {id userId : Uuid} {currency : String} {k : Wallet → Tx α}
    (onward : ∀ (u : Held) wallet, u.seen = applyWrite (.insertWallet wallet) s.seen →
      Settles K T (k wallet) u) :
    Settles K T (WalletRepository.create id userId currency >>= k) s := by
  let wallet : Wallet := { id, userId, currency }
  apply insert_then (b := k wallet) _ _ (fun u _ => onward u wallet)
  · intro m fits
    simp [wallet, fits, Prog.bind]
  · intro m u taken
    simp only [taken, Bool.false_eq_true, if_false]
    split <;> exact settles_raise

theorem storeRefreshToken_then {cfg : Settings} {userId : Uuid} {refreshHash : String} {utcNow : Timestamp}
    {k : Unit → Tx α}
    (onward : ∀ (u : Held) token, s.seen.refreshTokens.admits token = true →
      token.tokenHash = refreshHash → token.isRevoked = false →
      u.seen = applyWrite (.insertRefreshToken token) s.seen → Settles K T (k ()) u) :
    Settles K T (storeRefreshToken cfg userId refreshHash utcNow >>= k) s := by
  apply insert_then (b := k ()) _ _ (fun u fits after => onward u _ fits rfl rfl after)
  · intro m fits
    simp [fits, Prog.bind]
  · intro m u taken
    simp only [taken, Bool.false_eq_true, if_false]
    exact settles_raise

theorem createTransaction_then {txn : Transaction} {k : Transaction → Tx α}
    (onward : ∀ u : Held, s.seen.transactions.admits txn = true →
      u.seen = applyWrite (.insertTransaction txn) s.seen → Settles K T (k txn) u) :
    Settles K T (TransactionRepository.create txn >>= k) s := by
  unfold TransactionRepository.create
  split
  swap
  · exact settles_raise
  apply insert_then (b := k txn) _ _ onward
  · intro m fits
    simp [fits, Prog.bind]
  · intro m u taken
    simp only [taken, Bool.false_eq_true, if_false]
    exact settles_raise

theorem commit_then {k : Unit → Tx α}
    (onward : ∀ u : Held, u.pending = [] → u.db = s.seen → Settles K T (k ()) u) :
    Settles K T (commit >>= k) s :=
  onward _ rfl rfl

theorem auditLog_then {entry : AuditLog} {k : Unit → Tx α} (bare : s.pending = [])
    (onward : ∀ u : Held, u.pending = [] → u.db = applyWrite (.insertAuditLog entry) s.db →
      Settles K T (k ()) u) :
    Settles K T (auditLog entry >>= k) s := by
  intro _
  apply onward _ rfl
  simp only [Local.seen, bare]
  rfl

theorem enqueue_then {task : Task} {k : Unit → Tx α}
    (onward : ∀ calls, Settles K T (k ()) { s with calls := calls }) : Settles K T (enqueue task >>= k) s :=
  ⟨fun _ => onward _, settles_raise⟩

theorem paystack_then {request : Request} {k : PaystackData → Tx α}
    (onward : ∀ data calls, Settles K T (k data) { s with calls := calls }) :
    Settles K T (paystack request >>= k) s :=
  ⟨fun data => onward data _, settles_raise⟩

end PayCoreCommitRules
