import PayCore.Proof.Statements
import PayCore.Service.Jobs

/- The statements of the services, for verifications that end in nothing but what was
   guaranteed on the way. -/
namespace PayCoreGuaranteeRules
open SessionProgram SessionSystem RelyGuarantee PayCoreTables PayCoreWrites PayCoreSessions
open PayCoreRepositories PayCoreSupport PayCoreRegistration PayCoreJobs PayCoreStatements

variable {R : (Row → Prop) → Database → Database → Prop} {G : List Write → Database → Prop}
  {F : Database → IdentityMap → List Row → List Write → Prop} {α β : Type} {v : Window}

abbrev Guarantees (R : (Row → Prop) → Database → Database → Prop) (G : List Write → Database → Prop)
    (F : Database → IdentityMap → List Row → List Write → Prop) (p : Tx α) (v : Window) : Prop :=
  wp R G F p (fun _ _ => True) v

/-- A session one statement later: what it holds it keeps, and it has added `ws`. -/
structure Onward (R : (Row → Prop) → Database → Database → Prop) (v u : Window)
    (ws : List Write) : Prop where
  rely : R v.held v.db u.db
  pending : u.pending = v.pending ++ ws
  keeps : ∀ r, v.held r → u.held r
  locks : ∀ r ∈ touched ws, u.held r

theorem read_then {f : Database → β} {k : β → Tx α}
    (onward : ∀ u, Onward R v u [] → Guarantees R G F (k (f (applyAll u.pending u.db))) u) :
    Guarantees R G F (query f >>= k) v := by
  apply seq_wp
  intro db rely
  refine ⟨trivial, fun _ => ?_⟩
  have next := onward ⟨db, v.pending ++ [], v.memory, fun r => v.held r ∨ r ∈ needed [] ([] : List Write)⟩
    ⟨rely, rfl, fun _ => .inl, by simp⟩
  simp only [List.append_nil] at next ⊢
  exact next

theorem given_then {value : Option β} {error : AppError} {k : β → Tx α}
    (onward : ∀ b, value = some b → Guarantees R G F (k b) v) :
    Guarantees R G F (orRaise value error >>= k) v := by
  cases value with
  | none => trivial
  | some b => exact onward b rfl

theorem checked_then {condition : Bool} {error : AppError} {k : Unit → Tx α}
    (onward : condition = true → Guarantees R G F (k ()) v) :
    Guarantees R G F (require condition error >>= k) v := by
  cases condition with
  | false => trivial
  | true => exact onward rfl

theorem flush_then {writes : List AccountWrite} {k : Unit → Tx α}
    (onward : ∀ u, Onward R v u (writes.map .account) →
      F (applyAll v.pending u.db) v.memory [] (writes.map .account) →
      Guarantees R G F (k ()) u) : Guarantees R G F (flushAccount writes >>= k) v := by
  apply seq_wp
  intro db rely
  refine ⟨trivial, fun meets => ?_⟩
  exact onward _ ⟨rely, rfl, fun _ => .inl, fun r mem => .inr (List.mem_append_right _ mem)⟩ meets

theorem insertAccount_then {write : AccountWrite} {admitted : Database → Bool}
    {refused : Database → Constraint}
    {k : Unit → Tx α}
    (onward : ∀ u, Onward R v u [.account write] → admitted (applyAll v.pending u.db) = true →
      Guarantees R G F (k ()) u) : Guarantees R G F (insertAccount write admitted refused >>= k) v := by
  apply seq_wp
  intro db rely
  refine ⟨trivial, fun _ => ?_⟩
  dsimp only
  cases free : admitted (applyAll v.pending db) with
  | false => trivial
  | true =>
    simp only [if_true]
    exact onward ⟨db, v.pending ++ [.account write], v.memory,
        fun r => v.held r ∨ r ∈ needed [] [Write.account write]⟩
      ⟨rely, rfl, fun _ => .inl, fun r mem => .inr (List.mem_append_right _ mem)⟩ free

theorem storeToken_then {cfg : Settings} {user : Uuid} {hash : String} {now : Timestamp} {k : Unit → Tx α}
    (onward : ∀ fresh u, Onward R v u [.insertRefreshToken fresh] →
      (applyAll v.pending u.db).refreshTokens.admits fresh = true → Guarantees R G F (k ()) u) :
    Guarantees R G F (storeRefreshToken cfg user hash now >>= k) v := by
  apply seq_wp
  intro db rely
  refine ⟨trivial, fun _ => ?_⟩
  dsimp only
  split
  · rename_i free
    exact onward _ _ ⟨rely, rfl, fun _ => .inl, fun r mem => .inr (List.mem_append_right _ mem)⟩ free
  · trivial

theorem called_then {request : Request} {next : PaystackData → Tx β} {error : AppError} {k : β → Tx α}
    (onward : ∀ reply u, Onward R v u [] → Guarantees R G F (next reply >>= k) u) :
    Guarantees R G F (Prog.call request next (.raise error) >>= k) v := by
  apply seq_wp
  intro db rely
  refine ⟨fun reply => ?_, trivial⟩
  exact (wp_seq _ _ _ _).mp (onward reply { v with db := db } ⟨rely, by simp, fun _ => id, by simp⟩)

theorem committed_then {k : Unit → Tx α} (good : ∀ db, R v.held v.db db → G v.pending db)
    (onward : ∀ u, u.pending = [] → Guarantees R G F (k ()) u) : Guarantees R G F (commit >>= k) v := by
  intro db rely
  exact ⟨good db rely, onward _ rfl, trivial⟩

theorem quietly_guarantees {p : Tx α} (h : Guarantees R G F p v) : Guarantees R G F (quietly p) v := by
  apply seq_wp
  apply wp_mono _ h
  intro r u _
  cases r <;> trivial

end PayCoreGuaranteeRules
