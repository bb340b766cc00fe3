import PayCore.Library.LoneSessions
import PayCore.Service.Support

/- The rules for a lone session, statement by statement. Whatever fails ends the program, so
   only the way on has to be looked at. -/
namespace PayCoreLoneRules
open SessionProgram LoneSessions PayCoreTables PayCoreWrites PayCoreSessions PayCoreRepositories
open PayCoreSupport

abbrev Held := Local Database IdentityMap Write Request

variable {A : Request → PaystackData → Prop} {C : Request → Database → Prop}
  {G : List Write → Database → Prop} {α β : Type} {s : Held} {k : β → Tx α}

def Sure (A : Request → PaystackData → Prop) (C : Request → Database → Prop)
    (G : List Write → Database → Prop) (p : Tx α) (s : Held) : Prop :=
  careful A C G p (fun _ _ => True) s

theorem sure_seq {p : Tx β} (h : careful A C G p (fun r u => match r with
    | .ok a => Sure A C G (k a) u
    | .error _ => True) s) : Sure A C G (p >>= k) s :=
  seq_careful (careful_mono (fun r _ fine => by cases r <;> exact fine) h)

theorem nested_then {γ : Type} {p : Tx γ} {f : γ → Tx β}
    (h : Sure A C G (p >>= fun c => f c >>= k) s) : Sure A C G ((p >>= f) >>= k) s := by
  change Sure A C G ((p.bind f).bind k) s
  rw [bind_assoc]
  exact h

theorem silent_then {rows : List Row} {memo : Database → IdentityMap → IdentityMap}
    {next : Database → IdentityMap → Tx α} {x : AppError}
    (onward : Sure A C G (next s.seen s.memory) { s with memory := memo s.seen s.memory }) :
    Sure A C G (.stmt rows (fun _ _ => []) memo next (.raise x) : Tx α) s := by
  constructor
  · rw [List.append_nil]
    exact onward
  · trivial

theorem query_then {f : Database → β} (onward : Sure A C G (k (f s.seen)) s) :
    Sure A C G (query f >>= k) s :=
  silent_then onward

theorem require_then {condition : Bool} {error : AppError} {k : Unit → Tx α}
    (onward : condition = true → Sure A C G (k ()) s) : Sure A C G (require condition error >>= k) s := by
  cases condition with
  | true => exact onward rfl
  | false => trivial

theorem orRaise_then {value : Option β} {error : AppError}
    (onward : ∀ b, value = some b → Sure A C G (k b) s) : Sure A C G (orRaise value error >>= k) s := by
  cases value with
  | some b => exact onward b rfl
  | none => trivial

theorem flushAccount_then {writes : List AccountWrite} {k : Unit → Tx α}
    (onward : Sure A C G (k ()) { s with pending := s.pending ++ writes.map .account }) :
    Sure A C G (flushAccount writes >>= k) s :=
  ⟨onward, trivial⟩

theorem insertAccount_then {write : AccountWrite} {admitted : Database → Bool}
    {refused : Database → Constraint} {k : Unit → Tx α}
    (onward : admitted s.seen = true →
      Sure A C G (k ()) { s with pending := s.pending ++ [.account write] }) :
    Sure A C G (insertAccount write admitted refused >>= k) s := by
  constructor
  · cases fits : admitted s.seen with
    | true =>
      simp only [fits, if_true]
      exact onward fits
    | false =>
      simp only [fits, Bool.false_eq_true, if_false]
      trivial
  · trivial

theorem commit_then {k : Unit → Tx α} (fine : G s.pending s.db)
    (onward : Sure A C G (k ()) { s with db := s.seen, pending := [] }) :
    Sure A C G (commit >>= k) s :=
  ⟨fine, onward, trivial⟩

theorem auditLog_then {entry : AuditLog} {k : Unit → Tx α} (bare : s.pending = [])
    (fine : G [.insertAuditLog entry] s.db)
    (onward : ∀ u, u.pending = [] → Sure A C G (k ()) u) : Sure A C G (auditLog entry >>= k) s := by
  apply And.intro
  · refine ⟨?_, onward _ rfl, onward _ rfl⟩
    simpa [bare] using fine
  · exact onward _ rfl

end PayCoreLoneRules
