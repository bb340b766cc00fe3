import PayCore.Proof.AskedCalls
import PayCore.Proof.Backings
import PayCore.Proof.Movements
import PayCore.Proof.Openings
import PayCore.Proof.VettingRules

/- Sessions statement by statement, with what stands behind each of their calls. -/
namespace PayCoreBackingRules
open SessionProgram RelyGuarantee LoneSessions BackedCalls PayCoreTables PayCoreWrites
open PayCoreSessions PayCoreSupport PayCorePersistence PayCoreStatements PayCoreRegularity
open PayCoreOwnRows PayCoreAskRules PayCoreBackings

variable {cfg : Settings} {readings : Timestamp → Prop} {issued : Details → String → Prop} {α β : Type}
  {v u : Window} {db : Database}

abbrev Backs (cfg : Settings) (readings : Timestamp → Prop) (issued : Details → String → Prop) (p : Tx α)
    (v : Window) : Prop :=
  backs (Rely (GroundedCommit issued)) (GroundedCommit issued) (Backed cfg readings issued)
    (Issues issued) p
    (fun _ _ => True) v

abbrev Whatever : Database → IdentityMap → List Row → List Write → Prop := fun _ _ _ _ => True

def Free (cfg : Settings) (readings : Timestamp → Prop) (issued : Details → String → Prop)
    (request : Request) : Prop :=
  ∀ db, Backed cfg readings issued request db

abbrev GoesOn (issued : Details → String → Prop) : Window → Window → Prop :=
  Goes (Rely (GroundedCommit issued))

theorem goesOn_grounded (goes : GoesOn issued v u) (h : Grounded issued v.db) :
    Grounded issued u.db := grounded_rely goes.rely h

theorem goesOn_standing (goes : GoesOn issued v u) : Standing v.db u.db := standing_rely goes.rely

section Rules

theorem free_then {p : Tx β} {k : β → Tx α} (free : Asks (Free cfg readings issued) p)
    (h : wp (Rely (GroundedCommit issued)) (GroundedCommit issued) Whatever p (fun r u => match r with
      | .ok b => Backs cfg readings issued (k b) u
      | .error _ => True) v) : Backs cfg readings issued (p >>= k) v := by
  apply seq_backs
  apply backs_mono _ (free_backs free h)
  intro r u done
  cases r with
  | ok b => exact done
  | error x => trivial

theorem given_backs {value : Option β} {error : AppError} {k : β → Tx α}
    (onward : ∀ b, value = some b → Backs cfg readings issued (k b) v) :
    Backs cfg readings issued (orRaise value error >>= k) v := by
  cases value with
  | none => trivial
  | some b => exact onward b rfl

theorem checked_backs {condition : Bool} {error : AppError} {k : Unit → Tx α}
    (onward : condition = true → Backs cfg readings issued (k ()) v) :
    Backs cfg readings issued (require condition error >>= k) v := by
  cases condition with
  | false => trivial
  | true => exact onward rfl

theorem read_backs {f : Database → β} {k : β → Tx α}
    (onward : ∀ u, GoesOn issued v u → u.pending = v.pending → u.memory = v.memory →
      Backs cfg readings issued (k (f (applyAll u.pending u.db))) u) : Backs cfg readings issued
      (query f >>= k) v := by
  apply free_then (asks_query f)
  apply query_wp grounded_env (fun _ => trivial)
  intro u goes pending memory
  rw [← pending]
  exact onward u goes pending memory

theorem asked_backs {request : Request} {k : PaystackData → Tx α}
    (backed : Backed cfg readings issued request v.db)
    (onward : ∀ data u, Issues issued request data → GoesOn issued v u → u.pending = v.pending →
      u.memory = v.memory →
      Backs cfg readings issued (k data) u) :
    Backs cfg readings issued (paystack request >>= k) v := by
  apply seq_backs
  intro db rely
  have goes : GoesOn issued v { v with db := db } := goes_rely grounded_env rely (fun _ h => h)
  exact ⟨backed_stands (goesOn_standing goes) backed, fun data answers =>
    onward data _ answers goes rfl rfl, trivial⟩

theorem enqueued_backs {task : Task} {k : Unit → Tx α}
    (backed : Backed cfg readings issued (.delay task) v.db)
    (onward : ∀ u, GoesOn issued v u → u.pending = v.pending → Backs cfg readings issued (k ()) u) :
    Backs cfg readings issued (enqueue task >>= k) v := by
  apply seq_backs
  intro db rely
  have goes : GoesOn issued v { v with db := db } := goes_rely grounded_env rely (fun _ h => h)
  exact ⟨backed_stands (goesOn_standing goes) backed, fun _ _ => onward _ goes rfl, trivial⟩

/-- The enqueueing whose failure is caught. -/
theorem attempted_backs {task : Task} {k : Unit → Tx α}
    (backed : Backed cfg readings issued (.delay task) v.db)
    (onward : ∀ u, GoesOn issued v u → u.pending = v.pending → Backs cfg readings issued (k ()) u) :
    Backs cfg readings issued (Prog.handle (enqueue task) (fun _ => .ret ()) >>= k) v := by
  apply seq_backs
  apply handle_backs
  intro db rely
  have goes : GoesOn issued v { v with db := db } := goes_rely grounded_env rely (fun _ h => h)
  have next := onward { v with db := db } goes rfl
  exact ⟨backed_stands (goesOn_standing goes) backed, fun _ _ => next, next⟩

theorem committed_backs {k : Unit → Tx α}
    (good : ∀ db, Rely (GroundedCommit issued) v.held v.db db → GroundedCommit issued v.pending db)
    (onward : ∀ u db, Rely (GroundedCommit issued) v.held v.db db →
      GroundedCommit issued v.pending db → u.db = applyAll v.pending db →
      u.pending = [] → Backs cfg readings issued (k ()) u) : Backs cfg readings issued
        (commit >>= k) v := by
  apply seq_backs
  intro db rely
  exact ⟨good db rely, onward _ db rely (good db rely) rfl rfl, trivial⟩

theorem rolled_backs {k : Unit → Tx α}
    (onward : ∀ u, Standing v.db u.db → u.pending = [] → Backs cfg readings issued (k ()) u) :
    Backs cfg readings issued (rollback >>= k) v := by
  apply seq_backs
  intro db rely
  exact onward _ (standing_rely rely) rfl

theorem quietly_backs {p : Tx α} (h : Backs cfg readings issued p v) :
    Backs cfg readings issued (PayCoreJobs.quietly p) v := by
  apply seq_backs
  apply backs_mono _ h
  intro r u _
  cases r <;> trivial

end Rules

section Writes

/-- A write that nothing has to stand behind. -/
def unmarked : Write → Prop
  | .insertTransaction t => t.extraData.bind (·.bankAccountId) = none
  | .insertDelivery _ => False
  | .setRecipientCode _ _ => False
  | .account (.insertBankAccount a) => a.paystackRecipientCode = none
  | w => Regular w

theorem unmarked_earmarked {t : Transaction}
    (unmarked : t.extraData.bind (·.bankAccountId) = none) : Earmarked t db := by
  intro id named
  rw [unmarked] at named
  cases named

theorem unmarked_regular {w : Write} (plain : unmarked w) : Regular w := by
  cases w with
  | insertTransaction | insertDelivery | setRecipientCode | account => trivial
  | _ => exact plain

theorem unmarked_grounded {ws : List Write} (all : ∀ w ∈ ws, unmarked w) : GroundedCommit issued ws db where
  regular w mem := unmarked_regular (all w mem)
  earmarked _ mem := unmarked_earmarked (all _ mem)
  announces _ mem := (all _ mem).elim
  coded _ _ mem := (all _ mem).elim
  uncoded _ mem := all _ mem

theorem unmarked_backs {p : Tx α} (free : Asks (Free cfg readings issued) p) (emits : Emits unmarked p)
    (pending : ∀ w ∈ v.pending, unmarked w) : Backs cfg readings issued p v :=
  free_backs free (emits_wp (fun _ _ all => unmarked_grounded all) emits pending)

def unmarkedBut (id : Uuid) (code : String) (w : Write) : Prop := unmarked w ∨ w = .setRecipientCode id code

theorem unmarkedBut_grounded {ws : List Write} {id : Uuid} {code : String}
    (all : ∀ w ∈ ws, unmarkedBut id code w)
    (known : Issued issued id code db) : GroundedCommit issued ws db where
  regular := by
    intro w mem
    rcases all w mem with plain | rfl
    · exact unmarked_regular plain
    · trivial
  earmarked t mem := by
    rcases all _ mem with plain | other
    · exact unmarked_earmarked plain
    · cases other
  announces d mem := by
    rcases all _ mem with plain | other
    · exact plain.elim
    · cases other
  coded other code' mem := by
    rcases all _ mem with plain | same
    · exact plain.elim
    · cases same
      exact known
  uncoded a mem := by
    rcases all _ mem with plain | other
    · exact plain
    · cases other

theorem coded_backs {p : Tx α} {id : Uuid} {code : String} (known : Issued issued id code v.db)
    (free : Asks (Free cfg readings issued) p) (emits : Emits unmarked p)
    (pending : ∀ w ∈ v.pending, unmarkedBut id code w) :
    Backs cfg readings issued p v := by
  apply free_backs free
  apply emits_wp_under (I := fun s => Issued issued id code s) _ _
    (emits_mono (fun _ plain => .inl plain) emits) pending known
  · exact fun ws s commit known => issued_stands (standing_all commit.regular s) known
  · exact fun ws s known all => unmarkedBut_grounded all known

theorem none_pending (bare : v.pending = []) : ∀ w ∈ v.pending, unmarked w := by
  intro w mem
  rw [bare] at mem
  cases mem

theorem audited_backs {entry : AuditLog} {a : α} (bare : v.pending = []) :
    Backs cfg readings issued (auditLog entry >>= fun _ => (.ret a : Tx α)) v :=
  unmarked_backs (asks_audited entry a) (emits_audited (fun _ => trivial) entry a) (none_pending bare)

theorem own_unmarked {userId : Uuid} {w : Write} (h : Own userId db w) : unmarked w := by
  cases w with
  | account w =>
    cases w with
    | insertBankAccount a => exact h.2
    | _ => trivial
  | insertWallet w => exact Int.le_of_eq h.symm
  | insertRefreshToken | insertAuditLog => trivial
  | _ => exact h.elim

theorem signs_unmarked {w : Write} (h : signs w) : unmarked w := by
  cases w with
  | account w =>
    cases w with
    | insertBankAccount a => exact h.elim
    | _ => trivial
  | insertRefreshToken | insertAuditLog => trivial
  | _ => exact h.elim

theorem reviews_unmarked {w : Write} (h : reviews w) : unmarked w := by
  cases w with
  | account w =>
    cases w with
    | insertBankAccount a => exact h.elim
    | _ => trivial
  | insertAuditLog => trivial
  | _ => exact h.elim

theorem settling_unmarked : Settling unmarked where
  marks _ _ marked := marked.1
  balances _ _ covered := covered
  entries _ := trivial
  audits _ := trivial

theorem registers_unmarked (w : Write) (h : registers w) : unmarked w := by
  cases w with
  | insertWallet w => exact Int.le_of_eq h.1.symm
  | insertUser | insertRefreshToken | insertAuditLog => trivial
  | _ => exact h.elim

end Writes

end PayCoreBackingRules
