import Mathlib.Algebra.BigOperators.Group.List.Basic
import Mathlib.Data.List.Induction
import Mathlib.Logic.Function.Basic
import PayCore.Library.SessionProgram

/- Many sessions over one database at isolation level READ COMMITTED: each
   statement sees the latest committed state under the session's own writes,
   locked rows stay locked until the session commits or rolls back, and a
   statement that needs a row of another session waits. -/
namespace SessionSystem
open SessionProgram

variable {σ μ ω κ ε ρ χ α ι : Type}

instance one_inhabited : @NeZero Nat Zero.ofOfNat0 1 := Nat.instNeZeroSucc
instance two_inhabited : @NeZero Nat Zero.ofOfNat0 2 := Nat.instNeZeroSucc
instance three_inhabited : @NeZero Nat Zero.ofOfNat0 3 := Nat.instNeZeroSucc

/-- After a failed statement a session is `aborted`: it can only roll back or close. -/
structure Session (σ μ ω κ ε ρ χ α : Type) where
  prog : Prog σ μ ω κ ε ρ χ α
  pending : List ω
  memory : μ
  aborted : Bool

/-- `log` holds every commit with its writes, `calls` every call that reached the
   partner outside, both oldest first. -/
structure System (ι σ μ ω κ ε ρ χ α : Type) where
  db : σ
  owner : κ → Option ι
  session : ι → Session σ μ ω κ ε ρ χ α
  log : List (ι × List ω)
  calls : List (ι × ε)

/-- `lose` is a call that arrives and whose reply does not. -/
inductive Action (ι ρ : Type) where
  | run (i : ι)
  | reply (i : ι) (r : ρ)
  | lose (i : ι)
  | fault (i : ι)

section
variable [DecidableEq ι]

def release (owner : κ → Option ι) (i : ι) : κ → Option ι :=
  fun r => if owner r = some i then none else owner r

def System.become (S : System ι σ μ ω κ ε ρ χ α) (i : ι) (s : Session σ μ ω κ ε ρ χ α) :
    System ι σ μ ω κ ε ρ χ α :=
  { S with session := Function.update S.session i s }

theorem release_mine (owner : κ → Option ι) (i : ι) (r : κ) : release owner i r ≠ some i := by
  unfold release
  split
  · simp
  · assumption

theorem release_other {owner : κ → Option ι} {i j : ι} {r : κ} (other : j ≠ i) :
    release owner i r = some j ↔ owner r = some j := by
  unfold release
  split
  · rename_i mine
    simp [mine, Ne.symm other]
  · rfl

variable {S : System ι σ μ ω κ ε ρ χ α}

@[simp] theorem become_db (i : ι) (s : Session σ μ ω κ ε ρ χ α) : (S.become i s).db = S.db := rfl

@[simp] theorem become_log (i : ι) (s : Session σ μ ω κ ε ρ χ α) : (S.become i s).log = S.log := rfl

@[simp] theorem become_owner (i : ι) (s : Session σ μ ω κ ε ρ χ α) :
    (S.become i s).owner = S.owner := rfl

theorem become_self (i : ι) (s : Session σ μ ω κ ε ρ χ α) : (S.become i s).session i = s := by
  simp [System.become]

theorem become_other {i j : ι} (s : Session σ μ ω κ ε ρ χ α) (other : j ≠ i) :
    (S.become i s).session j = S.session j := by
  simp [System.become, other]

end

section
variable [DecidableEq κ]

def take (owner : κ → Option ι) (i : ι) (rows : List κ) : κ → Option ι :=
  fun r => if r ∈ rows then some i else owner r

theorem take_mine {owner : κ → Option ι} {i : ι} {rows : List κ} (r : κ) :
    take owner i rows r = some i ↔ owner r = some i ∨ r ∈ rows := by
  unfold take
  split
  · rename_i mem
    simp [mem]
  · rename_i absent
    simp [absent]

variable [DecidableEq ι]

def free (owner : κ → Option ι) (i : ι) (rows : List κ) : Bool :=
  rows.all (fun r => decide (owner r = none ∨ owner r = some i))

theorem take_other {owner : κ → Option ι} {i j : ι} {rows : List κ} {r : κ} (other : j ≠ i)
    (avail : free owner i rows = true) : take owner i rows r = some j ↔ owner r = some j := by
  unfold take
  split
  · rename_i mem
    have unlocked := List.all_eq_true.mp avail r mem
    rcases of_decide_eq_true unlocked with unowned | mine
    · simp [unowned, Ne.symm other]
    · simp [mine, Ne.symm other]
  · rfl

end

section
variable [Store ω σ κ] [Inhabited μ]

def initial (db : σ) (progs : ι → Prog σ μ ω κ ε ρ χ α) : System ι σ μ ω κ ε ρ χ α where
  db := db
  owner := fun _ => none
  session := fun i => ⟨progs i, [], default, false⟩
  log := []
  calls := []

def needed (rows : List κ) (writes : List ω) : List κ := rows ++ touched writes

variable [DecidableEq ι] [DecidableEq κ]

def runStep (i : ι) (S : System ι σ μ ω κ ε ρ χ α) : Option (System ι σ μ ω κ ε ρ χ α) :=
  let s := S.session i
  match s.prog with
  | .stmt rows writes memo next _ =>
      let seen := applyAll s.pending S.db
      let adds := writes seen s.memory
      if s.aborted = false ∧ free S.owner i (needed rows adds) = true then
        some { S.become i ⟨next seen s.memory, s.pending ++ adds, memo seen s.memory, false⟩ with
          owner := take S.owner i (needed rows adds) }
      else none
  | .commit next _ =>
      if s.aborted = false then
        some { S.become i ⟨next, [], s.memory, false⟩ with
          db := applyAll s.pending S.db
          owner := release S.owner i
          log := S.log ++ [(i, s.pending)] }
      else none
  | .rollback next =>
      some { S.become i ⟨next, [], default, false⟩ with owner := release S.owner i }
  | .call .. => none
  -- The program has ended: closing the session discards its uncommitted writes.
  | p => some { S.become i ⟨p, [], s.memory, false⟩ with owner := release S.owner i }

def faultStep (i : ι) (S : System ι σ μ ω κ ε ρ χ α) : Option (System ι σ μ ω κ ε ρ χ α) :=
  let s := S.session i
  match s.prog with
  | .stmt _ _ _ _ fault => some (S.become i ⟨fault, [], s.memory, true⟩)
  | .call _ _ fault => some (S.become i { s with prog := fault })
  -- The session takes no more statements until it is rolled back.
  | .commit _ fault =>
      some { S.become i ⟨fault, [], s.memory, true⟩ with owner := release S.owner i }
  | _ => none

def step (S : System ι σ μ ω κ ε ρ χ α) : Action ι ρ → Option (System ι σ μ ω κ ε ρ χ α)
  | .run i => runStep i S
  | .fault i => faultStep i S
  | .reply i r =>
      match (S.session i).prog with
      | .call request next _ =>
          some { S.become i { S.session i with prog := next r } with
            calls := S.calls ++ [(i, request)] }
      | _ => none
  | .lose i =>
      match (S.session i).prog with
      | .call request _ fault =>
          some { S.become i { S.session i with prog := fault } with
            calls := S.calls ++ [(i, request)] }
      | _ => none

section
variable {S T : System ι σ μ ω κ ε ρ χ α} {i j : ι}

theorem runStep_other (other : j ≠ i) (moves : runStep i S = some T) : T.session j = S.session j := by
  simp only [runStep] at moves
  split at moves
  · split at moves
    · cases moves
      exact become_other _ other
    · cases moves
  · split at moves
    · cases moves
      exact become_other _ other
    · cases moves
  · cases moves
    exact become_other _ other
  · cases moves
  · cases moves
    exact become_other _ other

omit [Store ω σ κ] [Inhabited μ] [DecidableEq κ] in
theorem faultStep_other (other : j ≠ i) (moves : faultStep i S = some T) : T.session j = S.session j := by
  simp only [faultStep] at moves
  split at moves <;> cases moves <;> exact become_other _ other

end

/-- What a run may be asked to meet: a condition on each statement that takes effect, in
   terms of its session, the state it sees, the session's memory, the rows it names and
   its writes. -/
def Meets (F : ι → σ → μ → List κ → List ω → Prop) (S : System ι σ μ ω κ ε ρ χ α)
    (a : Action ι ρ) : Prop :=
  ∀ i rows writes memo next fault, a = .run i →
    (S.session i).prog = .stmt rows writes memo next fault →
    let seen := applyAll (S.session i).pending S.db
    F i seen (S.session i).memory rows (writes seen (S.session i).memory)

inductive Run (C : System ι σ μ ω κ ε ρ χ α → Action ι ρ → Prop) :
    System ι σ μ ω κ ε ρ χ α → System ι σ μ ω κ ε ρ χ α → Prop where
  | start (S) : Run C S S
  | next {S T U} {a : Action ι ρ} (before : Run C S T) (ok : C T a)
      (moves : step T a = some U) : Run C S U

def Anyhow (_ : System ι σ μ ω κ ε ρ χ α) (_ : Action ι ρ) : Prop := True

theorem run_weaken {C C' : System ι σ μ ω κ ε ρ χ α → Action ι ρ → Prop}
    (weaker : ∀ S a, C S a → C' S a) {S T : System ι σ μ ω κ ε ρ χ α} (run : Run C S T) :
    Run C' S T := by
  induction run with
  | start => exact .start S
  | next before ok moves ih => exact .next ih (weaker _ _ ok) moves

def schedule (C : System ι σ μ ω κ ε ρ χ α → Action ι ρ → Prop) [∀ S a, Decidable (C S a)]
    (S : System ι σ μ ω κ ε ρ χ α)
    (acts : List (Action ι ρ)) : Option (System ι σ μ ω κ ε ρ χ α) :=
  acts.foldlM (fun S a => if C S a then step S a else none) S

theorem run_of_schedule {C : System ι σ μ ω κ ε ρ χ α → Action ι ρ → Prop}
    [∀ S a, Decidable (C S a)] {S T : System ι σ μ ω κ ε ρ χ α} {acts : List (Action ι ρ)}
    (h : schedule C S acts = some T) : Run C S T := by
  induction acts using List.reverseRecOn generalizing T with
  | nil =>
    simp only [schedule, List.foldlM_nil, Option.pure_def, Option.some.injEq] at h
    subst h
    exact .start S
  | append_singleton acts a ih =>
    simp only [schedule, List.foldlM_append, List.foldlM_cons, List.foldlM_nil,
      Option.bind_eq_bind, Option.bind_eq_some_iff] at h
    obtain ⟨M, reached, U, moves, same⟩ := h
    cases same
    split at moves
    · rename_i ok
      exact .next (ih reached) ok moves
    · cases moves

theorem reached_of_schedule {β : Type} {C : System ι σ μ ω κ ε ρ χ α → Action ι ρ → Prop}
    [∀ S a, Decidable (C S a)] {S : System ι σ μ ω κ ε ρ χ α} {acts : List (Action ι ρ)}
    {f : System ι σ μ ω κ ε ρ χ α → β} {b : β} (h : (schedule C S acts).map f = some b) :
    ∃ T, Run C S T ∧ f T = b := by
  obtain ⟨T, reached, value⟩ := Option.map_eq_some_iff.mp h
  exact ⟨T, run_of_schedule reached, value⟩

theorem reached_twice {β : Type} {C : System ι σ μ ω κ ε ρ χ α → Action ι ρ → Prop}
    [∀ S a, Decidable (C S a)] {S : System ι σ μ ω κ ε ρ χ α} {acts more : List (Action ι ρ)}
    {f : System ι σ μ ω κ ε ρ χ α → System ι σ μ ω κ ε ρ χ α → β} {b : β}
    (h : (schedule C S acts).bind (fun T => (schedule C T more).map (f T)) = some b) :
    ∃ T U, Run C S T ∧ Run C T U ∧ f T U = b := by
  obtain ⟨T, reached, onward⟩ := Option.bind_eq_some_iff.mp h
  obtain ⟨U, later, value⟩ := Option.map_eq_some_iff.mp onward
  exact ⟨T, U, run_of_schedule reached, run_of_schedule later, value⟩

instance (S : System ι σ μ ω κ ε ρ χ α) (a : Action ι ρ) : Decidable (Anyhow S a) :=
  inferInstanceAs (Decidable True)

def meetsNext (F : ι → σ → μ → List κ → List ω → Prop)
    (S : System ι σ μ ω κ ε ρ χ α) (i : ι) :
    Prog σ μ ω κ ε ρ χ α → Prop
  | .stmt rows writes _ _ _ =>
      F i (applyAll (S.session i).pending S.db) (S.session i).memory rows
        (writes (applyAll (S.session i).pending S.db) (S.session i).memory)
  | _ => True

instance (F : ι → σ → μ → List κ → List ω → Prop)
    [∀ i s m rows adds, Decidable (F i s m rows adds)] (S : System ι σ μ ω κ ε ρ χ α) (i : ι) :
    (p : Prog σ μ ω κ ε ρ χ α) → Decidable (meetsNext F S i p)
  | .stmt rows writes _ _ _ => inferInstanceAs (Decidable
      (F i (applyAll (S.session i).pending S.db) (S.session i).memory rows
        (writes (applyAll (S.session i).pending S.db) (S.session i).memory)))
  | .ret _ => .isTrue trivial
  | .raise _ => .isTrue trivial
  | .call _ _ _ => .isTrue trivial
  | .commit _ _ => .isTrue trivial
  | .rollback _ => .isTrue trivial

omit [Inhabited μ] [DecidableEq ι] [DecidableEq κ] in
theorem meets_run_iff {F : ι → σ → μ → List κ → List ω → Prop}
    {S : System ι σ μ ω κ ε ρ χ α} {i : ι} :
    Meets F S (.run i : Action ι ρ) ↔ meetsNext F S i (S.session i).prog := by
  constructor
  · intro meets
    cases prog : (S.session i).prog with
    | stmt rows writes memo next fault => exact meets i rows writes memo next fault rfl prog
    | _ => trivial
  · intro h j rows writes memo next fault same prog
    cases same
    rw [prog] at h
    exact h

instance (F : ι → σ → μ → List κ → List ω → Prop)
    [∀ i s m rows adds, Decidable (F i s m rows adds)]
    (S : System ι σ μ ω κ ε ρ χ α) (a : Action ι ρ) : Decidable (Meets F S a) :=
  match a with
  | .run _ => decidable_of_iff' _ meets_run_iff
  | .reply _ _ => .isTrue (by rintro _ _ _ _ _ _ ⟨⟩)
  | .lose _ => .isTrue (by rintro _ _ _ _ _ _ ⟨⟩)
  | .fault _ => .isTrue (by rintro _ _ _ _ _ _ ⟨⟩)

/-- What a run may be asked of its commits: a condition on the session, its uncommitted
   writes and the committed state. -/
def Commits (K : ι → List ω → σ → Prop) (S : System ι σ μ ω κ ε ρ χ α)
    (a : Action ι ρ) : Prop :=
  ∀ i next fault, a = .run i → (S.session i).prog = .commit next fault → K i (S.session i).pending S.db

def isCommit : Prog σ μ ω κ ε ρ χ α → Bool
  | .commit _ _ => true
  | _ => false

omit [Store ω σ κ] [Inhabited μ] [DecidableEq ι] [DecidableEq κ] in
theorem commits_run_iff {K : ι → List ω → σ → Prop} {S : System ι σ μ ω κ ε ρ χ α} {i : ι} :
    Commits K S (.run i : Action ι ρ) ↔
    (isCommit (S.session i).prog = true → K i (S.session i).pending S.db) := by
  constructor
  · intro commits ready
    cases prog : (S.session i).prog with
    | commit next fault => exact commits i next fault rfl prog
    | _ => simp [prog, isCommit] at ready
  · intro h j next fault same prog
    cases same
    exact h (by rw [prog]; rfl)

instance (K : ι → List ω → σ → Prop) [∀ i ws s, Decidable (K i ws s)]
    (S : System ι σ μ ω κ ε ρ χ α) (a : Action ι ρ) : Decidable (Commits K S a) :=
  match a with
  | .run _ => decidable_of_iff' _ commits_run_iff
  | .reply _ _ => .isTrue (by rintro _ _ _ ⟨⟩)
  | .lose _ => .isTrue (by rintro _ _ _ ⟨⟩)
  | .fault _ => .isTrue (by rintro _ _ _ ⟨⟩)

def tally {M : Type} [AddMonoid M] (f : List ω → M) (log : List (ι × List ω)) : M :=
  (log.map (fun entry => f entry.2)).sum

omit [Store ω σ κ] [Inhabited μ] [DecidableEq ι] [DecidableEq κ] in
@[simp] theorem tally_nil {M : Type} [AddMonoid M] (f : List ω → M) :
    tally f ([] : List (ι × List ω)) = 0 := rfl

omit [Store ω σ κ] [Inhabited μ] [DecidableEq ι] [DecidableEq κ] in
@[simp] theorem tally_commit {M : Type} [AddMonoid M] (f : List ω → M) (log : List (ι × List ω))
    (i : ι) (ws : List ω) : tally f (log ++ [(i, ws)]) = tally f log + f ws := by
  simp [tally]

def Ended (S : System ι σ μ ω κ ε ρ χ α) (i : ι) : Prop := (S.session i).prog.finished = true

end

end SessionSystem
