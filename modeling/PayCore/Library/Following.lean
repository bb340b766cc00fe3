import PayCore.Library.SessionSteps

/- One session among others, followed to its end. What it has to reckon with may depend on where it
   stands in its program, on the rows it holds and on the log. -/
namespace Following
open SessionProgram SessionSystem SessionSteps

variable {σ μ ω κ ε ρ χ α β ι : Type}

structure Shared (ι σ ω : Type) where
  db : σ
  log : List (ι × List ω)

structure Spot (ι σ μ ω κ : Type) where
  shared : Shared ι σ ω
  pending : List ω
  memory : μ
  aborted : Bool
  held : κ → Prop

/-- The interference that a program meets at each of its statements, whether statements and calls
    may fail, and the replies that a request may get. -/
structure World (ι σ μ ω κ ε ρ χ α : Type) where
  others : Prog σ μ ω κ ε ρ χ α → (κ → Prop) → Shared ι σ ω → Shared ι σ ω → Prop
  failures : Prop
  replies : ε → ρ → Prop

section
variable [Store ω σ κ] [Inhabited μ]

/-- However the session `i` goes on in the world, it ends in `Q`. -/
def surely (W : World ι σ μ ω κ ε ρ χ α) (i : ι) (Q : Except χ α → Spot ι σ μ ω κ → Prop) :
    Prog σ μ ω κ ε ρ χ α → Spot ι σ μ ω κ → Prop
  | .ret a, v => Q (.ok a) v
  | .raise x, v => Q (.error x) v
  | .stmt rows writes memo next fault, v =>
      ∀ s, W.others (.stmt rows writes memo next fault) v.held v.shared s →
        let seen := applyAll v.pending s.db
        let adds := writes seen v.memory
        (v.aborted = false → surely W i Q (next seen v.memory)
          ⟨s, v.pending ++ adds, memo seen v.memory, false, fun r => v.held r ∨ r ∈ needed rows adds⟩) ∧
        (W.failures → surely W i Q fault ⟨s, [], v.memory, true, v.held⟩)
  | .call request next fault, v =>
      ∀ s, W.others (.call request next fault) v.held v.shared s →
        (∀ r, W.replies request r → surely W i Q (next r) { v with shared := s }) ∧
        (W.failures → surely W i Q fault { v with shared := s })
  | .commit next fault, v =>
      ∀ s, W.others (.commit next fault) v.held v.shared s →
        (v.aborted = false → surely W i Q next
          ⟨⟨applyAll v.pending s.db, s.log ++ [(i, v.pending)]⟩, [], v.memory, false, fun _ => False⟩) ∧
        (W.failures → surely W i Q fault ⟨s, [], v.memory, true, fun _ => False⟩)
  | .rollback next, v =>
      ∀ s, W.others (.rollback next) v.held v.shared s →
        surely W i Q next ⟨s, [], default, false, fun _ => False⟩

end

section Runs
variable [Store ω σ κ] [Inhabited μ] {W : World ι σ μ ω κ ε ρ χ α} {i : ι}
    {S T : System ι σ μ ω κ ε ρ χ α}

/-- What the others may do in one place adds up, and nothing that they do there makes `Q` false. -/
structure Steady (W : World ι σ μ ω κ ε ρ χ α) (Q : Except χ α → Shared ι σ ω → Prop) : Prop where
  still : ∀ p held s, W.others p held s s
  onward : ∀ p held s t u, W.others p held s t → W.others p held t u → W.others p held s u
  lasts : ∀ a held s t, W.others (.ret a) held s t → Q (.ok a) s → Q (.ok a) t
  remains : ∀ x held s t, W.others (.raise x) held s t → Q (.error x) s → Q (.error x) t

def sharedOf (S : System ι σ μ ω κ ε ρ χ α) : Shared ι σ ω := ⟨S.db, S.log⟩

def spotOf (S : System ι σ μ ω κ ε ρ χ α) (i : ι) : Spot ι σ μ ω κ :=
  ⟨sharedOf S, (S.session i).pending, (S.session i).memory, (S.session i).aborted, heldBy S i⟩

def OnCourse (W : World ι σ μ ω κ ε ρ χ α) (i : ι) (Q : Except χ α → Shared ι σ ω → Prop)
    (S : System ι σ μ ω κ ε ρ χ α) : Prop :=
  surely W i (fun r v => Q r v.shared) (S.session i).prog (spotOf S i)

variable {Q : Except χ α → Shared ι σ ω → Prop}

theorem onCourse_rely (steady : Steady W Q) {p : Prog σ μ ω κ ε ρ χ α} {v : Spot ι σ μ ω κ}
    (surely_so : surely W i (fun r v => Q r v.shared) p v) {s : Shared ι σ ω}
    (meanwhile : W.others p v.held v.shared s) :
    surely W i (fun r v => Q r v.shared) p { v with shared := s } := by
  cases p with
  | ret a => exact steady.lasts a _ _ _ meanwhile surely_so
  | raise x => exact steady.remains x _ _ _ meanwhile surely_so
  | stmt rows writes memo next fault =>
    intro t later
    exact surely_so t (steady.onward _ _ _ _ _ meanwhile later)
  | call request next fault =>
    intro t later
    exact surely_so t (steady.onward _ _ _ _ _ meanwhile later)
  | commit next fault =>
    intro t later
    exact surely_so t (steady.onward _ _ _ _ _ meanwhile later)
  | rollback next =>
    intro t later
    exact surely_so t (steady.onward _ _ _ _ _ meanwhile later)

theorem onCourse_other (steady : Steady W Q) {j : ι} {k : Kind ρ} {committed : Option (List ω)}
    (stepped : Stepped j k S T committed) (other : i ≠ j)
    (meanwhile : W.others (S.session i).prog (heldBy S i) (sharedOf S) (sharedOf T))
    (course : OnCourse W i Q S) : OnCourse W i Q T := by
  unfold OnCourse spotOf
  rw [stepped.others i other, stepped.locks i other]
  exact onCourse_rely steady course meanwhile

theorem onCourse_self (steady : Steady W Q) {k : Kind ρ} {committed : Option (List ω)}
    (stepped : Stepped i k S T committed) (failing : k = .failure → W.failures)
    (replying : ∀ r request next fault, k = .reply r → (S.session i).prog = .call request next fault →
      W.replies request r) (course : OnCourse W i Q S) : OnCourse W i Q T := by
  have db := stepped.db
  have log := stepped.log
  have goes := stepped.goes
  unfold OnCourse spotOf sharedOf at course ⊢
  rw [db, log]
  generalize T.session i = after at goes
  generalize heldBy T i = held at goes
  have here := steady.still (S.session i).prog (heldBy S i) (sharedOf S)
  have quiet : S.log ++ (none : Option (List ω)).toList.map (fun ws => (i, ws)) = S.log := List.append_nil _
  cases goes with
  | stmt prog ready =>
    rw [prog] at course here
    rw [quiet]
    exact (course _ here).1 ready
  | stmtFault prog =>
    rw [prog] at course here
    rw [quiet]
    exact (course _ here).2 (failing rfl)
  | reply r prog =>
    have known := replying r _ _ _ rfl prog
    rw [prog] at course here
    rw [quiet]
    exact (course _ here).1 r known
  | unanswered prog =>
    rw [prog] at course here
    rw [quiet]
    exact (course _ here).2 (failing rfl)
  | commit prog ready =>
    rw [prog] at course here
    exact (course _ here).1 ready
  | commitFault prog =>
    rw [prog] at course here
    rw [quiet]
    exact (course _ here).2 (failing rfl)
  | rollback prog =>
    rw [prog] at course here
    rw [quiet]
    exact course _ here
  | close ended =>
    rw [quiet]
    cases prog : (S.session i).prog with
    | ret a =>
      rw [prog] at course
      exact course
    | raise x =>
      rw [prog] at course
      exact course
    | _ => simp [prog, Prog.finished] at ended

end Runs

end Following
