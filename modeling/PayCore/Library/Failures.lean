import PayCore.Library.SessionProgram

/- What a program may raise. -/
namespace Failures
open SessionProgram

variable {σ μ ω κ ε ρ χ α β : Type} {P P' : χ → Prop}

/-- Every exception that may leave the program meets `P`, whatever it has read. -/
def Throws (P : χ → Prop) : Prog σ μ ω κ ε ρ χ α → Prop
  | .ret _ => True
  | .raise x => P x
  | .stmt _ _ _ next fault => (∀ s m, Throws P (next s m)) ∧ Throws P fault
  | .call _ next fault => (∀ r, Throws P (next r)) ∧ Throws P fault
  | .commit next fault => Throws P next ∧ Throws P fault
  | .rollback next => Throws P next

theorem throws_seq {p : Prog σ μ ω κ ε ρ χ α} {f : α → Prog σ μ ω κ ε ρ χ β} (first : Throws P p)
    (rest : ∀ a, Throws P (f a)) : Throws P (p >>= f) := by
  change Throws P (p.bind f)
  induction p with
  | ret a => exact rest a
  | raise x => exact first
  | stmt rows writes memo next fault ihn ihf => exact ⟨fun s m => ihn s m (first.1 s m), ihf first.2⟩
  | call request next fault ihn ihf => exact ⟨fun r => ihn r (first.1 r), ihf first.2⟩
  | commit next fault ihn ihf => exact ⟨ihn first.1, ihf first.2⟩
  | rollback next ih => exact ih first

theorem throws_handle {p : Prog σ μ ω κ ε ρ χ α} {h : χ → Prog σ μ ω κ ε ρ χ α}
    (body : Throws P' p) (handled : ∀ x, P' x → Throws P (h x)) : Throws P (p.handle h) := by
  induction p with
  | ret a => trivial
  | raise x => exact handled x body
  | stmt rows writes memo next fault ihn ihf => exact ⟨fun s m => ihn s m (body.1 s m), ihf body.2⟩
  | call request next fault ihn ihf => exact ⟨fun r => ihn r (body.1 r), ihf body.2⟩
  | commit next fault ihn ihf => exact ⟨ihn body.1, ihf body.2⟩
  | rollback next ih => exact ih body

structure Looks (P : χ → Prop) (p : Prog σ μ ω κ ε ρ χ α) : Prop where
  reads : Reads p
  throws : Throws P p

theorem looks_seq {p : Prog σ μ ω κ ε ρ χ α} {f : α → Prog σ μ ω κ ε ρ χ β} (first : Looks P p)
    (rest : ∀ a, Looks P (f a)) : Looks P (p >>= f) :=
  ⟨reads_seq first.reads fun a => (rest a).reads, throws_seq first.throws fun a => (rest a).throws⟩

section
variable [Store ω σ κ] [Inhabited μ] {answer : ε → Option ρ} {s : Local σ μ ω ε}

def FailsAs (P : χ → Prop) (answer : ε → Option ρ) (p : Prog σ μ ω κ ε ρ χ α)
    (s : Local σ μ ω ε) : Prop :=
  ∀ x u, exec answer p s = (.error x, u) → P x

theorem failsAs_throws {p : Prog σ μ ω κ ε ρ χ α} (throws : Throws P p) : FailsAs P answer p s := by
  induction p generalizing s with
  | ret a =>
    intro x u ends
    cases ends
  | raise x =>
    intro y u ends
    cases ends
    exact throws
  | stmt rows writes memo next fault ihn ihf => exact ihn s.seen s.memory (throws.1 s.seen s.memory)
  | call request next fault ihn ihf =>
    intro x u ends
    simp only [exec] at ends
    cases reply : answer request with
    | some r =>
      rw [reply] at ends
      exact ihn r (throws.1 r) x u ends
    | none =>
      rw [reply] at ends
      exact ihf throws.2 x u ends
  | commit next fault ihn ihf => exact ihn throws.1
  | rollback next ih => exact ih throws

theorem failsAs_seq {p : Prog σ μ ω κ ε ρ χ α} {f : α → Prog σ μ ω κ ε ρ χ β}
    (first : FailsAs P answer p s)
    (rest : ∀ a u, Yields answer p s a u → FailsAs P answer (f a) u) : FailsAs P answer (p >>= f) s := by
  intro x u ends
  rw [exec_seq] at ends
  cases done : exec answer p s with
  | mk r v =>
    rw [done] at ends
    cases r with
    | ok a => exact rest a v done x u ends
    | error y =>
      cases ends
      exact first _ _ done

theorem failsAs_after {p : Prog σ μ ω κ ε ρ χ α} {f : α → Prog σ μ ω κ ε ρ χ β}
    (looks : Looks P p)
    (rest : ∀ a u, Yields answer p s a u → u.db = s.db → u.pending = s.pending → FailsAs P answer (f a) u) :
    FailsAs P answer (p >>= f) s := by
  apply failsAs_seq (failsAs_throws looks.throws)
  intro a u ends
  have still := reads_exec answer looks.reads s
  unfold Yields at ends
  rw [ends] at still
  exact rest a u ends still.1 still.2

theorem failsAs_handle {p : Prog σ μ ω κ ε ρ χ α} {h : χ → Prog σ μ ω κ ε ρ χ α}
    (body : FailsAs P' answer p s) (handled : ∀ x, P' x → Throws P (h x)) :
    FailsAs P answer (p.handle h) s := by
  intro x u ends
  rw [exec_handle] at ends
  cases done : exec answer p s with
  | mk r v =>
    rw [done] at ends
    cases r with
    | ok a => cases ends
    | error y => exact failsAs_throws (handled y (body y v done)) x u ends

end

end Failures
