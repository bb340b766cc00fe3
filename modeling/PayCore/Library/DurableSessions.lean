import PayCore.Library.SerialRuns

/- What a session has flushed and what it has committed when it is closed. -/
namespace DurableSessions
open SessionProgram SerialRuns

variable {σ μ ω κ ε ρ χ α β : Type} [Store ω σ κ] [Inhabited μ]

def flushes (answer : ε → Option ρ) : Prog σ μ ω κ ε ρ χ α → Local σ μ ω ε → List ω
  | .ret _, _ => []
  | .raise _, _ => []
  | .stmt _ writes memo next _, s =>
      writes s.seen s.memory ++ flushes answer (next s.seen s.memory)
        { s with pending := s.pending ++ writes s.seen s.memory, memory := memo s.seen s.memory }
  | .call request next fault, s =>
      match answer request with
      | some r => flushes answer (next r) { s with calls := s.calls ++ [request] }
      | none => flushes answer fault { s with calls := s.calls ++ [request] }
  | .commit next _, s => flushes answer next { s with db := s.seen, pending := [] }
  | .rollback next, s => flushes answer next { s with pending := [], memory := default }

/-- Where the program ends well, a fresh session finds all that this one flushed, and so what it
    reported: `Told` says where a report stands in a state. -/
def Durable (answer : ε → Option ρ) (Told : α → σ → Prop) (p : Prog σ μ ω κ ε ρ χ α)
    (db : σ) : Prop :=
  ∀ a, (exec answer p (start db)).1 = .ok a →
    (exec answer p (start db)).2.db = applyAll (flushes answer p (start db)) db ∧
      Told a (exec answer p (start db)).2.db

/-- The program discards nothing that it has flushed, and ends in `Q`. What the session sees and
    what it remembers are in step by `K`. -/
def tidy (K : σ → μ → Prop) :
    Prog σ μ ω κ ε ρ χ α → (Except χ α → Local σ μ ω ε → Prop) → Local σ μ ω ε → Prop
  | .ret a, Q, s => Q (.ok a) s
  | .raise x, Q, s => Q (.error x) s
  | .stmt _ writes memo next _, Q, s => K s.seen s.memory →
      tidy K (next s.seen s.memory) Q
        { s with pending := s.pending ++ writes s.seen s.memory, memory := memo s.seen s.memory }
  | .call request next fault, Q, s =>
      (∀ r, tidy K (next r) Q { s with calls := s.calls ++ [request] }) ∧
        tidy K fault Q { s with calls := s.calls ++ [request] }
  | .commit next _, Q, s => tidy K next Q { s with db := s.seen, pending := [] }
  | .rollback next, Q, s =>
      s.pending = [] ∧ tidy K next Q { s with pending := [], memory := default }

variable {K : σ → μ → Prop}

theorem tidy_mono {p : Prog σ μ ω κ ε ρ χ α} {Q Q' : Except χ α → Local σ μ ω ε → Prop}
    {s : Local σ μ ω ε} (weaker : ∀ r u, Q r u → Q' r u) (h : tidy K p Q s) : tidy K p Q' s := by
  induction p generalizing s with
  | ret a => exact weaker _ _ h
  | raise x => exact weaker _ _ h
  | stmt rows writes memo next fault ihn ihf => exact fun inStep => ihn _ _ (h inStep)
  | call request next fault ihn ihf => exact ⟨fun r => ihn r (h.1 r), ihf h.2⟩
  | commit next fault ihn ihf => exact ihn h
  | rollback next ih => exact ⟨h.1, ih h.2⟩

theorem seq_tidy {p : Prog σ μ ω κ ε ρ χ α} {f : α → Prog σ μ ω κ ε ρ χ β}
    {Q : Except χ β → Local σ μ ω ε → Prop} {s : Local σ μ ω ε}
    (h : tidy K p (fun r u => match r with
      | .ok a => tidy K (f a) Q u
      | .error x => Q (.error x) u) s) : tidy K (p >>= f) Q s := by
  change tidy K (p.bind f) Q s
  induction p generalizing s with
  | ret a => exact h
  | raise x => exact h
  | stmt rows writes memo next fault ihn ihf => exact fun inStep => ihn _ _ (h inStep)
  | call request next fault ihn ihf => exact ⟨fun r => ihn r (h.1 r), ihf h.2⟩
  | commit next fault ihn ihf => exact ihn h
  | rollback next ih => exact ⟨h.1, ih h.2⟩

theorem handle_tidy {p : Prog σ μ ω κ ε ρ χ α} {handler : χ → Prog σ μ ω κ ε ρ χ α}
    {Q : Except χ α → Local σ μ ω ε → Prop} {s : Local σ μ ω ε}
    (h : tidy K p (fun r u => match r with
      | .ok a => Q (.ok a) u
      | .error x => tidy K (handler x) Q u) s) : tidy K (p.handle handler) Q s := by
  induction p generalizing s with
  | ret a => exact h
  | raise x => exact h
  | stmt rows writes memo next fault ihn ihf => exact fun inStep => ihn _ _ (h inStep)
  | call request next fault ihn ihf => exact ⟨fun r => ihn r (h.1 r), ihf h.2⟩
  | commit next fault ihn ihf => exact ihn h
  | rollback next ih => exact ⟨h.1, ih h.2⟩

theorem tidy_exec (answer : ε → Option ρ) {p : Prog σ μ ω κ ε ρ χ α}
    {Q : Except χ α → Local σ μ ω ε → Prop} (blank : ∀ s m, K s m → K s default) (keeps : Keeps K p)
    {s : Local σ μ ω ε} (inStep : K s.seen s.memory) (neat : tidy K p Q s) :
    Q (exec answer p s).1 (exec answer p s).2 ∧
      (exec answer p s).2.seen = applyAll (flushes answer p s) s.seen := by
  induction p generalizing s with
  | ret a => exact ⟨neat, rfl⟩
  | raise x => exact ⟨neat, rfl⟩
  | stmt rows writes memo next fault ihn ihf =>
    obtain ⟨kept, onward⟩ := keeps _ _ inStep
    let after : Local σ μ ω ε :=
      { s with pending := s.pending ++ writes s.seen s.memory, memory := memo s.seen s.memory }
    have seen : after.seen = applyAll (writes s.seen s.memory) s.seen := by
      simp only [after, Local.seen, applyAll_append]
    obtain ⟨ends, told⟩ := ihn _ _ onward (s := after) (by rw [seen]; exact kept) (neat inStep)
    apply And.intro ends
    simp only [exec, flushes, applyAll_append, ← seen]
    exact told
  | call request next fault ihn ihf =>
    simp only [exec, flushes]
    cases answer request with
    | some r => exact ihn r (keeps.1 r) inStep (neat.1 r)
    | none => exact ihf keeps.2 inStep neat.2
  | commit next fault ihn ihf => exact ihn keeps inStep neat
  | rollback next ih =>
    have same : s.seen = s.db := by simp [Local.seen, neat.1]
    rw [same] at inStep
    obtain ⟨ends, told⟩ :=
      ih keeps (s := { s with pending := [], memory := default }) (blank _ _ inStep) neat.2
    apply And.intro ends
    rw [same]
    exact told

theorem durable_of_tidy {answer : ε → Option ρ} {Told : α → σ → Prop}
    {p : Prog σ μ ω κ ε ρ χ α} {db : σ}
    (blank : ∀ s m, K s m → K s default) (keeps : Keeps K p) (inStep : K db default)
    (neat : tidy K p (fun r u => ∀ a, r = .ok a → u.pending = [] ∧ Told a u.db) (start db)) :
    Durable answer Told p db := by
  intro a ended
  obtain ⟨settled, told⟩ := tidy_exec answer blank keeps (s := start db) inStep neat
  obtain ⟨bare, stands⟩ := settled a ended
  rw [Local.seen, bare] at told
  exact ⟨told, stands⟩

end DurableSessions
