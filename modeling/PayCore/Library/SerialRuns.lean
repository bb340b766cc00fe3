import PayCore.Library.RelyGuarantee

/- A session that runs alone. What its memory holds stays in step with the
   database, so every condition on memory is met, and the program commits only
   what it was verified to commit. -/
namespace SerialRuns
open SessionProgram SessionSystem RelyGuarantee

variable {σ μ ω κ ε ρ χ α β : Type} [Store ω σ κ] [Inhabited μ]

def Keeps (K : σ → μ → Prop) : Prog σ μ ω κ ε ρ χ α → Prop
  | .ret _ => True
  | .raise _ => True
  | .stmt _ writes memo next _ => ∀ s m, K s m →
      K (applyAll (writes s m) s) (memo s m) ∧ Keeps K (next s m)
  | .call _ next fault => (∀ r, Keeps K (next r)) ∧ Keeps K fault
  | .commit next _ => Keeps K next
  | .rollback next => Keeps K next

omit [Inhabited μ] in
theorem keeps_bind {K : σ → μ → Prop} {p : Prog σ μ ω κ ε ρ χ α}
    {f : α → Prog σ μ ω κ ε ρ χ β} (first : Keeps K p) (rest : ∀ a, Keeps K (f a)) :
    Keeps K (p.bind f) := by
  induction p with
  | ret a => exact rest a
  | raise x => trivial
  | stmt rows writes memo next fault ihn ihf =>
    intro s m h
    exact ⟨(first s m h).1, ihn s m (first s m h).2⟩
  | call request next fault ihn ihf =>
    exact ⟨fun r => ihn r (first.1 r), ihf first.2⟩
  | commit next fault ihn ihf => exact ihn first
  | rollback next ih => exact ih first

omit [Inhabited μ] in
theorem keeps_handle {K : σ → μ → Prop} {p : Prog σ μ ω κ ε ρ χ α}
    {h : χ → Prog σ μ ω κ ε ρ χ α} (first : Keeps K p) (rest : ∀ x, Keeps K (h x)) :
    Keeps K (p.handle h) := by
  induction p with
  | ret a => trivial
  | raise x => exact rest x
  | stmt rows writes memo next fault ihn ihf =>
    intro s m h
    exact ⟨(first s m h).1, ihn s m (first s m h).2⟩
  | call request next fault ihn ihf =>
    exact ⟨fun r => ihn r (first.1 r), ihf first.2⟩
  | commit next fault ihn ihf => exact ihn first
  | rollback next ih => exact ih first

theorem keeps_exec {K : σ → μ → Prop} (blank : ∀ s, K s default) (answer : ε → Option ρ)
    {p : Prog σ μ ω κ ε ρ χ α} (keeps : Keeps K p) {s : Local σ μ ω ε} (inStep : K s.seen s.memory) :
    K (exec answer p s).2.seen (exec answer p s).2.memory := by
  induction p generalizing s with
  | ret a => exact inStep
  | raise x => exact inStep
  | stmt rows writes memo next fault ihn ihf =>
    have kept := keeps _ _ inStep
    apply ihn _ _ kept.2
    simpa only [Local.seen, applyAll_append] using kept.1
  | call request next fault ihn ihf =>
    simp only [exec]
    cases answer request with
    | some r => exact ihn r (keeps.1 r) inStep
    | none => exact ihf keeps.2 inStep
  | commit next fault ihn ihf => exact ihn keeps inStep
  | rollback next ih => exact ih keeps (blank _)

/-- A verified program that runs alone reaches its postcondition through commits
   that the guarantee allows. -/
theorem exec_sound {K : σ → μ → Prop} {R : (κ → Prop) → σ → σ → Prop}
    (still : ∀ held s, R held s s) {G : List ω → σ → Prop} {F : σ → μ → List κ → List ω → Prop}
    (blank : ∀ s, K s default) (meets : ∀ s m rows adds, K s m → F s m rows adds)
    {Q : Post σ μ ω κ χ α} (answer : ε → Option ρ) (p : Prog σ μ ω κ ε ρ χ α)
    (s : Local σ μ ω ε) (held : κ → Prop) (keeps : Keeps K p) (inStep : K s.seen s.memory)
    (verified : wp R G F p Q ⟨s.db, s.pending, s.memory, held⟩) :
    let finish := exec answer p s
    (∃ held, Q finish.1 ⟨finish.2.db, finish.2.pending, finish.2.memory, held⟩) ∧
      Rely G Nothing s.db finish.2.db := by
  induction p generalizing s held with
  | ret a => exact ⟨⟨held, verified⟩, .refl _⟩
  | raise x => exact ⟨⟨held, verified⟩, .refl _⟩
  | stmt rows writes memo next fault ihn ihf =>
    have after := (verified s.db (still _ _)).2 (meets _ _ _ _ inStep)
    have kept := keeps _ _ inStep
    refine ihn s.seen s.memory _ _ kept.2 ?_ after
    simpa only [Local.seen, applyAll_append] using kept.1
  | call request next fault ihn ihf =>
    have after := verified s.db (still _ _)
    simp only [exec]
    cases answer request with
    | some r => exact ihn r _ held (keeps.1 r) inStep (after.1 r)
    | none => exact ihf _ held keeps.2 inStep after.2
  | commit next fault ihn ihf =>
    obtain ⟨good, after, _⟩ := verified s.db (still _ _)
    obtain ⟨post, chain⟩ := ihn ⟨s.seen, [], s.memory, s.calls⟩ _ keeps inStep after
    refine ⟨post, rely_trans ?_ chain⟩
    exact .step (.refl _) good (fun _ none => none.elim)
  | rollback next ih =>
    exact ih ⟨s.db, [], default, s.calls⟩ _ keeps (blank _) (verified s.db (still _ _))

theorem runAlone_sound {K : σ → μ → Prop} {R : (κ → Prop) → σ → σ → Prop}
    (still : ∀ held s, R held s s) {G : List ω → σ → Prop} {F : σ → μ → List κ → List ω → Prop}
    (blank : ∀ s, K s default) (meets : ∀ s m rows adds, K s m → F s m rows adds)
    {Q : Except χ α → σ → Prop} (answer : ε → Option ρ) {p : Prog σ μ ω κ ε ρ χ α} {db : σ}
    (keeps : Keeps K p)
    (verified : wp R G F p (fun r v => Q r v.db) ⟨db, [], default, Nothing⟩) :
    Q (runAlone answer p db).1 (runAlone answer p db).2 ∧ Rely G Nothing db (runAlone answer p db).2 := by
  obtain ⟨⟨_, post⟩, chain⟩ :=
    exec_sound still blank meets answer p (start db) Nothing keeps (blank db) verified
  exact ⟨post, chain⟩

section Commits

def commits (answer : ε → Option ρ) :
    Prog σ μ ω κ ε ρ χ α → Local σ μ ω ε → List (List ω × σ)
  | .ret _, _ => []
  | .raise _, _ => []
  | .stmt _ writes memo next _, s =>
      commits answer (next s.seen s.memory)
        { s with pending := s.pending ++ writes s.seen s.memory, memory := memo s.seen s.memory }
  | .call request next fault, s =>
      match answer request with
      | some r => commits answer (next r) { s with calls := s.calls ++ [request] }
      | none => commits answer fault { s with calls := s.calls ++ [request] }
  | .commit next _, s => (s.pending, s.db) :: commits answer next { s with db := s.seen, pending := [] }
  | .rollback next, s => commits answer next { s with pending := [], memory := default }

inductive Chained (G : List ω → σ → Prop) : σ → List (List ω × σ) → σ → Prop where
  | done (s : σ) : Chained G s [] s
  | step {s t : σ} {ws : List ω} {rest : List (List ω × σ)} (ok : G ws s)
      (onward : Chained G (applyAll ws s) rest t) : Chained G s ((ws, s) :: rest) t

theorem exec_chained {K : σ → μ → Prop} {R : (κ → Prop) → σ → σ → Prop}
    (still : ∀ held s, R held s s) {G : List ω → σ → Prop} {F : σ → μ → List κ → List ω → Prop}
    (blank : ∀ s, K s default) (meets : ∀ s m rows adds, K s m → F s m rows adds)
    {Q : Post σ μ ω κ χ α} (answer : ε → Option ρ) (p : Prog σ μ ω κ ε ρ χ α)
    (s : Local σ μ ω ε) (held : κ → Prop) (keeps : Keeps K p) (inStep : K s.seen s.memory)
    (verified : wp R G F p Q ⟨s.db, s.pending, s.memory, held⟩) :
    Chained G s.db (commits answer p s) (exec answer p s).2.db := by
  induction p generalizing s held with
  | ret a => exact .done _
  | raise x => exact .done _
  | stmt rows writes memo next fault ihn ihf =>
    have after := (verified s.db (still _ _)).2 (meets _ _ _ _ inStep)
    have kept := keeps _ _ inStep
    let wrote : Local σ μ ω ε :=
      { s with pending := s.pending ++ writes s.seen s.memory, memory := memo s.seen s.memory }
    refine ihn s.seen s.memory wrote _ kept.2 ?_ after
    simpa only [wrote, Local.seen, applyAll_append] using kept.1
  | call request next fault ihn ihf =>
    have after := verified s.db (still _ _)
    simp only [exec, commits]
    cases answer request with
    | some r => exact ihn r { s with calls := s.calls ++ [request] } held (keeps.1 r) inStep (after.1 r)
    | none => exact ihf { s with calls := s.calls ++ [request] } held keeps.2 inStep after.2
  | commit next fault ihn ihf =>
    obtain ⟨good, after, _⟩ := verified s.db (still _ _)
    exact .step good (ihn ⟨s.seen, [], s.memory, s.calls⟩ _ keeps inStep after)
  | rollback next ih =>
    exact ih ⟨s.db, [], default, s.calls⟩ _ keeps (blank _) (verified s.db (still _ _))

end Commits

end SerialRuns
