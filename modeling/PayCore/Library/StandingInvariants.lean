import PayCore.Library.RelyGuarantee

/- What every guaranteed commit keeps, a session finds again wherever it ends. -/
namespace StandingInvariants
open SessionProgram RelyGuarantee

variable {σ μ ω κ ε ρ χ α : Type} [Store ω σ κ] [Inhabited μ] {G : List ω → σ → Prop}
  {F : σ → μ → List κ → List ω → Prop} {Q : Post σ μ ω κ χ α} {v : View σ μ ω κ}

theorem wp_keeps {I : σ → Prop} (keeps : ∀ ws s, G ws s → I s → I (applyAll ws s))
    {p : Prog σ μ ω κ ε ρ χ α}
    (holds : I v.db) (h : wp (Rely G) G F p Q v) : wp (Rely G) G F p (fun r u => I u.db ∧ Q r u) v := by
  have later : ∀ {v : View σ μ ω κ} {db : σ}, I v.db → Rely G v.held v.db db → I db :=
    fun holds rely => rely_keeps rely keeps holds
  induction p generalizing v with
  | ret a => exact ⟨holds, h⟩
  | raise x => exact ⟨holds, h⟩
  | stmt rows writes memo next fault ihn ihf =>
    intro db rely
    have here := later holds rely
    exact ⟨ihf here (h db rely).1, fun ok => ihn _ _ here ((h db rely).2 ok)⟩
  | call request next fault ihn ihf =>
    intro db rely
    have here := later holds rely
    exact ⟨fun r => ihn r here ((h db rely).1 r), ihf here (h db rely).2⟩
  | commit next fault ihn ihf =>
    intro db rely
    have here := later holds rely
    obtain ⟨good, committed, failed⟩ := h db rely
    exact ⟨good, ihn (keeps _ _ good here) committed, ihf here failed⟩
  | rollback next ih =>
    intro db rely
    exact ih (later holds rely) (h db rely)

theorem standing_wp {I : σ → Prop} (keeps : ∀ ws s, G ws s → I s → I (applyAll ws s))
    {p : Prog σ μ ω κ ε ρ χ α}
    (holds : I v.db) (h : wp (Rely G) G F p (fun r u => I u.db → Q r u) v) : wp (Rely G) G F p Q v :=
  wp_mono (fun _ _ both => both.2 both.1) (wp_keeps keeps holds h)

/-- A session that is closed, and the next one: what the first has not committed is gone, and the
   invariant is all that the second starts from. -/
theorem closed_then {β : Type} {I : σ → Prop} (keeps : ∀ ws s, G ws s → I s → I (applyAll ws s))
    {p : Prog σ μ ω κ ε ρ χ α} {next : Prog σ μ ω κ ε ρ χ β} (holds : I v.db)
    (first : wp (Rely G) G F p (fun _ _ => True) v)
    (onward : ∀ db, I db → wp (Rely G) G F next (fun _ _ => True) ⟨db, [], default, Nothing⟩) :
    wp (Rely G) G F (p >>= fun _ => .rollback next) (fun _ _ => True) v := by
  apply seq_wp
  apply wp_mono _ (wp_keeps keeps holds first)
  rintro r u ⟨here, -⟩
  cases r with
  | error x => trivial
  | ok a =>
    intro db rely
    exact onward db (rely_keeps rely keeps here)

theorem rely_mono {G' : List ω → σ → Prop} (more : ∀ ws s, G' ws s → G ws s)
    {held : κ → Prop} {s t : σ} (rely : Rely G' held s t) : Rely G held s t := by
  induction rely with
  | refl => exact .refl _
  | step before ok spares ih => exact .step ih (more _ _ ok) spares

theorem wp_interference {R R' : (κ → Prop) → σ → σ → Prop}
    (less : ∀ held s t, R' held s t → R held s t)
    {p : Prog σ μ ω κ ε ρ χ α} (h : wp R G F p Q v) : wp R' G F p Q v := by
  induction p generalizing v with
  | ret a => exact h
  | raise x => exact h
  | stmt rows writes memo next fault ihn ihf =>
    intro db rely
    have here := h db (less _ _ _ rely)
    exact ⟨ihf here.1, fun ok => ihn _ _ (here.2 ok)⟩
  | call request next fault ihn ihf =>
    intro db rely
    have here := h db (less _ _ _ rely)
    exact ⟨fun r => ihn r (here.1 r), ihf here.2⟩
  | commit next fault ihn ihf =>
    intro db rely
    obtain ⟨good, committed, failed⟩ := h db (less _ _ _ rely)
    exact ⟨good, ihn committed, ihf failed⟩
  | rollback next ih =>
    intro db rely
    exact ih (h db (less _ _ _ rely))

end StandingInvariants
