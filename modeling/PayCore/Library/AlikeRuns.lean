import PayCore.Library.SessionProgram

/- Two states that a program cannot tell apart: it does the same on both. -/
namespace AlikeRuns
open SessionProgram

variable {σ μ ω κ ε ρ χ α β : Type} [Store ω σ κ]

def Respects (E : σ → σ → Prop) (w : ω) : Prop :=
  ∀ s t, E s t → E (Store.apply w s) (Store.apply w t)

/-- No statement of the program tells states apart that `E` relates. -/
def Blind (E : σ → σ → Prop) : Prog σ μ ω κ ε ρ χ α → Prop
  | .ret _ => True
  | .raise _ => True
  | .stmt _ writes memo next _ => ∀ s t m, E s t →
      (writes s m = writes t m ∧ memo s m = memo t m ∧ next s m = next t m) ∧
        (∀ w ∈ writes s m, Respects E w) ∧ Blind E (next s m)
  | .call _ next fault => (∀ r, Blind E (next r)) ∧ Blind E fault
  | .commit next _ => Blind E next
  | .rollback next => Blind E next

variable {E : σ → σ → Prop}

theorem blind_seq {p : Prog σ μ ω κ ε ρ χ α} {f : α → Prog σ μ ω κ ε ρ χ β} (first : Blind E p)
    (rest : ∀ a, Blind E (f a)) : Blind E (p >>= f) := by
  change Blind E (p.bind f)
  induction p with
  | ret a => exact rest a
  | raise x => trivial
  | stmt rows writes memo next fault ihn ihf =>
    intro s t m alike
    obtain ⟨⟨written, kept, onward⟩, respected, blind⟩ := first s t m alike
    exact ⟨⟨written, kept, congrArg (Prog.bind · f) onward⟩, respected, ihn s m blind⟩
  | call request next fault ihn ihf => exact ⟨fun r => ihn r (first.1 r), ihf first.2⟩
  | commit next fault ihn ihf => exact ihn first
  | rollback next ih => exact ih first

theorem blind_handle {p : Prog σ μ ω κ ε ρ χ α} {h : χ → Prog σ μ ω κ ε ρ χ α} (body : Blind E p)
    (handled : ∀ x, Blind E (h x)) : Blind E (p.handle h) := by
  induction p with
  | ret a => trivial
  | raise x => exact handled x
  | stmt rows writes memo next fault ihn ihf =>
    intro s t m alike
    obtain ⟨⟨written, kept, onward⟩, respected, blind⟩ := body s t m alike
    exact ⟨⟨written, kept, congrArg (Prog.handle · h) onward⟩, respected, ihn s m blind⟩
  | call request next fault ihn ihf => exact ⟨fun r => ihn r (body.1 r), ihf body.2⟩
  | commit next fault ihn ihf => exact ihn body
  | rollback next ih => exact ih body

theorem alike_applied {ws : List ω} (respected : ∀ w ∈ ws, Respects E w) {s t : σ} (alike : E s t) :
    E (applyAll ws s) (applyAll ws t) := by
  induction ws generalizing s t with
  | nil => exact alike
  | cons w ws ih =>
    exact ih (fun v mem => respected v (List.mem_cons_of_mem w mem))
      (respected w List.mem_cons_self s t alike)

theorem blind_exec [Inhabited μ] (answer : ε → Option ρ) {p : Prog σ μ ω κ ε ρ χ α} (blind : Blind E p)
    {a b : σ} {ws : List ω} {m : μ} (calls : List ε) (alike : E a b) (respected : ∀ w ∈ ws, Respects E w) :
    (exec answer p ⟨a, ws, m, calls⟩).1 = (exec answer p ⟨b, ws, m, calls⟩).1 ∧
      E (exec answer p ⟨a, ws, m, calls⟩).2.db (exec answer p ⟨b, ws, m, calls⟩).2.db := by
  induction p generalizing a b ws m calls with
  | ret r => exact ⟨rfl, alike⟩
  | raise x => exact ⟨rfl, alike⟩
  | stmt rows writes memo next fault ihn ihf =>
    obtain ⟨⟨written, kept, onward⟩, added, later⟩ := blind _ _ m (alike_applied respected alike)
    have all : ∀ w ∈ ws ++ writes (applyAll ws a) m, Respects E w := by
      intro w mem
      rcases List.mem_append.mp mem with old | new
      · exact respected w old
      · exact added w new
    have both := ihn _ _ later (m := memo (applyAll ws a) m) calls alike all
    simp only [exec, Local.seen, ← written, ← kept, ← onward]
    exact both
  | call request next fault ihn ihf =>
    simp only [exec]
    cases answer request with
    | some r => exact ihn r (blind.1 r) _ alike respected
    | none => exact ihf blind.2 _ alike respected
  | commit next fault ihn ihf =>
    exact ihn blind _ (alike_applied respected alike) (by simp)
  | rollback next ih => exact ih blind _ alike (by simp)

theorem blind_alone [Inhabited μ] (answer : ε → Option ρ) {p : Prog σ μ ω κ ε ρ χ α}
    (blind : Blind E p)
    {a b : σ} (alike : E a b) : (exec answer p (start a)).1 = (exec answer p (start b)).1 := by
  have both :=
    blind_exec answer (m := default) blind [] alike (fun w mem => absurd mem (List.not_mem_nil (a := w)))
  exact both.1

end AlikeRuns
