import Mathlib.Data.List.Perm.Basic

/- Runs of a machine that takes one move after the other, with conditions that every move has to
   meet in the state it is made from. -/
namespace GuardedRuns

variable {S M : Type} {step : S → M → S}

def run (step : S → M → S) (s : S) (moves : List M) : S := moves.foldl step s

def Along (step : S → M → S) (P : S → M → Prop) : S → List M → Prop
  | _, [] => True
  | s, m :: moves => P s m ∧ Along step P (step s m) moves

@[simp] theorem run_nil (s : S) : run step s [] = s := rfl

@[simp] theorem run_cons (s : S) (m : M) (moves : List M) :
    run step s (m :: moves) = run step (step s m) moves := rfl

theorem run_append (s : S) (before after : List M) :
    run step s (before ++ after) = run step (run step s before) after := by
  simp [run]

instance decidableAlong (P : S → M → Prop) [∀ s m, Decidable (P s m)] (s : S) (moves : List M) :
    Decidable (Along step P s moves) :=
  match moves with
  | [] => .isTrue trivial
  | m :: rest =>
    have := decidableAlong P (step s m) rest
    inferInstanceAs (Decidable (P s m ∧ Along step P (step s m) rest))

theorem along_append {P : S → M → Prop} {s : S} {before after : List M} :
    Along step P s (before ++ after) ↔
      Along step P s before ∧ Along step P (run step s before) after := by
  induction before generalizing s with
  | nil => simp [Along]
  | cons m rest ih => simp [Along, ih, and_assoc]

theorem along_and {P Q : S → M → Prop} {s : S} {moves : List M} :
    Along step (fun s m => P s m ∧ Q s m) s moves ↔ Along step P s moves ∧ Along step Q s moves := by
  induction moves generalizing s with
  | nil => simp [Along]
  | cons m rest ih =>
    simp only [Along, ih]
    constructor
    · rintro ⟨⟨p, q⟩, ps, qs⟩
      exact ⟨⟨p, ps⟩, q, qs⟩
    · rintro ⟨⟨p, ps⟩, q, qs⟩
      exact ⟨⟨p, q⟩, ps, qs⟩

/-- The rule for invariants: what every move keeps, the run keeps. -/
theorem run_keeps {I : S → Prop} {P : S → M → Prop} {s : S} {moves : List M}
    (keeps : ∀ s m, I s → P s m → I (step s m)) (initially : I s) (along : Along step P s moves) :
    I (run step s moves) := by
  induction moves generalizing s with
  | nil => exact initially
  | cons m rest ih => exact ih (keeps s m initially along.1) along.2

theorem along_mono {I : S → Prop} {P Q : S → M → Prop} {s : S} {moves : List M}
    (keeps : ∀ s m, I s → P s m → I (step s m)) (gives : ∀ s m, I s → P s m → Q s m)
    (initially : I s) (along : Along step P s moves) : Along step Q s moves := by
  induction moves generalizing s with
  | nil => trivial
  | cons m rest ih =>
    exact ⟨gives s m initially along.1, ih (keeps s m initially along.1) along.2⟩

theorem along_iff {I : S → Prop} {P Q : S → M → Prop} {s : S} {moves : List M}
    (keeps : ∀ s m, I s → P s m → I (step s m)) (same : ∀ s m, I s → (P s m ↔ Q s m))
    (initially : I s) : Along step P s moves ↔ Along step Q s moves := by
  induction moves generalizing s with
  | nil => rfl
  | cons m rest ih =>
    simp only [Along]
    constructor
    · rintro ⟨fine, onward⟩
      exact ⟨(same s m initially).mp fine, (ih (keeps s m initially fine)).mp onward⟩
    · rintro ⟨fine, onward⟩
      have met := (same s m initially).mpr fine
      exact ⟨met, (ih (keeps s m initially met)).mpr onward⟩

theorem throughout_iff {Q : S → Prop} {s : S} {moves : List M} :
    (∀ done, done <+: moves → Q (run step s done)) ↔
      Q s ∧ Along step (fun s m => Q (step s m)) s moves := by
  induction moves generalizing s with
  | nil => simp [Along]
  | cons m rest ih =>
    have onward := ih (s := step s m)
    simp only [Along]
    constructor
    · intro always
      have later : ∀ done, done <+: rest → Q (run step (step s m) done) := by
        intro done before
        exact always (m :: done) (List.cons_prefix_cons.mpr ⟨rfl, before⟩)
      exact ⟨always [] List.nil_prefix, onward.mp later⟩
    · rintro ⟨first, rest⟩ done before
      cases done with
      | nil => exact first
      | cons n done =>
        obtain ⟨rfl, shorter⟩ := List.cons_prefix_cons.mp before
        exact onward.mpr rest done shorter

theorem picked_perm {α : Type} {l : List α} {k : Nat} {a : α} (found : l[k]? = some a) :
    l.Perm (a :: l.eraseIdx k) := by
  obtain ⟨inside, here⟩ := List.getElem?_eq_some_iff.mp found
  rw [← here]
  exact .symm (List.getElem_cons_eraseIdx_perm inside)

theorem mem_picked {α : Type} {l : List α} {k : Nat} {a b : α} (found : l[k]? = some a) :
    b ∈ l ↔ b = a ∨ b ∈ l.eraseIdx k := by
  rw [(picked_perm found).mem_iff, List.mem_cons]

end GuardedRuns
