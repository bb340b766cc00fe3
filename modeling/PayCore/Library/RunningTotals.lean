import Mathlib.Algebra.BigOperators.Group.List.Basic

/- Records that carry a running total: each one's value is the value of the one before it and its
   own amount. -/
namespace RunningTotals

variable {α M : Type} [AddMonoid M]

/-- From the total `before` on, every record carries the total up to itself. -/
def Accrues (value amount : α → M) : M → List α → Prop
  | _, [] => True
  | before, a :: rest => value a = before + amount a ∧ Accrues value amount (value a) rest

variable {value amount : α → M} {before : M} {l : List α} {a : α}

theorem accrues_last : Accrues value amount before (l ++ [a]) ↔
    Accrues value amount before l ∧ value a = before + ((l ++ [a]).map amount).sum := by
  induction l generalizing before with
  | nil => simp [Accrues]
  | cons b rest ih =>
    simp only [List.cons_append, Accrues, ih, List.map_cons, List.sum_cons, and_assoc]
    constructor
    · rintro ⟨first, onward, last⟩
      exact ⟨first, onward, by rw [last, first, add_assoc]⟩
    · rintro ⟨first, onward, last⟩
      exact ⟨first, onward, by rw [last, first, add_assoc]⟩

theorem accrues_congr {β : Type} {f : α → β} {total given : β → M}
    (same : ∀ a ∈ l, value a = total (f a) ∧ amount a = given (f a)) :
    Accrues value amount before l ↔ Accrues total given before (l.map f) := by
  induction l generalizing before with
  | nil => rfl
  | cons b rest ih =>
    obtain ⟨carried, added⟩ := same b (by simp)
    simp only [List.map_cons, Accrues, carried, added]
    rw [ih (fun a mem => same a (by simp [mem]))]

instance decidableAccrues [DecidableEq M] (value amount : α → M) (before : M) (l : List α) :
    Decidable (Accrues value amount before l) :=
  match l with
  | [] => .isTrue trivial
  | a :: rest =>
    have := decidableAccrues value amount (value a) rest
    inferInstanceAs (Decidable (value a = before + amount a ∧ Accrues value amount (value a) rest))

end RunningTotals
