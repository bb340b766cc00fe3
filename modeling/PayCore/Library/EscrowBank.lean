import Mathlib.Algebra.BigOperators.Finsupp.Basic
import PayCore.Library.GuardedRuns

/- A bank that holds money for its clients. Each client has a balance and what of it is pledged to
   a payment under way; the vault is what the bank itself must have. -/
namespace EscrowBank
open GuardedRuns
variable {α : Type}

@[ext] structure Bank (α : Type) where
  balance : α →₀ Int
  pledged : α →₀ Int
  vault : Int

inductive Move (α : Type) where
  | deposit (a : α) (n : Int)
  | transfer (a b : α) (n : Int)
  | pledge (a : α) (n : Int)
  | release (a : α) (n : Int)
  | payOut (a : α) (n : Int)

/-- What the bank may do: nobody's balance falls below nothing, and only what is pledged is released
    or leaves the vault. -/
def Legal (bank : Bank α) : Move α → Prop
  | .deposit a n => 0 ≤ bank.balance a + n
  | .transfer a b n => a ≠ b ∧ 0 < n ∧ n ≤ bank.balance a
  | .pledge a n => 0 < n ∧ n ≤ bank.balance a
  | .release a n => 0 < n ∧ n ≤ bank.pledged a
  | .payOut a n => 0 < n ∧ n ≤ bank.pledged a

noncomputable def after (bank : Bank α) : Move α → Bank α
  | .deposit a n => { bank with balance := bank.balance + .single a n, vault := bank.vault + n }
  | .transfer a b n => { bank with balance := bank.balance - .single a n + .single b n }
  | .pledge a n =>
      { bank with balance := bank.balance - .single a n, pledged := bank.pledged + .single a n }
  | .release a n =>
      { bank with balance := bank.balance + .single a n, pledged := bank.pledged - .single a n }
  | .payOut a n => { bank with pledged := bank.pledged - .single a n, vault := bank.vault - n }

noncomputable def sumOf : (α →₀ Int) →+ Int := Finsupp.liftAddHom fun _ => AddMonoidHom.id Int

@[simp] theorem sumOf_single (a : α) (n : Int) : sumOf (Finsupp.single a n) = n := by
  simp [sumOf]

/-- The vault covers exactly what belongs to the clients, and no account is overdrawn. -/
structure Whole (bank : Bank α) : Prop where
  covered : bank.vault = sumOf bank.balance + sumOf bank.pledged
  solvent : ∀ a, 0 ≤ bank.balance a
  pledges : ∀ a, 0 ≤ bank.pledged a

theorem covered_after {bank : Bank α} (move : Move α)
    (h : bank.vault = sumOf bank.balance + sumOf bank.pledged) :
    (after bank move).vault = sumOf (after bank move).balance + sumOf (after bank move).pledged := by
  cases move <;> simp only [after, map_add, map_sub, sumOf_single] <;> omega

theorem single_within (a b : α) {n : Int} (positive : 0 ≤ n) :
    0 ≤ Finsupp.single a n b ∧ (a ≠ b → Finsupp.single a n b = 0) ∧ Finsupp.single a n a = n := by
  classical
  refine ⟨?_, fun other => Finsupp.single_eq_of_ne (Ne.symm other), Finsupp.single_eq_same⟩
  rw [Finsupp.single_apply]
  split <;> omega

theorem balance_after {bank : Bank α} {move : Move α} (legal : Legal bank move) (h : Whole bank) (b : α) :
    0 ≤ (after bank move).balance b := by
  have here := h.solvent b
  cases move with
  | deposit a n =>
    simp only [after, Finsupp.add_apply]
    by_cases mine : a = b
    · rw [mine] at legal ⊢
      rw [Finsupp.single_eq_same]
      exact legal
    · rw [Finsupp.single_eq_of_ne (Ne.symm mine)]
      omega
  | transfer a c n =>
    obtain ⟨_, positive, covered⟩ := legal
    obtain ⟨gained, _, _⟩ := single_within c b (Int.le_of_lt positive)
    obtain ⟨_, other, own⟩ := single_within a b (Int.le_of_lt positive)
    simp only [after, Finsupp.add_apply, Finsupp.sub_apply]
    by_cases mine : a = b
    · rw [← mine] at gained ⊢
      rw [own]
      omega
    · rw [other mine]
      omega
  | pledge a n =>
    obtain ⟨positive, covered⟩ := legal
    obtain ⟨_, other, own⟩ := single_within a b (Int.le_of_lt positive)
    simp only [after, Finsupp.sub_apply]
    by_cases mine : a = b
    · rw [← mine, own]
      omega
    · rw [other mine]
      omega
  | release a n =>
    have gained := (single_within a b (Int.le_of_lt legal.1)).1
    simp only [after, Finsupp.add_apply]
    omega
  | payOut a n => exact here

theorem pledged_after {bank : Bank α} {move : Move α} (legal : Legal bank move) (h : Whole bank) (b : α) :
    0 ≤ (after bank move).pledged b := by
  have here := h.pledges b
  have taken : ∀ {a n}, 0 < n ∧ n ≤ bank.pledged a → 0 ≤ bank.pledged b - Finsupp.single a n b := by
    rintro a n ⟨positive, covered⟩
    obtain ⟨_, other, own⟩ := single_within a b (Int.le_of_lt positive)
    by_cases mine : a = b
    · rw [← mine, own]
      omega
    · rw [other mine]
      omega
  cases move with
  | deposit a n => exact here
  | transfer a c n => exact here
  | pledge a n =>
    have gained := (single_within a b (Int.le_of_lt legal.1)).1
    simp only [after, Finsupp.add_apply]
    omega
  | release a n => exact taken legal
  | payOut a n => exact taken legal

theorem whole_after {bank : Bank α} {move : Move α} (legal : Legal bank move) (h : Whole bank) :
    Whole (after bank move) where
  covered := covered_after move h.covered
  solvent := balance_after legal h
  pledges := pledged_after legal h

theorem whole_run {bank : Bank α} {moves : List (Move α)} (h : Whole bank)
    (legal : Along after Legal bank moves) :
    Whole (run after bank moves) :=
  run_keeps (fun _ _ whole fine => whole_after fine whole) h legal

end EscrowBank
