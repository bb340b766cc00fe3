import PayCore.Service.DecimalAmounts

/- Amounts of whole kobo, whatever their exponents: no operation of the services rounds them. -/
namespace PayCoreCountedAmounts
open DecimalArithmetic PayCoreDecimalAmounts

/-- The Decimal is worth so many kobo, whatever its exponent. -/
def Counts (d : Decimal) (kobo : Int) : Prop := value d = kobo / 100

section Amounts
variable {a b d : Decimal} {m n : Int}

theorem short_fits (short : |n| < 10 ^ precision) : Fits precision ((n : ℚ) / 100) := by
  refine ⟨n, -2, short, ?_⟩
  norm_num
  ring

theorem counts_hundredths : Counts ⟨n, -2⟩ n := by
  unfold Counts value
  norm_num
  ring

theorem counts_ofInt (whole : Int) : Counts (ofInt whole) (whole * 100) := by
  simp [Counts, value, ofInt]

theorem counts_add (left : Counts a m) (right : Counts b n) (short : |m + n| < 10 ^ precision) :
    Counts (add precision a b) (m + n) := by
  have sum : value a + value b = ((m + n : Int) : ℚ) / 100 := by
    rw [left, right]
    push_cast
    ring
  unfold Counts
  rw [value_add (by decide) (by rw [sum]; exact short_fits short), sum]

theorem counts_sub (left : Counts a m) (right : Counts b n) (short : |m - n| < 10 ^ precision) :
    Counts (sub precision a b) (m - n) := by
  have difference : value a - value b = ((m - n : Int) : ℚ) / 100 := by
    rw [left, right]
    push_cast
    ring
  unfold Counts
  rw [value_sub (by decide) (by rw [difference]; exact short_fits short), difference]

theorem counts_less (left : Counts a m) (right : Counts b n) : less a b = true ↔ m < n := by
  rw [less_iff, left, right, div_lt_div_iff_of_pos_right (by norm_num), Int.cast_lt]

theorem counts_kobo (counts : Counts d n) (short : |n| < 10 ^ precision) : amountKobo d = n := by
  have hundred : value (ofInt 100) = 100 := by simp [value, ofInt]
  have product : value d * value (ofInt 100) = n := by
    rw [counts, hundred]
    ring
  apply toInt_of_value
  rw [value_mul (by decide) (by rw [product]; exact ⟨n, 0, short, by simp⟩), product]

theorem counts_charge (short : |n| < 10 ^ precision) : ∃ d, chargeAmount n = some d ∧ Counts d n := by
  have quotient : value (ofInt n) / value (ofInt 100) = (n : ℚ) / 100 := by simp [value, ofInt]
  obtain ⟨d, divided, same⟩ :=
    div_exact (a := ofInt n) (b := ofInt 100) (by decide : 0 < precision) (by decide)
    (by rw [quotient]; exact short_fits short)
  exact ⟨d, divided, same.trans quotient⟩

theorem counts_stored (counts : Counts d n) :
    stored d = if n.natAbs < 10 ^ 20 then some ⟨n, -2⟩ else none := by
  have level : value d = value ⟨n, -2⟩ := counts.trans counts_hundredths.symm
  have hundredths : (if -2 ≤ d.exponent then scaled d (-2)
      else d.coefficient.sign * ((2 * d.coefficient.natAbs + 10 ^ (-2 - d.exponent).toNat) /
        (2 * 10 ^ (-2 - d.exponent).toNat) : Nat)) = n := by
    split
    · rename_i up
      rw [← value_scaled up] at level
      exact value_eq_iff.mp level
    · rename_i down
      have split : (-2 : Int) = d.exponent + (-2 - d.exponent).toNat := by omega
      have same : value ⟨d.coefficient, d.exponent⟩ =
          value ⟨n * 10 ^ (-2 - d.exponent).toNat, d.exponent⟩ := by
        rw [value_shift, ← split]
        exact level
      have zeros := value_eq_iff.mp same
      have unit : 0 < 10 ^ (-2 - d.exponent).toNat := by positivity
      have size : d.coefficient.natAbs = n.natAbs * 10 ^ (-2 - d.exponent).toNat := by
        rw [zeros, Int.natAbs_mul, Int.natAbs_pow]
        rfl
      have positive : (0 : Int) < 10 ^ (-2 - d.exponent).toNat := by positivity
      have sign : d.coefficient.sign = n.sign := by
        rw [zeros, Int.sign_mul, Int.sign_eq_one_of_pos positive, mul_one]
      rw [size, sign]
      generalize 10 ^ (-2 - d.exponent).toNat = u at unit ⊢
      have rounded : (2 * (n.natAbs * u) + u) / (2 * u) = n.natAbs := by
        have whole : 2 * (n.natAbs * u) + u = u + n.natAbs * (2 * u) := by ring
        rw [whole, Nat.add_mul_div_right _ _ (by omega), Nat.div_eq_of_lt (by omega), Nat.zero_add]
      rw [rounded, Int.sign_mul_natAbs]
  unfold stored
  dsimp only
  rw [hundredths]

end Amounts

end PayCoreCountedAmounts
