import Mathlib.Algebra.Order.Field.Basic
import Mathlib.Algebra.Order.Field.Power
import Mathlib.Algebra.Order.Field.Rat
import Mathlib.Data.Nat.Cast.Field
import Mathlib.Data.Nat.Log
import Mathlib.Tactic.FieldSimp
import Mathlib.Tactic.Linarith
import Mathlib.Tactic.Ring

/- Decimal floating point: integer coefficients with a power of ten, and operations that round to a
   precision, ties to even. A result that has a short form is exact. -/
namespace DecimalArithmetic

/-- The sign of a zero is left out, and so are the infinities and NaN. -/
structure Decimal where
  coefficient : Int
  exponent : Int
  deriving DecidableEq, Repr

def value (d : Decimal) : ℚ := d.coefficient * 10 ^ d.exponent

def digits (n : Nat) : Nat := Nat.log 10 n + 1

/-- `n / 10 ^ k`, to the nearest. -/
def roundHalfEven (n k : Nat) : Nat :=
  let quotient := n / 10 ^ k
  let remainder := n % 10 ^ k
  if 2 * remainder < 10 ^ k ∨ (2 * remainder = 10 ^ k ∧ quotient % 2 = 0) then quotient else quotient + 1

def fix (prec : Nat) (d : Decimal) : Decimal :=
  let excess := digits d.coefficient.natAbs - prec
  if excess = 0 then d
  else
    let rounded := roundHalfEven d.coefficient.natAbs excess
    -- 99...9 that is rounded up has a digit more.
    if digits rounded ≤ prec then ⟨d.coefficient.sign * rounded, d.exponent + excess⟩
    else ⟨d.coefficient.sign * (rounded / 10 : Nat), d.exponent + excess + 1⟩

/-- The coefficient over a lower exponent. -/
def scaled (d : Decimal) (exponent : Int) : Int := d.coefficient * 10 ^ (d.exponent - exponent).toNat

def neg (d : Decimal) : Decimal := ⟨-d.coefficient, d.exponent⟩

def add (prec : Nat) (a b : Decimal) : Decimal :=
  let exponent := min a.exponent b.exponent
  fix prec ⟨scaled a exponent + scaled b exponent, exponent⟩

def sub (prec : Nat) (a b : Decimal) : Decimal := add prec a (neg b)

def mul (prec : Nat) (a b : Decimal) : Decimal :=
  fix prec ⟨a.coefficient * b.coefficient, a.exponent + b.exponent⟩

def less (a b : Decimal) : Bool :=
  let exponent := min a.exponent b.exponent
  decide (scaled a exponent < scaled b exponent)

/-- Takes zeros off the end of a coefficient, `n` at most. -/
def strip : Nat → Nat → Int → Decimal
  | 0, c, e => ⟨c, e⟩
  | n + 1, c, e => if c % 10 = 0 then strip n (c / 10) (e + 1) else ⟨c, e⟩

/-- The quotient to one digit more than the precision. A remainder makes that digit sticky, and
an exact quotient loses the zeros that were added. -/
def div (prec : Nat) (a b : Decimal) : Option Decimal :=
  if b.coefficient = 0 then none
  else if a.coefficient = 0 then some ⟨0, a.exponent - b.exponent⟩
  else
    let n := a.coefficient.natAbs
    let d := b.coefficient.natAbs
    let shift : Int := digits d - digits n + prec + 1
    let exponent := a.exponent - b.exponent - shift
    let upper := n * 10 ^ shift.toNat
    let lower := d * 10 ^ (-shift).toNat
    let quotient :=
      if upper % lower = 0 then strip shift.toNat (upper / lower) exponent
      else if upper / lower % 5 = 0 then ⟨upper / lower + 1, exponent⟩
      else ⟨upper / lower, exponent⟩
    some (fix prec ⟨a.coefficient.sign * b.coefficient.sign * quotient.coefficient, quotient.exponent⟩)

/-- `int(d)` drops the fraction. -/
def toInt (d : Decimal) : Int :=
  if 0 ≤ d.exponent then d.coefficient * 10 ^ d.exponent.toNat
  else d.coefficient.tdiv (10 ^ (-d.exponent).toNat)

def Fits (prec : Nat) (x : ℚ) : Prop := ∃ m e : ℤ, |m| < 10 ^ prec ∧ x = m * 10 ^ e

section Digits
variable {n k prec : Nat}

theorem digits_le_iff (positive : 0 < prec) : digits n ≤ prec ↔ n < 10 ^ prec := by
  by_cases zero : n = 0
  · subst zero
    simp [digits, Nat.succ_le_of_lt positive]
  · exact Nat.log_lt_iff_lt_pow (by omega) zero

theorem digits_shift (nonzero : n ≠ 0) : digits (n * 10 ^ k) = digits n + k := by
  induction k with
  | zero => simp
  | succ k ih =>
    have step : digits (n * 10 ^ k * 10) = digits (n * 10 ^ k) + 1 := by
      unfold digits
      rw [Nat.log_mul_base (by omega) (by positivity)]
    rw [pow_succ, ← mul_assoc, step, ih]
    omega

theorem roundHalfEven_shift : roundHalfEven (n * 10 ^ k) k = n := by
  have positive : 0 < 10 ^ k := by positivity
  unfold roundHalfEven
  rw [Nat.mul_div_cancel _ positive, Nat.mul_mod_left]
  simp [positive]

end Digits

section Values
variable {a b d : Decimal} {prec : Nat} {e : Int}

theorem ten_pos (e : ℤ) : (0 : ℚ) < 10 ^ e := zpow_pos (by norm_num) e

theorem value_shift {c : Int} {k : Nat} : value ⟨c * 10 ^ k, e⟩ = value ⟨c, e + k⟩ := by
  unfold value
  rw [zpow_add₀ (by norm_num), zpow_natCast]
  push_cast
  ring

theorem value_scaled (lower : e ≤ d.exponent) : value ⟨scaled d e, e⟩ = value d := by
  unfold scaled
  rw [value_shift]
  have sum : e + ((d.exponent - e).toNat : Int) = d.exponent := by omega
  rw [sum]

theorem value_neg : value (neg d) = -value d := by
  simp [value, neg]

theorem value_eq_iff {c x : Int} : value ⟨c, e⟩ = value ⟨x, e⟩ ↔ c = x := by
  unfold value
  rw [mul_left_inj' (ten_pos e).ne', Int.cast_inj]

/-- What is rounded away of a number that fits is zeros. -/
theorem fix_exact (positive : 0 < prec) (fits : Fits prec (value d)) : value (fix prec d) = value d := by
  obtain ⟨m, e, bound, same⟩ := fits
  by_cases within : digits d.coefficient.natAbs ≤ prec
  · have none : digits d.coefficient.natAbs - prec = 0 := by omega
    simp [fix, none]
  have large : ¬ d.coefficient.natAbs < 10 ^ prec :=
    fun small => within ((digits_le_iff positive).mpr small)
  have longer : d.exponent ≤ e := by
    by_contra shorter
    have other : value ⟨scaled d e, e⟩ = value ⟨m, e⟩ := by
      rw [value_scaled (by omega), same]
      rfl
    have multiple : scaled d e = m := value_eq_iff.mp other
    apply large
    have below : m.natAbs < 10 ^ prec := by
      zify
      exact bound
    rw [← multiple, scaled, Int.natAbs_mul] at below
    apply Nat.lt_of_le_of_lt _ below
    apply Nat.le_mul_of_pos_right
    exact Int.natAbs_pos.mpr (by positivity)
  obtain ⟨k, rfl⟩ : ∃ k : Nat, e = d.exponent + k := ⟨(e - d.exponent).toNat, by omega⟩
  have zeros : d.coefficient = m * 10 ^ k := by
    apply value_eq_iff (e := d.exponent) |>.mp
    rw [value_shift]
    exact same
  have size : d.coefficient.natAbs = m.natAbs * 10 ^ k := by
    rw [zeros, Int.natAbs_mul, Int.natAbs_pow]
    rfl
  have nonzero : m.natAbs ≠ 0 := by
    intro zero
    rw [size, zero] at large
    simp at large
  have short : digits m.natAbs ≤ prec := by
    apply (digits_le_iff positive).mpr
    zify
    exact bound
  have long := digits_shift (k := k) nonzero
  rw [← size] at long
  -- The digits that are dropped are `x` of the `k` zeros.
  obtain ⟨x, excess⟩ : ∃ x, digits d.coefficient.natAbs - prec = x := ⟨_, rfl⟩
  obtain ⟨rest, split⟩ : ∃ rest, k = rest + x := ⟨k - x, by omega⟩
  have front : d.coefficient.natAbs = m.natAbs * 10 ^ rest * 10 ^ x := by
    rw [size, split, pow_add, mul_assoc]
  have kept : digits (m.natAbs * 10 ^ rest) ≤ prec := by
    rw [digits_shift nonzero]
    omega
  have some_excess : x ≠ 0 := by omega
  have rounded : fix prec d = ⟨d.coefficient.sign * (m.natAbs * 10 ^ rest : Nat), d.exponent + x⟩ := by
    unfold fix
    dsimp only
    rw [excess, if_neg some_excess, front, roundHalfEven_shift, if_pos kept]
  rw [rounded, ← value_shift]
  change value ⟨_, d.exponent⟩ = value ⟨d.coefficient, d.exponent⟩
  rw [value_eq_iff, mul_assoc]
  conv_rhs => rw [← Int.sign_mul_natAbs d.coefficient, front]
  push_cast
  ring

theorem value_sum {x y : Int} : value ⟨x + y, e⟩ = value ⟨x, e⟩ + value ⟨y, e⟩ := by
  unfold value
  push_cast
  ring

theorem value_add (positive : 0 < prec) (fits : Fits prec (value a + value b)) :
    value (add prec a b) = value a + value b := by
  have exact_sum : value ⟨scaled a (min a.exponent b.exponent) + scaled b (min a.exponent b.exponent),
      min a.exponent b.exponent⟩ = value a + value b := by
    rw [value_sum, value_scaled (min_le_left _ _), value_scaled (min_le_right _ _)]
  unfold add
  dsimp only
  rw [fix_exact positive (by rw [exact_sum]; exact fits), exact_sum]

theorem value_sub (positive : 0 < prec) (fits : Fits prec (value a - value b)) :
    value (sub prec a b) = value a - value b := by
  rw [sub_eq_add_neg, ← value_neg] at fits ⊢
  exact value_add positive fits

theorem value_mul (positive : 0 < prec) (fits : Fits prec (value a * value b)) :
    value (mul prec a b) = value a * value b := by
  have exact_product : value ⟨a.coefficient * b.coefficient, a.exponent + b.exponent⟩ =
      value a * value b := by
    unfold value
    rw [zpow_add₀ (by norm_num)]
    push_cast
    ring
  unfold mul
  rw [fix_exact positive (by rw [exact_product]; exact fits), exact_product]

theorem less_iff : less a b = true ↔ value a < value b := by
  have left := value_scaled (d := a) (min_le_left a.exponent b.exponent)
  have right := value_scaled (d := b) (min_le_right a.exponent b.exponent)
  rw [← left, ← right]
  simp only [less, decide_eq_true_eq, value]
  rw [mul_lt_mul_iff_left₀ (ten_pos _), Int.cast_lt]

theorem value_strip {n c : Nat} : value (strip n c e) = value ⟨c, e⟩ := by
  induction n generalizing c e with
  | zero => rfl
  | succ n ih =>
    unfold strip
    split
    · rename_i whole
      have tenfold : (c : Int) = (c / 10 : Nat) * 10 ^ 1 := by omega
      rw [ih, tenfold, value_shift]
      rfl
    · rfl

/-- Over the shift, the quotient has more digits than the precision. -/
theorem quotient_large {n d : Nat} {shift : Int} (nonzero : n ≠ 0)
    (shifted : shift = digits d - digits n + prec + 1) :
    10 ^ prec * (d * 10 ^ (-shift).toNat) < n * 10 ^ shift.toNat := by
  have below : d < 10 ^ digits d := Nat.lt_pow_succ_log_self (by omega) d
  have above : 10 ^ (digits n - 1) ≤ n := Nat.pow_log_le_self 10 nonzero
  have some_digits : 0 < digits n := Nat.succ_pos _
  have lengths : prec + digits d + (-shift).toNat = digits n - 1 + shift.toNat := by omega
  calc 10 ^ prec * (d * 10 ^ (-shift).toNat)
      < 10 ^ prec * (10 ^ digits d * 10 ^ (-shift).toNat) := by gcongr
    _ = 10 ^ (prec + digits d + (-shift).toNat) := by ring
    _ = 10 ^ (digits n - 1) * 10 ^ shift.toNat := by rw [lengths, pow_add]
    _ ≤ n * 10 ^ shift.toNat := by gcongr

theorem no_remainder {upper lower m : Nat} {t : ℤ} (divisor : lower ≠ 0) (large : 10 ^ prec * lower < upper)
    (bound : m < 10 ^ prec) (same : (upper : ℚ) / lower = m * 10 ^ t) : upper % lower = 0 := by
  have positive : (0 : ℚ) < lower := by exact_mod_cast Nat.pos_of_ne_zero divisor
  have more : (10 : ℚ) ^ prec < m * 10 ^ t := by
    rw [← same, lt_div_iff₀ positive]
    exact_mod_cast large
  have up : 0 ≤ t := by
    by_contra down
    have small : (10 : ℚ) ^ t ≤ 1 := zpow_le_one_of_nonpos₀ (by norm_num) (by omega)
    have less : (m : ℚ) * 10 ^ t ≤ m := mul_le_of_le_one_right (by positivity) small
    have under : (m : ℚ) < 10 ^ prec := by exact_mod_cast bound
    linarith
  obtain ⟨k, rfl⟩ := Int.eq_ofNat_of_zero_le up
  rw [div_eq_iff positive.ne', zpow_natCast] at same
  have whole : upper = m * 10 ^ k * lower := by exact_mod_cast same
  rw [whole]
  exact Nat.mul_mod_left _ _

theorem sign_self (x : Int) : (x.sign : ℚ) * x.natAbs = x := by
  rw [← Int.cast_natCast x.natAbs, ← Int.cast_mul, Int.sign_mul_natAbs]

theorem sign_square {x : Int} (nonzero : x ≠ 0) : (x.sign : ℚ) * x.sign = 1 := by
  have square : x.sign * x.sign = 1 := by
    rcases lt_trichotomy x 0 with down | zero | up
    · simp [Int.sign_eq_neg_one_of_neg down]
    · exact absurd zero nonzero
    · simp [Int.sign_eq_one_of_pos up]
  exact_mod_cast square

theorem quotient_signed {x y : Int} (nonzero : y ≠ 0) :
    (x.sign : ℚ) * y.sign * ((x.natAbs : ℚ) / y.natAbs) = x / y := by
  have divisor : (y.natAbs : ℚ) ≠ 0 := by exact_mod_cast Int.natAbs_ne_zero.mpr nonzero
  have square := sign_square nonzero
  have left := sign_self x
  have right := sign_self y
  have whole : (y : ℚ) ≠ 0 := by exact_mod_cast nonzero
  rw [eq_div_iff whole]
  calc (x.sign : ℚ) * y.sign * ((x.natAbs : ℚ) / y.natAbs) * y
      = (x.sign : ℚ) * y.sign * ((x.natAbs : ℚ) / y.natAbs) * (y.sign * y.natAbs) := by rw [right]
    _ = (y.sign * y.sign) * (x.sign * x.natAbs) * (y.natAbs / y.natAbs) := by ring
    _ = x := by rw [square, left, div_self divisor, one_mul, mul_one]

theorem value_div (nonzero : b.coefficient ≠ 0) : value a / value b =
    (a.coefficient : ℚ) / b.coefficient * 10 ^ (a.exponent - b.exponent) := by
  have divisor : (b.coefficient : ℚ) ≠ 0 := by exact_mod_cast nonzero
  unfold value
  rw [zpow_sub₀ (by norm_num)]
  field_simp

theorem div_exact (positive : 0 < prec) (nonzero : b.coefficient ≠ 0)
    (fits : Fits prec (value a / value b)) :
    ∃ q, div prec a b = some q ∧ value q = value a / value b := by
  by_cases zero : a.coefficient = 0
  · refine ⟨⟨0, a.exponent - b.exponent⟩, ?_, ?_⟩
    · simp [div, nonzero, zero]
    · simp [value, zero]
  obtain ⟨shift, shifted⟩ : ∃ shift : Int,
      (digits b.coefficient.natAbs : Int) - digits a.coefficient.natAbs + prec + 1 = shift := ⟨_, rfl⟩
  obtain ⟨upper, top⟩ : ∃ upper, a.coefficient.natAbs * 10 ^ shift.toNat = upper := ⟨_, rfl⟩
  obtain ⟨lower, bottom⟩ : ∃ lower, b.coefficient.natAbs * 10 ^ (-shift).toNat = lower := ⟨_, rfl⟩
  have divisor : lower ≠ 0 := by
    have own := Int.natAbs_ne_zero.mpr nonzero
    rw [← bottom]
    positivity
  have ratio : (upper : ℚ) / lower = a.coefficient.natAbs / b.coefficient.natAbs * 10 ^ shift := by
    have split : shift = (shift.toNat : Int) - ((-shift).toNat : Int) := by omega
    rw [← top, ← bottom]
    conv_rhs => rw [split, zpow_sub₀ (by norm_num), zpow_natCast, zpow_natCast]
    push_cast
    field_simp
  obtain ⟨m, e, bound, same⟩ := fits
  have whole : upper % lower = 0 := by
    have large : 10 ^ prec * lower < upper := by
      rw [← top, ← bottom]
      exact quotient_large (Int.natAbs_ne_zero.mpr zero) shifted.symm
    have magnitude : (a.coefficient.natAbs : ℚ) / b.coefficient.natAbs * 10 ^ (a.exponent - b.exponent) =
        m.natAbs * 10 ^ e := by
      have sides := congrArg abs same
      rw [value_div nonzero, abs_mul, abs_mul, abs_div, abs_of_pos (ten_pos _),
        abs_of_pos (ten_pos _)] at sides
      simpa [Nat.cast_natAbs] using sides
    apply no_remainder (m := m.natAbs) (t := e - (a.exponent - b.exponent) + shift) divisor large
    · zify
      exact bound
    · rw [ratio, zpow_add₀ (by norm_num), zpow_sub₀ (by norm_num), ← mul_assoc, ← mul_div_assoc,
        ← magnitude]
      field_simp
  have quotient : ((upper / lower : Nat) : ℚ) = upper / lower :=
    Nat.cast_div (Nat.dvd_of_mod_eq_zero whole) (by exact_mod_cast divisor)
  obtain ⟨tail, short⟩ :
      ∃ tail, strip shift.toNat (upper / lower) (a.exponent - b.exponent - shift) = tail := ⟨_, rfl⟩
  have stripped : value ⟨a.coefficient.sign * b.coefficient.sign * tail.coefficient, tail.exponent⟩ =
      value a / value b := by
    have plain := value_strip (n := shift.toNat) (c := upper / lower) (e := a.exponent - b.exponent - shift)
    rw [short] at plain
    unfold value at plain
    rw [value_div nonzero, ← quotient_signed nonzero]
    unfold value
    rw [Int.cast_mul, Int.cast_mul, mul_assoc, plain, Int.cast_natCast, quotient, ratio,
      zpow_sub₀ (by norm_num)]
    field_simp
  refine ⟨fix prec ⟨a.coefficient.sign * b.coefficient.sign * tail.coefficient, tail.exponent⟩, ?_, ?_⟩
  · simp only [div, nonzero, zero, if_false, shifted, top, bottom, whole, if_true, short]
  · rw [fix_exact positive (by rw [stripped]; exact ⟨m, e, bound, same⟩), stripped]

theorem toInt_of_value {n : Int} (whole : value d = n) : toInt d = n := by
  have unit : value ⟨n, 0⟩ = n := by simp [value]
  unfold toInt
  split
  · rename_i up
    have level : value ⟨scaled d 0, 0⟩ = value ⟨n, 0⟩ := by rw [value_scaled up, whole, unit]
    have same := value_eq_iff.mp level
    simpa [scaled] using same
  · rename_i down
    have split : (0 : Int) = d.exponent + (-d.exponent).toNat := by omega
    have level : value ⟨d.coefficient, d.exponent⟩ = value ⟨n * 10 ^ (-d.exponent).toNat, d.exponent⟩ := by
      rw [value_shift, ← split, unit]
      exact whole
    rw [value_eq_iff.mp level]
    exact Int.mul_tdiv_cancel _ (by positivity)

end Values

end DecimalArithmetic
