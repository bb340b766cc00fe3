import Mathlib.Data.Nat.Digits.Defs
import Mathlib.Tactic.IntervalCases

/- Numbers written in a fixed count of lower-case hexadecimal digits, the first digit on the left. -/
namespace HexText

def alphabet : List Char :=
  ['0', '1', '2', '3', '4', '5', '6', '7', '8', '9', 'a', 'b', 'c', 'd', 'e', 'f']

def hexText : Nat → Nat → List Char
  | 0, _ => []
  | width + 1, n => hexText width (n / 16) ++ [Nat.digitChar (n % 16)]

@[simp] theorem length_hexText (width n : Nat) : (hexText width n).length = width := by
  induction width generalizing n with
  | zero => rfl
  | succ width ih => simp [hexText, ih]

theorem digit_alphabet {d : Nat} (small : d < 16) : Nat.digitChar d ∈ alphabet := by
  interval_cases d <;> decide

theorem digit_injective {d e : Nat} (small : d < 16) (small' : e < 16)
    (same : Nat.digitChar d = Nat.digitChar e) : d = e := by
  have values : ∀ d : Fin 16, ∀ e : Fin 16, Nat.digitChar d = Nat.digitChar e → d = e := by decide
  exact congrArg Fin.val (values ⟨d, small⟩ ⟨e, small'⟩ same)

theorem mem_hexText {width n : Nat} {c : Char} (mem : c ∈ hexText width n) : c ∈ alphabet := by
  induction width generalizing n with
  | zero => simp [hexText] at mem
  | succ width ih =>
    rcases List.mem_append.mp mem with higher | last
    · exact ih higher
    · rw [List.mem_singleton.mp last]
      exact digit_alphabet (Nat.mod_lt n (by decide))

theorem foreign_character {c : Char} (foreign : c ∉ alphabet) (width n : Nat) : c ∉ hexText width n :=
  fun mem => foreign (mem_hexText mem)

theorem hexText_injective {width n m : Nat} (same : hexText width n = hexText width m) :
    n % 16 ^ width = m % 16 ^ width := by
  induction width generalizing n m with
  | zero => simp [Nat.mod_one]
  | succ width ih =>
    obtain ⟨higher, last⟩ := List.append_inj same (by simp)
    have digit : n % 16 = m % 16 :=
      digit_injective (Nat.mod_lt n (by decide)) (Nat.mod_lt m (by decide)) (List.singleton_inj.mp last)
    have rest := ih higher
    rw [Nat.pow_succ', Nat.mod_mul, Nat.mod_mul, digit, rest]

end HexText
