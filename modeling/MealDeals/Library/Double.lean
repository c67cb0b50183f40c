import Mathlib.Algebra.Order.Round
import Mathlib.Data.Int.Log
import Mathlib.Data.Rat.Floor
import Mathlib.Tactic.Linarith

/-!
# Rounding to doubles

A finite double is a rational number here, and an operation on doubles is the exact
one followed by `toDouble`: to the nearest double, and of two at the same distance to
the even one.  A result that is too large for a finite double is not considered.

`abs_toDouble_sub_le` bounds what the rounding of a number below `2 ^ (k + 1)` changes,
also where the number is so small that it underflows.
-/

namespace Library

/-- The integer nearest to a number, the even one of two. -/
def roundToEven (x : Rat) : Int :=
  if Int.fract x < mkRat 1 2 ∨ Int.fract x = mkRat 1 2 ∧ ⌊x⌋ % 2 = 0 then ⌊x⌋ else ⌊x⌋ + 1

/-- The unit in the last place of the doubles around a number. -/
def ulp (x : Rat) : Rat := 2 ^ (max (Int.log 2 |x|) (-1022) - 52)

def toDouble (x : Rat) : Rat := roundToEven (x / ulp x) * ulp x

theorem abs_roundToEven_sub_le (x : Rat) : |roundToEven x - x| ≤ 1 / 2 := by
  have hhalf : mkRat 1 2 = (1 / 2 : Rat) := by norm_num
  have hfract := Int.self_sub_floor x
  have hnonneg := Int.fract_nonneg x
  have hlt := Int.fract_lt_one x
  rw [roundToEven, hhalf, abs_le]
  split
  · rename_i hdown
    have hle : Int.fract x ≤ 1 / 2 := by
      rcases hdown with hless | ⟨htie, -⟩
      · exact hless.le
      · exact htie.le
    constructor <;> linarith
  · rename_i hup
    have hge : 1 / 2 ≤ Int.fract x := not_lt.mp fun hless => hup (.inl hless)
    rw [Int.cast_add, Int.cast_one]
    constructor <;> linarith

theorem ulp_pos (x : Rat) : 0 < ulp x := zpow_pos two_pos _

/-- A number is at most half a unit from its double. -/
theorem abs_toDouble_sub_le_ulp (x : Rat) : |toDouble x - x| ≤ ulp x / 2 := by
  have hulp := ulp_pos x
  have hquotient : toDouble x - x = (roundToEven (x / ulp x) - x / ulp x) * ulp x := by
    rw [toDouble, sub_mul, div_mul_cancel₀ _ hulp.ne']
  rw [hquotient, abs_mul, abs_of_pos hulp]
  calc |(roundToEven (x / ulp x) : Rat) - x / ulp x| * ulp x
      ≤ 1 / 2 * ulp x := mul_le_mul_of_nonneg_right (abs_roundToEven_sub_le _) hulp.le
    _ = ulp x / 2 := by ring

theorem ulp_le {x : Rat} {k : Nat} (h : |x| < 2 ^ (k + 1)) : ulp x ≤ 2 ^ ((k : Int) - 52) := by
  have hlog : Int.log 2 |x| ≤ k := by
    rcases (abs_nonneg x).eq_or_lt with hzero | hpos
    · rw [← hzero, Int.log_zero_right]
      exact Int.natCast_nonneg k
    · rw [← Int.lt_add_one_iff, ← Int.lt_zpow_iff_log_lt (by decide) hpos]
      exact_mod_cast h
  exact zpow_le_zpow_right₀ one_le_two (by omega)

theorem abs_toDouble_sub_le {x : Rat} {k : Nat} (h : |x| < 2 ^ (k + 1)) :
    |toDouble x - x| ≤ 2 ^ ((k : Int) - 53) := by
  have hhalf : (2 : Rat) ^ ((k : Int) - 53) = 2 ^ ((k : Int) - 52) / 2 := by
    rw [div_eq_mul_inv, ← zpow_sub_one₀ two_ne_zero]
    congr 1
    omega
  rw [hhalf]
  exact (abs_toDouble_sub_le_ulp x).trans (div_le_div_of_nonneg_right (ulp_le h) zero_le_two)

example : toDouble (mkRat 3 10) = mkRat 5404319552844595 (2 ^ 54) := by decide +kernel

end Library
