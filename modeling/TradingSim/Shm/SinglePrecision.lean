import Mathlib.Algebra.Order.Floor.Semifield
import Mathlib.Data.Int.Log
import TradingSim.Exchange.Rounding

/-!
# Single precision

Shared memory carries prices as 32-bit binary floats. A number is rounded to the nearest one,
ties to the even significand; below the smallest normal number the spacing stays constant.
Packing a number beyond the finite range fails.
-/

namespace TradingSim.Shm

open Exchange (nearestEven abs_nearestEven_sub_le)

/-- The spacing of the single-precision numbers around a number. -/
def singleSpacing (x : ℚ) : ℚ := 2 ^ (max (Int.log 2 |x|) (-126) - 23)

/-- The nearest single-precision number, were the exponent unbounded. -/
def single (x : ℚ) : ℚ := nearestEven (x / singleSpacing x) * singleSpacing x

/-- Pack a number as a 32-bit float; none if it rounds out of the finite range. -/
def packSingle (x : ℚ) : Option ℚ := if |single x| < 2 ^ 128 then some (single x) else none

example : packSingle (1 / 3) = some (11184811 / 33554432) ∧ packSingle (2 ^ 128) = none := by
  decide +kernel

theorem packSingle_eq_some {x y : ℚ} (h : packSingle x = some y) : y = single x := by
  unfold packSingle at h
  split at h
  · exact (Option.some.inj h).symm
  · cases h

theorem singleSpacing_pos (x : ℚ) : 0 < singleSpacing x := zpow_pos (by norm_num) _

/-- Rounding moves a number by at most half the spacing around it. -/
theorem abs_single_sub_le_spacing (x : ℚ) : |single x - x| ≤ singleSpacing x / 2 := by
  have hpos := singleSpacing_pos x
  have hnear := abs_nearestEven_sub_le (x / singleSpacing x)
  have hscaled : single x - x =
      ((nearestEven (x / singleSpacing x) : ℚ) - x / singleSpacing x) * singleSpacing x := by
    rw [single, sub_mul, div_mul_cancel₀ x hpos.ne']
  calc |single x - x|
      = |(nearestEven (x / singleSpacing x) : ℚ) - x / singleSpacing x| * singleSpacing x := by
        rw [hscaled, abs_mul, abs_of_pos hpos]
    _ ≤ 1 / 2 * singleSpacing x := mul_le_mul_of_nonneg_right hnear hpos.le
    _ = singleSpacing x / 2 := by ring

@[simp] theorem single_zero : single 0 = 0 := by decide +kernel

/-- Rounding moves a number by at most a unit in the 24th binary place, or by half the smallest
positive single-precision number. -/
theorem abs_single_sub_le (x : ℚ) : |single x - x| ≤ |x| / 2 ^ 24 + 1 / 2 ^ 150 := by
  by_cases hzero : x = 0
  · subst hzero
    norm_num
  refine (abs_single_sub_le_spacing x).trans ?_
  have hsize : (0 : ℚ) ≤ |x| / 2 ^ 24 := by positivity
  rcases le_total (Int.log 2 |x|) (-126) with hsmall | hlarge
  · have hspacing : singleSpacing x / 2 = 1 / 2 ^ 150 := by
      rw [singleSpacing, max_eq_right hsmall]
      norm_num
    linarith
  · have hspacing : singleSpacing x / 2 = (2 : ℚ) ^ Int.log 2 |x| / 2 ^ 24 := by
      rw [singleSpacing, max_eq_left hlarge, zpow_sub₀ (by norm_num)]
      ring
    have hlog : (2 : ℚ) ^ Int.log 2 |x| ≤ |x| := by
      exact_mod_cast Int.zpow_log_le_self (b := 2) (by norm_num) (abs_pos.mpr hzero)
    linarith

end TradingSim.Shm
