import Mathlib.Data.Int.Basic
import Mathlib.Order.Basic
import Mathlib.Tactic.NormNum

/-!
# Machine integers

Integers of a fixed width as the numbers that they stand for. An operation that leaves the width wraps
around.
-/

namespace Foundations

/-- The value of a number as a signed integer of 32 bits. -/
def wrap32 (n : ℤ) : ℤ := n.bmod (2 ^ 32)

/-- The value of a number as an unsigned integer of 64 bits. -/
def wrapSize (n : ℤ) : ℕ := (n % 2 ^ 64).toNat

theorem wrap32_lt (n : ℤ) : wrap32 n < 2 ^ 31 := by
  have hlt := Int.bmod_lt (x := n) (m := 2 ^ 32) (by norm_num)
  unfold wrap32
  omega

theorem le_wrap32 (n : ℤ) : -2 ^ 31 ≤ wrap32 n := by
  have hle := Int.le_bmod (x := n) (m := 2 ^ 32) (by norm_num)
  unfold wrap32
  omega

theorem wrap32_of_lt {n : ℤ} (hn : 0 ≤ n) (hlt : n < 2 ^ 31) : wrap32 n = n := by
  unfold wrap32
  rw [Int.bmod_def]
  split_ifs
  · omega
  · omega

/-- A counter that is not negative after an addition has not wrapped. -/
theorem wrap32_succ {n : ℤ} (h : 0 ≤ wrap32 (n + 1)) (hn : 0 ≤ n) (hlt : n < 2 ^ 31) :
    wrap32 (n + 1) = n + 1 := by
  unfold wrap32 at h ⊢
  rw [Int.bmod_def] at h ⊢
  split_ifs at h ⊢
  · omega
  · omega

/-- A number that is not negative does not grow. -/
theorem wrap32_le {n : ℤ} (hn : 0 ≤ n) : wrap32 n ≤ n := by
  unfold wrap32
  rw [Int.bmod_def]
  split_ifs
  · omega
  · omega

theorem wrapSize_of_lt {n : ℤ} (hn : 0 ≤ n) (hlt : n < 2 ^ 64) : wrapSize n = n := by
  rw [wrapSize, Int.emod_eq_of_lt hn hlt, Int.toNat_of_nonneg hn]

/-- A negative number becomes a great one. -/
theorem le_wrapSize {n : ℤ} (hn : n < 0) (hlow : -2 ^ 63 ≤ n) : 2 ^ 63 ≤ wrapSize n := by
  unfold wrapSize
  omega

end Foundations
