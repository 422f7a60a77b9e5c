import Mathlib.Order.Monotone.Basic
import Mathlib.Tactic.Linarith
import Mathlib.Tactic.Positivity
import TradingSim.Exchange.Numerics

/-!
# Rounding to decimals

Rounding to the nearest multiple of a power of ten keeps the order, leaves the multiples alone and
moves nothing by more than one half. A price tick that gets finer below one dollar keeps the order,
too: one dollar lies on both grids.
-/

namespace TradingSim.Exchange

/-- The nearest integer is the floor or the one above, whichever is not farther than one half. -/
theorem nearestEven_cases (x : ℚ) :
    (nearestEven x = ⌊x⌋ ∧ x - ⌊x⌋ ≤ 1 / 2) ∨ (nearestEven x = ⌊x⌋ + 1 ∧ 1 / 2 ≤ x - ⌊x⌋) := by
  unfold nearestEven
  grind

theorem nearestEven_intCast (k : ℤ) : nearestEven (k : ℚ) = k := by
  have hfloor : ⌊(k : ℚ)⌋ = k := Int.floor_intCast k
  simp only [nearestEven, hfloor, sub_self]
  norm_num

theorem abs_nearestEven_sub_le (x : ℚ) : |(nearestEven x : ℚ) - x| ≤ 1 / 2 := by
  have hlow := Int.floor_le x
  have hhigh := Int.lt_floor_add_one x
  rw [abs_le]
  rcases nearestEven_cases x with ⟨hnear, hhalf⟩ | ⟨hnear, hhalf⟩
  · rw [hnear]
    constructor <;> linarith
  · rw [hnear]
    push_cast
    constructor <;> linarith

theorem nearestEven_mono {x y : ℚ} (hxy : x ≤ y) : nearestEven x ≤ nearestEven y := by
  rcases (Int.floor_mono hxy).lt_or_eq with hfloor | hfloor
  · -- the integer above the smaller floor is not above the larger one
    rcases nearestEven_cases x with ⟨hx, -⟩ | ⟨hx, -⟩ <;>
      rcases nearestEven_cases y with ⟨hy, -⟩ | ⟨hy, -⟩ <;> omega
  · unfold nearestEven
    have hfract : x - ⌊y⌋ ≤ y - ⌊y⌋ := sub_le_sub_right hxy _
    grind

theorem nearestEven_sign (x : ℚ) : (x < 0 → nearestEven x ≤ 0) ∧ (0 ≤ x → 0 ≤ nearestEven x) := by
  have hzero : nearestEven 0 = 0 := nearestEven_intCast 0
  constructor
  · intro hx
    exact (nearestEven_mono hx.le).trans_eq hzero
  · intro hx
    exact hzero.symm.trans_le (nearestEven_mono hx)

theorem roundHalfEven_mono (n : ℕ) : Monotone fun x => roundHalfEven x n := by
  intro x y hxy
  have hpow : (0 : ℚ) < 10 ^ n := by positivity
  have hnear : (nearestEven (x * 10 ^ n) : ℚ) ≤ nearestEven (y * 10 ^ n) :=
    Int.cast_le.mpr (nearestEven_mono (mul_le_mul_of_nonneg_right hxy hpow.le))
  exact div_le_div_of_nonneg_right hnear hpow.le

theorem roundHalfEven_grid (k : ℤ) (n : ℕ) : roundHalfEven (k / 10 ^ n) n = k / 10 ^ n := by
  have hpow : (10 ^ n : ℚ) ≠ 0 := by positivity
  rw [roundHalfEven, div_mul_cancel₀ _ hpow, nearestEven_intCast]

/-- One dollar lies on every grid. -/
theorem roundHalfEven_one (n : ℕ) : roundHalfEven 1 n = 1 := by
  have hgrid := roundHalfEven_grid (10 ^ n) n
  have hpow : (10 ^ n : ℚ) ≠ 0 := by positivity
  push_cast at hgrid
  rwa [div_self hpow] at hgrid

/-- The price tick keeps the order, also across one dollar, where the grid changes. -/
theorem roundPriceWith_mono : Monotone (roundPriceWith roundHalfEven) := by
  intro x y hxy
  unfold roundPriceWith
  by_cases hx : 1 ≤ x
  · rw [if_pos hx, if_pos (hx.trans hxy)]
    exact roundHalfEven_mono 2 hxy
  · rw [if_neg hx]
    by_cases hy : 1 ≤ y
    · rw [if_pos hy]
      calc roundHalfEven x 8 ≤ roundHalfEven 1 8 := roundHalfEven_mono 8 (not_le.mp hx).le
        _ = roundHalfEven 1 2 := by rw [roundHalfEven_one, roundHalfEven_one]
        _ ≤ roundHalfEven y 2 := roundHalfEven_mono 2 hy
    · rw [if_neg hy]
      exact roundHalfEven_mono 8 hxy

/-- Only more than one half is rounded to a positive integer. -/
theorem nearestEven_pos_iff (x : ℚ) : 0 < nearestEven x ↔ 1 / 2 < x := by
  constructor
  · intro hpos
    by_contra hle
    have hhalf : nearestEven (1 / 2) = 0 := by decide +kernel
    have hmono := nearestEven_mono (not_lt.mp hle)
    rw [hhalf] at hmono
    exact absurd hpos (not_lt.mpr hmono)
  · intro hx
    have hnear := (abs_le.mp (abs_nearestEven_sub_le x)).1
    have hpos : (0 : ℚ) < nearestEven x := by linarith
    exact_mod_cast hpos

theorem roundPriceWith_pos_iff (price : ℚ) :
    0 < roundPriceWith roundHalfEven price ↔ 1 / (2 * 10 ^ 8) < price := by
  unfold roundPriceWith
  by_cases hone : 1 ≤ price
  · rw [if_pos hone]
    have hround : 1 ≤ roundHalfEven price 2 := by
      calc (1 : ℚ) = roundHalfEven 1 2 := (roundHalfEven_one 2).symm
        _ ≤ roundHalfEven price 2 := roundHalfEven_mono 2 hone
    have hpos : 0 < roundHalfEven price 2 := lt_of_lt_of_le one_pos hround
    have htick : (1 : ℚ) / (2 * 10 ^ 8) < 1 := by norm_num
    exact iff_of_true hpos (htick.trans_le hone)
  · rw [if_neg hone, roundHalfEven, div_pos_iff_of_pos_right (by positivity), Int.cast_pos,
      nearestEven_pos_iff]
    constructor
    · intro h
      linarith
    · intro h
      linarith

/-- A positive number of the grid stays positive when at least nine tenths of it are rounded. -/
theorem roundHalfEven_scale_pos {x p : ℚ} {n : ℕ} (hx : 0 < roundHalfEven x n) (hp : 9 / 10 ≤ p) :
    0 < roundHalfEven (roundHalfEven x n * p) n := by
  have hpow : (0 : ℚ) < 10 ^ n := by positivity
  have hunits : 1 ≤ nearestEven (x * 10 ^ n) := by
    have hpos : (0 : ℚ) < nearestEven (x * 10 ^ n) := (div_pos_iff_of_pos_right hpow).mp hx
    exact_mod_cast hpos
  have hscaled : 9 / 10 ≤ roundHalfEven x n * p * 10 ^ n := by
    have hcast : (1 : ℚ) ≤ nearestEven (x * 10 ^ n) := by exact_mod_cast hunits
    calc (9 / 10 : ℚ) ≤ nearestEven (x * 10 ^ n) * p := by nlinarith
      _ = roundHalfEven x n * p * 10 ^ n := by
        rw [roundHalfEven]
        field_simp
  have hone : nearestEven (9 / 10) = 1 := by decide +kernel
  have hnear : 1 ≤ nearestEven (roundHalfEven x n * p * 10 ^ n) :=
    hone.symm.trans_le (nearestEven_mono hscaled)
  have hpos : (0 : ℚ) < nearestEven (roundHalfEven x n * p * 10 ^ n) :=
    Int.cast_pos.mpr (Int.lt_of_add_one_le hnear)
  exact div_pos hpos hpow

end TradingSim.Exchange
