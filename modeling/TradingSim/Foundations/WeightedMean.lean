import Mathlib.Algebra.BigOperators.Group.List.Lemmas
import Mathlib.Algebra.Order.BigOperators.Group.List
import Mathlib.Algebra.Order.Field.Basic
import Mathlib.Tactic.FieldSimp
import Mathlib.Tactic.LinearCombination
import Mathlib.Tactic.Positivity
import Mathlib.Tactic.Ring
import TradingSim.Foundations.FieldNumerals

/-!
# Weighted means and variances

The mean and the variance of weighted values in two passes: first the mean, then the squared deviations
from it. Adding one value to a list moves the mean; the squared deviations grow by the product of the
weight and the deviations of the value from the two means.
-/

namespace Foundations

/-- A value and its weight. -/
structure Weighted (F : Type*) where
  weight : F
  value : F

namespace Weighted

variable {F : Type*} [Field F]

def total (xs : List (Weighted F)) : F := (xs.map weight).sum

/-- The sum of the weighted values. -/
def moment (xs : List (Weighted F)) : F := (xs.map fun x => x.value * x.weight).sum

/-- The weighted mean, zero if the weights add up to zero. -/
def mean (xs : List (Weighted F)) : F := moment xs / total xs

/-- The weighted squared deviations from a centre. -/
def deviations (centre : F) (xs : List (Weighted F)) : F :=
  (xs.map fun x => x.weight * (x.value - centre) ^ 2).sum

/-- The weighted population variance, zero if the weights add up to zero. -/
def variance (xs : List (Weighted F)) : F := deviations (mean xs) xs / total xs

@[simp] theorem total_append (xs : List (Weighted F)) (x : Weighted F) :
    total (xs ++ [x]) = total xs + x.weight := by
  simp [total]

@[simp] theorem moment_append (xs : List (Weighted F)) (x : Weighted F) :
    moment (xs ++ [x]) = moment xs + x.value * x.weight := by
  simp [moment]

@[simp] theorem deviations_append (centre : F) (xs : List (Weighted F)) (x : Weighted F) :
    deviations centre (xs ++ [x]) = deviations centre xs + x.weight * (x.value - centre) ^ 2 := by
  simp [deviations]

/-- The squared deviations from any centre, by the first two moments. -/
theorem deviations_eq (centre : F) (xs : List (Weighted F)) : deviations centre xs =
      (xs.map fun x => x.weight * x.value ^ 2).sum - 2 * centre * moment xs + centre ^ 2 * total xs := by
  induction xs with
  | nil => simp [deviations, moment, total]
  | cons x rest ih =>
    simp only [deviations, moment, total, List.map_cons, List.sum_cons] at ih ⊢
    rw [ih]
    ring

/-- Around another centre the squared deviations are larger by the weight of the distance. -/
theorem deviations_shift {xs : List (Weighted F)} (htotal : total xs ≠ 0) (centre : F) :
    deviations centre xs = deviations (mean xs) xs + total xs * (mean xs - centre) ^ 2 := by
  have hmean : mean xs * total xs = moment xs := div_mul_cancel₀ _ htotal
  rw [deviations_eq, deviations_eq (mean xs), ← hmean]
  ring

theorem deviations_mean_append {xs : List (Weighted F)} {x : Weighted F} (htotal : total xs ≠ 0)
    (htotal' : total xs + x.weight ≠ 0) : deviations (mean (xs ++ [x])) (xs ++ [x]) =
      deviations (mean xs) xs + x.weight * (x.value - mean xs) * (x.value - mean (xs ++ [x])) := by
  have hold : mean xs * total xs = moment xs := div_mul_cancel₀ _ htotal
  have hnew : mean (xs ++ [x]) * (total xs + x.weight) = moment xs + x.value * x.weight := by
    rw [mean, total_append, moment_append]
    exact div_mul_cancel₀ _ htotal'
  -- the mean moves in proportion to the weight of the new value
  have hmove : total xs * (mean (xs ++ [x]) - mean xs) = x.weight * (x.value - mean (xs ++ [x])) := by
    linear_combination hnew - hold
  rw [deviations_append, deviations_shift htotal]
  linear_combination (mean (xs ++ [x]) - mean xs) * hmove

section Ordered

variable [LinearOrder F] [IsStrictOrderedRing F] {xs : List (Weighted F)}

theorem total_nonneg (hxs : ∀ x ∈ xs, 0 ≤ x.weight) : 0 ≤ total xs :=
  List.sum_nonneg fun w hw => by
    obtain ⟨x, hx, rfl⟩ := List.mem_map.mp hw
    exact hxs x hx

theorem deviations_nonneg (hxs : ∀ x ∈ xs, 0 ≤ x.weight) (centre : F) : 0 ≤ deviations centre xs :=
  List.sum_nonneg fun d hd => by
    obtain ⟨x, hx, rfl⟩ := List.mem_map.mp hd
    exact mul_nonneg (hxs x hx) (sq_nonneg _)

theorem variance_nonneg (hxs : ∀ x ∈ xs, 0 ≤ x.weight) : 0 ≤ variance xs :=
  div_nonneg (deviations_nonneg hxs _) (total_nonneg hxs)

end Ordered

end Weighted

end Foundations
