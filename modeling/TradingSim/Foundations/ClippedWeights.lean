import Mathlib.Algebra.BigOperators.Field
import Mathlib.Algebra.BigOperators.Ring.Finset
import Mathlib.Algebra.Order.BigOperators.Group.Finset
import Mathlib.Algebra.Order.Field.Basic
import Mathlib.Data.Fintype.BigOperators
import TradingSim.Foundations.FieldNumerals

/-!
# Weights that are clipped and normalised

Weights are brought between two bounds, and then to a sum of one again. The second step can move them out of
the bounds.
-/

namespace Foundations

variable {K ι : Type*}

section Clipped

variable [LinearOrder K] {lo hi : K} {w : ι → K}

/-- The weights, each brought between two bounds. -/
def clipped (lo hi : K) (w : ι → K) : ι → K := fun i => min (max (w i) lo) hi

theorem le_clipped (hle : lo ≤ hi) (i : ι) : lo ≤ clipped lo hi w i := le_min (le_max_right _ _) hle

theorem clipped_le (i : ι) : clipped lo hi w i ≤ hi := min_le_right _ _

theorem lt_clipped {bound : K} (h : ∀ i, bound < w i) (hhi : bound < hi) (i : ι) : bound < clipped lo hi w i :=
  lt_min (lt_max_of_lt_left (h i)) hhi

theorem clipped_eq_hi {i : ι} (h : clipped lo hi w i < w i) : clipped lo hi w i = hi := by
  refine min_eq_right ?_
  by_contra hbelow
  rw [clipped, min_eq_left (not_le.mp hbelow).le] at h
  exact absurd (le_max_left (w i) lo) (not_le.mpr h)

theorem clipped_eq_lo (hle : lo ≤ hi) {i : ι} (h : w i < clipped lo hi w i) : clipped lo hi w i = lo := by
  have hless : w i < max (w i) lo := h.trans_le (min_le_left _ _)
  have hlo : w i ≤ lo := by
    by_contra habove
    rw [max_eq_left (not_le.mp habove).le] at hless
    exact lt_irrefl _ hless
  rw [clipped, max_eq_right hlo, min_eq_left hle]

end Clipped

variable [Field K] [LinearOrder K] [Fintype ι] {lo hi : K} {w v : ι → K}

/-- The weights as shares of their sum, and equal shares if the sum is not positive. -/
def normalised (w : ι → K) : ι → K :=
  if 0 < ∑ i, w i then fun i => w i / ∑ j, w j else fun _ => 1 / (Fintype.card ι : K)

theorem normalised_eq (h : 0 < ∑ i, w i) (i : ι) : normalised w i = w i / ∑ j, w j := by
  rw [normalised, if_pos h]

/-- Positive weights with a sum of one. -/
structure Shares (w : ι → K) : Prop where
  pos (i : ι) : 0 < w i
  sum_eq : ∑ i, w i = 1

variable [IsStrictOrderedRing K]

/-- Positive weights are normalised to shares. -/
theorem shares_normalised [Nonempty ι] (h : ∀ i, 0 < w i) : Shares (normalised w) := by
  have hsum : 0 < ∑ i, w i := Finset.sum_pos (fun i _ => h i) Finset.univ_nonempty
  constructor
  · intro i
    rw [normalised_eq hsum]
    exact div_pos (h i) hsum
  · simp only [normalised_eq hsum]
    rw [← Finset.sum_div, div_self hsum.ne']

/-- Shares are their own shares. -/
theorem normalised_of_sum_eq (h : ∑ i, w i = 1) : normalised w = w := by
  funext i
  rw [normalised_eq (by rw [h]; exact one_pos), h, div_one]

/-- The average of shares is shares. -/
theorem shares_average (hw : Shares w) (hv : Shares v) : Shares fun i => 1 / 2 * w i + 1 / 2 * v i := by
  constructor
  · intro i
    exact add_pos (mul_pos one_half_pos (hw.pos i)) (mul_pos one_half_pos (hv.pos i))
  · rw [Finset.sum_add_distrib, ← Finset.mul_sum, ← Finset.mul_sum, hw.sum_eq, hv.sum_eq, mul_one]
    exact add_halves 1

theorem sum_eq_add_others [DecidableEq ι] (w : ι → K) (i : ι) : ∃ others, ∑ j, w j = w i + others ∧
      (∀ bound, (∀ j, w j ≤ bound) → others ≤ ((Fintype.card ι : K) - 1) * bound) ∧
        ∀ bound, (∀ j, bound ≤ w j) → ((Fintype.card ι : K) - 1) * bound ≤ others := by
  have hcard : ((Finset.univ.erase i).card : K) = (Fintype.card ι : K) - 1 := by
    rw [Finset.card_erase_of_mem (Finset.mem_univ i), Finset.card_univ,
      Nat.cast_sub (Fintype.card_pos_iff.mpr ⟨i⟩), Nat.cast_one]
  refine ⟨∑ j ∈ Finset.univ.erase i, w j, (Finset.add_sum_erase _ _ (Finset.mem_univ i)).symm, ?_, ?_⟩
  · intro bound hbound
    rw [← hcard, ← nsmul_eq_mul]
    exact Finset.sum_le_card_nsmul _ _ _ fun j _ => hbound j
  · intro bound hbound
    rw [← hcard, ← nsmul_eq_mul]
    exact Finset.card_nsmul_le_sum _ _ _ fun j _ => hbound j

/-- Clipped shares keep to the bounds when they are normalised if the bounds leave room. -/
theorem normalised_clipped_bounds (hle : lo ≤ hi) (hpos : 0 < hi) (hw : Shares w)
    (hupper : 1 ≤ hi + ((Fintype.card ι : K) - 1) * max lo 0)
    (hlower : lo ≤ 0 ∨ lo + ((Fintype.card ι : K) - 1) * hi ≤ 1) (i : ι) :
    lo ≤ normalised (clipped lo hi w) i ∧ normalised (clipped lo hi w) i ≤ hi := by
  classical
  have hclipped : ∀ j, 0 < clipped lo hi w j := lt_clipped hw.pos hpos
  have hsum : 0 < ∑ j, clipped lo hi w j := Finset.sum_pos (fun j _ => hclipped j) ⟨i, Finset.mem_univ i⟩
  rw [normalised_eq hsum]
  constructor
  · rcases le_or_gt lo 0 with hneg | hlo
    · exact hneg.trans (div_pos (hclipped i) hsum).le
    have hroom := hlower.resolve_left (not_le.mpr hlo)
    have hatmost : ∑ j, clipped lo hi w j ≤ 1 := by
      -- A sum above one has raised some share to the lower bound.
      by_contra hmore
      have hgrown := not_le.mp hmore
      rw [← hw.sum_eq] at hgrown
      obtain ⟨j, -, hj⟩ := Finset.exists_lt_of_sum_lt hgrown
      obtain ⟨others, hothers, hless, -⟩ := sum_eq_add_others (clipped lo hi w) j
      rw [hothers, clipped_eq_lo hle hj] at hmore
      exact hmore ((add_le_add_right (hless hi clipped_le) lo).trans hroom)
    rw [le_div_iff₀ hsum]
    exact (mul_le_of_le_one_right hlo.le hatmost).trans (le_clipped hle i)
  · have hatleast : 1 ≤ ∑ j, clipped lo hi w j := by
      -- A sum below one has lowered some share to the upper bound.
      by_contra hless
      have hshrunk := not_le.mp hless
      rw [← hw.sum_eq] at hshrunk
      obtain ⟨j, -, hj⟩ := Finset.exists_lt_of_sum_lt hshrunk
      obtain ⟨others, hothers, -, hmore⟩ := sum_eq_add_others (clipped lo hi w) j
      rw [hothers, clipped_eq_hi hj] at hless
      have hleast := hmore (max lo 0) fun k => max_le (le_clipped hle k) (hclipped k).le
      exact hless (hupper.trans (add_le_add_right hleast hi))
    rw [div_le_iff₀ hsum]
    exact (clipped_le i).trans (le_mul_of_one_le_right hpos.le hatleast)

end Foundations
