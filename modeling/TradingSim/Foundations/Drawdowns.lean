import Mathlib.Algebra.Order.Field.Basic
import Mathlib.Data.Set.Finite.Lemmas
import Mathlib.Order.Bounds.Basic
import Mathlib.Tactic.Linarith

/-!
# Drawdowns

The drawdown of a curve is its greatest decline from the highest value so far. A peak and a worst decline
that are raised with every value keep it.
-/

namespace Foundations

variable {K : Type*} [Field K] [LinearOrder K] {scale peak worst x : K} {curve : List K}

/-- How far a value is below another, on a scale of that one. -/
def decline (scale peak x : K) : K := (peak - x) / peak * scale

/-- The declines of a curve from its highest value so far. -/
def peakDeclines (scale : K) (curve : List K) : Set K :=
  {d | ∃ j peak x, curve[j]? = some x ∧ IsGreatest {y | y ∈ curve.take (j + 1)} peak ∧ 0 < peak ∧
    d = decline scale peak x}

/-- The declines of a curve from a value to a later one. -/
def pairDeclines (scale : K) (curve : List K) : Set K :=
  {d | ∃ (i j : ℕ) (x y : K), i ≤ j ∧ curve[i]? = some x ∧ curve[j]? = some y ∧ 0 < x ∧ d = decline scale x y}

/-- A peak and a worst decline have been kept with a curve. -/
structure KeepsDrawdown (scale : K) (curve : List K) (peak worst : K) : Prop where
  peak : IsGreatest {x | x ∈ curve} peak
  worst : IsGreatest (insert 0 (peakDeclines scale curve)) worst

theorem peakDeclines_concat (hpeak : IsGreatest {y | y ∈ curve ++ [x]} peak) :
    peakDeclines scale (curve ++ [x]) =
      {d | d ∈ peakDeclines scale curve ∨ 0 < peak ∧ d = decline scale peak x} := by
  have hbefore (j : ℕ) (hj : j < curve.length) :
      (curve ++ [x])[j]? = curve[j]? ∧ (curve ++ [x]).take (j + 1) = curve.take (j + 1) :=
    ⟨List.getElem?_append_left hj, List.take_append_of_le_length hj⟩
  have hlast : (curve ++ [x])[curve.length]? = some x ∧
      (curve ++ [x]).take (curve.length + 1) = curve ++ [x] := by
    constructor
    · simp
    · exact List.take_of_length_le (by simp)
  ext d
  constructor
  · rintro ⟨j, top, y, hy, htop, hpos, rfl⟩
    have hj : j < curve.length + 1 := by simpa using (List.getElem?_eq_some_iff.mp hy).1
    obtain hj | rfl := Nat.lt_succ_iff_lt_or_eq.mp hj
    · rw [(hbefore j hj).1] at hy
      rw [(hbefore j hj).2] at htop
      exact Or.inl ⟨j, top, y, hy, htop, hpos, rfl⟩
    · rw [hlast.1] at hy
      rw [hlast.2] at htop
      rw [htop.unique hpeak] at hpos ⊢
      cases hy
      exact Or.inr ⟨hpos, rfl⟩
  · rintro (⟨j, top, y, hy, htop, hpos, rfl⟩ | ⟨hpos, rfl⟩)
    · have hj : j < curve.length := (List.getElem?_eq_some_iff.mp hy).1
      rw [← (hbefore j hj).1] at hy
      rw [← (hbefore j hj).2] at htop
      exact ⟨j, top, y, hy, htop, hpos, rfl⟩
    · rw [← hlast.2] at hpeak
      exact ⟨curve.length, peak, x, hlast.1, hpeak, hpos, rfl⟩

namespace KeepsDrawdown

/-- A curve of one value has not declined. -/
theorem singleton (x : K) : KeepsDrawdown scale [x] x 0 where
  peak := by simp [IsGreatest, upperBounds]
  worst := by
    refine ⟨Set.mem_insert 0 _, ?_⟩
    rintro d (rfl | ⟨j, peak, y, hy, hpeak, -, rfl⟩)
    · exact le_rfl
    · have hy' : y ∈ [x] := List.mem_of_getElem? hy
      have hpeak' : peak ∈ [x] := List.mem_of_mem_take hpeak.1
      rw [List.mem_singleton.mp hy', List.mem_singleton.mp hpeak', decline, sub_self, zero_div, zero_mul]

/-- Raising the peak and the worst decline with one more value keeps them. -/
theorem concat (h : KeepsDrawdown scale curve peak worst) (x : K) :
    KeepsDrawdown scale (curve ++ [x]) (max peak x)
      (max worst (if 0 < max peak x then decline scale (max peak x) x else 0)) := by
  have hpeak : IsGreatest {y | y ∈ curve ++ [x]} (max peak x) := by
    have hinsert : {y | y ∈ curve ++ [x]} = insert x {y | y ∈ curve} := by
      ext y
      simp [or_comm]
    rw [hinsert, max_comm]
    exact h.peak.insert x
  refine ⟨hpeak, ?_⟩
  rw [peakDeclines_concat hpeak]
  split_ifs with hpos
  · have hinsert : insert 0 {d | d ∈ peakDeclines scale curve ∨
        0 < max peak x ∧ d = decline scale (max peak x) x} =
        insert (decline scale (max peak x) x) (insert 0 (peakDeclines scale curve)) := by
      ext d
      simp only [Set.mem_insert_iff, Set.mem_ofPred_eq, hpos, true_and]
      tauto
    rw [hinsert, max_comm worst]
    exact h.worst.insert _
  · have hworst : 0 ≤ worst := h.worst.2 (Set.mem_insert 0 _)
    simpa [hpos, max_eq_left hworst] using h.worst

end KeepsDrawdown

theorem decline_le_decline [IsStrictOrderedRing K] {y : K} (hscale : 0 ≤ scale) (hx : 0 < x)
    (hle : x ≤ peak) (hy : 0 ≤ y) : decline scale x y ≤ decline scale peak y := by
  have hpeak : 0 < peak := hx.trans_le hle
  have hquotient : y / peak ≤ y / x := div_le_div_of_nonneg_left hy hx hle
  have hsplit (z : K) (hz : 0 < z) : (z - y) / z = 1 - y / z := by rw [sub_div, div_self hz.ne']
  rw [decline, decline, hsplit x hx, hsplit peak hpeak]
  exact mul_le_mul_of_nonneg_right (sub_le_sub_left hquotient 1) hscale

omit [Field K] in
theorem exists_isGreatest_mem (hx : x ∈ curve) : ∃ peak, IsGreatest {y | y ∈ curve} peak := by
  obtain ⟨peak, hpeak, hmax⟩ := Set.exists_max_image {y | y ∈ curve} id (List.finite_toSet curve) ⟨x, hx⟩
  exact ⟨peak, hpeak, hmax⟩

/-- On a curve without negative values, the greatest decline from the highest value so far is the greatest
decline from any value to a later one. -/
theorem isGreatest_pairDeclines [IsStrictOrderedRing K] (hscale : 0 ≤ scale) (hcurve : ∀ x ∈ curve, 0 ≤ x)
    (h : IsGreatest (insert 0 (peakDeclines scale curve)) worst) :
    IsGreatest (insert 0 (pairDeclines scale curve)) worst := by
  constructor
  · obtain hzero | ⟨j, peak, x, hx, hpeak, hpos, hworst⟩ := h.1
    · exact Or.inl hzero
    · obtain ⟨i, hi⟩ := List.mem_iff_getElem?.mp hpeak.1
      have hij : i < j + 1 := (List.length_take_le _ _).trans_lt' (List.getElem?_eq_some_iff.mp hi).1
      rw [List.getElem?_take_of_lt hij] at hi
      exact Or.inr ⟨i, j, peak, x, Nat.le_of_lt_succ hij, hi, hx, hpos, hworst⟩
  · rintro d (rfl | ⟨i, j, x, y, hij, hx, hy, hpos, rfl⟩)
    · exact h.2 (Set.mem_insert 0 _)
    · -- The decline from the highest value up to the later one is at least as great.
      have hmem : x ∈ curve.take (j + 1) := by
        rw [← List.getElem?_take_of_lt (Nat.lt_succ_of_le hij)] at hx
        exact List.mem_of_getElem? hx
      obtain ⟨peak, hpeak⟩ := exists_isGreatest_mem hmem
      have hle : x ≤ peak := hpeak.2 hmem
      have hdecline := h.2 (Or.inr ⟨j, peak, y, hy, hpeak, hpos.trans_le hle, rfl⟩)
      exact (decline_le_decline hscale hpos hle (hcurve y (List.mem_of_getElem? hy))).trans hdecline

end Foundations
