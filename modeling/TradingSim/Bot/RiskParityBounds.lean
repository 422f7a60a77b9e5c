import Mathlib.Algebra.Order.Archimedean.Basic
import Mathlib.Algebra.Order.Star.Real
import Mathlib.Data.Fin.VecNotation
import Mathlib.Tactic.FieldSimp
import TradingSim.Bot.RiskParity

/-!
# When risk-parity weights keep to their bounds

One asset among others without correlation shows what the bounds must leave room for. If its variance is
small its weight grows with every turn, past an upper bound that does not hold up the sum; if its variance is
large its weight shrinks, past a lower bound that does not hold it down.
-/

namespace TradingSim.Bot.RiskParity

open Foundations Matrix

/-! ### One asset among others -/

section Tilted

variable {k : ℕ} {lo hi x sigma : ℝ}

/-- One value for the first asset and one for all others. -/
def pair (k : ℕ) (first other : ℝ) : Fin (k + 1) → ℝ := Fin.cons first fun _ => other

@[simp] theorem pair_zero (first other : ℝ) : pair k first other 0 = first := rfl

@[simp] theorem pair_succ (first other : ℝ) (j : Fin k) : pair k first other j.succ = other := rfl

theorem eq_pair {w : Fin (k + 1) → ℝ} {first other : ℝ} (hfirst : w 0 = first)
    (hother : ∀ j : Fin k, w j.succ = other) : w = pair k first other := by
  funext i
  refine Fin.cases hfirst (fun j => ?_) i
  rw [hother, pair_succ]

theorem sum_pair (first other : ℝ) : ∑ i, pair k first other i = first + k * other := by
  rw [Fin.sum_univ_succ, pair_zero]
  simp only [pair_succ, Finset.sum_const, Finset.card_univ, Fintype.card_fin, nsmul_eq_mul]

/-- A weight for the first asset, and the rest for the others. -/
noncomputable def tilted (k : ℕ) (x : ℝ) : Fin (k + 1) → ℝ := pair k x ((1 - x) / k)

/-- A variance for the first asset, and one for each of the others. -/
noncomputable def tiltedCov (k : ℕ) (sigma : ℝ) : Matrix (Fin (k + 1)) (Fin (k + 1)) ℝ :=
  Matrix.diagonal (pair k sigma 1)

theorem covariance_tilted (hsigma : 0 < sigma) : Covariance (tiltedCov k sigma) := by
  have hdiag : ∀ i, 0 < pair k sigma 1 i := Fin.cases hsigma fun _ => one_pos
  refine ⟨Matrix.PosDef.diagonal hdiag, fun i j => ?_⟩
  rw [tiltedCov, Matrix.diagonal_apply]
  split_ifs
  · exact (hdiag i).le
  · exact le_rfl

theorem shares_tilted (hk : 0 < k) (hpos : 0 < x) (hlt : x < 1) : Shares (tilted k x) := by
  have hk' : (0 : ℝ) < k := by exact_mod_cast hk
  constructor
  · exact Fin.cases hpos fun _ => div_pos (sub_pos.mpr hlt) hk'
  · rw [tilted, sum_pair, mul_div_cancel₀ _ hk'.ne', add_sub_cancel]

theorem equal_eq_tilted (hk : 0 < k) : equal (k + 1) = tilted k (1 / (k + 1)) := by
  refine eq_pair ?_ fun j => ?_
  · rw [equal]
    push_cast
    rfl
  · rw [equal]
    push_cast
    field_simp
    ring

/-- The variance of tilted weights. -/
noncomputable def tiltedVariance (k : ℕ) (sigma x : ℝ) : ℝ := sigma * x ^ 2 + (1 - x) ^ 2 / k

/-- The share of the variance that the first asset has, and that of each of the others. -/
noncomputable def firstShare (k : ℕ) (sigma x : ℝ) : ℝ := sigma * x ^ 2 / tiltedVariance k sigma x

noncomputable def otherShare (k : ℕ) (sigma x : ℝ) : ℝ := ((1 - x) / k) ^ 2 / tiltedVariance k sigma x

theorem varianceShare_tilted (hk : 0 < k) :
    varianceShare (tiltedCov k sigma) (tilted k x) = pair k (firstShare k sigma x) (otherShare k sigma x) := by
  have hproduct (i : Fin (k + 1)) : (tiltedCov k sigma *ᵥ tilted k x) i = pair k sigma 1 i * tilted k x i :=
    Matrix.mulVec_diagonal _ _ _
  have hvariance : variance (tiltedCov k sigma) (tilted k x) = tiltedVariance k sigma x := by
    simp only [variance, dotProduct, hproduct]
    rw [Fin.sum_univ_succ]
    simp only [tilted, pair_zero, pair_succ, Finset.sum_const, Finset.card_univ, Fintype.card_fin,
      nsmul_eq_mul, tiltedVariance]
    field_simp
  refine eq_pair ?_ fun j => ?_
  · rw [varianceShare, hproduct, hvariance, firstShare, tilted, pair_zero, pair_zero]
    ring
  · rw [varianceShare, hproduct, hvariance, otherShare, tilted, pair_succ, pair_succ]
    ring

theorem normalised_pair (hk : 0 < k) {first other : ℝ} (hpos : 0 < first + k * other) :
    normalised (pair k first other) = tilted k (first / (first + k * other)) := by
  have hk' : (0 : ℝ) < k := by exact_mod_cast hk
  have hsum : 0 < ∑ i, pair k first other i := by rwa [sum_pair]
  refine eq_pair ?_ fun j => ?_
  · rw [normalised_eq hsum, sum_pair, pair_zero]
  · rw [normalised_eq hsum, sum_pair, pair_succ]
    rw [eq_div_iff hk'.ne', eq_sub_iff_add_eq, div_mul_eq_mul_div, ← add_div, div_eq_one_iff_eq hpos.ne']
    ring

/-- The first weight after it is rebalanced. -/
noncomputable def rebalancedFirst (k : ℕ) (sigma x : ℝ) : ℝ :=
  x / safe (firstShare k sigma x) / (x / safe (firstShare k sigma x) + (1 - x) / safe (otherShare k sigma x))

theorem tiltedVariance_pos (hsigma : 0 < sigma) (hpos : 0 < x) : 0 < tiltedVariance k sigma x :=
  add_pos_of_pos_of_nonneg (mul_pos hsigma (pow_pos hpos 2)) (div_nonneg (sq_nonneg _) (Nat.cast_nonneg k))

theorem firstShare_pos (hsigma : 0 < sigma) (hpos : 0 < x) : 0 < firstShare k sigma x :=
  div_pos (mul_pos hsigma (pow_pos hpos 2)) (tiltedVariance_pos hsigma hpos)

theorem otherShare_pos (hk : 0 < k) (hsigma : 0 < sigma) (hpos : 0 < x) (hlt : x < 1) :
    0 < otherShare k sigma x :=
  div_pos (pow_pos (div_pos (sub_pos.mpr hlt) (by exact_mod_cast hk)) 2) (tiltedVariance_pos hsigma hpos)

theorem rebalanced_tilted (hk : 0 < k) (hsigma : 0 < sigma) (hpos : 0 < x) (hlt : x < 1) :
    rebalanced (tiltedCov k sigma) (tilted k x) = tilted k (rebalancedFirst k sigma x) := by
  have hcov := covariance_tilted (k := k) hsigma
  have hw := shares_tilted hk hpos hlt
  have hsafe := safe_pos (firstShare_pos (k := k) hsigma hpos)
  have hsafe' := safe_pos (otherShare_pos hk hsigma hpos hlt)
  have hscaled : (fun i => tilted k x i * (equal (k + 1) i / safe (riskShares (tiltedCov k sigma) (tilted k x) i))) =
      pair k (1 / ((k + 1 : ℕ) : ℝ) * (x / safe (firstShare k sigma x)))
        (1 / ((k + 1 : ℕ) : ℝ) * ((1 - x) / k / safe (otherShare k sigma x))) := by
    refine eq_pair ?_ fun j => ?_
    · rw [riskShares_eq hcov hw, varianceShare_tilted hk, tilted, equal, pair_zero, pair_zero]
      ring
    · rw [riskShares_eq hcov hw, varianceShare_tilted hk, tilted, equal, pair_succ, pair_succ]
      ring
  have hn : (0 : ℝ) < 1 / ((k + 1 : ℕ) : ℝ) := by positivity
  have htotal : 1 / ((k + 1 : ℕ) : ℝ) * (x / safe (firstShare k sigma x)) +
      k * (1 / ((k + 1 : ℕ) : ℝ) * ((1 - x) / k / safe (otherShare k sigma x))) =
      1 / ((k + 1 : ℕ) : ℝ) * (x / safe (firstShare k sigma x) + (1 - x) / safe (otherShare k sigma x)) := by
    field_simp
  rw [rebalanced, hscaled, normalised_pair hk (by rw [htotal]; positivity), htotal, rebalancedFirst,
    mul_div_mul_left _ _ hn.ne']

theorem clipped_pair (first other : ℝ) :
    clipped lo hi (pair k first other) = pair k (min (max first lo) hi) (min (max other lo) hi) :=
  eq_pair rfl fun _ => rfl

/-- The first of the weights that half of the way goes to. -/
noncomputable def targetFirst (k : ℕ) (lo hi first : ℝ) : ℝ :=
  min (max first lo) hi / (min (max first lo) hi + k * min (max ((1 - first) / k) lo) hi)

/-- A turn moves the first weight half of the way to its target. -/
theorem step_tilted (hk : 0 < k) (hsigma : 0 < sigma) (hpos : 0 < x) (hlt : x < 1) (hhi : 0 < hi) :
    step (tiltedCov k sigma) lo hi (tilted k x) =
      tilted k (1 / 2 * x + 1 / 2 * targetFirst k lo hi (rebalancedFirst k sigma x)) := by
  have hshares := shares_rebalanced (covariance_tilted hsigma) (shares_tilted hk hpos hlt) 0
  rw [rebalanced_tilted hk hsigma hpos hlt] at hshares
  have hclipped : ∀ i, 0 < clipped lo hi _ i := lt_clipped hshares.pos hhi
  have hfirst := hclipped 0
  have hother := hclipped (Fin.succ ⟨0, hk⟩)
  rw [step, rebalanced_tilted hk hsigma hpos hlt, tilted, tilted, clipped_pair, normalised_pair hk (by positivity)]
  refine eq_pair ?_ fun j => ?_
  · rfl
  · rw [pair_succ, tilted, pair_succ, targetFirst]
    ring

/-! ### Where a turn leads -/

section Targets

variable {u gain gap : ℝ}

/-- A weight that is to grow does so up to the upper bound, and past it if the other weights do not hold up
the sum. -/
theorem le_targetFirst (hk : 0 < k) (hpos : 0 < x) (hle : lo ≤ x) (hxhi : x ≤ hi) (hhi1 : hi ≤ 1)
    (hu : x + gain ≤ u) (hu1 : u < 1) (hgain : 0 < gain) (hgap : 0 < gap)
    (hroom : hi + k * max lo 0 + gap ≤ 1) : x + hi * min gain gap ≤ targetFirst k lo hi u := by
  have hk' : (0 : ℝ) < k := by exact_mod_cast hk
  have hhi : 0 < hi := hpos.trans_le hxhi
  have hmin : 0 < min gain gap := lt_min hgain hgap
  have hraised : max u lo = u := max_eq_left (by linarith)
  rw [targetFirst, hraised]
  set others := k * min (max ((1 - u) / k) lo) hi with hdef
  have hothers : 0 < others :=
    mul_pos hk' (lt_min (lt_max_of_lt_left (div_pos (sub_pos.mpr hu1) hk')) hhi)
  -- The others together are at most what the first one leaves, or what the lower bound gives them.
  have hmost : others ≤ max (1 - u) (k * max lo 0) := by
    have hscaled : k * ((1 - u) / k) = 1 - u := mul_div_cancel₀ _ hk'.ne'
    calc others ≤ k * max ((1 - u) / k) (max lo 0) :=
          mul_le_mul_of_nonneg_left ((min_le_left _ _).trans (max_le_max le_rfl (le_max_left _ _))) hk'.le
      _ = max (1 - u) (k * max lo 0) := by rw [mul_max_of_nonneg _ _ hk'.le, hscaled]
  have hshort : hi * min gain gap ≤ min gain gap := mul_le_of_le_one_left hmin.le hhi1
  rcases le_or_gt u hi with hinside | hbeyond
  · have hsum : u + others ≤ 1 := by
      have hleast : max (1 - u) (k * max lo 0) = 1 - u := max_eq_left (by linarith)
      linarith
    rw [min_eq_left hinside, le_div_iff₀ (by linarith)]
    calc (x + hi * min gain gap) * (u + others) ≤ u * 1 :=
          mul_le_mul (by linarith [min_le_left gain gap]) hsum (by linarith) (by linarith)
      _ = u := mul_one u
  · set excess := min (u - hi) gap with hexcess
    have hexcesspos : 0 < excess := lt_min (sub_pos.mpr hbeyond) hgap
    have hsum : hi + others ≤ 1 - excess := by
      have hcases : max (1 - u) (k * max lo 0) ≤ 1 - hi - excess :=
        max_le (by linarith [min_le_left (u - hi) gap]) (by linarith [min_le_right (u - hi) gap])
      linarith
    have hreach : min gain gap ≤ hi - x + excess := by
      rw [hexcess, ← min_add_add_left]
      exact min_le_min (by linarith) (by linarith)
    have hfirst : x + hi * min gain gap ≤ hi * (1 + excess) := by
      have hscaled := mul_le_mul_of_nonneg_left hreach hhi.le
      have hpart : hi * (hi - x) ≤ hi - x := mul_le_of_le_one_left (sub_nonneg.mpr hxhi) hhi1
      linarith
    rw [min_eq_right hbeyond.le, le_div_iff₀ (by linarith)]
    calc (x + hi * min gain gap) * (hi + others) ≤ hi * (1 + excess) * (1 - excess) :=
          mul_le_mul hfirst hsum (by linarith) (by positivity)
      _ = hi - hi * excess ^ 2 := by ring
      _ ≤ hi := by linarith [mul_pos hhi (pow_pos hexcesspos 2)]

/-- A weight that is to shrink does so down to the lower bound, and past it if the other weights do not hold
down the sum. -/
theorem targetFirst_le (hk : 0 < k) (hlo : 0 < lo) (hlo1 : lo ≤ 1) (hle : lo ≤ x) (hxhi : x ≤ hi)
    (hpos : 0 < u) (hu : u + gain ≤ x) (hother : lo ≤ (1 - u) / k) (hgain : 0 < gain) (hgap : 0 < gap)
    (hroom : 1 + gap ≤ lo + k * hi) : targetFirst k lo hi u ≤ x - lo / 2 * min gain gap := by
  have hk' : (0 : ℝ) < k := by exact_mod_cast hk
  have hmin : 0 < min gain gap := lt_min hgain hgap
  have hlowered : min (max u lo) hi = max u lo := min_eq_left (max_le (by linarith) (hle.trans hxhi))
  have hothers : k * min (max ((1 - u) / k) lo) hi = min (1 - u) (k * hi) := by
    rw [max_eq_left hother, mul_min_of_nonneg _ _ hk'.le, mul_div_cancel₀ _ hk'.ne']
  rw [targetFirst, hlowered, hothers]
  have hshort : lo / 2 * min gain gap ≤ min gain gap := mul_le_of_le_one_left hmin.le (by linarith)
  rcases le_or_gt lo u with hinside | hbeyond
  · rw [max_eq_left hinside, min_eq_left (by linarith), add_sub_cancel, div_one]
    linarith [min_le_left gain gap]
  · set excess := min (lo - u) gap with hexcess
    have hexcesspos : 0 < excess := lt_min (sub_pos.mpr hbeyond) hgap
    have hsum : 1 + excess ≤ lo + min (1 - u) (k * hi) := by
      have hleast : 1 - lo + excess ≤ min (1 - u) (k * hi) :=
        le_min (by linarith [min_le_left (lo - u) gap]) (by linarith [min_le_right (lo - u) gap])
      linarith
    have hreach : min gain gap ≤ x - lo + excess := by
      rw [hexcess, ← min_add_add_left]
      exact min_le_min (by linarith) (by linarith)
    have hexcess1 : excess ≤ 1 := (min_le_left _ _).trans (by linarith)
    rw [max_eq_right hbeyond.le]
    calc lo / (lo + min (1 - u) (k * hi)) ≤ lo / (1 + excess) :=
          div_le_div_of_nonneg_left hlo.le (by linarith) hsum
      _ ≤ lo - lo / 2 * excess := by
          rw [div_le_iff₀ (by linarith)]
          have hsquare : excess * excess ≤ excess := mul_le_of_le_one_left hexcesspos.le hexcess1
          have hscaled := mul_le_mul_of_nonneg_left hsquare hlo.le
          linarith
      _ ≤ x - lo / 2 * min gain gap := by
          have hscaled := mul_le_mul_of_nonneg_left hreach (half_pos hlo).le
          have hpart : lo / 2 * (x - lo) ≤ x - lo :=
            mul_le_of_le_one_left (sub_nonneg.mpr hle) (by linarith)
          linarith

end Targets

/-! ### Small and large variances -/

/-- What a share must have to be divided by. -/
noncomputable def leastShare : ℝ := 1 / 10 ^ 12

theorem leastShare_pos : 0 < leastShare := by
  rw [leastShare]
  positivity

theorem leastShare_le : leastShare ≤ 1 / 10 := by
  rw [leastShare]
  norm_num

theorem safe_of_lt {share : ℝ} (hpos : 0 < share) (h : share < leastShare) : safe share = leastShare :=
  if_pos (by rwa [abs_of_pos hpos])

theorem safe_of_le {share : ℝ} (h : leastShare ≤ share) : safe share = share :=
  if_neg (by rw [abs_of_pos (leastShare_pos.trans_le h)]; exact not_lt.mpr h)

theorem firstShare_add (hk : 0 < k) (hsigma : 0 < sigma) (hpos : 0 < x) :
    firstShare k sigma x + k * otherShare k sigma x = 1 := by
  have hvariance := (tiltedVariance_pos (k := k) hsigma hpos).ne'
  rw [firstShare, otherShare, ← mul_div_assoc, ← add_div, div_eq_one_iff_eq hvariance, tiltedVariance]
  field_simp

/-- A first weight with less risk to it than the others gains. -/
theorem gain_le_quotient {first other bound : ℝ} (hpos : 0 < x) (hlt : x < 1) (hfirst : 0 < first)
    (hbound : first < bound) (hother : bound ≤ other) :
    x + x * (1 - x) * (1 - first / bound) ≤ x / first / (x / first + (1 - x) / other) := by
  have hbound' : 0 < bound := hfirst.trans hbound
  have hrest : 0 < 1 - x := sub_pos.mpr hlt
  have hless : (1 - x) / other ≤ (1 - x) / bound := div_le_div_of_nonneg_left hrest.le hbound' hother
  have hfirst' : 0 < x / first := div_pos hpos hfirst
  have htotal : 0 < x / first + (1 - x) / other := add_pos hfirst' (div_pos hrest (hbound'.trans_le hother))
  have hratio : first / bound < 1 := (div_lt_one hbound').mpr hbound
  have hgain : 0 ≤ x + x * (1 - x) * (1 - first / bound) :=
    (add_pos_of_pos_of_nonneg hpos (mul_nonneg (mul_pos hpos hrest).le (sub_pos.mpr hratio).le)).le
  rw [le_div_iff₀ htotal]
  calc (x + x * (1 - x) * (1 - first / bound)) * (x / first + (1 - x) / other)
      ≤ (x + x * (1 - x) * (1 - first / bound)) * (x / first + (1 - x) / bound) :=
        mul_le_mul_of_nonneg_left (add_le_add_right hless _) hgain
    _ = x / first * (1 - ((1 - x) * (1 - first / bound)) ^ 2) := by
        field_simp
        ring
    _ ≤ x / first := mul_le_of_le_one_right hfirst'.le (by linarith [sq_nonneg ((1 - x) * (1 - first / bound))])

/-- What each of the others has at least, if the first asset has next to no risk. -/
noncomputable def otherBound (k : ℕ) : ℝ := (1 + k * leastShare) / (2 * k)

/-- A variance so small that the first share is next to nothing for all weights up to a bound. -/
noncomputable def smallVariance (k : ℕ) (hi : ℝ) : ℝ :=
  min (leastShare / 2) ((1 - k * leastShare) / 2) * (1 - hi) ^ 2 / k

theorem rebalancedFirst_gains (hk : 0 < k) (hfew : k * leastShare < 1) (hhi1 : hi < 1) (hpos : 0 < x)
    (hxhi : x ≤ hi) : 0 < smallVariance k hi ∧ leastShare < otherBound k ∧
      x + x * (1 - x) * (1 - leastShare / otherBound k) ≤ rebalancedFirst k (smallVariance k hi) x ∧
        rebalancedFirst k (smallVariance k hi) x < 1 := by
  have hk' : (0 : ℝ) < k := by exact_mod_cast hk
  have hleast := leastShare_pos
  set small := min (leastShare / 2) ((1 - k * leastShare) / 2) with hsmalldef
  have hsmall : 0 < small := lt_min (half_pos hleast) (half_pos (sub_pos.mpr hfew))
  have hrest : 0 < 1 - hi := sub_pos.mpr hhi1
  have hsigma : 0 < smallVariance k hi := div_pos (mul_pos hsmall (pow_pos hrest 2)) hk'
  have hlt : x < 1 := hxhi.trans_lt hhi1
  have hbound : leastShare < otherBound k := by
    rw [otherBound, lt_div_iff₀ (by positivity)]
    linarith
  have hfirst : firstShare k (smallVariance k hi) x ≤ small := by
    have hsquares : x ^ 2 * (1 - hi) ^ 2 ≤ (1 - x) ^ 2 := by
      rw [← mul_pow]
      refine pow_le_pow_left₀ (mul_pos hpos hrest).le ?_ 2
      exact (mul_le_of_le_one_left hrest.le hlt.le).trans (by linarith)
    have hscaled : smallVariance k hi * x ^ 2 ≤ small * ((1 - x) ^ 2 / k) := by
      rw [smallVariance, div_mul_eq_mul_div, ← mul_div_assoc, ← hsmalldef, mul_assoc, mul_comm ((1 - hi) ^ 2)]
      exact div_le_div_of_nonneg_right (mul_le_mul_of_nonneg_left hsquares hsmall.le) hk'.le
    rw [firstShare, div_le_iff₀ (tiltedVariance_pos hsigma hpos), tiltedVariance, mul_add]
    have hpart : 0 ≤ small * (smallVariance k hi * x ^ 2) := by positivity
    linarith
  have hother : otherBound k ≤ otherShare k (smallVariance k hi) x := by
    have htotal := firstShare_add hk hsigma hpos
    rw [otherBound, div_le_iff₀ (by positivity)]
    linarith [min_le_right (leastShare / 2) ((1 - k * leastShare) / 2)]
  have hsafe : safe (firstShare k (smallVariance k hi) x) = leastShare :=
    safe_of_lt (firstShare_pos hsigma hpos)
      (hfirst.trans_lt ((min_le_left _ _).trans_lt (half_lt_self hleast)))
  have hsafe' : safe (otherShare k (smallVariance k hi) x) = otherShare k (smallVariance k hi) x :=
    safe_of_le (hbound.le.trans hother)
  refine ⟨hsigma, hbound, ?_, ?_⟩
  · rw [rebalancedFirst, hsafe, hsafe']
    exact gain_le_quotient hpos hlt hleast hbound hother
  · have hremains : 0 < (1 - x) / safe (otherShare k (smallVariance k hi) x) :=
      div_pos (sub_pos.mpr hlt) (safe_pos (otherShare_pos hk hsigma hpos hlt))
    have hstays : 0 < x / safe (firstShare k (smallVariance k hi) x) :=
      div_pos hpos (safe_pos (firstShare_pos hsigma hpos))
    rw [rebalancedFirst, div_lt_one (add_pos hstays hremains)]
    linarith

/-- A variance so large that the other shares are next to nothing for all weights from a bound on. -/
noncomputable def largeVariance (lo : ℝ) : ℝ := 2 / (leastShare * lo ^ 2)

theorem rebalancedFirst_loses (hk : 0 < k) (hlo : 0 < lo) (hle : lo ≤ x) (hhalf : x ≤ 1 / 2) :
    0 < largeVariance lo ∧ 0 < rebalancedFirst k (largeVariance lo) x ∧
      rebalancedFirst k (largeVariance lo) x ≤ x / 2 := by
  have hk' : (0 : ℝ) < k := by exact_mod_cast hk
  have hk1 : (1 : ℝ) ≤ k := by exact_mod_cast hk
  have hleast := leastShare_pos
  have hpos : 0 < x := hlo.trans_le hle
  have hlt : x < 1 := hhalf.trans_lt (by norm_num)
  have hsigma : 0 < largeVariance lo := by
    rw [largeVariance]
    positivity
  have hother : k * otherShare k (largeVariance lo) x ≤ leastShare / 2 := by
    have hvariance : 2 / leastShare ≤ tiltedVariance k (largeVariance lo) x := by
      have hsquare : lo ^ 2 ≤ x ^ 2 := pow_le_pow_left₀ hlo.le hle 2
      have hfirst : 2 / leastShare ≤ largeVariance lo * x ^ 2 := by
        calc 2 / leastShare = largeVariance lo * lo ^ 2 := by
              rw [largeVariance]
              field_simp
          _ ≤ largeVariance lo * x ^ 2 := mul_le_mul_of_nonneg_left hsquare hsigma.le
      exact hfirst.trans (le_add_of_nonneg_right (div_nonneg (sq_nonneg _) hk'.le))
    have hrest : k * ((1 - x) / k) ^ 2 ≤ 1 := by
      have hsquares : (1 - x) ^ 2 ≤ 1 := pow_le_one₀ (sub_nonneg.mpr hlt.le) (by linarith)
      calc k * ((1 - x) / k) ^ 2 = (1 - x) ^ 2 / k := by field_simp
        _ ≤ 1 := (div_le_one hk').mpr (hsquares.trans hk1)
    have htwo : 0 < 2 / leastShare := by positivity
    calc k * otherShare k (largeVariance lo) x
        = k * ((1 - x) / k) ^ 2 / tiltedVariance k (largeVariance lo) x := by rw [otherShare, mul_div_assoc]
      _ ≤ 1 / (2 / leastShare) := div_le_div₀ zero_le_one hrest htwo hvariance
      _ = leastShare / 2 := one_div_div _ _
  have hpositive := otherShare_pos hk hsigma hpos hlt
  have hsafe' : safe (otherShare k (largeVariance lo) x) = leastShare := by
    refine safe_of_lt hpositive ?_
    have heach : otherShare k (largeVariance lo) x ≤ k * otherShare k (largeVariance lo) x :=
      le_mul_of_one_le_left hpositive.le hk1
    linarith
  have hfirst : 1 / 2 ≤ firstShare k (largeVariance lo) x := by
    have htotal := firstShare_add hk hsigma hpos
    have hsmall := leastShare_le
    linarith
  have hfirst' := firstShare_pos (k := k) hsigma hpos
  have hsafe : safe (firstShare k (largeVariance lo) x) = firstShare k (largeVariance lo) x := by
    have hsmall := leastShare_le
    exact safe_of_le (by linarith)
  have hstays : 0 < x / firstShare k (largeVariance lo) x := div_pos hpos hfirst'
  have hremains : 0 < (1 - x) / leastShare := div_pos (sub_pos.mpr hlt) hleast
  refine ⟨hsigma, ?_, ?_⟩
  · rw [rebalancedFirst, hsafe, hsafe']
    exact div_pos hstays (add_pos hstays hremains)
  · rw [rebalancedFirst, hsafe, hsafe', div_le_iff₀ (add_pos hstays hremains)]
    have hless : x / firstShare k (largeVariance lo) x ≤ 2 * x := by
      rw [div_le_iff₀ hfirst']
      have hscaled := mul_le_mul_of_nonneg_left hfirst hpos.le
      linarith
    have hmore : 5 ≤ (1 - x) / leastShare := by
      rw [le_div_iff₀ hleast]
      have hsmall := leastShare_le
      linarith
    have hscaled := mul_le_mul_of_nonneg_left hmore (half_pos hpos).le
    have hpart : 0 < x / 2 * (x / firstShare k (largeVariance lo) x) := mul_pos (half_pos hpos) hstays
    linarith

/-! ### Runs that leave the bounds -/

theorem iterate_turn {n : ℕ} (cov : Matrix (Fin n) (Fin n) ℝ) (turns : ℕ) (w : Fin n → ℝ) :
    iterate cov lo hi 0 (turns + 1) w = iterate cov lo hi 0 turns (step cov lo hi w) :=
  if_neg (Real.sqrt_nonneg _).not_gt

theorem iterate_succ {n : ℕ} (cov : Matrix (Fin n) (Fin n) ℝ) (turns : ℕ) (w : Fin n → ℝ) :
    iterate cov lo hi 0 (turns + 1) w = step cov lo hi (iterate cov lo hi 0 turns w) := by
  induction turns generalizing w with
  | zero => exact iterate_turn cov 0 w
  | succ turns ih => rw [iterate_turn, ih, iterate_turn]

theorem iterate_of_fixed {n : ℕ} {cov : Matrix (Fin n) (Fin n) ℝ} {w : Fin n → ℝ}
    (hfixed : step cov lo hi w = w) (tolerance : ℝ) (turns : ℕ) : iterate cov lo hi tolerance turns w = w := by
  induction turns with
  | zero => rfl
  | succ turns ih =>
    rw [iterate]
    split_ifs
    · rfl
    · rw [hfixed, ih]

/-- A relation between the turns and the first weight that every turn keeps holds after all of them. -/
theorem exists_tilted (lo hi sigma : ℝ) {R : ℕ → ℝ → Prop} (hk : 0 < k) (hstart : R 0 (1 / (k + 1)))
    (hturn : ∀ turns x, R turns x → iterate (tiltedCov k sigma) lo hi 0 turns (equal (k + 1)) = tilted k x →
      ∃ x', R (turns + 1) x' ∧ step (tiltedCov k sigma) lo hi (tilted k x) = tilted k x') (turns : ℕ) :
    ∃ x, R turns x ∧ iterate (tiltedCov k sigma) lo hi 0 turns (equal (k + 1)) = tilted k x := by
  induction turns with
  | zero => exact ⟨_, hstart, equal_eq_tilted hk⟩
  | succ turns ih =>
    obtain ⟨x, hR, hx⟩ := ih
    obtain ⟨x', hR', hstep⟩ := hturn turns x hR hx
    refine ⟨x', hR', ?_⟩
    rw [iterate_succ, hx, hstep]

/-- The weights keep to the bounds in every run without a tolerance. -/
def Bounded (k : ℕ) (lo hi sigma : ℝ) : Prop :=
  ∀ turns i, lo ≤ iterate (tiltedCov k sigma) lo hi 0 turns (equal (k + 1)) i ∧
    iterate (tiltedCov k sigma) lo hi 0 turns (equal (k + 1)) i ≤ hi

theorem upper_room (hk : 0 < k) (hfew : k * leastShare < 1) (hhi : 1 ≤ (k + 1) * hi)
    (hbounded : ∀ sigma, 0 < sigma → Bounded k lo hi sigma) : 1 ≤ hi + k * max lo 0 := by
  by_contra hless
  have hk' : (0 : ℝ) < k := by exact_mod_cast hk
  have hgap : 0 < 1 - hi - k * max lo 0 := by linarith
  have hheld : 0 ≤ k * max lo 0 := mul_nonneg hk'.le (le_max_right _ _)
  have hhi1 : hi < 1 := by linarith
  have hstart : (0 : ℝ) < 1 / (k + 1) := by positivity
  have hhipos : 0 < hi := hstart.trans_le (by rwa [div_le_iff₀' (by positivity)])
  obtain ⟨hsigma, hbound, -⟩ := rebalancedFirst_gains hk hfew hhi1 hstart
    (by rwa [div_le_iff₀' (by positivity)])
  have hbounds := hbounded _ hsigma
  set sigma := smallVariance k hi
  have hleft : 0 < 1 - leastShare / otherBound k :=
    sub_pos.mpr ((div_lt_one (leastShare_pos.trans hbound)).mpr hbound)
  set gain := 1 / (k + 1) * (1 - hi) * (1 - leastShare / otherBound k) with hgaindef
  have hgain : 0 < gain := mul_pos (mul_pos hstart (sub_pos.mpr hhi1)) hleft
  set gap := 1 - hi - k * max lo 0
  have hpace : 0 < hi * min gain gap / 2 := half_pos (mul_pos hhipos (lt_min hgain hgap))
  have hrun := exists_tilted lo hi sigma
    (R := fun turns x => 1 / (k + 1) + turns * (hi * min gain gap / 2) ≤ x) hk (by simp) ?_
  · obtain ⟨turns, hturns⟩ := exists_nat_gt (hi / (hi * min gain gap / 2))
    obtain ⟨x, hx, hiterate⟩ := hrun turns
    have hinside := (hbounds turns 0).2
    rw [hiterate, tilted, pair_zero] at hinside
    rw [div_lt_iff₀ hpace] at hturns
    linarith
  · intro turns x hx hiterate
    obtain ⟨hlox, hxhi⟩ := hbounds turns 0
    rw [hiterate, tilted, pair_zero] at hlox hxhi
    have hgrown : 1 / (k + 1) ≤ x := (le_add_of_nonneg_right (by positivity)).trans hx
    have hpos := hstart.trans_le hgrown
    obtain ⟨-, -, hgains, hlt⟩ := rebalancedFirst_gains hk hfew hhi1 hpos hxhi
    have hmore : gain ≤ x * (1 - x) * (1 - leastShare / otherBound k) := by
      refine mul_le_mul_of_nonneg_right ?_ hleft.le
      exact mul_le_mul hgrown (by linarith) (by linarith) hpos.le
    have htarget := le_targetFirst hk hpos hlox hxhi hhi1.le (show x + gain ≤ rebalancedFirst k sigma x by linarith) hlt
      hgain hgap (show hi + k * max lo 0 + gap ≤ 1 by linarith)
    refine ⟨_, ?_, step_tilted hk hsigma hpos (hxhi.trans_lt hhi1) hhipos⟩
    push_cast
    linarith

theorem lower_room (hk : 0 < k) (hlo : (k + 1) * lo ≤ 1) (hhi : 1 ≤ (k + 1) * hi)
    (hbounded : ∀ sigma, 0 < sigma → Bounded k lo hi sigma) : lo ≤ 0 ∨ lo + k * hi ≤ 1 := by
  by_contra hless
  obtain ⟨hpos, hmore⟩ := not_or.mp hless
  rw [not_le] at hpos hmore
  have hk' : (0 : ℝ) < k := by exact_mod_cast hk
  have hk1 : (1 : ℝ) ≤ k := by exact_mod_cast hk
  have hgap : 0 < lo + k * hi - 1 := by linarith
  have hlostart : lo ≤ 1 / (k + 1) := by rwa [le_div_iff₀' (by positivity)]
  have hhalf : 1 / ((k : ℝ) + 1) ≤ 1 / 2 := one_div_le_one_div_of_le two_pos (by linarith)
  have hhipos : 0 < hi := pos_of_mul_pos_right (one_pos.trans_le hhi) (by positivity)
  obtain ⟨hsigma, -⟩ := rebalancedFirst_loses hk hpos hlostart hhalf
  have hbounds := hbounded _ hsigma
  set sigma := largeVariance lo
  set gap := lo + k * hi - 1
  have hpace : 0 < lo / 2 * min (lo / 2) gap / 2 :=
    half_pos (mul_pos (half_pos hpos) (lt_min (half_pos hpos) hgap))
  have hrun := exists_tilted lo hi sigma
    (R := fun turns x => x ≤ 1 / (k + 1) - turns * (lo / 2 * min (lo / 2) gap / 2)) hk (by simp) ?_
  · obtain ⟨turns, hturns⟩ := exists_nat_gt (1 / (k + 1) / (lo / 2 * min (lo / 2) gap / 2))
    obtain ⟨x, hx, hiterate⟩ := hrun turns
    have hinside := (hbounds turns 0).1
    rw [hiterate, tilted, pair_zero] at hinside
    rw [div_lt_iff₀ hpace] at hturns
    linarith
  · intro turns x hx hiterate
    obtain ⟨hlox, hxhi⟩ := hbounds turns 0
    rw [hiterate, tilted, pair_zero] at hlox hxhi
    have hshrunk : x ≤ 1 / (k + 1) := hx.trans (sub_le_self _ (by positivity))
    obtain ⟨-, hupos, hloses⟩ := rebalancedFirst_loses hk hpos hlox (hshrunk.trans hhalf)
    have hother : lo ≤ (1 - rebalancedFirst k sigma x) / k := by
      refine hlostart.trans ?_
      have hrest : k * (1 / ((k : ℝ) + 1)) = 1 - 1 / (k + 1) := by
        field_simp
        ring
      rw [le_div_iff₀' hk', hrest]
      linarith
    have htarget := targetFirst_le hk hpos (hlostart.trans (hhalf.trans (by norm_num))) hlox hxhi hupos
      (show rebalancedFirst k sigma x + lo / 2 ≤ x by linarith) hother (half_pos hpos) hgap
      (show 1 + gap ≤ lo + k * hi by linarith)
    refine ⟨_, ?_, step_tilted hk hsigma (hpos.trans_le hlox) ((hshrunk.trans hhalf).trans_lt (by norm_num))
      hhipos⟩
    push_cast
    linarith

/-! ### Equal weights -/

theorem shares_at_equal (hk : 0 < k) (hsigma : 0 < sigma) :
    firstShare k sigma (1 / (k + 1)) = sigma / (sigma + k) ∧
      otherShare k sigma (1 / (k + 1)) = 1 / (sigma + k) := by
  have hk' : (0 : ℝ) < k := by exact_mod_cast hk
  have hrest : 1 - 1 / ((k : ℝ) + 1) = k * (1 / (k + 1)) := by
    field_simp
    ring
  have hvariance : tiltedVariance k sigma (1 / (k + 1)) = (sigma + k) * (1 / ((k : ℝ) + 1)) ^ 2 := by
    rw [tiltedVariance, hrest]
    field_simp
  have hsquare : (1 / ((k : ℝ) + 1)) ^ 2 ≠ 0 := by positivity
  rw [firstShare, otherShare, hvariance, hrest, mul_div_cancel_left₀ _ hk'.ne']
  refine ⟨mul_div_mul_right _ _ hsquare, ?_⟩
  rw [div_mul_cancel_right₀ hsquare, one_div]

theorem fixed_of_safe_eq (hk : 0 < k) (hsigma : 0 < sigma) (hlo : (k + 1) * lo ≤ 1) (hhi : 1 ≤ (k + 1) * hi)
    (hsafe : safe (sigma / (sigma + k)) = safe (1 / (sigma + k))) :
    step (tiltedCov k sigma) lo hi (equal (k + 1)) = equal (k + 1) ∧
      Unclipped (tiltedCov k sigma) lo hi (equal (k + 1)) := by
  have hstart : (0 : ℝ) < 1 / (k + 1) := by positivity
  have hstart1 : 1 / ((k : ℝ) + 1) < 1 := by
    rw [div_lt_one (by positivity)]
    exact lt_add_of_pos_left 1 (by exact_mod_cast hk)
  have hsame : rebalanced (tiltedCov k sigma) (equal (k + 1)) = equal (k + 1) := by
    obtain ⟨hfirst, hother⟩ := shares_at_equal hk hsigma
    have hquotient : rebalancedFirst k sigma (1 / (k + 1)) = 1 / (k + 1) := by
      have hpos : 0 < safe (1 / (sigma + k)) := safe_pos (by positivity)
      rw [rebalancedFirst, hfirst, hother, hsafe, ← add_div, add_sub_cancel, div_div_div_cancel_right₀ hpos.ne',
        div_one]
    rw [equal_eq_tilted hk, rebalanced_tilted hk hsigma hstart hstart1, hquotient]
  have hfree : Unclipped (tiltedCov k sigma) lo hi (equal (k + 1)) := by
    rw [Unclipped, hsame]
    funext i
    have hlow : lo ≤ equal (k + 1) i := by
      rw [equal, le_div_iff₀' (by positivity)]
      exact_mod_cast hlo
    have hhigh : equal (k + 1) i ≤ hi := by
      rw [equal, div_le_iff₀' (by positivity)]
      exact_mod_cast hhi
    rw [clipped, max_eq_left hlow, min_eq_left hhigh]
  refine ⟨?_, hfree⟩
  funext i
  rw [step, hfree, hsame, normalised_of_sum_eq (shares_equal i).sum_eq]
  ring

theorem budget_of_safe_eq (hk : 0 < k) (hsigma : 0 < sigma) (hlo : (k + 1) * lo ≤ 1) (hhi : 1 ≤ (k + 1) * hi)
    (hsafe : safe (sigma / (sigma + k)) = safe (1 / (sigma + k))) {budget : Fin (k + 1) → ℝ}
    (hcorrect : Correct (tiltedCov k sigma) lo hi budget (equal (k + 1))) :
    budget = pair k (sigma / (sigma + k)) (1 / (sigma + k)) := by
  obtain ⟨hfixed, hfree⟩ := fixed_of_safe_eq hk hsigma hlo hhi hsafe
  obtain ⟨hfirst, hother⟩ := shares_at_equal hk hsigma
  funext i
  rw [← hcorrect.parity hfixed hfree i, equal_eq_tilted hk, varianceShare_tilted hk, hfirst, hother]

theorem budget_eq_equal (hk : 0 < k) (hlo : (k + 1) * lo ≤ 1) (hhi : 1 ≤ (k + 1) * hi)
    {budget : Fin (k + 1) → ℝ} (hcorrect : Correct (tiltedCov k 1) lo hi budget (equal (k + 1)))
    (i : Fin (k + 1)) : budget i = 1 / (k + 1) := by
  rw [budget_of_safe_eq hk one_pos hlo hhi rfl hcorrect, add_comm 1 (k : ℝ)]
  exact Fin.cases rfl (fun _ => rfl) i

/-- Among too many assets, shares that differ are equally safe. -/
theorem few_of_correct (hk : 0 < k) (hlo : (k + 1) * lo ≤ 1) (hhi : 1 ≤ (k + 1) * hi)
    {budget : Fin (k + 1) → ℝ}
    (hcorrect : ∀ sigma, 0 < sigma → Correct (tiltedCov k sigma) lo hi budget (equal (k + 1))) :
    k * leastShare < 1 := by
  by_contra hmany
  have hk' : (0 : ℝ) < k := by exact_mod_cast hk
  have hleast := leastShare_pos
  have hsigma : 0 < 1 + leastShare := add_pos one_pos hleast
  have htotal : 0 < 1 + leastShare + k := add_pos hsigma hk'
  have hfirst : (1 + leastShare) / (1 + leastShare + k) < leastShare := by
    rw [div_lt_iff₀ htotal]
    linarith [mul_pos hleast hleast]
  have hother : 1 / (1 + leastShare + k) < leastShare :=
    (div_lt_div_of_pos_right (lt_add_of_pos_right 1 hleast) htotal).trans hfirst
  have hsafe : safe ((1 + leastShare) / (1 + leastShare + k)) = safe (1 / (1 + leastShare + k)) := by
    rw [safe_of_lt (div_pos hsigma htotal) hfirst, safe_of_lt (div_pos one_pos htotal) hother]
  have htilted := budget_of_safe_eq hk hsigma hlo hhi hsafe (hcorrect _ hsigma)
  have hequal := budget_eq_equal hk hlo hhi (hcorrect 1 one_pos)
  have hshares : (1 + leastShare) / (1 + leastShare + k) = 1 / (1 + leastShare + k) := by
    have hzero := hequal 0
    have hsucc := hequal (Fin.succ ⟨0, hk⟩)
    rw [htilted, pair_zero] at hzero
    rw [htilted, pair_succ] at hsucc
    exact hzero.trans hsucc.symm
  rw [div_left_inj' htotal.ne'] at hshares
  linarith

end Tilted

/-! ### The exact condition -/

variable {n : ℕ} {lo hi : ℝ} {budget : Fin n → ℝ}

@[simp] theorem weights_optimizeRiskParity (riskFreeRate : ℝ) (cov : Matrix (Fin n) (Fin n) ℝ)
    (bounds : ℝ × ℝ) (riskBudget : Option (Fin n → ℝ)) (maxIterations : ℤ) (tolerance : ℝ)
    (expectedReturns : Option (Fin n → ℝ)) :
    (optimizeRiskParity riskFreeRate cov bounds riskBudget maxIterations tolerance expectedReturns).weights =
      iterate cov bounds.1 bounds.2 tolerance maxIterations.toNat (equal n) := by
  cases expectedReturns <;> rfl

/-- What the bounds and the budget must be for every run to be correct. -/
structure Condition (lo hi : ℝ) (budget : Fin n → ℝ) : Prop where
  budget_eq (i : Fin n) : budget i = 1 / n
  few : n ≤ 10 ^ 12
  upper : 1 ≤ hi + ((n : ℝ) - 1) * max lo 0
  lower : lo ≤ 0 ∨ lo + ((n : ℝ) - 1) * hi ≤ 1

/-- One asset has all the weight. -/
theorem condition_one {budget : Fin 1 → ℝ} (hlo : lo ≤ 1) (hhi : 1 ≤ hi) (hbudget : Shares budget) :
    Condition lo hi budget where
  budget_eq i := by
    have hsum := hbudget.sum_eq
    rw [Fin.sum_univ_one] at hsum
    rw [Subsingleton.elim i 0, hsum, Nat.cast_one, div_one]
  few := Nat.one_le_pow _ _ (by norm_num)
  upper := by
    rw [Nat.cast_one, sub_self, zero_mul, add_zero]
    exact hhi
  lower := by
    rw [Nat.cast_one, sub_self, zero_mul, add_zero]
    exact .inr hlo

theorem condition_of_correct {k : ℕ} {budget : Fin (k + 1) → ℝ} (hk : 0 < k) (hlo : (k + 1) * lo ≤ 1)
    (hhi : 1 ≤ (k + 1) * hi) (hcorrect : ∀ sigma, 0 < sigma → ∀ turns,
      Correct (tiltedCov k sigma) lo hi budget (iterate (tiltedCov k sigma) lo hi 0 turns (equal (k + 1)))) :
    Condition lo hi budget := by
  have hfew := few_of_correct hk hlo hhi fun sigma hsigma => hcorrect sigma hsigma 0
  have hbounded : ∀ sigma, 0 < sigma → Bounded k lo hi sigma := fun sigma hsigma turns =>
    (hcorrect sigma hsigma turns).bounds
  have hcard : ((k + 1 : ℕ) : ℝ) - 1 = k := by
    rw [Nat.cast_succ, add_sub_cancel_right]
  constructor
  · intro i
    rw [Nat.cast_succ]
    exact budget_eq_equal hk hlo hhi (hcorrect 1 one_pos 0) i
  · rw [leastShare, mul_one_div, div_lt_one (by positivity)] at hfew
    exact Nat.succ_le_of_lt (by exact_mod_cast hfew)
  · rw [hcard]
    exact upper_room hk hfew hhi hbounded
  · rw [hcard]
    exact lower_room hk hlo hhi hbounded

/-- The weights are correct for all matrices and all runs exactly if the budget is equal, the assets are not
too many to tell their shares, and a weight at one of the bounds leaves room for the others. -/
theorem optimizeRiskParity_correct_iff (riskFreeRate : ℝ) (expectedReturns : Option (Fin n → ℝ)) (hle : lo ≤ hi)
    (hlo : n * lo ≤ 1) (hhi : 1 ≤ n * hi) (hbudget : Shares budget) :
    (∀ cov, Covariance cov → ∀ maxIterations tolerance, Correct cov lo hi budget
        (optimizeRiskParity riskFreeRate cov (lo, hi) (some budget) maxIterations tolerance
          expectedReturns).weights) ↔ Condition lo hi budget := by
  simp only [weights_optimizeRiskParity]
  constructor
  · intro hcorrect
    rcases n with _ | _ | k
    · exact absurd hhi (by norm_num)
    · rw [zero_add, Nat.cast_one, one_mul] at hlo hhi
      exact condition_one hlo hhi hbudget
    · refine condition_of_correct k.succ_pos ?_ ?_ fun sigma hsigma turns => ?_
      · exact_mod_cast hlo
      · exact_mod_cast hhi
      · exact hcorrect _ (covariance_tilted hsigma) turns 0
  · intro hcondition cov hcov maxIterations tolerance
    have hn : n ≠ 0 := by
      rintro rfl
      exact absurd hhi (by norm_num)
    exact correct_of_room ⟨0, Nat.pos_of_ne_zero hn⟩ hle hlo hhi hcondition.budget_eq hcondition.few
      hcondition.upper hcondition.lower hcov tolerance maxIterations.toNat

/-- Two assets without correlation, each with half of the risk. -/
theorem optimizeRiskParity_two : Correct (tiltedCov 1 1) 0 1 (equal 2)
      (optimizeRiskParity (2 / 100) (tiltedCov 1 1) (0, 1) (some (equal 2)) 1000 (1 / 10 ^ 6) none).weights := by
  have hcondition : Condition 0 1 (equal 2) := by
    constructor
    · exact fun _ => rfl
    · norm_num
    · rw [max_self, mul_zero, add_zero]
    · exact .inl le_rfl
  exact (optimizeRiskParity_correct_iff (2 / 100) none zero_le_one (by norm_num) (by norm_num)
    (shares_equal 0)).mpr hcondition _ (covariance_tilted one_pos) 1000 (1 / 10 ^ 6)

/-- A budget that gives one of them three quarters of the risk is not used. -/
theorem budget_unused : Covariance (tiltedCov 1 1) ∧ Shares (pair 1 (3 / 4) (1 / 4)) ∧
      ¬ Correct (tiltedCov 1 1) 0 1 (pair 1 (3 / 4) (1 / 4))
        (optimizeRiskParity (2 / 100) (tiltedCov 1 1) (0, 1) (some (pair 1 (3 / 4) (1 / 4))) 1000 (1 / 10 ^ 6)
          none).weights := by
  have hbudget : Shares (pair 1 (3 / 4) (1 / 4)) := by
    constructor
    · exact Fin.cases (by norm_num [pair_zero]) fun _ => by norm_num [pair_succ]
    · rw [sum_pair]
      norm_num
  refine ⟨covariance_tilted one_pos, hbudget, ?_⟩
  intro hcorrect
  have hlo : ((1 : ℕ) + 1) * (0 : ℝ) ≤ 1 := by norm_num
  have hhi : 1 ≤ (((1 : ℕ) : ℝ) + 1) * 1 := by norm_num
  obtain ⟨hfixed, -⟩ := fixed_of_safe_eq (k := 1) one_pos one_pos hlo hhi rfl
  rw [weights_optimizeRiskParity, iterate_of_fixed hfixed] at hcorrect
  have hfirst := budget_eq_equal one_pos hlo hhi hcorrect 0
  norm_num at hfirst

end TradingSim.Bot.RiskParity
