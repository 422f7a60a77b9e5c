import Mathlib.Analysis.Real.Sqrt
import Mathlib.LinearAlgebra.Matrix.PosDef
import TradingSim.Foundations.ClippedWeights

/-!
# Risk parity

The weights of a portfolio are moved towards equal shares of its variance: each is scaled by the quotient of
the target share and its own, the weights are normalised, clipped to their bounds and normalised again, and
half of the way to them is gone. The target is an equal share, whatever the risk budget says, and the second
normalisation can leave the bounds.
-/

namespace TradingSim.Bot.RiskParity

open Foundations Matrix

structure PortfolioResult (n : ℕ) where
  weights : Fin n → ℝ
  expectedReturn : ℝ
  volatility : ℝ
  sharpeRatio : ℝ

/-- Equal weights. -/
noncomputable def equal (n : ℕ) : Fin n → ℝ := fun _ => 1 / n

variable {n : ℕ}

noncomputable def variance (cov : Matrix (Fin n) (Fin n) ℝ) (w : Fin n → ℝ) : ℝ := w ⬝ᵥ (cov *ᵥ w)

/-- `current_rc_pct`: the shares of the risk that the weights carry. -/
noncomputable def riskShares (cov : Matrix (Fin n) (Fin n) ℝ) (w : Fin n → ℝ) : Fin n → ℝ :=
  let volatility := Real.sqrt (max (variance cov w) (1 / 10 ^ 20))
  let contributions := fun i => w i * ((cov *ᵥ w) i / volatility)
  let total := ∑ i, contributions i
  if 0 < total then fun i => contributions i / total else equal n

/-- `safe_rc`: a share that is not too small to divide by. -/
noncomputable def safe (share : ℝ) : ℝ := if |share| < 1 / 10 ^ 12 then 1 / 10 ^ 12 else share

/-- The new weights before they are clipped. -/
noncomputable def rebalanced (cov : Matrix (Fin n) (Fin n) ℝ) (w : Fin n → ℝ) : Fin n → ℝ :=
  normalised fun i => w i * (equal n i / safe (riskShares cov w i))

/-- One turn of the loop. -/
noncomputable def step (cov : Matrix (Fin n) (Fin n) ℝ) (lo hi : ℝ) (w : Fin n → ℝ) : Fin n → ℝ :=
  let v := normalised (clipped lo hi (rebalanced cov w))
  fun i => 1 / 2 * w i + 1 / 2 * v i

/-- `_iterate_risk_parity`, with the number of turns that are left. -/
noncomputable def iterate (cov : Matrix (Fin n) (Fin n) ℝ) (lo hi tolerance : ℝ) :
    ℕ → (Fin n → ℝ) → Fin n → ℝ
  | 0, w => w
  | left + 1, w =>
    let w' := step cov lo hi w
    if Real.sqrt (∑ i, (w' i - w i) ^ 2) < tolerance then w else iterate cov lo hi tolerance left w'

/-- `optimize_risk_parity`. The risk budget is completed and then not used. -/
noncomputable def optimizeRiskParity (riskFreeRate : ℝ) (cov : Matrix (Fin n) (Fin n) ℝ) (bounds : ℝ × ℝ)
    (riskBudget : Option (Fin n → ℝ)) (maxIterations : ℤ) (tolerance : ℝ)
    (expectedReturns : Option (Fin n → ℝ)) : PortfolioResult n :=
  let _riskBudget := riskBudget.getD (equal n)
  let weights := iterate cov bounds.1 bounds.2 tolerance maxIterations.toNat (equal n)
  let volatility := Real.sqrt (variance cov weights)
  match expectedReturns with
  | some returns =>
    let portfolioReturn := weights ⬝ᵥ returns
    { weights := weights
      expectedReturn := portfolioReturn
      volatility := volatility
      sharpeRatio := if 0 < volatility then (portfolioReturn - riskFreeRate) / volatility else 0 }
  | none =>
    { weights := weights
      expectedReturn := 0
      volatility := volatility
      sharpeRatio := 0 }

/-! ### Shares of the risk -/

section Shares

variable {cov : Matrix (Fin n) (Fin n) ℝ} {lo hi : ℝ} {w : Fin n → ℝ}

/-- A covariance matrix of assets that do not hedge each other. -/
structure Covariance (cov : Matrix (Fin n) (Fin n) ℝ) : Prop where
  posDef : cov.PosDef
  nonneg (i j : Fin n) : 0 ≤ cov i j

/-- The share of the variance that an asset has. -/
noncomputable def varianceShare (cov : Matrix (Fin n) (Fin n) ℝ) (w : Fin n → ℝ) (i : Fin n) : ℝ :=
  w i * (cov *ᵥ w) i / variance cov w

theorem mulVec_pos (h : Covariance cov) (hw : Shares w) (i : Fin n) : 0 < (cov *ᵥ w) i := by
  refine Finset.sum_pos' (fun j _ => mul_nonneg (h.nonneg i j) (hw.pos j).le)
    ⟨i, Finset.mem_univ i, mul_pos ?_ (hw.pos i)⟩
  exact h.posDef.diag_pos

theorem variance_pos (h : Covariance cov) (hw : Shares w) (i : Fin n) : 0 < variance cov w :=
  Finset.sum_pos (fun j _ => mul_pos (hw.pos j) (mulVec_pos h hw j)) ⟨i, Finset.mem_univ i⟩

theorem riskShares_eq (h : Covariance cov) (hw : Shares w) (i : Fin n) :
    riskShares cov w i = varianceShare cov w i := by
  have hfloor : (0 : ℝ) < 1 / 10 ^ 20 := by positivity
  have hvolatility : 0 < Real.sqrt (max (variance cov w) (1 / 10 ^ 20)) :=
    Real.sqrt_pos.mpr (hfloor.trans_le (le_max_right _ _))
  have htotal : ∑ j, w j * ((cov *ᵥ w) j / Real.sqrt (max (variance cov w) (1 / 10 ^ 20))) =
      variance cov w / Real.sqrt (max (variance cov w) (1 / 10 ^ 20)) := by
    rw [variance, dotProduct, Finset.sum_div]
    exact Finset.sum_congr rfl fun j _ => (mul_div_assoc _ _ _).symm
  have hpos := div_pos (variance_pos h hw i) hvolatility
  rw [riskShares]
  dsimp only
  rw [htotal, if_pos hpos, varianceShare, ← mul_div_assoc, div_div_div_cancel_right₀ hvolatility.ne']

theorem varianceShare_pos (h : Covariance cov) (hw : Shares w) (i : Fin n) : 0 < varianceShare cov w i :=
  div_pos (mul_pos (hw.pos i) (mulVec_pos h hw i)) (variance_pos h hw i)

theorem sum_varianceShare (h : Covariance cov) (hw : Shares w) (i : Fin n) :
    ∑ j, varianceShare cov w j = 1 := by
  simp only [varianceShare]
  rw [← Finset.sum_div]
  exact div_self (variance_pos h hw i).ne'

theorem safe_pos {share : ℝ} (h : 0 < share) : 0 < safe share := by
  rw [safe]
  split_ifs
  · positivity
  · exact h

theorem shares_rebalanced (h : Covariance cov) (hw : Shares w) (i : Fin n) : Shares (rebalanced cov w) := by
  have : Nonempty (Fin n) := ⟨i⟩
  have hn : (0 : ℝ) < n := by exact_mod_cast i.pos
  refine shares_normalised fun j => mul_pos (hw.pos j) (div_pos (div_pos one_pos hn) ?_)
  rw [riskShares_eq h hw]
  exact safe_pos (varianceShare_pos h hw j)

theorem shares_step (h : Covariance cov) (hhi : 0 < hi) (hw : Shares w) (i : Fin n) :
    Shares (step cov lo hi w) := by
  have : Nonempty (Fin n) := ⟨i⟩
  exact shares_average hw (shares_normalised (lt_clipped (shares_rebalanced h hw i).pos hhi))

/-- A turn keeps to the bounds if these leave room. -/
theorem step_bounds (h : Covariance cov) (hle : lo ≤ hi) (hhi : 0 < hi) (hw : Shares w)
    (hbounds : ∀ i, lo ≤ w i ∧ w i ≤ hi) (hupper : 1 ≤ hi + ((n : ℝ) - 1) * max lo 0)
    (hlower : lo ≤ 0 ∨ lo + ((n : ℝ) - 1) * hi ≤ 1) (i : Fin n) :
    lo ≤ step cov lo hi w i ∧ step cov lo hi w i ≤ hi := by
  have hshares := shares_rebalanced h hw i
  have hroom : lo ≤ normalised (clipped lo hi (rebalanced cov w)) i ∧
      normalised (clipped lo hi (rebalanced cov w)) i ≤ hi := by
    refine normalised_clipped_bounds hle hhi hshares ?_ ?_ i
    · rwa [Fintype.card_fin]
    · rwa [Fintype.card_fin]
  obtain ⟨hlow, hhigh⟩ := hbounds i
  rw [step]
  constructor
  · linarith
  · linarith

/-! ### Fixed points -/

/-- No weight is clipped. -/
def Unclipped (cov : Matrix (Fin n) (Fin n) ℝ) (lo hi : ℝ) (w : Fin n → ℝ) : Prop :=
  clipped lo hi (rebalanced cov w) = rebalanced cov w

theorem rebalanced_of_fixed (h : Covariance cov) (hw : Shares w) (hfixed : step cov lo hi w = w)
    (hfree : Unclipped cov lo hi w) (i : Fin n) : rebalanced cov w i = w i := by
  have hstep := congrFun hfixed i
  rw [step, hfree, normalised_of_sum_eq (shares_rebalanced h hw i).sum_eq] at hstep
  linarith

theorem safe_eq_of_fixed (h : Covariance cov) (hw : Shares w) (hfixed : step cov lo hi w = w)
    (hfree : Unclipped cov lo hi w) (i j : Fin n) :
    safe (varianceShare cov w i) = safe (varianceShare cov w j) := by
  have : Nonempty (Fin n) := ⟨i⟩
  have hn : (0 : ℝ) < n := by exact_mod_cast i.pos
  have hsafe (k : Fin n) : 0 < safe (riskShares cov w k) := by
    rw [riskShares_eq h hw]
    exact safe_pos (varianceShare_pos h hw k)
  have hscaled (k : Fin n) : 0 < w k * (equal n k / safe (riskShares cov w k)) :=
    mul_pos (hw.pos k) (div_pos (div_pos one_pos hn) (hsafe k))
  have htotal := Finset.sum_pos (fun k _ => hscaled k) Finset.univ_nonempty
  have hquotient (k : Fin n) :
      equal n k / safe (riskShares cov w k) = ∑ l, w l * (equal n l / safe (riskShares cov w l)) := by
    have hfixed' := rebalanced_of_fixed h hw hfixed hfree k
    rw [rebalanced, normalised_eq htotal, div_eq_iff htotal.ne'] at hfixed'
    exact mul_left_cancel₀ (hw.pos k).ne' hfixed'
  have hequal := (hquotient i).trans (hquotient j).symm
  have hsame := (div_eq_div_iff (hsafe i).ne' (hsafe j).ne').mp hequal
  rw [riskShares_eq h hw, riskShares_eq h hw] at hsame
  exact (mul_left_cancel₀ (div_pos one_pos hn).ne' hsame).symm

/-- With not too many assets, shares that are equally safe are equal. -/
theorem varianceShare_eq (h : Covariance cov) (hw : Shares w) (hn : n ≤ 10 ^ 12)
    (hsafe : ∀ i j, safe (varianceShare cov w i) = safe (varianceShare cov w j)) (i : Fin n) :
    varianceShare cov w i = 1 / n := by
  have hsum := sum_varianceShare h hw i
  have habs (j : Fin n) : |varianceShare cov w j| = varianceShare cov w j :=
    abs_of_pos (varianceShare_pos h hw j)
  by_cases hsmall : ∃ j, varianceShare cov w j < 1 / 10 ^ 12
  · -- Every share is then too small to divide by, or just not so, and they do not come to one.
    obtain ⟨j, hj⟩ := hsmall
    have hle (k : Fin n) : varianceShare cov w k ≤ 1 / 10 ^ 12 := by
      by_contra hlarge
      have hkj := hsafe k j
      rw [safe, if_neg (by rw [habs]; exact (not_le.mp hlarge).not_gt), safe, habs, if_pos hj] at hkj
      exact hlarge hkj.le
    have hless := Finset.sum_lt_sum (fun k _ => hle k) ⟨j, Finset.mem_univ j, hj⟩
    rw [hsum, Finset.sum_const, Finset.card_univ, Fintype.card_fin, nsmul_eq_mul, mul_one_div,
      lt_div_iff₀ (by positivity), one_mul] at hless
    exact absurd hn (not_le.mpr (by exact_mod_cast hless))
  · push Not at hsmall
    have hshare (j : Fin n) : safe (varianceShare cov w j) = varianceShare cov w j := by
      rw [safe, habs, if_neg (hsmall j).not_gt]
    have hequal (j : Fin n) : varianceShare cov w j = varianceShare cov w i := by
      rw [← hshare j, ← hshare i]
      exact hsafe j i
    rw [Finset.sum_congr rfl fun j _ => hequal j, Finset.sum_const, Finset.card_univ, Fintype.card_fin,
      nsmul_eq_mul] at hsum
    exact eq_one_div_of_mul_eq_one_right hsum

/-! ### Runs of the loop -/

/-- After any number of turns there are shares, within the bounds if these leave room. -/
theorem iterate_bounds (h : Covariance cov) (hle : lo ≤ hi) (hhi : 0 < hi)
    (hupper : 1 ≤ hi + ((n : ℝ) - 1) * max lo 0) (hlower : lo ≤ 0 ∨ lo + ((n : ℝ) - 1) * hi ≤ 1)
    (tolerance : ℝ) (left : ℕ) (i : Fin n) (hw : Shares w) (hbounds : ∀ i, lo ≤ w i ∧ w i ≤ hi) :
    Shares (iterate cov lo hi tolerance left w) ∧
      ∀ i, lo ≤ iterate cov lo hi tolerance left w i ∧ iterate cov lo hi tolerance left w i ≤ hi := by
  induction left generalizing w with
  | zero => exact ⟨hw, hbounds⟩
  | succ left ih =>
    rw [iterate]
    split_ifs
    · exact ⟨hw, hbounds⟩
    · exact ih (shares_step h hhi hw i) (step_bounds h hle hhi hw hbounds hupper hlower)

theorem shares_equal (i : Fin n) : Shares (equal n) := by
  have hn : (0 : ℝ) < n := by exact_mod_cast i.pos
  constructor
  · intro j
    exact div_pos one_pos hn
  · simp only [equal]
    rw [Finset.sum_const, Finset.card_univ, Fintype.card_fin, nsmul_eq_mul, mul_one_div_cancel hn.ne']

end Shares

/-- The weights come to one within their bounds, and at a fixed point where no weight is clipped, the assets
have the shares of the variance that the budget gives them. -/
structure Correct (cov : Matrix (Fin n) (Fin n) ℝ) (lo hi : ℝ) (budget w : Fin n → ℝ) : Prop where
  sum_eq : ∑ i, w i = 1
  bounds (i : Fin n) : lo ≤ w i ∧ w i ≤ hi
  parity : step cov lo hi w = w → Unclipped cov lo hi w → ∀ i, varianceShare cov w i = budget i

/-- Equal budgets with room at the bounds are met by the weights after any number of turns. -/
theorem correct_of_room {lo hi : ℝ} {budget : Fin n → ℝ} (i : Fin n) (hle : lo ≤ hi) (hlo : n * lo ≤ 1)
    (hhi : 1 ≤ n * hi) (hbudget : ∀ i, budget i = 1 / n) (hn : n ≤ 10 ^ 12)
    (hupper : 1 ≤ hi + ((n : ℝ) - 1) * max lo 0) (hlower : lo ≤ 0 ∨ lo + ((n : ℝ) - 1) * hi ≤ 1)
    {cov : Matrix (Fin n) (Fin n) ℝ} (h : Covariance cov) (tolerance : ℝ) (turns : ℕ) :
    Correct cov lo hi budget (iterate cov lo hi tolerance turns (equal n)) := by
  have hpos : (0 : ℝ) < n := by exact_mod_cast i.pos
  have hhipos : 0 < hi := pos_of_mul_pos_right (one_pos.trans_le hhi) hpos.le
  have hequal (i : Fin n) : lo ≤ equal n i ∧ equal n i ≤ hi := by
    rw [equal, le_div_iff₀' hpos, div_le_iff₀' hpos]
    exact ⟨hlo, hhi⟩
  obtain ⟨hw, hbounds⟩ := iterate_bounds h hle hhipos hupper hlower tolerance turns i (shares_equal i) hequal
  refine ⟨hw.sum_eq, hbounds, fun hfixed hfree j => ?_⟩
  rw [hbudget]
  exact varianceShare_eq h hw hn (safe_eq_of_fixed h hw hfixed hfree) j

end TradingSim.Bot.RiskParity
