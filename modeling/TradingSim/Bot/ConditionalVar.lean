import Mathlib.Analysis.Real.Sqrt
import TradingSim.Foundations.FieldNumerals
import TradingSim.Foundations.OrderStatistics
import TradingSim.RawOrders.Values

/-!
# Value at risk and what lies beyond it

The historical value at risk is a quantile of the returns, scaled with the root of the time horizon. The
conditional one is the mean of the returns below the quantile, scaled in the same way; but if no return is
below it, the value at risk itself is taken, which is scaled already, and scaled once more. The two agree
exactly if a return is below the quantile or the second scaling changes nothing.
-/

namespace TradingSim.Bot.Cvar

open Foundations
open RawOrders (PyException)

/-- What is taken from the statistics library and from the seeded generator of normal samples. -/
structure Statistics where
  normPpf : ℝ → ℝ
  normPdf : ℝ → ℝ
  normal : ℝ → ℝ → ℕ → List ℝ

structure VaRResult where
  varValue : ℝ
  confidenceLevel : ℝ
  timeHorizon : ℝ
  method : String

structure CVaRResult where
  cvarValue : ℝ
  varValue : ℝ
  confidenceLevel : ℝ
  timeHorizon : ℝ
  method : String

/-- An argument, or the default if it is missing or zero. -/
noncomputable def orDefault (x : Option ℝ) (default : ℝ) : ℝ := if x = none ∨ x = some 0 then default else x.getD 0

noncomputable def mean (xs : List ℝ) : ℝ := xs.sum / xs.length

noncomputable def std (xs : List ℝ) : ℝ := Real.sqrt (mean (xs.map fun x => (x - mean xs) ^ 2))

/-- `np.percentile`, in percent. -/
noncomputable def percentile (xs : List ℝ) (q : ℝ) : ℝ := interpolated xs (q / 100)

/-- The values below a threshold. -/
noncomputable def below (threshold : ℝ) (xs : List ℝ) : List ℝ := xs.filter fun x => x < threshold

structure VaRCalculator where
  confidenceLevel : ℝ
  timeHorizon : ℝ

namespace VaRCalculator

variable (calculator : VaRCalculator) (returns : List ℝ) (confidenceLevel timeHorizon : Option ℝ)

noncomputable def calculateHistoricalVar : VaRResult :=
  let cl := orDefault confidenceLevel calculator.confidenceLevel
  let th := orDefault timeHorizon calculator.timeHorizon
  let var := percentile returns ((1 - cl) * 100)
  { varValue := var * Real.sqrt th
    confidenceLevel := cl
    timeHorizon := th
    method := "historical" }

noncomputable def calculateParametricVar (stats : Statistics) : VaRResult :=
  let cl := orDefault confidenceLevel calculator.confidenceLevel
  let th := orDefault timeHorizon calculator.timeHorizon
  let zScore := stats.normPpf (1 - cl)
  { varValue := mean returns * th + zScore * std returns * Real.sqrt th
    confidenceLevel := cl
    timeHorizon := th
    method := "parametric" }

noncomputable def calculateMonteCarloVar (stats : Statistics) (simulations : ℕ) : VaRResult :=
  let cl := orDefault confidenceLevel calculator.confidenceLevel
  let th := orDefault timeHorizon calculator.timeHorizon
  let simulated := stats.normal (mean returns) (std returns) simulations
  let var := percentile simulated ((1 - cl) * 100)
  { varValue := var * Real.sqrt th
    confidenceLevel := cl
    timeHorizon := th
    method := "monte_carlo" }

end VaRCalculator

structure CVaRCalculator where
  confidenceLevel : ℝ
  timeHorizon : ℝ

namespace CVaRCalculator

/-- The calculator of the value at risk that goes with one of what lies beyond. -/
def varCalculator (calculator : CVaRCalculator) : VaRCalculator where
  confidenceLevel := calculator.confidenceLevel
  timeHorizon := calculator.timeHorizon

/-- The number of simulated returns. -/
def nSimulations : ℕ := 10000

variable (calculator : CVaRCalculator) (stats : Statistics) (returns : List ℝ)

noncomputable def calcVar (cl th : ℝ) (method : String) : Except PyException VaRResult :=
  if method = "historical" then
    .ok (calculator.varCalculator.calculateHistoricalVar returns (some cl) (some th))
  else if method = "parametric" then
    .ok (calculator.varCalculator.calculateParametricVar returns (some cl) (some th) stats)
  else if method = "monte_carlo" then
    .ok (calculator.varCalculator.calculateMonteCarloVar returns (some cl) (some th) stats nSimulations)
  else .error .valueError

/-- The mean of the values below the unscaled value at risk, or else the value at risk, scaled. -/
noncomputable def tailMean (values : List ℝ) (varResult : VaRResult) (th : ℝ) : ℝ :=
  let varThreshold := varResult.varValue / Real.sqrt th
  let tailReturns := below varThreshold values
  let cvar := if 0 < tailReturns.length then mean tailReturns else varResult.varValue
  cvar * Real.sqrt th

noncomputable def cvarHistorical (varResult : VaRResult) (th : ℝ) : ℝ := tailMean returns varResult th

noncomputable def cvarParametric (cl th : ℝ) : ℝ :=
  let zScore := stats.normPpf (1 - cl)
  mean returns * th - std returns * Real.sqrt th * (stats.normPdf zScore / (1 - cl))

noncomputable def cvarMonteCarlo (varResult : VaRResult) (th : ℝ) : ℝ :=
  tailMean (stats.normal (mean returns) (std returns) nSimulations) varResult th

noncomputable def calcCvarTail (varResult : VaRResult) (cl th : ℝ) (method : String) : ℝ :=
  if method = "historical" then cvarHistorical returns varResult th
  else if method = "parametric" then cvarParametric stats returns cl th
  else cvarMonteCarlo stats returns varResult th

noncomputable def calculateCvar (confidenceLevel timeHorizon : Option ℝ) (method : String) :
    Except PyException CVaRResult :=
  let cl := orDefault confidenceLevel calculator.confidenceLevel
  let th := orDefault timeHorizon calculator.timeHorizon
  match calculator.calcVar stats returns cl th method with
  | .error e => .error e
  | .ok varResult =>
    .ok
      { cvarValue := calcCvarTail stats returns varResult cl th method
        varValue := varResult.varValue
        confidenceLevel := cl
        timeHorizon := th
        method := method }

/-! ### The historical method -/

section Historical

variable {calculator stats returns} {confidenceLevel timeHorizon : Option ℝ} {cl th least : ℝ}

/-- The quantile of the returns that is the value at risk of one period. -/
noncomputable def quantile (returns : List ℝ) (cl : ℝ) : ℝ := interpolated returns (1 - cl)

/-- What lies beyond the value at risk of one period: the mean of the returns below it, or itself. -/
noncomputable def shortfall (returns : List ℝ) (cl : ℝ) : ℝ :=
  if below (quantile returns cl) returns = [] then quantile returns cl
  else mean (below (quantile returns cl) returns)

theorem orDefault_some {x : ℝ} (h : x ≠ 0) (default : ℝ) : orDefault (some x) default = x := by
  rw [orDefault, if_neg]
  · rfl
  · rintro (hnone | hzero)
    · cases hnone
    · exact h (Option.some.inj hzero)

theorem calculateCvar_historical (hcl : orDefault confidenceLevel calculator.confidenceLevel = cl)
    (hth : orDefault timeHorizon calculator.timeHorizon = th) (hpos : 0 < cl) (hthpos : 0 < th) :
    calculator.calculateCvar stats returns confidenceLevel timeHorizon "historical" = .ok
        { cvarValue := (if below (quantile returns cl) returns = [] then
              quantile returns cl * Real.sqrt th else mean (below (quantile returns cl) returns)) * Real.sqrt th
          varValue := quantile returns cl * Real.sqrt th
          confidenceLevel := cl
          timeHorizon := th
          method := "historical" } := by
  have hroot : Real.sqrt th ≠ 0 := (Real.sqrt_pos.mpr hthpos).ne'
  have hlevel := orDefault_some hpos.ne' calculator.confidenceLevel
  have hhorizon := orDefault_some hthpos.ne' calculator.timeHorizon
  have hshare : (1 - cl) * 100 / 100 = 1 - cl := mul_div_cancel_right₀ _ (by norm_num)
  have hvar : calculator.varCalculator.calculateHistoricalVar returns (some cl) (some th) =
      { varValue := quantile returns cl * Real.sqrt th
        confidenceLevel := cl
        timeHorizon := th
        method := "historical" } := by
    rw [VaRCalculator.calculateHistoricalVar, varCalculator]
    simp only [hlevel, hhorizon, percentile, hshare, quantile]
  rw [calculateCvar, hcl, hth]
  simp only [calcVar, if_true, hvar, calcCvarTail, cvarHistorical, tailMean, mul_div_cancel_right₀ _ hroot]
  by_cases hnone : below (quantile returns cl) returns = []
  · rw [if_pos hnone, if_neg (by simp [hnone])]
  · rw [if_neg hnone, if_pos (List.length_pos_iff.mpr hnone)]

/-- Some return is below the value at risk exactly if its position is beyond the copies of the least one. -/
theorem below_quantile_ne_nil_iff (h : IsLeast {r | r ∈ returns} least) (hpos : 0 ≤ cl) (hlt : cl ≤ 1) :
    below (quantile returns cl) returns ≠ [] ↔
      returns.count least ≤ ⌈(1 - cl) * ((returns.length - 1 : ℕ) : ℝ)⌉₊ := by
  rw [← lt_interpolated_iff h (sub_nonneg.mpr hlt) (by linarith), ← quantile]
  constructor
  · intro hsome
    obtain ⟨r, hr⟩ := List.exists_mem_of_ne_nil _ hsome
    obtain ⟨hmem, hbelow⟩ := List.mem_filter.mp hr
    exact (h.2 hmem).trans_lt (by simpa using hbelow)
  · intro hbelow
    exact List.ne_nil_of_mem (List.mem_filter.mpr ⟨h.1, by simpa using hbelow⟩)

theorem quantile_of_none_below (h : IsLeast {r | r ∈ returns} least) (hlt : cl ≤ 1)
    (hnone : below (quantile returns cl) returns = []) : quantile returns cl = least := by
  refine le_antisymm ?_ (le_interpolated h (sub_nonneg.mpr hlt))
  by_contra hbelow
  have hmem : least ∈ below (quantile returns cl) returns :=
    List.mem_filter.mpr ⟨h.1, by simpa using hbelow⟩
  rw [hnone] at hmem
  cases hmem

theorem mean_below_lt {threshold : ℝ} {xs : List ℝ} (hne : below threshold xs ≠ []) :
    mean (below threshold xs) < threshold := by
  have hpos : (0 : ℝ) < (below threshold xs).length := by exact_mod_cast List.length_pos_iff.mpr hne
  have hlt : ∀ x ∈ below threshold xs, x < threshold := by
    intro x hx
    simpa using (List.mem_filter.mp hx).2
  have hsum := List.sum_lt_sum_of_ne_nil hne id (fun _ => threshold) hlt
  rw [List.map_id, List.map_const', List.sum_replicate, nsmul_eq_mul] at hsum
  rw [mean, div_lt_iff₀ hpos]
  linarith

variable (calculator stats returns confidenceLevel timeHorizon cl th) in
/-- The historical method agrees with itself: what it returns is at most the value at risk, and scales from
the mean of the returns below the value at risk of one period, or that itself if there are none. -/
def Consistent : Prop :=
  ∃ result result1, calculator.calculateCvar stats returns confidenceLevel timeHorizon "historical" = .ok result ∧
    calculator.calculateCvar stats returns confidenceLevel (some 1) "historical" = .ok result1 ∧
      result.cvarValue ≤ result.varValue ∧ result.cvarValue = Real.sqrt th * result1.cvarValue ∧
        result1.varValue = quantile returns cl ∧ result1.cvarValue = shortfall returns cl

theorem consistent_iff_below (hcl : orDefault confidenceLevel calculator.confidenceLevel = cl)
    (hth : orDefault timeHorizon calculator.timeHorizon = th) (hpos : 0 < cl) (hthpos : 0 < th) :
    Consistent calculator stats returns confidenceLevel timeHorizon cl th ↔
      th = 1 ∨ quantile returns cl = 0 ∨ below (quantile returns cl) returns ≠ [] := by
  have hroot : 0 < Real.sqrt th := Real.sqrt_pos.mpr hthpos
  rw [Consistent, calculateCvar_historical hcl (orDefault_some one_ne_zero _) hpos one_pos,
    calculateCvar_historical hcl hth hpos hthpos]
  simp only [Except.ok.injEq, exists_and_left, exists_eq_left', Real.sqrt_one, mul_one, shortfall, and_true]
  by_cases hnone : below (quantile returns cl) returns = []
  · simp only [hnone, if_true, ne_eq, not_true_eq_false, or_false]
    constructor
    · rintro ⟨-, hscales⟩
      have hcancel : quantile returns cl * Real.sqrt th = quantile returns cl := by
        refine mul_right_cancel₀ hroot.ne' ?_
        rw [hscales, mul_comm]
      rcases eq_or_ne (quantile returns cl) 0 with hzero | hnonzero
      · exact Or.inr hzero
      · have hunit : Real.sqrt th = 1 := mul_left_cancel₀ hnonzero (by rw [hcancel, mul_one])
        exact Or.inl (Real.sqrt_eq_one.mp hunit)
    · rintro (rfl | hzero)
      · simp
      · simp [hzero]
  · have hmean := mean_below_lt hnone
    simp only [hnone, if_false, ne_eq, not_false_eq_true, or_true, iff_true]
    exact ⟨mul_le_mul_of_nonneg_right hmean.le hroot.le, mul_comm _ _⟩

/-- The historical method is consistent exactly over one period, for a least return of zero, or if the value
at risk is beyond all copies of the least return. -/
theorem consistent_iff (calculator : CVaRCalculator) (stats : Statistics) (returns : List ℝ)
    (confidenceLevel timeHorizon : Option ℝ) {cl th least : ℝ}
    (hcl : orDefault confidenceLevel calculator.confidenceLevel = cl)
    (hth : orDefault timeHorizon calculator.timeHorizon = th) (hpos : 0 < cl) (hlt : cl < 1) (hthpos : 0 < th)
    (hleast : IsLeast {r | r ∈ returns} least) :
    Consistent calculator stats returns confidenceLevel timeHorizon cl th ↔
      th = 1 ∨ least = 0 ∨ returns.count least ≤ ⌈(1 - cl) * ((returns.length - 1 : ℕ) : ℝ)⌉₊ := by
  rw [consistent_iff_below hcl hth hpos hthpos, ← below_quantile_ne_nil_iff hleast hpos.le hlt.le]
  by_cases hnone : below (quantile returns cl) returns = []
  · rw [quantile_of_none_below hleast hlt.le hnone]
  · simp only [ne_eq, hnone, not_false_eq_true, or_true]

theorem isLeast_loss : IsLeast {r : ℝ | r ∈ [-1 / 10, 1 / 10, 1 / 2]} (-1 / 10) := by
  refine ⟨by simp, fun r hr => ?_⟩
  rcases List.mem_cons.mp hr with rfl | hr
  · exact le_rfl
  rcases List.mem_cons.mp hr with rfl | hr
  · norm_num
  · rw [List.mem_singleton.mp hr]
    norm_num

/-- One loss among three returns, over ten periods. -/
theorem consistent_iff_loss : Consistent ⟨3 / 4, 1⟩ ⟨id, id, fun m _ n => List.replicate n m⟩
    [-1 / 10, 1 / 10, 1 / 2] none (some 10) (3 / 4) 10 := by
  refine (consistent_iff ⟨3 / 4, 1⟩ _ _ none (some 10) (if_pos (Or.inl rfl))
    (orDefault_some (by norm_num) _) (by norm_num) (by norm_num) (by norm_num) isLeast_loss).mpr
      (Or.inr (Or.inr ?_))
  norm_num

/-- A single return, over four periods: it is scaled twice. -/
theorem not_consistent_single : ¬ Consistent ⟨3 / 4, 1⟩ ⟨id, id, fun m _ n => List.replicate n m⟩
    [-1 / 10] none (some 4) (3 / 4) 4 := by
  have hquantile : quantile [-1 / 10] (3 / 4) = -1 / 10 := by
    norm_num [quantile, interpolated, orderStatistic]
  rw [consistent_iff_below (if_pos (Or.inl rfl)) (orDefault_some (by norm_num) _) (by norm_num) (by norm_num),
    hquantile]
  norm_num [below]

end Historical

end CVaRCalculator

end TradingSim.Bot.Cvar
