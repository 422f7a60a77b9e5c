import Mathlib.Tactic.Linarith
import Mathlib.Tactic.Positivity
import TradingSim.Exchange.Numerics

/-!
# Position sizing with the Kelly criterion

A position risks a fraction of the balance that grows with the confidence, between a floor and a cap, and its
notional is capped as well. The confidence is a fraction up to one and a percentage above: the quantity grows
with it on each of the two scales, but not always from the one to the other.
-/

namespace TradingSim.Bot.Kelly

open Exchange (fixedText)

structure KellyResult where
  quantity : ℚ
  riskAmount : ℚ
  kellyFraction : ℚ
  rawKelly : ℚ
  adjustedKelly : ℚ
  reason : String

structure KellyPositionSizer where
  winRate : ℚ := 1 / 2
  avgWin : ℚ := 100
  avgLoss : ℚ := 100
  kellyFraction : ℚ := 1 / 2
  maxRiskPct : ℚ := 5
  minRiskPct : ℚ := 1 / 2
  maxPositionPct : ℚ := 100

namespace KellyPositionSizer

variable (sizer : KellyPositionSizer)

/-- The raw Kelly fraction, zero without an edge. -/
def computeKelly : ℚ :=
  let p := sizer.winRate
  let q := 1 - p
  let b := if 0 < sizer.avgLoss then sizer.avgWin / sizer.avgLoss else 0
  if b ≤ 0 then 0 else max 0 ((p * b - q) / b)

def confidenceFactor (confidence : ℚ) : ℚ :=
  if 1 < confidence then max (1 / 10) (min 1 (confidence / 100)) else confidence

/-- `_adjust_kelly`: the adjusted fraction and the factor. -/
def adjustKelly (rawKelly confidence : ℚ) : ℚ × ℚ :=
  (rawKelly * sizer.kellyFraction * confidenceFactor confidence, confidenceFactor confidence)

def computeRiskAmount (balance adjusted factor : ℚ) : ℚ :=
  let riskPct := min (adjusted * 100) sizer.maxRiskPct
  let riskPct := if 0 < adjusted ∧ 1 / 2 ≤ factor then max riskPct sizer.minRiskPct else riskPct
  balance * riskPct / 100

/-- `_cap_position`: quantity, risk and reason. -/
def capPosition (str : ℚ → String) (riskAmount riskPerUnit entryPrice balance factor rawKelly adjusted : ℚ) :
    ℚ × ℚ × String :=
  let quantity := riskAmount / riskPerUnit
  let effectiveMaxPositionPct := sizer.maxPositionPct * factor
  let maxNotional := balance * effectiveMaxPositionPct / 100
  let maxQty := if 0 < entryPrice then maxNotional / entryPrice else 0
  if maxQty < quantity then
    (maxQty, maxQty * riskPerUnit, "Kelly: " ++ fixedText rawKelly 3 ++ " → " ++ fixedText adjusted 3 ++
      " (Capped at max position " ++ fixedText effectiveMaxPositionPct 1 ++ "%)")
  else
    (quantity, riskAmount, "Kelly: " ++ fixedText rawKelly 3 ++ " → " ++ fixedText adjusted 3 ++
      " (fraction=" ++ str sizer.kellyFraction ++ ")")

/-- The size of a position; `str` is how a number prints by default. -/
def calculate (str : ℚ → String) (balance entryPrice stopLoss confidence : ℚ) : KellyResult :=
  let rawKelly := sizer.computeKelly
  if rawKelly ≤ 0 then
    { quantity := 0
      riskAmount := 0
      kellyFraction := sizer.kellyFraction
      rawKelly := rawKelly
      adjustedKelly := 0
      reason := "No edge (Kelly <= 0)" }
  else
    let (adjusted, factor) := sizer.adjustKelly rawKelly confidence
    let riskAmount := sizer.computeRiskAmount balance adjusted factor
    let riskPerUnit := |entryPrice - stopLoss|
    if riskPerUnit ≤ 0 then
      { quantity := 0
        riskAmount := 0
        kellyFraction := sizer.kellyFraction
        rawKelly := rawKelly
        adjustedKelly := adjusted
        reason := "Invalid stop loss distance" }
    else
      let (quantity, riskAmount, reason) :=
        sizer.capPosition str riskAmount riskPerUnit entryPrice balance factor rawKelly adjusted
      { quantity := quantity
        riskAmount := riskAmount
        kellyFraction := sizer.kellyFraction
        rawKelly := rawKelly
        adjustedKelly := adjusted
        reason := reason }

/-! ### The factor -/

section Factor

variable {a b : ℚ}

theorem confidenceFactor_le_one (confidence : ℚ) : confidenceFactor confidence ≤ 1 := by
  rw [confidenceFactor]
  split_ifs with hpercent
  · exact max_le (by norm_num) (min_le_left _ _)
  · exact not_lt.mp hpercent

/-- The confidence does not fall from a fraction to a smaller percentage. -/
def SameScale (a b : ℚ) : Prop := b ≤ 1 ∨ 1 < a ∨ a ≤ max (1 / 10) (b / 100)

theorem confidenceFactor_mono (hle : a ≤ b) (htop : b ≤ 100) (hscale : SameScale a b) :
    confidenceFactor a ≤ confidenceFactor b := by
  have hpercent (x : ℚ) (hx : x ≤ 100) : min 1 (x / 100) = x / 100 := min_eq_right (by linarith)
  by_cases ha : 1 < a
  · rw [confidenceFactor, if_pos ha, confidenceFactor, if_pos (ha.trans_le hle), hpercent a (hle.trans htop),
      hpercent b htop]
    exact max_le_max le_rfl (by linarith)
  by_cases hb : 1 < b
  · rw [confidenceFactor, if_neg ha, confidenceFactor, if_pos hb, hpercent b htop]
    exact (hscale.resolve_left (not_le.mpr hb)).resolve_left ha
  · rw [confidenceFactor, if_neg ha, confidenceFactor, if_neg hb]
    exact hle

end Factor

/-! ### The size -/

/-- A sizer with statistics of trades and percentages. -/
structure Valid : Prop where
  winRate_nonneg : 0 ≤ sizer.winRate
  winRate_le : sizer.winRate ≤ 1
  avgWin_pos : 0 < sizer.avgWin
  avgLoss_pos : 0 < sizer.avgLoss
  kellyFraction_pos : 0 < sizer.kellyFraction
  minRiskPct_nonneg : 0 ≤ sizer.minRiskPct
  minRiskPct_le : sizer.minRiskPct ≤ sizer.maxRiskPct
  maxPositionPct_nonneg : 0 ≤ sizer.maxPositionPct

variable {sizer} {str : ℚ → String} {balance entryPrice stopLoss confidence a b factor factor' rate : ℚ}

/-- The percentage that is risked at a factor, for a rate of the adjusted fraction to the factor. -/
theorem computeRiskAmount_mono (hbalance : 0 < balance) (hrate : 0 < rate) (hle : factor ≤ factor') :
    sizer.computeRiskAmount balance (rate * factor) factor ≤
      sizer.computeRiskAmount balance (rate * factor') factor' := by
  have hscaled : min (rate * factor * 100) sizer.maxRiskPct ≤ min (rate * factor' * 100) sizer.maxRiskPct :=
    min_le_min (mul_le_mul_of_nonneg_right (mul_le_mul_of_nonneg_left hle hrate.le) (by norm_num)) le_rfl
  have hpct : (if 0 < rate * factor ∧ 1 / 2 ≤ factor then
        max (min (rate * factor * 100) sizer.maxRiskPct) sizer.minRiskPct
      else min (rate * factor * 100) sizer.maxRiskPct) ≤
      if 0 < rate * factor' ∧ 1 / 2 ≤ factor' then
        max (min (rate * factor' * 100) sizer.maxRiskPct) sizer.minRiskPct
      else min (rate * factor' * 100) sizer.maxRiskPct := by
    by_cases hfloor : 0 < rate * factor ∧ 1 / 2 ≤ factor
    · have hfloor' : 0 < rate * factor' ∧ 1 / 2 ≤ factor' :=
        ⟨hfloor.1.trans_le (mul_le_mul_of_nonneg_left hle hrate.le), hfloor.2.trans hle⟩
      rw [if_pos hfloor, if_pos hfloor']
      exact max_le_max hscaled le_rfl
    · split_ifs
      · exact hscaled.trans (le_max_left _ _)
      · exact hscaled
  exact div_le_div_of_nonneg_right (mul_le_mul_of_nonneg_left hpct hbalance.le) (by norm_num)

theorem computeRiskAmount_le (h : sizer.Valid) (hbalance : 0 < balance) (adjusted factor : ℚ) :
    sizer.computeRiskAmount balance adjusted factor ≤ balance * sizer.maxRiskPct / 100 := by
  have hpct : (if 0 < adjusted ∧ 1 / 2 ≤ factor then
        max (min (adjusted * 100) sizer.maxRiskPct) sizer.minRiskPct
      else min (adjusted * 100) sizer.maxRiskPct) ≤ sizer.maxRiskPct := by
    split_ifs
    · exact max_le (min_le_right _ _) h.minRiskPct_le
    · exact min_le_right _ _
  exact div_le_div_of_nonneg_right (mul_le_mul_of_nonneg_left hpct hbalance.le) (by norm_num)

/-- The largest quantity at a factor. -/
def maxQuantity (sizer : KellyPositionSizer) (balance entryPrice factor : ℚ) : ℚ :=
  balance * (sizer.maxPositionPct * factor) / 100 / entryPrice

theorem capPosition_eq (hentry : 0 < entryPrice) {riskPerUnit : ℚ} (hrisk : 0 < riskPerUnit)
    (riskAmount rawKelly adjusted : ℚ) :
    (sizer.capPosition str riskAmount riskPerUnit entryPrice balance factor rawKelly adjusted).1 =
        min (riskAmount / riskPerUnit) (sizer.maxQuantity balance entryPrice factor) ∧
      (sizer.capPosition str riskAmount riskPerUnit entryPrice balance factor rawKelly adjusted).2.1 =
        (sizer.capPosition str riskAmount riskPerUnit entryPrice balance factor rawKelly adjusted).1 *
          riskPerUnit := by
  simp only [capPosition, if_pos hentry, maxQuantity]
  split_ifs with hcapped
  · exact ⟨(min_eq_right hcapped.le).symm, rfl⟩
  · exact ⟨(min_eq_left (not_lt.mp hcapped)).symm, (div_mul_cancel₀ _ hrisk.ne').symm⟩

/-- What `calculate` returns: nothing without an edge, and else what the risk allows, up to the cap. -/
theorem calculate_eq (hentry : 0 < entryPrice) (hstop : stopLoss ≠ entryPrice) (confidence : ℚ) :
    (sizer.calculate str balance entryPrice stopLoss confidence).quantity =
        (if sizer.computeKelly ≤ 0 then 0
        else min (sizer.computeRiskAmount balance (sizer.computeKelly * sizer.kellyFraction *
            confidenceFactor confidence) (confidenceFactor confidence) / |entryPrice - stopLoss|)
          (sizer.maxQuantity balance entryPrice (confidenceFactor confidence))) ∧
      (sizer.calculate str balance entryPrice stopLoss confidence).riskAmount =
        (sizer.calculate str balance entryPrice stopLoss confidence).quantity * |entryPrice - stopLoss| := by
  have hrisk : 0 < |entryPrice - stopLoss| := abs_pos.mpr (sub_ne_zero.mpr hstop.symm)
  by_cases hedge : sizer.computeKelly ≤ 0
  · simp only [calculate, if_pos hedge, zero_mul, and_self]
  · simp only [calculate, if_neg hedge, adjustKelly, if_neg (not_le.mpr hrisk)]
    exact capPosition_eq hentry hrisk _ _ _

theorem maxQuantity_mono (h : sizer.Valid) (hbalance : 0 < balance) (hentry : 0 < entryPrice)
    (hle : factor ≤ factor') :
    sizer.maxQuantity balance entryPrice factor ≤ sizer.maxQuantity balance entryPrice factor' := by
  have hpct := mul_le_mul_of_nonneg_left (mul_le_mul_of_nonneg_left hle h.maxPositionPct_nonneg) hbalance.le
  exact div_le_div_of_nonneg_right (div_le_div_of_nonneg_right hpct (by norm_num)) hentry.le

theorem quantity_mono (h : sizer.Valid) (hbalance : 0 < balance) (hentry : 0 < entryPrice)
    (hstop : stopLoss ≠ entryPrice) (hle : confidenceFactor a ≤ confidenceFactor b) :
    (sizer.calculate str balance entryPrice stopLoss a).quantity ≤
      (sizer.calculate str balance entryPrice stopLoss b).quantity := by
  rw [(calculate_eq hentry hstop a).1, (calculate_eq hentry hstop b).1]
  by_cases hedge : sizer.computeKelly ≤ 0
  · rw [if_pos hedge, if_pos hedge]
  · rw [if_neg hedge, if_neg hedge]
    have hrate : 0 < sizer.computeKelly * sizer.kellyFraction :=
      mul_pos (not_le.mp hedge) h.kellyFraction_pos
    exact min_le_min (div_le_div_of_nonneg_right (computeRiskAmount_mono hbalance hrate hle) (abs_nonneg _))
      (maxQuantity_mono h hbalance hentry hle)

theorem notional_le (h : sizer.Valid) (hbalance : 0 < balance) (hentry : 0 < entryPrice)
    (hstop : stopLoss ≠ entryPrice) (confidence : ℚ) :
    (sizer.calculate str balance entryPrice stopLoss confidence).quantity * entryPrice ≤
      balance * sizer.maxPositionPct / 100 := by
  rw [(calculate_eq hentry hstop confidence).1]
  split_ifs with hedge
  · rw [zero_mul]
    have hcap := mul_nonneg hbalance.le h.maxPositionPct_nonneg
    positivity
  · rw [← le_div_iff₀ hentry]
    refine (min_le_right _ _).trans ((maxQuantity_mono h hbalance hentry (confidenceFactor_le_one _)).trans ?_)
    rw [maxQuantity, mul_one]

theorem riskAmount_le (h : sizer.Valid) (hbalance : 0 < balance) (hentry : 0 < entryPrice)
    (hstop : stopLoss ≠ entryPrice) (confidence : ℚ) :
    (sizer.calculate str balance entryPrice stopLoss confidence).riskAmount ≤
      balance * sizer.maxRiskPct / 100 := by
  have hrisk : 0 < |entryPrice - stopLoss| := abs_pos.mpr (sub_ne_zero.mpr hstop.symm)
  rw [(calculate_eq hentry hstop confidence).2, (calculate_eq hentry hstop confidence).1]
  split_ifs with hedge
  · rw [zero_mul]
    have hcap := mul_nonneg hbalance.le (h.minRiskPct_nonneg.trans h.minRiskPct_le)
    positivity
  · rw [← le_div_iff₀ hrisk]
    exact (min_le_left _ _).trans
      (div_le_div_of_nonneg_right (computeRiskAmount_le h hbalance _ _) hrisk.le)

/-- **Kelly sizing.** On each scale of the confidence, and from a fraction to a percentage that is not
smaller, the quantity does not decrease; notional and risk are capped. -/
theorem sizing_capped (sizer : KellyPositionSizer) (str : ℚ → String) (balance entryPrice stopLoss : ℚ)
    (h : sizer.Valid) (hbalance : 0 < balance) (hentry : 0 < entryPrice) (hstop : stopLoss ≠ entryPrice) :
    (∀ a b, 0 ≤ a → a ≤ b → b ≤ 100 → SameScale a b →
      (sizer.calculate str balance entryPrice stopLoss a).quantity ≤
        (sizer.calculate str balance entryPrice stopLoss b).quantity) ∧
      ∀ confidence, 0 ≤ confidence → confidence ≤ 100 →
        (sizer.calculate str balance entryPrice stopLoss confidence).quantity * entryPrice ≤
            balance * sizer.maxPositionPct / 100 ∧
          (sizer.calculate str balance entryPrice stopLoss confidence).riskAmount =
              (sizer.calculate str balance entryPrice stopLoss confidence).quantity * |entryPrice - stopLoss| ∧
            (sizer.calculate str balance entryPrice stopLoss confidence).riskAmount ≤
              balance * sizer.maxRiskPct / 100 := by
  constructor
  · intro a b _ hle htop hscale
    exact quantity_mono h hbalance hentry hstop (confidenceFactor_mono hle htop hscale)
  · intro confidence _ _
    exact ⟨notional_le h hbalance hentry hstop confidence, (calculate_eq hentry hstop confidence).2,
      riskAmount_le h hbalance hentry hstop confidence⟩

/-- Six wins of ten, a stop two percent away. -/
theorem sizing_capped_winning : Valid { winRate := 6 / 10 } ∧ (0 : ℚ) < 10000 ∧ (98 : ℚ) ≠ 100 ∧
      (calculate { winRate := 6 / 10 } (fixedText · 1) 10000 100 98 40).quantity * 100 ≤ 10000 * 100 / 100 := by
  have hvalid : Valid { winRate := 6 / 10 } := by
    constructor <;> norm_num
  exact ⟨hvalid, by norm_num, by norm_num, ((sizing_capped { winRate := 6 / 10 } (fixedText · 1) 10000 100 98
    hvalid (by norm_num) (by norm_num) (by norm_num)).2 40 (by norm_num) (by norm_num)).1⟩

/-- From a confidence of one, which is a fraction, to one of two percent the quantity decreases; and with a
negative cap the notional is above it. -/
theorem quantity_decreases : (calculate { winRate := 6 / 10 } (fixedText · 1) 10000 100 98 2).quantity <
        (calculate { winRate := 6 / 10 } (fixedText · 1) 10000 100 98 1).quantity ∧
      10000 * (-1 : ℚ) / 100 <
        (calculate { winRate := 6 / 10, maxPositionPct := -1 } (fixedText · 1) 10000 100 98 (1 / 2)).quantity *
          100 := by
  have hentry : (0 : ℚ) < 100 := by norm_num
  have hstop : (98 : ℚ) ≠ 100 := by norm_num
  rw [(calculate_eq hentry hstop 2).1, (calculate_eq hentry hstop 1).1, (calculate_eq hentry hstop (1 / 2)).1]
  norm_num [computeKelly, computeRiskAmount, maxQuantity, confidenceFactor]

end KellyPositionSizer

end TradingSim.Bot.Kelly
