import Mathlib.Algebra.Order.Group.Unbundled.Abs
import TradingSim.Bot.Callbacks

/-!
# The bot's risk manager

A signal is checked against the confidence, the reward to risk ratio, the number of engaged
symbols and the day's drawdown; an order is checked again before it is sent. The checks read the
exposure and the daily profit that the fill callbacks and the main loop keep up to date.
-/

namespace TradingSim.Bot

open Foundations
open Exchange (Side)

/-- The limits of the risk manager. -/
structure RiskParams where
  maxRiskPerTradePct : ℚ := 2
  maxDailyDrawdownPct : ℚ := 8
  minConfidence : ℚ := 65
  minRrRatio : ℚ := 3 / 2
  maxPositionSizePct : ℚ := 10
  maxOpenPositions : ℤ := 3
  maxPositionQty : ℚ := 10
  maxTotalExposure : ℚ := 100000
  dailyLossLimit : ℚ := 5000
  maxDrawdownPct : ℚ := 15 / 100
  maxOrdersPerSecond : ℤ := 50
  maxLeverage : ℚ := 20
  blacklistedSymbols : Finset String := ∅
  perSymbolMaxQty : Dict String ℚ := Dict.empty

/-- What the risk manager keeps besides the exposure and the daily profit: the peak equity and the window of
the order rate. -/
structure RiskGauges where
  peakEquity : ℚ := 0
  ordersThisSecond : ℤ := 0
  rateWindowStart : ℤ := 0
  deriving DecidableEq

/-- The outcome of a check. -/
structure CheckResult where
  passed : Bool
  reason : String
  code : ℕ
  deriving DecidableEq

/-- A signal with its confidence and leverage. -/
structure RatedSignal extends Signal where
  confidence : ℚ := 0
  leverage : ℕ := 1
  deriving DecidableEq

/-- The reward to risk ratio of a signal, zero if it risks nothing. -/
def RatedSignal.rrRatio (signal : RatedSignal) : ℚ :=
  match signal.direction with
  | .long =>
    let risk := signal.entryPrice - signal.stopLoss
    if 0 < risk then (signal.takeProfit - signal.entryPrice) / risk else 0
  | .short =>
    let risk := signal.stopLoss - signal.entryPrice
    if 0 < risk then (signal.entryPrice - signal.takeProfit) / risk else 0
  | .neutral => 0

namespace RiskParams

variable (p : RiskParams)

/-- The signal-level check. -/
def checkSignal (r : RiskManager) (signal : RatedSignal) (balance : ℚ) (openPositions : ℤ) : CheckResult :=
  if signal.confidence < p.minConfidence then ⟨false, "Confidence below minimum", 0⟩
  else if signal.rrRatio < p.minRrRatio then ⟨false, "R:R below minimum", 0⟩
  else if p.maxOpenPositions ≤ openPositions then ⟨false, "Max positions reached", 1⟩
  else if r.dailyPnl < 0 ∧ 0 < balance ∧
      p.maxDailyDrawdownPct ≤ |r.dailyPnl| / balance * 100 then
    ⟨false, "Daily drawdown limit reached", 3⟩
  else ⟨true, "OK", 0⟩

/-- The largest quantity of a symbol. -/
def maxQty (symbol : String) : ℚ := (p.perSymbolMaxQty.find? symbol).getD p.maxPositionQty

/-- Count an order against the rate limit; a second after it began, the window starts anew. -/
def countOrder (g : RiskGauges) (now : ℤ) : RiskGauges :=
  if 1000000000 ≤ now - g.rateWindowStart then
    { g with rateWindowStart := now, ordersThisSecond := 1 }
  else { g with ordersThisSecond := g.ordersThisSecond + 1 }

/-- The check before an order is sent. -/
def checkOrder (r : RiskManager) (g : RiskGauges) (symbol : String) (side : Side)
    (quantity price : ℚ) (leverage : ℤ) (currentEquity availableMargin currentPositionQty : ℚ)
    (now : ℤ) : CheckResult × RiskGauges :=
  let newPositionQty := match side with
    | .buy => currentPositionQty + quantity
    | .sell => currentPositionQty - quantity
  let orderNotional := quantity * price
  if symbol ∈ p.blacklistedSymbols then (⟨false, "Symbol blacklisted", 6⟩, g)
  else if p.maxLeverage < leverage then (⟨false, "Leverage exceeds max", 7⟩, g)
  else if p.maxQty symbol < |newPositionQty| then (⟨false, "Position size exceeds limit", 1⟩, g)
  else if p.maxTotalExposure < r.totalExposure + orderNotional then
    (⟨false, "Total exposure exceeds limit", 2⟩, g)
  else if r.dailyPnl < -p.dailyLossLimit then (⟨false, "Daily loss limit reached", 3⟩, g)
  else if 0 < g.peakEquity ∧ p.maxDrawdownPct < 1 - currentEquity / g.peakEquity then
    (⟨false, "Max drawdown exceeded", 3⟩, g)
  else
    let counted := countOrder g now
    if p.maxOrdersPerSecond < counted.ordersThisSecond then
      (⟨false, "Order rate limit exceeded", 4⟩, counted)
    else if availableMargin < orderNotional / max 1 leverage then
      (⟨false, "Insufficient margin", 5⟩, counted)
    else (⟨true, "OK", 0⟩, counted)

theorem fits_of_checkOrder {r : RiskManager} {g : RiskGauges} {symbol : String} {side : Side}
    {quantity price : ℚ} {leverage : ℤ} {currentEquity availableMargin currentPositionQty : ℚ}
    {now : ℤ} (h : (p.checkOrder r g symbol side quantity price leverage currentEquity
      availableMargin currentPositionQty now).1.passed = true) :
    r.totalExposure + quantity * price ≤ p.maxTotalExposure := by
  by_contra hexceeds
  have hfails : (p.checkOrder r g symbol side quantity price leverage currentEquity
      availableMargin currentPositionQty now).1.passed = false := by
    unfold checkOrder
    simp only [not_le.mp hexceeds, if_true]
    split_ifs <;> rfl
  rw [hfails] at h
  cases h

/-- The quantity that risks the configured part of the balance, capped by the position size. -/
def calculatePositionSize (signal : RatedSignal) (balance : ℚ) : ℚ :=
  let riskAmount := balance * p.maxRiskPerTradePct * (1 / 100)
  let riskPerUnit := |signal.entryPrice - signal.stopLoss|
  if riskPerUnit ≤ 0 then 0
  else
    let maxNotional := balance * p.maxPositionSizePct * (1 / 100)
    if signal.entryPrice ≤ 0 then 0
    else min (riskAmount / riskPerUnit) (maxNotional / signal.entryPrice)

end RiskParams

end TradingSim.Bot
