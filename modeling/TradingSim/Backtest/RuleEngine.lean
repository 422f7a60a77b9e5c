import TradingSim.Foundations.Loops
import TradingSim.Foundations.FloatOps
import Mathlib.Data.List.GetD

/-!
# The rule backtests of the dashboard

The indicators are computed for the whole series first. The loop over the bars then evaluates the
rules on the bar before and fills what they ask for at the close of the bar.

A period may be any number that is entered. The loops of the indicators count from it, so an
indicator is a function of the numbers that its array has been written at, which is none anywhere
else. The ratios that are computed from the trades and the equity curve afterwards are left out.
-/

namespace TradingSim.Backtest.RuleEngine

open Foundations
open FloatOps

variable {F : Type} [FloatOps F]

structure Candle (F : Type) where
  time : F
  «open» : F
  high : F
  low : F
  close : F
  volume : F

/-- The conditions of rules, any other text being `unknown`. -/
inductive Condition
  | priceAbove
  | priceBelow
  | rsiAbove
  | rsiBelow
  | emaCrossUp
  | emaCrossDown
  | volumeSpike
  | priceChange5
  | unknown

/-- The actions of rules, any other text being `unknown`. -/
inductive RuleAction
  | buy
  | sell
  | closeAll
  | alert
  | unknown

structure Rule (F : Type) where
  condition : Condition
  value : F
  action : RuleAction

structure Options (F : Type) where
  initialBalance : F
  feePct : F
  slippagePct : F
  borrowFeePct : F
  positionSizePct : F
  emaFastPeriod : ℚ
  emaSlowPeriod : ℚ
  rsiPeriod : ℚ

/-- The options that are not given. -/
def Options.default : Options F where
  initialBalance := lit 10000
  feePct := lit (75 / 1000)
  slippagePct := lit (5 / 100)
  borrowFeePct := lit (1 / 100)
  positionSizePct := lit (1 / 10)
  emaFastPeriod := 9
  emaSlowPeriod := 21
  rsiPeriod := 14

section Indicators

/-- What an array of numbers has at a number. What is not there counts as no number. -/
def numberAt (xs : List F) (x : ℚ) : F := (entryAt xs x).getD nan

/-- An array of a length that has been filled with no numbers. -/
def unfilled : ℚ → F := fun _ => nan

def calcEMA (closes : List F) (period : ℚ) : ℚ → F :=
  let k := lit 2 / (lit period + lit 1)
  if (closes.length : ℚ) < period then unfilled
  else
    let sma :=
      countUp 0 (turnsBelow 0 period) (fun i sma => sma + numberAt closes i) (lit 0) / lit period
    countUp period (turnsBelow period closes.length)
      (fun i ema =>
        Function.update ema i (numberAt closes i * k + ema (i - 1) * (lit 1 - k)))
      (Function.update unfilled (period - 1) sma)

/-- The averages that the loops of `calcRSI` keep, and the array. -/
structure RsiLoop (F : Type) where
  avgGain : F
  avgLoss : F
  rsi : ℚ → F

namespace RsiLoop

/-- Write the index of the averages at a number. -/
def write (r : RsiLoop F) (i : ℚ) : RsiLoop F :=
  { r with
    rsi := Function.update r.rsi i (if isZero r.avgLoss then lit 100
      else lit 100 - lit 100 / (lit 1 + r.avgGain / r.avgLoss)) }

/-- Sum a change into the initial averages. -/
def sum (r : RsiLoop F) (change : F) : RsiLoop F :=
  if le (lit 0) change then { r with avgGain := r.avgGain + change }
  else { r with avgLoss := r.avgLoss + abs change }

/-- Smooth a change into the averages. -/
def smooth (period : ℚ) (r : RsiLoop F) (change : F) : RsiLoop F :=
  let gain := if le (lit 0) change then change else lit 0
  let loss := if lt change (lit 0) then abs change else lit 0
  { r with
    avgGain := (r.avgGain * (lit period - lit 1) + gain) / lit period
    avgLoss := (r.avgLoss * (lit period - lit 1) + loss) / lit period }

end RsiLoop

def calcRSI (closes : List F) (period : ℚ) : ℚ → F :=
  if (closes.length : ℚ) < period + 1 then unfilled
  else
    let change (i : ℚ) := numberAt closes i - numberAt closes (i - 1)
    let summed := countUp 1 (turnsUpTo 1 period) (fun i (r : RsiLoop F) => r.sum (change i))
      ⟨lit 0, lit 0, unfilled⟩
    let seeded : RsiLoop F :=
      { summed with
        avgGain := summed.avgGain / lit period
        avgLoss := summed.avgLoss / lit period }
    (countUp (period + 1) (turnsBelow (period + 1) closes.length)
      (fun i (r : RsiLoop F) => (r.smooth period (change i)).write i) (seeded.write period)).rsi

def avgVolume (volumes : List F) (period : ℕ) : List F :=
  (List.range volumes.length).map fun i =>
    let start := i + 1 - period
    (List.range' start (i + 1 - start)).foldl (fun sum j => sum + volumes.getD j nan) (lit 0) /
      lit (i - start + 1 : ℕ)

structure Indicators (F : Type) where
  emaFast : ℚ → F
  emaSlow : ℚ → F
  rsi : ℚ → F
  volAvg : List F

/-- The indicators of the whole series. -/
def indicators (o : Options F) (candles : List (Candle F)) : Indicators F :=
  let closes := candles.map Candle.close
  { emaFast := calcEMA closes o.emaFastPeriod
    emaSlow := calcEMA closes o.emaSlowPeriod
    rsi := calcRSI closes o.rsiPeriod
    volAvg := avgVolume (candles.map Candle.volume) 20 }

end Indicators

/-- Whether the condition of a rule is met at bar `i`. -/
def matched (candles : List (Candle F)) (i : ℕ) (ind : Indicators F) (candle : Candle F)
    (rule : Rule F) : Bool :=
  let closes := candles.map Candle.close
  match rule.condition with
  | .priceAbove => lt rule.value candle.close
  | .priceBelow => lt candle.close rule.value
  | .rsiAbove => lt rule.value (ind.rsi i)
  | .rsiBelow => lt (ind.rsi i) rule.value
  | .emaCrossUp =>
    decide (0 < i) && lt (ind.emaSlow i) (ind.emaFast i) &&
      le (ind.emaFast (i - 1)) (ind.emaSlow (i - 1))
  | .emaCrossDown =>
    decide (0 < i) && lt (ind.emaFast i) (ind.emaSlow i) &&
      le (ind.emaSlow (i - 1)) (ind.emaFast (i - 1))
  | .volumeSpike =>
    lt (lit 0) (ind.volAvg.getD i nan) && lt (ind.volAvg.getD i nan * rule.value) candle.volume
  | .priceChange5 =>
    let earlier := closes.getD (i - 5) nan
    decide (5 ≤ i) && !isZero earlier &&
      lt rule.value ((candle.close - earlier) / earlier * lit 100)
  | .unknown => false

/-- The rules whose conditions are met at bar `i`. -/
def evaluateConditions (candles : List (Candle F)) (i : ℕ) (ind : Indicators F)
    (rules : List (Rule F)) : List (Rule F) :=
  match candles[i]? with
  | some candle => rules.filter (matched candles i ind candle)
  | none => []

/-- The side of a position. -/
inductive Side
  | long
  | short
  deriving DecidableEq

inductive ExitReason
  | closeAll
  | «end»
  deriving DecidableEq

structure Position (F : Type) where
  side : Side
  entryPrice : F
  qty : F
  entryTime : F

structure Trade (F : Type) where
  entryTime : F
  exitTime : F
  side : Side
  entryPrice : F
  exitPrice : F
  qty : F
  pnl : F
  pnlPct : F
  exitReason : ExitReason

structure Result (F : Type) where
  error : Option String := none
  initialBalance : F
  finalBalance : F
  totalReturnPct : F
  maxDrawdownPct : F
  equityCurve : List F
  trades : List (Trade F)
  maxDrawdownDuration : ℕ

/-- The variables of a run. -/
structure Replay (F : Type) where
  balance : F
  position : Option (Position F) := none
  trades : List (Trade F) := []
  equityCurve : List F := []
  peakEquity : F
  maxDrawdown : F
  maxDrawdownDuration : ℕ := 0
  currentDrawdownDuration : ℕ := 0
  returns : List F := []

namespace Replay

variable (o : Options F) (candle : Candle F) (s : Replay F)

/-- Close the position of a run. -/
def closePosition (position : Position F) (reason : ExitReason) : Replay F :=
  let exitPrice :=
    if position.side = .long then candle.close * (lit 1 - o.slippagePct / lit 100)
    else candle.close * (lit 1 + o.slippagePct / lit 100)
  let pnl :=
    if position.side = .long then (exitPrice - position.entryPrice) * position.qty
    else (position.entryPrice - exitPrice) * position.qty
  let fee := position.qty * exitPrice * o.feePct / lit 100
  let borrowFee :=
    if position.side = .short ∧ lt (lit 0) o.borrowFeePct then
      let holdingDays := (candle.time - position.entryTime) / lit 86400
      position.entryPrice * position.qty * o.borrowFeePct / lit 100 * holdingDays
    else lit 0
  let net := pnl - fee - borrowFee
  let entryNotional := position.entryPrice * position.qty
  { s with
    balance := s.balance + net
    trades := s.trades ++ [{
      entryTime := position.entryTime
      exitTime := candle.time
      side := position.side
      entryPrice := position.entryPrice
      exitPrice := exitPrice
      qty := position.qty
      pnl := net
      pnlPct := if isZero entryNotional then lit 0 else net / entryNotional * lit 100
      exitReason := reason }]
    position := none }

/-- Open a position on a side, unless there is one or the price is not positive. -/
def openPosition (side : Side) : Replay F :=
  if s.position.isNone ∧ lt (lit 0) candle.close then
    let fillPrice :=
      match side with
      | .long => candle.close * (lit 1 + o.slippagePct / lit 100)
      | .short => candle.close * (lit 1 - o.slippagePct / lit 100)
    let qty := s.balance * o.positionSizePct / fillPrice
    { s with
      balance := s.balance - qty * fillPrice * o.feePct / lit 100
      position := some ⟨side, fillPrice, qty, candle.time⟩ }
  else s

/-- Do what a rule asks for. -/
def act (s : Replay F) (rule : Rule F) : Replay F :=
  match rule.action with
  | .buy => s.openPosition o candle .long
  | .sell => s.openPosition o candle .short
  | .closeAll =>
    match s.position with
    | some position => s.closePosition o candle position .closeAll
    | none => s
  | .alert => s
  | .unknown => s

/-- Balance and unrealized profit. -/
def equity : F :=
  match s.position with
  | some position =>
    match position.side with
    | .long => s.balance + (candle.close - position.entryPrice) * position.qty
    | .short => s.balance + (position.entryPrice - candle.close) * position.qty
  | none => s.balance

/-- Append the equity of a bar, and its return after the first bar. -/
def trackEquity (equity : F) : Replay F :=
  { s with
    equityCurve := s.equityCurve ++ [equity]
    returns :=
      match s.equityCurve.getLast? with
      | some prevEquity =>
        if lt (lit 0) prevEquity then s.returns ++ [(equity - prevEquity) / prevEquity]
        else s.returns
      | none => s.returns }

def trackDrawdown (equity : F) : Replay F :=
  if lt s.peakEquity equity then { s with peakEquity := equity, currentDrawdownDuration := 0 }
  else
    let duration := s.currentDrawdownDuration + 1
    let dd := if lt (lit 0) s.peakEquity then (s.peakEquity - equity) / s.peakEquity else lit 0
    if lt s.maxDrawdown dd then
      { s with
        currentDrawdownDuration := duration
        maxDrawdown := dd
        maxDrawdownDuration := duration }
    else { s with currentDrawdownDuration := duration }

/-- The rest of a bar once its rules have been evaluated. -/
def turn (triggered : List (Rule F)) : Replay F :=
  let s := triggered.foldl (act o candle) s
  let equity := s.equity candle
  (s.trackEquity equity).trackDrawdown equity

end Replay

variable (o : Options F) (rules : List (Rule F)) (candles : List (Candle F))

/-- One turn of the loop over the bars. -/
def bar (ind : Indicators F) (s : Replay F) (i : ℕ) : Replay F :=
  match candles[i]? with
  | some candle =>
    s.turn o candle (if 0 < i then evaluateConditions candles (i - 1) ind rules else [])
  | none => s

def start : Replay F where
  balance := o.initialBalance
  peakEquity := o.initialBalance
  maxDrawdown := lit 0

/-- A run when it comes to bar `i`. -/
def before (i : ℕ) : Replay F :=
  (List.range i).foldl (bar o rules candles (indicators o candles)) (start o)

/-- Close a position that is still open at the last candle. -/
def finish (s : Replay F) : Result F :=
  let s := match s.position, candles.getLast? with
    | some position, some last => s.closePosition o last position .end
    | _, _ => s
  { initialBalance := o.initialBalance
    finalBalance := s.balance
    totalReturnPct :=
      if isZero o.initialBalance then lit 0
      else (s.balance - o.initialBalance) / o.initialBalance * lit 100
    maxDrawdownPct := s.maxDrawdown * lit 100
    equityCurve := s.equityCurve
    trades := s.trades
    maxDrawdownDuration := s.maxDrawdownDuration }

def runBacktest : Result F :=
  if candles.length < 30 then
    { error := some "Need at least 30 candles to backtest"
      initialBalance := o.initialBalance
      finalBalance := o.initialBalance
      totalReturnPct := lit 0
      maxDrawdownPct := lit 0
      equityCurve := [o.initialBalance]
      trades := []
      maxDrawdownDuration := 0 }
  else finish o candles (before o rules candles candles.length)

end TradingSim.Backtest.RuleEngine
