import TradingSim.Backtest.BarOutcomes

/-!
# Backtests with their metrics

A run ends with the metrics of its trades and of its equity curve. Two of them are scaled to a year by the
interval of the candles, and an interval of zero raises when they are computed. A strategy may raise, which
ends the run.
-/

namespace TradingSim.Backtest

open Foundations
open FloatOps
open RawOrders (PyException)

/-- The metrics of the trades. A profit factor may be infinite. -/
structure TradeMetrics (F : Type) where
  totalTrades : ℕ
  winningTrades : ℕ
  losingTrades : ℕ
  winRate : F
  avgWin : F
  avgLoss : F
  profitFactor : WithTop F
  avgTradeDuration : F

/-- The metrics of the equity curve. -/
structure DrawdownMetrics (F : Type) where
  longestDrawdownDuration : ℕ
  avgDrawdown : F
  recoveryFactor : F
  calmarRatio : F
  sharpeRatio : F
  sortinoRatio : F

structure MeasuredResult (F : Type) extends BacktestResult F, TradeMetrics F, DrawdownMetrics F

/-- The state of the loop over an equity curve. -/
structure DrawdownLoop (F : Type) where
  peak : F
  currentDuration : ℕ := 0
  longest : ℕ := 0
  amounts : List F := []

/-- What ends a backtest or a search early. -/
inductive BacktestError
  | python (e : PyException)
  | runtimeError
  | osError
  deriving DecidableEq

/-- A strategy whose `analyze` may raise. -/
structure FallibleStrategy (F σ : Type) where
  analyze : σ → String → List (Candle F) → Except BacktestError (Signal F × σ)

/-- A backtester with the interval of its candles. -/
structure Engine (F : Type) extends Backtester F where
  candleIntervalMinutes : ℤ

section Metrics

variable {F : Type} [FloatOps F]

def sum (xs : List F) : F := xs.foldl (· + ·) (lit 0)

/-- The average, zero of no numbers. -/
def average (xs : List F) : F := if xs.isEmpty then lit 0 else sum xs / lit xs.length

def calculateTradeMetrics (trades : List (Trade F)) : TradeMetrics F :=
  let wins := (trades.map (·.pnl)).filter (lt (lit 0))
  let losses := (trades.map (·.pnl)).filter fun pnl => lt pnl (lit 0)
  let grossProfit := sum wins
  let grossLoss := FloatOps.abs (sum losses)
  let durations : List ℤ := trades.map fun trade => trade.exitTime - trade.entryTime
  { totalTrades := trades.length
    winningTrades := wins.length
    losingTrades := losses.length
    winRate := if trades.isEmpty then lit 0 else lit wins.length / lit trades.length * lit 100
    avgWin := average wins
    avgLoss := average losses
    profitFactor :=
      if lt (lit 0) grossLoss then ((grossProfit / grossLoss : F) : WithTop F)
      else if lt (lit 0) grossProfit then ⊤
      else (lit 0 : F)
    avgTradeDuration := if trades.isEmpty then lit 0 else lit durations.sum / lit trades.length }

/-- One turn of the loop over an equity curve. -/
def DrawdownLoop.next (loop : DrawdownLoop F) (equity : F) : DrawdownLoop F :=
  if le loop.peak equity then
    { loop with peak := equity, currentDuration := 0, longest := Nat.max loop.longest loop.currentDuration }
  else
    let amount := if lt (lit 0) loop.peak then (loop.peak - equity) / loop.peak * lit 100 else lit 0
    { loop with currentDuration := loop.currentDuration + 1, amounts := loop.amounts ++ [amount] }

/-- The returns of the bars that start with a positive equity. -/
def barReturns (equityCurve : List F) : List F :=
  (equityCurve.zip equityCurve.tail).filterMap fun (previous, equity) =>
    if lt (lit 0) previous then some ((equity - previous) / previous) else none

def periodsPerYear (candleIntervalMinutes : ℤ) : Except PyException F :=
  if candleIntervalMinutes = 0 then .error .zeroDivisionError
  else .ok (lit (365 * 24 * 60) / lit candleIntervalMinutes)

/-- The return of a year over the greatest drawdown. -/
def calmarRatio (candleIntervalMinutes : ℤ) (result : BacktestResult F) : Except PyException F :=
  if lt (lit 0) result.maxDrawdownPct then do
    let periods ← periodsPerYear candleIntervalMinutes
    let annualizedReturn := result.totalReturnPct * (periods / lit result.equityCurve.length)
    return annualizedReturn / result.maxDrawdownPct
  else return lit 0

/-- The ratios of the mean return to its deviation and to that of the losses, both for a year. The power
`** 0.5` is a parameter. -/
def sharpeSortino (root : F → F) (candleIntervalMinutes : ℤ) (returns : List F) : Except PyException (F × F) :=
  if 1 < returns.length then do
    let periods ← periodsPerYear candleIntervalMinutes
    let meanRet := sum returns / lit returns.length
    let stdRet :=
      root (sum (returns.map fun r => (r - meanRet) * (r - meanRet)) / lit (returns.length - 1 : ℕ))
    let sharpe := if lt (lit 0) stdRet then meanRet / stdRet * root periods else lit 0
    let downside := returns.filter fun r => lt r (lit 0)
    let downsideStd := root (sum (downside.map fun r => r * r) / lit returns.length)
    let sortino :=
      if downside.isEmpty then lit 0
      else if lt (lit 0) downsideStd then meanRet / downsideStd * root periods
      else lit 0
    return (sharpe, sortino)
  else return (lit 0, lit 0)

def calculateDrawdownMetrics (root : F → F) (candleIntervalMinutes : ℤ) (result : BacktestResult F) :
    Except PyException (DrawdownMetrics F) :=
  match result.equityCurve with
  | first :: second :: rest => do
    let loop := result.equityCurve.foldl DrawdownLoop.next { peak := first }
    let netProfit := result.finalBalance - result.initialBalance
    let maxDdAmount := result.maxDrawdownPct / lit 100 * (second :: rest).foldl FloatOps.max first
    let calmar ← calmarRatio candleIntervalMinutes result
    let (sharpe, sortino) ← sharpeSortino root candleIntervalMinutes (barReturns result.equityCurve)
    return {
      longestDrawdownDuration := Nat.max loop.longest loop.currentDuration
      avgDrawdown := average loop.amounts
      recoveryFactor := if lt (lit 0) maxDdAmount then netProfit / maxDdAmount else lit 0
      calmarRatio := calmar
      sharpeRatio := sharpe
      sortinoRatio := sortino }
  | _ =>
    return {
      longestDrawdownDuration := 0
      avgDrawdown := lit 0
      recoveryFactor := lit 0
      calmarRatio := lit 0
      sharpeRatio := lit 0
      sortinoRatio := lit 0 }

/-- A result with its metrics. -/
def measured (root : F → F) (candleIntervalMinutes : ℤ) (result : BacktestResult F) :
    Except PyException (MeasuredResult F) := do
  let drawdown ← calculateDrawdownMetrics root candleIntervalMinutes result
  return {
    toBacktestResult := result
    toTradeMetrics := calculateTradeMetrics result.trades
    toDrawdownMetrics := drawdown }

end Metrics

section Runs

variable {F σ : Type} [FloatOps F]

/-- The strategy as one that keeps what it has raised, and asks for nothing from then on. -/
def FallibleStrategy.kept (strategy : FallibleStrategy F σ) : Strategy F (Except BacktestError σ) where
  analyze state symbol window :=
    match state with
    | .error e => (⟨.neutral, lit 0, lit 0⟩, .error e)
    | .ok state =>
      match strategy.analyze state symbol window with
      | .error e => (⟨.neutral, lit 0, lit 0⟩, .error e)
      | .ok (signal, state) => (signal, .ok state)

/-- The backtester without arguments. -/
def Engine.default : Engine F := { Backtester.default with candleIntervalMinutes := 5 }

/-- A run. What the strategy has raised came before any error of a later bar. -/
def Engine.run (engine : Engine F) (root : F → F) (strategy : FallibleStrategy F σ) (state : σ)
    (symbol : String) (warmup : ℕ) (candles : List (Candle F)) : Except BacktestError (MeasuredResult F) :=
  let (s, outcome) := engine.before strategy.kept (.ok state) symbol warmup candles candles.length
  match s.strategyState, outcome with
  | .error e, _ => .error e
  | .ok _, .error e => .error (.python e)
  | .ok _, .ok () =>
    (measured root engine.candleIntervalMinutes (engine.finalizeBacktest candles s)).mapError .python

end Runs

end TradingSim.Backtest
