import TradingSim.Backtest.RiskManager
import TradingSim.RawOrders.Values

/-!
# The backtester

The bars after the warm-up are replayed in order. At each of them the risk manager moves the stop of
an open position first, then the stop and the target are tried on the bar, and then the strategy is
asked, which sees a window of the bars before.

A close for the holding time calls a method that does not exist and ends the run. The ratios that are
computed from the trades and the equity curve afterwards are left out.
-/

namespace TradingSim.Backtest

open Foundations
open FloatOps
open RawOrders (PyException)

variable {F : Type} [FloatOps F]

/-- What the backtester reads of a signal. -/
structure Signal (F : Type) where
  direction : SignalDirection
  stopLoss : F
  takeProfit : F

def Signal.isActionable (signal : Signal F) : Bool := signal.direction ≠ .neutral

/-- A strategy with a state of its own. -/
structure Strategy (F σ : Type) where
  analyze : σ → String → List (Candle F) → Signal F × σ

structure Position (F : Type) where
  symbol : String
  side : SignalDirection
  entryPrice : F
  quantity : F
  stopLoss : F
  takeProfit : F
  entryTime : ℤ
  fee : F

/-- A completed trade. -/
structure Trade (F : Type) where
  symbol : String
  side : SignalDirection
  entryPrice : F
  exitPrice : F
  quantity : F
  entryTime : ℤ
  exitTime : ℤ
  pnl : F
  pnlPct : F
  exitReason : ExitReason
  fee : F

structure BacktestResult (F : Type) where
  initialBalance : F
  finalBalance : F
  totalReturnPct : F
  equityCurve : List F
  trades : List (Trade F)
  signalsGenerated : ℕ
  signalsValid : ℕ
  maxDrawdownPct : F

structure Backtester (F : Type) where
  initialBalance : F
  feePct : F
  slippageBps : F
  leverage : ℤ
  maxPositionPct : F
  riskPerTradePct : F
  riskConfig : Option (RiskConfig F)

/-- The backtester without arguments. -/
def Backtester.default : Backtester F where
  initialBalance := lit 10000
  feePct := lit (4 / 100)
  slippageBps := lit 2
  leverage := 1
  maxPositionPct := lit 10
  riskPerTradePct := lit 2
  riskConfig := none

/-- The variables of a run, the state of its strategy among them. -/
structure Replay (F σ : Type) where
  balance : F
  equityCurve : List F
  currentPosition : Option (Position F) := none
  riskState : Option (PositionRiskState F) := none
  peakEquity : F
  trades : List (Trade F) := []
  signalsGenerated : ℕ := 0
  signalsValid : ℕ := 0
  maxDrawdownPct : F
  strategyState : σ

/-- A part of a run. -/
abbrev Part (F σ : Type) := Action (Replay F σ) PyException

/-- Equity including the unrealized profit. -/
def trackEquity (currentPosition : Option (Position F)) (balance currentPrice : F) : F :=
  match currentPosition with
  | some pos =>
    if pos.side = .long then balance + (currentPrice - pos.entryPrice) * pos.quantity
    else balance + (pos.entryPrice - currentPrice) * pos.quantity
  | none => balance

namespace Replay

variable {σ : Type} (s : Replay F σ)

/-- Raise the peak and the greatest drawdown with an equity. -/
def updateDrawdown (equity : F) : Replay F σ :=
  let peakEquity := max s.peakEquity equity
  let drawdown :=
    if lt (lit 0) peakEquity then (peakEquity - equity) / peakEquity * lit 100 else lit 0
  { s with peakEquity := peakEquity, maxDrawdownPct := max s.maxDrawdownPct drawdown }

def trackEquityAndDrawdown (currentPrice : F) : Replay F σ :=
  let equity := trackEquity s.currentPosition s.balance currentPrice
  { s with equityCurve := s.equityCurve ++ [equity] }.updateDrawdown equity

end Replay

namespace Backtester

variable (b : Backtester F)

def checkSlTp (pos : Position F) (candle : Candle F) : Option (ExitReason × F) :=
  if pos.side = .long then
    if lt (lit 0) pos.stopLoss && le candle.low pos.stopLoss then some (.stopLoss, pos.stopLoss)
    else if lt (lit 0) pos.takeProfit && le pos.takeProfit candle.high then
      some (.takeProfit, pos.takeProfit)
    else none
  else
    if lt (lit 0) pos.stopLoss && le pos.stopLoss candle.high then some (.stopLoss, pos.stopLoss)
    else if lt (lit 0) pos.takeProfit && le candle.low pos.takeProfit then
      some (.takeProfit, pos.takeProfit)
    else none

def initRiskState (currentPosition : Option (Position F)) : Option (PositionRiskState F) :=
  match currentPosition, b.riskConfig with
  | some pos, some _ =>
    some (RiskManager.initPosition pos.entryPrice pos.side pos.stopLoss pos.takeProfit pos.quantity
      (lit 0))
  | _, _ => none

def openPosition (signal : Signal F) (price balance : F) (timestamp : ℤ) (symbol : String) :
    Option (Position F) :=
  let fillPrice :=
    if signal.direction = .long then price * (lit 1 + b.slippageBps / lit 10000)
    else price * (lit 1 - b.slippageBps / lit 10000)
  let riskAmount := balance * b.riskPerTradePct / lit 100
  let riskPerUnit := abs (fillPrice - signal.stopLoss)
  if le riskPerUnit (lit 0) then none
  else
    let maxNotional := balance * lit b.leverage * b.maxPositionPct / lit 100
    let maxQty := if lt (lit 0) fillPrice then maxNotional / fillPrice else lit 0
    let quantity := min (riskAmount / riskPerUnit) maxQty
    if le quantity (lit 0) then none
    else
      some {
        symbol := symbol
        side := signal.direction
        entryPrice := fillPrice
        quantity := quantity
        stopLoss := signal.stopLoss
        takeProfit := signal.takeProfit
        entryTime := timestamp
        fee := fillPrice * quantity * b.feePct / lit 100 }

/-- The trade that closes a position, and the balance after it. -/
def closePosition (pos : Position F) (exitPrice : F) (reason : ExitReason) (balance : F)
    (timestamp : ℤ) : Trade F × F :=
  let fillExit :=
    if pos.side = .long then exitPrice * (lit 1 - b.slippageBps / lit 10000)
    else exitPrice * (lit 1 + b.slippageBps / lit 10000)
  let gross :=
    if pos.side = .long then (fillExit - pos.entryPrice) * pos.quantity
    else (pos.entryPrice - fillExit) * pos.quantity
  let totalFees := pos.fee + fillExit * pos.quantity * b.feePct / lit 100
  let pnl := gross - totalFees
  let entryNotional := pos.entryPrice * pos.quantity
  ({ symbol := pos.symbol
     side := pos.side
     entryPrice := pos.entryPrice
     exitPrice := fillExit
     quantity := pos.quantity
     entryTime := pos.entryTime
     exitTime := timestamp
     pnl := pnl
     pnlPct := if lt (lit 0) entryNotional then pnl / entryNotional * lit 100 else lit 0
     exitReason := reason
     fee := totalFees }, balance + pnl)

variable {σ : Type}

/-- Update the risk state of an open position and move its stop; whether the bar is done. -/
def processRiskUpdate (candle : Candle F) : Part F σ Bool := do
  let s ← Action.get
  match s.currentPosition, b.riskConfig, s.riskState with
  | some pos, some config, some state =>
    let (state, actions) := RiskManager.update config state candle.close candle
    let pos := { pos with stopLoss := actions.newStopLoss.getD pos.stopLoss }
    Action.modify fun s => { s with currentPosition := some pos, riskState := some state }
    match actions.closePosition with
    | none => return false
    | some reason =>
      let (trade, balance) :=
        b.closePosition pos candle.close reason s.balance (candle.timestamp.getD 0)
      Action.modify fun s =>
        { s with trades := s.trades ++ [trade], equityCurve := s.equityCurve ++ [balance] }
      -- `self._update_drawdown` is called here, and there is no such method.
      Action.lift (.error .attributeError)
  | _, _, _ => return false

/-- Close the position of a run. -/
def closed (s : Replay F σ) (pos : Position F) (exitPrice : F) (reason : ExitReason)
    (candle : Candle F) : Replay F σ :=
  let (trade, balance) :=
    b.closePosition pos exitPrice reason s.balance (candle.timestamp.getD 0)
  { s with
    balance := balance
    trades := s.trades ++ [trade]
    currentPosition := none
    riskState := none }

/-- Open a position if the signal allows it. -/
def opened (s : Replay F σ) (signal : Signal F) (symbol : String) (candle : Candle F) : Replay F σ :=
  let pos := b.openPosition signal candle.close s.balance (candle.timestamp.getD 0) symbol
  { s with currentPosition := pos, riskState := b.initRiskState pos }

/-- Ask the strategy for a signal. -/
def asked (strategy : Strategy F σ) (symbol : String) (window : List (Candle F)) (s : Replay F σ) :
    Signal F × Replay F σ :=
  let (signal, strategyState) := strategy.analyze s.strategyState symbol window
  (signal, { s with
    strategyState := strategyState
    signalsGenerated := s.signalsGenerated + 1
    signalsValid := if signal.isActionable then s.signalsValid + 1 else s.signalsValid })

def handleSignalReversal (strategy : Strategy F σ) (symbol : String) (window : List (Candle F))
    (candle : Candle F) (pos : Position F) (s : Replay F σ) : Replay F σ :=
  let (signal, s) := asked strategy symbol window s
  if pos.side = .long ∧ signal.direction = .short ∨ pos.side = .short ∧ signal.direction = .long then
    b.opened (b.closed s pos candle.close .signalExit candle) signal symbol candle
  else s

def checkEntry (strategy : Strategy F σ) (symbol : String) (window : List (Candle F))
    (candle : Candle F) (s : Replay F σ) : Replay F σ :=
  let (signal, s) := asked strategy symbol window s
  if signal.isActionable then b.opened s signal symbol candle
  else { s with currentPosition := none, riskState := none }

def managePositionOrEntry (strategy : Strategy F σ) (symbol : String) (window : List (Candle F))
    (candle : Candle F) (s : Replay F σ) : Replay F σ :=
  match s.currentPosition with
  | some pos =>
    match checkSlTp pos candle with
    | some (reason, exitPrice) => b.closed s pos exitPrice reason candle
    | none => b.handleSignalReversal strategy symbol window candle pos s
  | none => b.checkEntry strategy symbol window candle s

/-- The bars that the strategy sees at bar `i`: those before it, at most `2 * warmup` or two
hundred of them. -/
def window (warmup : ℕ) (candles : List (Candle F)) (i : ℕ) : List (Candle F) :=
  (candles.take i).drop (i - Nat.max (warmup * 2) 200)

/-- One turn of the loop over the bars. -/
def bar (strategy : Strategy F σ) (symbol : String) (warmup : ℕ) (candles : List (Candle F))
    (i : ℕ) : Part F σ Unit :=
  match candles[i]? with
  | none => pure ()
  | some candle => do
    let skip ← b.processRiskUpdate candle
    if skip then return ()
    Action.modify fun s =>
      (b.managePositionOrEntry strategy symbol (window warmup candles i) candle s).trackEquityAndDrawdown
        candle.close

def start (strategyState : σ) : Replay F σ where
  balance := b.initialBalance
  equityCurve := [b.initialBalance]
  peakEquity := b.initialBalance
  maxDrawdownPct := lit 0
  strategyState := strategyState

/-- A run when it comes to bar `i`. -/
def before (strategy : Strategy F σ) (strategyState : σ) (symbol : String) (warmup : ℕ)
    (candles : List (Candle F)) (i : ℕ) : Replay F σ × Except PyException Unit :=
  (List.range' warmup (i - warmup)).foldlM
    (fun _ i => b.bar strategy symbol warmup candles i) () (b.start strategyState)

/-- Close a position that is still open at the last close. -/
def finalizeBacktest (candles : List (Candle F)) (s : Replay F σ) : BacktestResult F :=
  let s := match s.currentPosition, candles.getLast? with
    | some pos, some last => b.closed s pos last.close .end last
    | _, _ => s
  { initialBalance := b.initialBalance
    finalBalance := s.balance
    totalReturnPct :=
      if lt (lit 0) b.initialBalance then
        (s.balance - b.initialBalance) / b.initialBalance * lit 100
      else lit 0
    equityCurve := s.equityCurve
    trades := s.trades
    signalsGenerated := s.signalsGenerated
    signalsValid := s.signalsValid
    maxDrawdownPct := s.maxDrawdownPct }

def run (strategy : Strategy F σ) (strategyState : σ) (symbol : String) (warmup : ℕ)
    (candles : List (Candle F)) : Except PyException (BacktestResult F) :=
  match b.before strategy strategyState symbol warmup candles candles.length with
  | (s, .ok ()) => .ok (b.finalizeBacktest candles s)
  | (_, .error e) => .error e

end Backtester

end TradingSim.Backtest
