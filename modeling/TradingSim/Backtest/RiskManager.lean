import TradingSim.Foundations.FloatOps

/-!
# The risk manager of the backtests

While a position is held, every bar may move its stop: to the entry once the price has come far
enough, and behind the price from then on. The manager answers with what is to be done and keeps
the rest in the state of the position.
-/

namespace TradingSim.Backtest

open Foundations
open FloatOps

variable {F : Type} [FloatOps F]

/-- The direction of a signal, and of the position it opens. -/
inductive SignalDirection
  | long
  | short
  | neutral
  deriving DecidableEq

/-- A candle as the backtests read it. Some of its members may be missing. -/
structure Candle (F : Type) where
  timestamp : Option ℤ := none
  «open» : F
  high : F
  low : F
  close : F
  volume : F
  prevClose : Option F := none

structure RiskConfig (F : Type) where
  trailingStopEnabled : Bool
  trailingDistancePct : F
  trailingAtrMultiplier : F
  breakevenEnabled : Bool
  breakevenTriggerPct : F
  breakevenBufferPct : F
  partialTpEnabled : Bool
  partialTpPct : F
  partialTpTriggerPct : F
  maxHoldCandles : ℤ

/-- The configuration without arguments. -/
def RiskConfig.default : RiskConfig F where
  trailingStopEnabled := true
  trailingDistancePct := lit 2
  trailingAtrMultiplier := lit 0
  breakevenEnabled := true
  breakevenTriggerPct := lit 1
  breakevenBufferPct := lit (1 / 10)
  partialTpEnabled := false
  partialTpPct := lit 50
  partialTpTriggerPct := lit 2
  maxHoldCandles := 0

structure PositionRiskState (F : Type) where
  entryPrice : F
  side : SignalDirection
  originalStopLoss : F
  currentStopLoss : F
  takeProfit : F
  quantity : F
  peakPrice : F
  troughPrice : F
  breakevenMoved : Bool := false
  partialTpExecuted : Bool := false
  candlesHeld : ℤ := 0
  atr : F

/-- Why a position was closed. -/
inductive ExitReason
  | takeProfit
  | stopLoss
  | signalExit
  | maxHoldTime
  | «end»
  deriving DecidableEq

/-- What `update` asks for. -/
structure RiskActions (F : Type) where
  newStopLoss : Option F := none
  partialClosePct : Option F := none
  closePosition : Option ExitReason := none

namespace RiskManager

variable (config : RiskConfig F) (state : PositionRiskState F) (currentPrice : F)

def initPosition (entryPrice : F) (side : SignalDirection) (stopLoss takeProfit quantity atr : F) :
    PositionRiskState F where
  entryPrice := entryPrice
  side := side
  originalStopLoss := stopLoss
  currentStopLoss := stopLoss
  takeProfit := takeProfit
  quantity := quantity
  peakPrice := entryPrice
  troughPrice := entryPrice
  atr := atr

def trackPeakTrough : PositionRiskState F :=
  if state.side = .long then
    { state with
      peakPrice := max state.peakPrice currentPrice
      troughPrice :=
        if lt (lit 0) state.troughPrice then min state.troughPrice currentPrice else currentPrice }
  else
    { state with
      peakPrice :=
        if lt (lit 0) state.peakPrice then min state.peakPrice currentPrice else currentPrice
      troughPrice := max state.troughPrice currentPrice }

def calcAtrFromCandle (candle : Candle F) : F :=
  let prevClose := candle.prevClose.getD candle.close
  max (max (candle.high - candle.low) (abs (candle.high - prevClose))) (abs (candle.low - prevClose))

/-- How far the price has moved in favour of the position, in percent. -/
def priceMovePct : F :=
  if state.side = .long then (currentPrice - state.entryPrice) / state.entryPrice * lit 100
  else (state.entryPrice - currentPrice) / state.entryPrice * lit 100

/-- The stop at the entry, if the price has come far enough and the stop is not better. -/
def checkBreakeven : Option F :=
  if le state.entryPrice (lit 0) then none
  else if le config.breakevenTriggerPct (priceMovePct state currentPrice) then
    if state.side = .long then
      let beSl := state.entryPrice * (lit 1 + config.breakevenBufferPct / lit 100)
      if lt state.currentStopLoss beSl then some beSl else none
    else
      let beSl := state.entryPrice * (lit 1 - config.breakevenBufferPct / lit 100)
      if lt beSl state.currentStopLoss then some beSl else none
  else none

/-- The stop behind the price, if that is better than the current one. -/
def checkTrailing : Option F :=
  let distance :=
    if lt (lit 0) config.trailingAtrMultiplier && lt (lit 0) state.atr then
      state.atr * config.trailingAtrMultiplier
    else currentPrice * config.trailingDistancePct / lit 100
  if state.side = .long then
    let newSl := currentPrice - distance
    if lt state.currentStopLoss newSl then some newSl else none
  else
    let newSl := currentPrice + distance
    if lt newSl state.currentStopLoss then some newSl else none

def checkPartialTp : F :=
  if le state.entryPrice (lit 0) then lit 0
  else if le config.partialTpTriggerPct (priceMovePct state currentPrice) then config.partialTpPct
  else lit 0

/-- The state and the actions of an update, which goes on with them. -/
abbrev Updated (F : Type) := PositionRiskState F × RiskActions F

def checkBreakevenAction (u : Updated F) : Updated F :=
  if !config.breakevenEnabled || u.1.breakevenMoved then u
  else
    match checkBreakeven config u.1 currentPrice with
    | some newSl =>
      ({ u.1 with currentStopLoss := newSl, breakevenMoved := true },
        { u.2 with newStopLoss := some newSl })
    | none => u

def checkTrailingAction (u : Updated F) : Updated F :=
  if !config.trailingStopEnabled then u
  else
    match checkTrailing config u.1 currentPrice with
    | some newSl =>
      ({ u.1 with currentStopLoss := newSl }, { u.2 with newStopLoss := some newSl })
    | none => u

def checkPartialTpAction (u : Updated F) : Updated F :=
  if !config.partialTpEnabled || u.1.partialTpExecuted then u
  else
    let pct := checkPartialTp config u.1 currentPrice
    if lt (lit 0) pct then
      ({ u.1 with partialTpExecuted := true }, { u.2 with partialClosePct := some pct })
    else u

def checkMaxHold (u : Updated F) : Updated F :=
  if 0 < config.maxHoldCandles ∧ config.maxHoldCandles ≤ u.1.candlesHeld then
    (u.1, { u.2 with closePosition := some .maxHoldTime })
  else u

/-- `update`: the price extremes, then the checks in their order. The range of the last candle is kept if
the candle is missing. -/
def updateWith (candle : Option (Candle F)) : Updated F :=
  let state := { state with candlesHeld := state.candlesHeld + 1 }
  let state := trackPeakTrough state currentPrice
  let state :=
    match candle with
    | some candle =>
      if lt (lit 0) config.trailingAtrMultiplier then { state with atr := calcAtrFromCandle candle }
      else state
    | none => state
  checkMaxHold config
    (checkPartialTpAction config currentPrice
      (checkTrailingAction config currentPrice
        (checkBreakevenAction config currentPrice (state, {}))))

/-- The update of one bar of a backtest. -/
def update (candle : Candle F) : Updated F := updateWith config state currentPrice (some candle)

end RiskManager

end TradingSim.Backtest
