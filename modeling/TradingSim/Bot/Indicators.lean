import Mathlib.Algebra.Order.Field.Basic
import Mathlib.Tactic.Ring
import TradingSim.Foundations.FieldNumerals
import TradingSim.Market.Simulator

/-!
# Inline indicators

Moving averages and Wilder-smoothed indicators that take one candle at a time, with the arithmetic of
an ordered field in place of floating point. The engine feeds a candle to all of them together; the
signal line of the moving averages takes their difference after the candle.
-/

namespace TradingSim.Bot

open Market (Candle)

/-- An exponential moving average with smoothing `k`. -/
structure InlineEMA (F : Type*) where
  k : F
  ema : F
  initialized : Bool
  deriving DecidableEq

/-- The relative strength index: averages of the gains and losses between closes. -/
structure InlineRSI (F : Type*) where
  period : ℕ
  avgGain : F
  avgLoss : F
  prevClose : F
  rsi : F
  count : ℕ
  deriving DecidableEq

/-- The average directional index. -/
structure InlineADX (F : Type*) where
  period : ℕ
  trSum : F
  plusDmSum : F
  minusDmSum : F
  adx : F
  prevHigh : F
  prevLow : F
  prevClose : F
  count : ℕ
  deriving DecidableEq

/-- The running volume-weighted average price and its variance sum. -/
structure InlineVWAP (F : Type*) where
  cumPv : F
  cumV : F
  cumVar : F
  deriving DecidableEq

/-- The average true range. -/
structure InlineATR (F : Type*) where
  period : ℕ
  atr : F
  prevClose : F
  count : ℕ
  deriving DecidableEq

/-- What the indicators read of a candle. -/
structure Bar (F : Type*) where
  high : F
  low : F
  close : F
  volume : F
  deriving DecidableEq

variable {F : Type*} [Field F] [LinearOrder F]

def InlineEMA.ofPeriod (period : ℕ) : InlineEMA F where
  k := 2 / (period + 1)
  ema := 0
  initialized := false

def InlineEMA.update (e : InlineEMA F) (value : F) : InlineEMA F :=
  if e.initialized then { e with ema := value * e.k + e.ema * (1 - e.k) }
  else { e with ema := value, initialized := true }

namespace InlineRSI

def ofPeriod (period : ℕ) : InlineRSI F where
  period := period
  avgGain := 0
  avgLoss := 0
  prevClose := 0
  rsi := 50
  count := 0

def invPeriod (r : InlineRSI F) : F := 1 / r.period

/-- Average in a gain and a loss: summed until the period is full, smoothed from then on. -/
def average (r : InlineRSI F) (gain loss : F) : InlineRSI F :=
  if r.count < r.period then
    let r : InlineRSI F :=
      { r with avgGain := r.avgGain + gain, avgLoss := r.avgLoss + loss, count := r.count + 1 }
    if r.count = r.period then
      { r with avgGain := r.avgGain * r.invPeriod, avgLoss := r.avgLoss * r.invPeriod }
    else r
  else
    { r with
      avgGain := r.avgGain * (1 - r.invPeriod) + gain * r.invPeriod
      avgLoss := r.avgLoss * (1 - r.invPeriod) + loss * r.invPeriod }

/-- The index of the current averages; a flat series is in the middle. -/
def index (r : InlineRSI F) : F :=
  if 1 / 10 ^ 12 < r.avgLoss then 100 - 100 / (1 + r.avgGain / r.avgLoss)
  else if 1 / 10 ^ 12 < r.avgGain then 100
  else 50

def update (r : InlineRSI F) (close : F) : InlineRSI F :=
  if r.count = 0 then { r with prevClose := close, count := 1 }
  else
    let change := close - r.prevClose
    let r : InlineRSI F := { r.average (max change 0) (max (-change) 0) with prevClose := close }
    if r.count < r.period then r else { r with rsi := r.index }

end InlineRSI

/-- The true range of a candle after a close. -/
def trueRange (high low prevClose : F) : F :=
  max (high - low) (max |high - prevClose| |low - prevClose|)

namespace InlineADX

def ofPeriod (period : ℕ) : InlineADX F where
  period := period
  trSum := 0
  plusDmSum := 0
  minusDmSum := 0
  adx := 0
  prevHigh := 0
  prevLow := 0
  prevClose := 0
  count := 0

def invPeriod (a : InlineADX F) : F := 1 / a.period

/-- The directional index of the current sums. -/
def dx (a : InlineADX F) : F :=
  let invTr := 1 / (a.trSum + 1 / 10 ^ 12)
  let plusDi := a.plusDmSum * invTr * 100
  let minusDi := a.minusDmSum * invTr * 100
  |plusDi - minusDi| / (plusDi + minusDi + 1 / 10 ^ 10) * 100

/-- Sum a true range and the directional moves, smoothed once the period is full. -/
def accumulate (a : InlineADX F) (tr plusDm minusDm : F) : InlineADX F :=
  if a.count < a.period then
    let a :=
      { a with
        trSum := a.trSum + tr
        plusDmSum := a.plusDmSum + plusDm
        minusDmSum := a.minusDmSum + minusDm
        count := a.count + 1 }
    if a.count = a.period then { a with adx := a.dx } else a
  else
    let a :=
      { a with
        trSum := a.trSum * (1 - a.invPeriod) + tr
        plusDmSum := a.plusDmSum * (1 - a.invPeriod) + plusDm
        minusDmSum := a.minusDmSum * (1 - a.invPeriod) + minusDm }
    { a with adx := (a.adx * (a.period - 1) + a.dx) * a.invPeriod }

def update (a : InlineADX F) (high low close : F) : InlineADX F :=
  if a.count = 0 then { a with prevHigh := high, prevLow := low, prevClose := close, count := 1 }
  else
    let upMove := high - a.prevHigh
    let downMove := a.prevLow - low
    let plusDm := if downMove < upMove then max upMove 0 else 0
    let minusDm := if upMove < downMove then max downMove 0 else 0
    { a.accumulate (trueRange high low a.prevClose) plusDm minusDm with
      prevHigh := high
      prevLow := low
      prevClose := close }

end InlineADX

/-- The volume-weighted price that no candle was fed to. -/
def InlineVWAP.empty : InlineVWAP F where
  cumPv := 0
  cumV := 0
  cumVar := 0

def InlineVWAP.update (v : InlineVWAP F) (high low close volume : F) : InlineVWAP F :=
  let tp := (high + low + close) / 3
  let prevMean := if 0 < v.cumV then v.cumPv / v.cumV else tp
  let cumPv := v.cumPv + tp * volume
  let cumV := v.cumV + volume
  let newMean := cumPv / cumV
  { cumPv := cumPv, cumV := cumV, cumVar := v.cumVar + volume * (tp - prevMean) * (tp - newMean) }

namespace InlineATR

def ofPeriod (period : ℕ) : InlineATR F where
  period := period
  atr := 0
  prevClose := 0
  count := 0

def invPeriod (a : InlineATR F) : F := 1 / a.period

/-- Average in a true range: summed until the period is full, smoothed from then on. -/
def average (a : InlineATR F) (tr : F) : InlineATR F :=
  if a.count < a.period then
    let a : InlineATR F := { a with atr := a.atr + tr, count := a.count + 1 }
    if a.count = a.period then { a with atr := a.atr * a.invPeriod } else a
  else { a with atr := a.atr * (1 - a.invPeriod) + tr * a.invPeriod }

def update (a : InlineATR F) (high low close : F) : InlineATR F :=
  if a.count = 0 then { a with prevClose := close, atr := high - low, count := a.count + 1 }
  else { a.average (trueRange high low a.prevClose) with prevClose := close }

end InlineATR

/-- The periods of the signal engine. -/
structure SignalEngineV2Params where
  emaFastPeriod : ℕ := 21
  emaSlowPeriod : ℕ := 50
  emaSignalPeriod : ℕ := 9
  rsiPeriod : ℕ := 14
  adxPeriod : ℕ := 14
  atrPeriod : ℕ := 14
  deriving DecidableEq

/-- The states of the indicators. -/
structure Indicators (F : Type*) where
  emaFast : InlineEMA F
  emaSlow : InlineEMA F
  emaSignal : InlineEMA F
  rsi : InlineRSI F
  adx : InlineADX F
  atr : InlineATR F
  vwap : InlineVWAP F
  deriving DecidableEq

namespace Indicators

/-- Indicators that no candle was fed to. -/
def fresh (p : SignalEngineV2Params) : Indicators F where
  emaFast := .ofPeriod p.emaFastPeriod
  emaSlow := .ofPeriod p.emaSlowPeriod
  emaSignal := .ofPeriod p.emaSignalPeriod
  rsi := .ofPeriod p.rsiPeriod
  adx := .ofPeriod p.adxPeriod
  atr := .ofPeriod p.atrPeriod
  vwap := .empty

/-- Feed what they read of a candle to every indicator. -/
def feedBar (i : Indicators F) (bar : Bar F) : Indicators F :=
  let emaFast := i.emaFast.update bar.close
  let emaSlow := i.emaSlow.update bar.close
  let macd := emaFast.ema - emaSlow.ema
  { emaFast := emaFast
    emaSlow := emaSlow
    emaSignal := i.emaSignal.update macd
    rsi := i.rsi.update bar.close
    adx := i.adx.update bar.high bar.low bar.close
    atr := i.atr.update bar.high bar.low bar.close
    vwap := i.vwap.update bar.high bar.low bar.close bar.volume }

def feed (i : Indicators ℚ) (candle : Candle) : Indicators ℚ :=
  i.feedBar ⟨candle.highP, candle.lowP, candle.closeP, candle.volume⟩

/-- The accumulated volume is that of the candles fed. -/
theorem cumV_foldl_feed (candles : List Candle) (i : Indicators ℚ) :
    (candles.foldl feed i).vwap.cumV = i.vwap.cumV + (candles.map Candle.volume).sum := by
  induction candles generalizing i with
  | nil => simp
  | cons candle rest ih =>
    rw [List.foldl_cons, ih, List.map_cons, List.sum_cons]
    change i.vwap.cumV + candle.volume + _ = _
    ring

end Indicators

end TradingSim.Bot
