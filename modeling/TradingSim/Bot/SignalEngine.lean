import TradingSim.Bot.EngineParams
import TradingSim.Bot.Imbalance
import TradingSim.Bot.PositionManager
import TradingSim.Bot.RunningVwap

/-!
# The signal engine

The engine scores a window of candles, an order book and a pressure result, weighs the scores into one
number, and makes a long or a short signal of it if it is beyond a threshold. The batch analysis copies at
most 256 candles into arrays and goes through them in loops of its own; the incremental analysis keeps the
indicators of each symbol between calls.

An array has no entry where nothing was copied, and nothing is divided by zero: an analysis that does
either has no result. Memory does not run out.
-/

namespace TradingSim.Bot

open Foundations

namespace Engine

/-- A candle with its time. -/
structure TimedBar (F : Type*) extends Bar F where
  timestamp : ℤ

/-- The six scores. -/
structure Scores (F : Type*) where
  ema : F
  rsi : F
  obi : F
  vwap : F
  adx : F
  pressure : F

/-- What the reason of a signal says. The reasons of the last three print the scores and this trend
strength. -/
inductive Reason (F : Type*)
  | none
  | insufficientData
  | noCandles
  | cooldownActive
  | long (adx : F)
  | short (adx : F)
  | hold (adx : F)

structure FastSignal (F : Type*) where
  direction : Direction
  confidence : UInt8
  leverage : UInt8
  entryPrice : F
  stopLoss : F
  takeProfit : F
  timestamp : ℤ
  reason : Reason F
  scores : Scores F
  compositeScore : F

/-- What an analysis hands to the end that both share. -/
structure Draft (F : Type*) where
  timestamp : ℤ
  scores : Scores F
  composite : F
  price : F
  atr : F
  adx : F

variable {F : Type*} [Field F]

/-- A signal to do nothing, without scores. -/
def FastSignal.idle (timestamp : ℤ) (reason : Reason F) : FastSignal F where
  direction := .neutral
  confidence := 0
  leverage := 1
  entryPrice := 0
  stopLoss := 0
  takeProfit := 0
  timestamp := timestamp
  reason := reason
  scores := ⟨0, 0, 0, 0, 0, 0⟩
  compositeScore := 0

def FastSignal.isActionable (sig : FastSignal F) : Bool := sig.direction ≠ .neutral

variable [LinearOrder F]

/-! ### Scores -/

def clamp (x : F) : F := max (-1) (min 1 x)

/-- A number against its threshold: the sign beyond it, a proportion below it. -/
def thresholded (x threshold : F) : F :=
  clamp
    (if threshold < |x| then if 0 < x then 1 else -1
    else if tiny < threshold then x / threshold
    else 0)

/-- The score of a distance of the averages from their signal line. -/
def macdScore (macdDiff emaSlow : F) : F :=
  let scale := if tiny < |emaSlow| then |emaSlow| else 1
  clamp (macdDiff / (scale * (1 / 1000)))

namespace Params

/-- The score of an index between the overbought and the oversold zone. -/
def rsiScore (p : Params F) (rsi : F) : F :=
  let mid := (p.rsiOverbought + p.rsiOversold) / 2
  let range := (p.rsiOverbought - p.rsiOversold) / 2
  clamp (if tiny < range then (mid - rsi) / range else 0)

def computeObiScore (p : Params F) (ob : DepthBook F) : F :=
  let obi := computeObiAll ob p.obiLevels5.toInt p.obiLevels10.toInt p.obiLevels20.toInt
  thresholded (obi.obi5 * (5 / 10) + obi.obi10 * (3 / 10) + obi.obiWeighted * (2 / 10)) p.obiThreshold

/-- The score of a price against a volume-weighted price and its deviation. -/
def vwapScore (p : Params F) (vwap std price : F) : F :=
  let band := p.vwapBandMult * std
  let devBps := if 0 < vwap then (price - vwap) / vwap * 10000 else 0
  clamp
    (if tiny < band then (vwap - price) / band
    else if tiny < p.vwapDevThreshold then -devBps / p.vwapDevThreshold
    else 0)

/-- The score of the pressure, with the direction of the last candles. -/
def pressureScore (p : Params F) (pressure : PressureResult F) (bodyDir : F) : F :=
  let liveW := 7 / 10 + if pressure.hasTradeFlow then 3 / 10 else 0
  let raw :=
    (pressure.obiWeighted * (3 / 10) + pressure.tradeImbalance * (3 / 10) + bodyDir * (4 / 10)) / liveW
  thresholded (raw * (1 - pressure.toxicScore * p.toxicPenalty)) p.pressureThreshold

def computeComposite (p : Params F) (s : Scores F) (adx : F) : F :=
  let adxNormalized := if 0 < p.adxTrendThreshold then min 1 (adx / p.adxTrendThreshold) else 1
  let composite :=
    s.ema * p.wEma + s.rsi * p.wRsi + s.obi * p.wObi + s.vwap * p.wVwap +
      s.ema * adxNormalized * p.wAdx + s.pressure * p.wPressure
  composite * (5 / 10 + 5 / 10 * adxNormalized)

/-! ### The end of an analysis -/

/-- `apply_adaptive_sl_tp`: the multiples of the range for the stop and for the target. -/
def applyAdaptiveSlTp (p : Params F) (atr price : F) : F × F :=
  if p.adaptiveSlTp = false ∨ price ≤ 0 then (p.slAtrMult, p.tpAtrMult)
  else if atr / price < p.lowVolAtrPct then (p.lowVolSlMult, p.lowVolTpMult)
  else if p.highVolAtrPct < atr / price then (p.highVolSlMult, p.highVolTpMult)
  else (p.slAtrMult, p.tpAtrMult)

def computeLeverage (p : Params F) (confidence : UInt8) (adx : F) : UInt8 :=
  if p.dynamicLeverage = false then 1
  else if p.emergencyConfidenceThreshold ≤ confidence ∧ p.emergencyAdxThreshold < adx then p.maxLeverage
  else if (p.minConfidence.toNat + p.emergencyConfidenceThreshold.toNat) / 2 ≤ confidence.toNat then
    if p.adxTrendThreshold < adx then min p.maxLeverage (p.highConfidenceLeverage + 1)
    else p.highConfidenceLeverage
  else 1

variable [FloorRing F]

/-- The confidence in a score that is so far on the way from its threshold to one. -/
def confidence (t : F) : UInt8 := UInt8.ofNat ⌊min 100 (60 + max 0 (min 1 t) * 40)⌋.toNat

/-- The confidence in a long signal. -/
def longConfidence (p : Params F) (composite : F) : UInt8 :=
  confidence
    (if tiny < 1 - p.buyThreshold then (composite - p.buyThreshold) / (1 - p.buyThreshold) else 1)

/-- The confidence in a short signal. -/
def shortConfidence (p : Params F) (composite : F) : UInt8 :=
  confidence
    (if tiny < 1 + p.sellThreshold then (-composite + p.sellThreshold) / (1 + p.sellThreshold) else 1)

/-- `set_long_signal`, with its leverage. -/
def setLongSignal (p : Params F) (d : Draft F) (slMult tpMult : F) : FastSignal F where
  direction := .long
  confidence := p.longConfidence d.composite
  leverage := p.computeLeverage (p.longConfidence d.composite) d.adx
  entryPrice := d.price
  stopLoss := d.price - slMult * d.atr
  takeProfit := d.price + tpMult * d.atr
  timestamp := d.timestamp
  reason := .long d.adx
  scores := d.scores
  compositeScore := d.composite

/-- `set_short_signal`, with its leverage. -/
def setShortSignal (p : Params F) (d : Draft F) (slMult tpMult : F) : FastSignal F where
  direction := .short
  confidence := p.shortConfidence d.composite
  leverage := p.computeLeverage (p.shortConfidence d.composite) d.adx
  entryPrice := d.price
  stopLoss := d.price + slMult * d.atr
  takeProfit := d.price - tpMult * d.atr
  timestamp := d.timestamp
  reason := .short d.adx
  scores := d.scores
  compositeScore := d.composite

def finalizeSignal (p : Params F) (d : Draft F) : FastSignal F :=
  let mults := p.applyAdaptiveSlTp d.atr d.price
  if p.buyThreshold < d.composite then p.setLongSignal d mults.1 mults.2
  else if d.composite < p.sellThreshold then p.setShortSignal d mults.1 mults.2
  else { FastSignal.idle d.timestamp (.hold d.adx) with scores := d.scores, compositeScore := d.composite }

end Params

/-- The range that stops are made of: a part of the price if the true range is nothing. -/
def usedRange (atr price : F) : F := if atr < tiny then price * (1 / 100) else atr

/-! ### The batch analysis -/

/-- The variables of the loop of `compute_ema_score_raw`. -/
structure EmaLoop (F : Type*) where
  emaF : F
  emaS : F
  macd : F
  signalLine : F
  signalInit : Bool

/-- One turn of the loop of `compute_ema_score_raw`. -/
def EmaLoop.turn (kf ks ksig : F) (s : EmaLoop F) (close : F) : EmaLoop F :=
  let emaF := close * kf + s.emaF * (1 - kf)
  let emaS := close * ks + s.emaS * (1 - ks)
  let macd := emaF - emaS
  { emaF := emaF
    emaS := emaS
    macd := macd
    signalLine := if s.signalInit then macd * ksig + s.signalLine * (1 - ksig) else macd
    signalInit := true }

/-- The variables of the loops of `compute_rsi_score_raw`. -/
structure RsiLoop (F : Type*) where
  avgGain : F
  avgLoss : F
  prevClose : F

/-- Sum the gain or the loss of a close. -/
def RsiLoop.add (s : RsiLoop F) (close : F) : RsiLoop F where
  avgGain := s.avgGain + max (close - s.prevClose) 0
  avgLoss := s.avgLoss + max (-(close - s.prevClose)) 0
  prevClose := close

/-- Smooth in the gain or the loss of a close. -/
def RsiLoop.smooth (period inv : F) (s : RsiLoop F) (close : F) : RsiLoop F where
  avgGain := (s.avgGain * (period - 1) + max (close - s.prevClose) 0) * inv
  avgLoss := (s.avgLoss * (period - 1) + max (-(close - s.prevClose)) 0) * inv
  prevClose := close

/-- The variables of the first loop of `compute_vwap_score_raw`, with the entries of `tp_cache`. -/
structure VwapLoop (F : Type*) where
  tpCache : List F
  cumPv : F
  cumV : F

/-- The variables of the loop of `compute_adx_raw`. -/
structure AdxLoop (F : Type*) where
  trSum : F
  plusDmSum : F
  minusDmSum : F
  adxVal : F
  prevH : F
  prevL : F
  prevC : F
  count : ℕ

/-- The directional index of the sums. -/
def AdxLoop.dx (s : AdxLoop F) : F :=
  let pdi := s.plusDmSum / (s.trSum + 1 / 10 ^ 12) * 100
  let mdi := s.minusDmSum / (s.trSum + 1 / 10 ^ 12) * 100
  |pdi - mdi| / (pdi + mdi + 1 / 10 ^ 10) * 100

/-- One turn of the loop of `compute_adx_raw`. -/
def AdxLoop.turn (period : ℤ) (s : AdxLoop F) (high low close : F) : AdxLoop F :=
  let inv : F := 1 / period
  let up := high - s.prevH
  let down := s.prevL - low
  let pdm := if down < up then max up 0 else 0
  let mdm := if up < down then max down 0 else 0
  let tr := trueRange high low s.prevC
  let s :=
    if (s.count : ℤ) < period then
      let s :=
        { s with
          trSum := s.trSum + tr
          plusDmSum := s.plusDmSum + pdm
          minusDmSum := s.minusDmSum + mdm
          count := s.count + 1 }
      if (s.count : ℤ) = period then { s with adxVal := s.dx } else s
    else
      let s :=
        { s with
          trSum := s.trSum - s.trSum * inv + tr
          plusDmSum := s.plusDmSum - s.plusDmSum * inv + pdm
          minusDmSum := s.minusDmSum - s.minusDmSum * inv + mdm }
      { s with adxVal := (s.adxVal * (period - 1) + s.dx) * inv }
  { s with prevH := high, prevL := low, prevC := close }

/-- The variables of the loop of `compute_atr_raw`. -/
structure AtrLoop (F : Type*) where
  atr : F
  atrCount : ℕ

/-- One turn of the loop of `compute_atr_raw`. -/
def AtrLoop.turn (period : ℤ) (s : AtrLoop F) (tr : F) : AtrLoop F where
  atr :=
    if s.atrCount = 0 then tr
    else if (s.atrCount : ℤ) < period then
      if (s.atrCount : ℤ) + 1 = period then (s.atr + tr) / period else s.atr + tr
    else s.atr * (1 - 1 / period) + tr * (1 / period)
  atrCount := s.atrCount + 1

/-- Sum a body, weighted by its volume, into the buying or the selling side. -/
def addBody (sums : F × F) (body volume : F) : F × F :=
  (sums.1 + max body 0 * volume, sums.2 + max (-body) 0 * volume)

namespace Params

section Loops

variable (p : Params F) (closes highs lows volumes : List F) (n : ℕ)

/-- The smoothing of an average over so many closes; the period and one are added as 32-bit integers. -/
def smoothing (period : Int32) : F := 2 / (wrap32 (period.toInt + 1) : ℤ)

/-- The loop of `compute_ema_score_raw`. -/
def emaLoop : Option (EmaLoop F) := do
  let first ← closes[0]?
  checkedLoop 1 (n - 1)
    (fun s i => do
      let close ← closes[i]?
      return s.turn (smoothing p.emaFastPeriod) (smoothing p.emaSlowPeriod) (smoothing p.emaSignalPeriod)
        close)
    ⟨first, first, 0, 0, false⟩

def computeEmaScoreRaw : Option F := do
  let s ← p.emaLoop closes n
  return macdScore (s.macd - s.signalLine) s.emaS

/-- The first loop of `compute_rsi_score_raw`. -/
def rsiSums (first : F) : Option (RsiLoop F) :=
  checkedLoop 1 p.rsiPeriod.toInt.toNat
    (fun s i => do
      let close ← closes[i]?
      return RsiLoop.add s close)
    ⟨0, 0, first⟩

/-- The second loop of `compute_rsi_score_raw`. -/
def rsiSmoothed (s : RsiLoop F) : Option (RsiLoop F) :=
  checkedLoop (wrapSize (p.rsiPeriod.toInt + 1)) (n - wrapSize (p.rsiPeriod.toInt + 1))
    (fun s i => do
      let close ← closes[i]?
      return s.smooth p.rsiPeriod.toInt (1 / p.rsiPeriod.toInt) close)
    s

/-- Both loops of `compute_rsi_score_raw`. -/
def rsiLoop : Option (RsiLoop F) := do
  let first ← closes[0]?
  let sums ← p.rsiSums closes first
  let inv : F := 1 / p.rsiPeriod.toInt
  p.rsiSmoothed closes n { sums with avgGain := sums.avgGain * inv, avgLoss := sums.avgLoss * inv }

def computeRsiScoreRaw : Option F := do
  let s ← p.rsiLoop closes n
  let rs := if tiny < s.avgLoss then s.avgGain / s.avgLoss else 10 ^ 12
  return p.rsiScore (100 - 100 / (1 + rs))

/-- The typical prices and their sums in `compute_vwap_score_raw`. -/
def vwapSums : Option (VwapLoop F) :=
  checkedLoop 0 (min n 256)
    (fun s i => do
      let high ← highs[i]?
      let low ← lows[i]?
      let close ← closes[i]?
      let volume ← volumes[i]?
      let tp := (high + low + close) * (3333333333333333 / 10 ^ 16)
      return ⟨s.tpCache ++ [tp], s.cumPv + tp * volume, s.cumV + volume⟩)
    ⟨[], 0, 0⟩

/-- The volume-weighted price of `compute_vwap_score_raw` and the sum of its squared deviations. -/
def vwapDeviations (s : VwapLoop F) (vwap : F) : Option F :=
  checkedLoop 0 (min n 256)
    (fun cumVar i => do
      let tp ← s.tpCache[i]?
      let volume ← volumes[i]?
      return cumVar + volume * (tp - vwap) * (tp - vwap))
    0

def computeVwapScoreRaw [SquareRoot F] (price : F) : Option F := do
  let s ← vwapSums closes highs lows volumes n
  let vwap := if 0 < s.cumV then s.cumPv / s.cumV else price
  let cumVar ← vwapDeviations volumes n s vwap
  let std := if 0 < s.cumV then SquareRoot.sqrt (cumVar / s.cumV) else 0
  return p.vwapScore vwap std price

/-- The loop of `compute_adx_raw`. -/
def adxLoop : Option (AdxLoop F) := do
  let prevH ← highs[0]?
  let prevL ← lows[0]?
  let prevC ← closes[0]?
  checkedLoop 1 (n - 1)
    (fun s i => do
      let high ← highs[i]?
      let low ← lows[i]?
      let close ← closes[i]?
      return AdxLoop.turn p.adxPeriod.toInt s high low close)
    ⟨0, 0, 0, 0, prevH, prevL, prevC, 0⟩

def computeAdxRaw : Option F := do
  let s ← p.adxLoop closes highs lows n
  return s.adxVal

/-- The body of a candle: what its close gained on the one before. -/
def bodyAt (i : ℕ) : Option F := do
  if 0 < i then
    let close ← closes[i]?
    let prev ← closes[i - 1]?
    return close - prev
  else return 0

/-- The sums of the bodies in `compute_pressure_raw`. -/
def bodySumsRaw : Option (F × F) :=
  let lookback := min p.bodyDirectionLookback.toInt (wrap32 n - 1)
  checkedLoop (wrap32 n - lookback).toNat lookback.toNat
    (fun sums i => do
      let body ← bodyAt closes i
      let volume ← volumes[i]?
      return addBody sums body volume)
    (0, 0)

def computePressureRaw (pressure : PressureResult F) : Option F := do
  let sums ← p.bodySumsRaw closes volumes n
  return p.pressureScore pressure (imbalance tiny sums.1 sums.2)

/-- The true range of a candle; the first one has no close before it. -/
def trueRangeAt (i : ℕ) : Option F := do
  let high ← highs[i]?
  let low ← lows[i]?
  if 0 < i then
    let prev ← closes[i - 1]?
    return trueRange high low prev
  else return high - low

/-- The loop of `compute_atr_raw`. -/
def atrLoop : Option (AtrLoop F) :=
  checkedLoop 0 n
    (fun s i => do
      let tr ← trueRangeAt closes highs lows i
      return AtrLoop.turn p.atrPeriod.toInt s tr)
    ⟨0, 0⟩

def computeAtrRaw : Option F := do
  let s ← p.atrLoop closes highs lows n
  return s.atr

end Loops

/-- The least number of candles that `init_and_validate` accepts. -/
def minCandles (p : Params F) : ℕ :=
  wrapSize
    (wrap32
      (max (wrap32 (p.emaSlowPeriod.toInt + p.emaSignalPeriod.toInt))
          (max p.adxPeriod.toInt p.atrPeriod.toInt) +
        2))

variable [FloorRing F] [SquareRoot F]

/-- What `analyze_raw` finds in arrays that are long enough. -/
def draftRaw (p : Params F) (closes : List F) (nCloses : ℕ) (highs lows volumes : List F) (nCandles : ℕ)
    (ob : DepthBook F) (pressure : PressureResult F) (timestampNs : ℤ) : Option (Draft F) := do
  let price ← closes[nCloses - 1]?
  let ema ← p.computeEmaScoreRaw closes nCloses
  let rsi ← p.computeRsiScoreRaw closes nCloses
  let vwap ← p.computeVwapScoreRaw closes highs lows volumes nCandles price
  let adx ← p.computeAdxRaw closes highs lows nCandles
  let pressureRaw ← p.computePressureRaw closes volumes nCandles pressure
  let atr ← p.computeAtrRaw closes highs lows nCandles
  let scores := ⟨ema, rsi, p.computeObiScore ob, vwap, adx, pressureRaw⟩
  return ⟨timestampNs, scores, p.computeComposite scores adx, price, usedRange atr price, adx⟩

def analyzeRaw (p : Params F) (closes : List F) (nCloses : ℕ) (highs lows volumes : List F) (nCandles : ℕ)
    (ob : DepthBook F) (pressure : PressureResult F) (timestampNs : ℤ) : Option (FastSignal F) :=
  if nCandles < p.minCandles ∨ nCloses < p.minCandles then
    some (FastSignal.idle timestampNs .insufficientData)
  else
    (p.draftRaw closes nCloses highs lows volumes nCandles ob pressure timestampNs).map p.finalizeSignal

/-- `analyze`: the first 256 candles are copied into arrays. -/
def analyze (p : Params F) (candles : List (TimedBar F)) (ob : DepthBook F) (pressure : PressureResult F)
    (timestampNs : ℤ) : Option (FastSignal F) :=
  let count := min candles.length 256
  let copied := candles.take count
  p.analyzeRaw (copied.map (·.close)) count (copied.map (·.high)) (copied.map (·.low))
    (copied.map (·.volume)) count ob pressure timestampNs

end Params

/-! ### The incremental analysis -/

/-- The cached indicators of a symbol. -/
structure Cache (F : Type*) extends Indicators F where
  initialized : Bool
  lastCandleTs : ℤ
  candleCount : ℤ
  lastSignalMs : ℤ

namespace Cache

/-- The cache of a symbol that was never analyzed. -/
def fresh (p : Params F) : Cache F :=
  { Indicators.fresh p.periods with
    initialized := false
    lastCandleTs := 0
    candleCount := 0
    lastSignalMs := 0 }

/-- Feed a candle where nothing is divided by zero. -/
def feedBar? (i : Indicators F) (bar : TimedBar F) : Option (Indicators F) :=
  if i.vwap.cumV + bar.volume = 0 then none else some (i.feedBar bar.toBar)

def updateIndicatorCache (p : Params F) (ic : Cache F) (candles : List (TimedBar F))
    (latest : TimedBar F) : Option (Cache F) :=
  if ic.initialized = false ∨
      ic.candleCount < wrap32 (wrap32 (p.emaSlowPeriod.toInt + p.emaSignalPeriod.toInt) + 2) then do
    let i ← candles.foldlM feedBar? ic.toIndicators
    return {
      i with
      initialized := true
      lastCandleTs := latest.timestamp
      candleCount := wrap32 candles.length
      lastSignalMs := ic.lastSignalMs }
  else if latest.timestamp ≠ ic.lastCandleTs then do
    let i ← feedBar? ic.toIndicators latest
    return {
      i with
      initialized := ic.initialized
      lastCandleTs := latest.timestamp
      candleCount := wrap32 (ic.candleCount + 1)
      lastSignalMs := ic.lastSignalMs }
  else some ic

end Cache

namespace Params

/-- The sums of the bodies in `compute_body_direction`. -/
def bodySums (p : Params F) (candles : List (TimedBar F)) : Option (F × F) :=
  let n := wrap32 candles.length
  let lookback := min p.bodyDirectionLookback.toInt (n - 1)
  checkedLoop (n - lookback).toNat lookback.toNat
    (fun sums i =>
      if i < 1 then some sums
      else do
        let candle ← candles[i]?
        let prev ← candles[i - 1]?
        return addBody sums (candle.close - prev.close) candle.volume)
    (0, 0)

def computeBodyDirection (p : Params F) (candles : List (TimedBar F)) : Option F := do
  let sums ← p.bodySums candles
  return imbalance tiny sums.1 sums.2

variable [SquareRoot F]

def computeCachedScores (p : Params F) (ic : Cache F) (ob : DepthBook F) (candles : List (TimedBar F))
    (pressure : PressureResult F) (price : F) : Option (Scores F) := do
  let bodyDir ← p.computeBodyDirection candles
  return {
    ema := macdScore (ic.emaFast.ema - ic.emaSlow.ema - ic.emaSignal.ema) ic.emaSlow.ema
    rsi := p.rsiScore ic.rsi.rsi
    obi := p.computeObiScore ob
    vwap := p.vwapScore ic.vwap.value ic.vwap.stdDev price
    adx := ic.adx.adx
    pressure := p.pressureScore pressure bodyDir }

/-- What `analyze_incremental` finds with the cache that it has updated. -/
def draftCached (p : Params F) (ic : Cache F) (ob : DepthBook F) (candles : List (TimedBar F))
    (pressure : PressureResult F) (timestampNs : ℤ) (price : F) : Option (Draft F) := do
  let scores ← p.computeCachedScores ic ob candles pressure price
  return ⟨timestampNs, scores, p.computeComposite scores ic.adx.adx, price, usedRange ic.atr.atr price,
    ic.adx.adx⟩

end Params

end Engine

/-- The engine with its caches by symbol. -/
structure Engine (F : Type*) where
  params : Engine.Params F
  cache : Dict String (Engine.Cache F)

namespace Engine

variable {F : Type*} [Field F] [LinearOrder F]

/-- An engine that has analyzed nothing. -/
def new (p : Params F) : Engine F := ⟨p, Dict.empty⟩

/-- The cache of a symbol, made on first use. -/
def getCache (e : Engine F) (symbol : String) : Cache F :=
  (e.cache.find? symbol).getD (Cache.fresh e.params)

/-- The engine with another cache of a symbol. -/
def setCache (e : Engine F) (symbol : String) (ic : Cache F) : Engine F :=
  { e with cache := e.cache.insert symbol ic }

/-! ### Drafts -/

section Drafts

variable [SquareRoot F] {p : Params F} {ob : DepthBook F} {pressure : PressureResult F} {timestampNs : ℤ}
  {d : Draft F}

/-- What every draft is made of: the composite is that of its scores, and the trend strength is one. -/
structure Draft.Composed (p : Params F) (timestampNs : ℤ) (d : Draft F) : Prop where
  timestamp : d.timestamp = timestampNs
  adx : d.adx = d.scores.adx
  composite : d.composite = p.computeComposite d.scores d.scores.adx

theorem Params.draftRaw_parts {closes highs lows volumes : List F} {nCloses nCandles : ℕ}
    (h : p.draftRaw closes nCloses highs lows volumes nCandles ob pressure timestampNs = some d) :
    d.Composed p timestampNs ∧ closes[nCloses - 1]? = some d.price ∧
      p.computeEmaScoreRaw closes nCloses = some d.scores.ema ∧
      p.computeVwapScoreRaw closes highs lows volumes nCandles d.price = some d.scores.vwap ∧
      p.computePressureRaw closes volumes nCandles pressure = some d.scores.pressure ∧
      d.scores.obi = p.computeObiScore ob ∧
      ∃ atr, p.computeAtrRaw closes highs lows nCandles = some atr ∧ d.atr = usedRange atr d.price := by
  simp only [draftRaw, Option.bind_eq_bind, Option.bind_eq_some_iff] at h
  obtain ⟨price, hprice, ema, hema, rsi, -, vwap, hvwap, adx, -, score, hscore, atr, hatr, hd⟩ := h
  cases hd
  exact ⟨⟨rfl, rfl, rfl⟩, hprice, hema, hvwap, hscore, rfl, atr, hatr, rfl⟩

theorem Params.draftCached_parts {ic : Cache F} {candles : List (TimedBar F)} {price : F}
    (h : p.draftCached ic ob candles pressure timestampNs price = some d) :
    d.Composed p timestampNs ∧ d.price = price ∧ d.atr = usedRange ic.atr.atr price ∧
      d.scores.ema = macdScore (ic.emaFast.ema - ic.emaSlow.ema - ic.emaSignal.ema) ic.emaSlow.ema ∧
      d.scores.vwap = p.vwapScore ic.vwap.value ic.vwap.stdDev price ∧
      d.scores.obi = p.computeObiScore ob ∧
      (p.computeBodyDirection candles).map (p.pressureScore pressure) = some d.scores.pressure := by
  simp only [draftCached, computeCachedScores, Option.bind_eq_bind, Option.bind_eq_some_iff] at h
  obtain ⟨scores, ⟨bodyDir, hbody, hscores⟩, hd⟩ := h
  cases hscores
  cases hd
  exact ⟨⟨rfl, rfl, rfl⟩, rfl, rfl, rfl, rfl, rfl, by rw [hbody]; rfl⟩

end Drafts

variable [FloorRing F] [SquareRoot F]

def analyzeIncremental (e : Engine F) (symbol : String) (candles : List (TimedBar F)) (ob : DepthBook F)
    (pressure : PressureResult F) (timestampNs : ℤ) : Option (FastSignal F × Engine F) :=
  match candles.getLast? with
  | none => some (FastSignal.idle 0 .noCandles, e)
  | some latest => do
    let ic ← (e.getCache symbol).updateIndicatorCache e.params candles latest
    let nowMs := timestampNs.tdiv 1000000
    if nowMs - ic.lastSignalMs < e.params.cooldownMs.toInt then
      return (FastSignal.idle timestampNs .cooldownActive, e.setCache symbol ic)
    else
      let d ← e.params.draftCached ic ob candles pressure timestampNs latest.close
      let sig := e.params.finalizeSignal d
      return (sig, e.setCache symbol (if sig.isActionable then { ic with lastSignalMs := nowMs } else ic))

/-- What a call does with the cache that it has updated. -/
theorem analyzeIncremental_eq {e : Engine F} {symbol : String} {candles : List (TimedBar F)}
    {ob : DepthBook F} {pressure : PressureResult F} {timestampNs : ℤ} {latest : TimedBar F} {ic : Cache F}
    (hlatest : candles.getLast? = some latest)
    (hic : (e.getCache symbol).updateIndicatorCache e.params candles latest = some ic) :
    e.analyzeIncremental symbol candles ob pressure timestampNs =
      if timestampNs.tdiv 1000000 - ic.lastSignalMs < e.params.cooldownMs.toInt then
        some (FastSignal.idle timestampNs .cooldownActive, e.setCache symbol ic) else
        (e.params.draftCached ic ob candles pressure timestampNs latest.close).map fun d =>
          (e.params.finalizeSignal d, e.setCache symbol (if (e.params.finalizeSignal d).isActionable then
                { ic with lastSignalMs := timestampNs.tdiv 1000000 }
              else ic)) := by
  simp only [analyzeIncremental, hlatest, hic, Option.bind_eq_bind, Option.bind_some, Option.pure_def]
  split_ifs
  · rfl
  · rw [Option.map_eq_bind]
    rfl

end Engine

end TradingSim.Bot
