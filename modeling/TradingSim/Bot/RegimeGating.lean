import TradingSim.Bot.RegimeFilter
import TradingSim.Bot.SignalEngine

/-!
# The regime layer of the signal engine

Version 3 of the engine keeps a hidden Markov model of each symbol. It takes a signal of version 2 and, if
it is confident enough of the regime of the market, changes the confidence of the signal, or widens its
stop and target and lowers its leverage. What the layer adds to the text of the reason is left out.
-/

namespace TradingSim.Bot

open Foundations
open Engine (FastSignal TimedBar)

namespace EngineV3

/-- `SignalEngineV3::Params`. -/
structure Params where
  trendBoost : ℝ
  trendDampen : ℝ
  rangeConfidenceCap : ℝ
  volatileLeverageMult : ℝ
  volatileStopMult : ℝ
  hmmUpdateThreshold : ℝ
  minRegimeConfidence : ℝ

/-- The parameters that the source gives by default. -/
noncomputable def Params.default : Params where
  trendBoost := 13 / 10
  trendDampen := 5 / 10
  rangeConfidenceCap := 50
  volatileLeverageMult := 5 / 10
  volatileStopMult := 15 / 10
  hmmUpdateThreshold := 1 / 10000
  minRegimeConfidence := 4 / 10

/-- The model of a symbol. -/
structure HMMState where
  hmm : OnlineHMM
  lastPrice : ℝ
  initialized : Bool

/-- The model of a symbol that was never analyzed. -/
noncomputable def HMMState.fresh : HMMState where
  hmm := .new
  lastPrice := 0
  initialized := false

/-- `update_hmm_state`: small changes of the price are passed over. -/
noncomputable def HMMState.update (threshold : ℝ) (state : HMMState) (price : ℝ) : HMMState :=
  if state.initialized = false then ⟨state.hmm.init price, price, true⟩
  else if 0 < state.lastPrice then
    if threshold < |price - state.lastPrice| / state.lastPrice then
      { state with hmm := (state.hmm.update price).1, lastPrice := price }
    else state
  else state

/-- A number as an unsigned integer. -/
noncomputable def toUnsigned (x : ℝ) : ℕ := ⌊x⌋.toNat

/-- A level moved away from the entry price by a factor. -/
noncomputable def widen (mult entry level : ℝ) : ℝ :=
  if 0 < level ∧ 0 < entry then
    entry + if entry < level then |entry - level| * mult else -|entry - level| * mult
  else level

namespace Params

/-- The confidence in a signal with the trend. -/
noncomputable def boosted (p : Params) (confidence : UInt8) : UInt8 :=
  UInt8.ofNat (min 100 (toUnsigned (confidence.toNat * p.trendBoost)))

/-- The confidence in a signal against the trend. -/
noncomputable def dampened (p : Params) (confidence : UInt8) : UInt8 :=
  UInt8.ofNat (toUnsigned (confidence.toNat * p.trendDampen))

noncomputable def applyRegimeGating (p : Params) (base : FastSignal ℝ) (regime : RegimeState) :
    FastSignal ℝ :=
  match regime, base.direction with
  | .trendingUp, .long => { base with confidence := p.boosted base.confidence }
  | .trendingUp, .short => { base with confidence := p.dampened base.confidence }
  | .trendingUp, .neutral => base
  | .trendingDown, .short => { base with confidence := p.boosted base.confidence }
  | .trendingDown, .long => { base with confidence := p.dampened base.confidence }
  | .trendingDown, .neutral => base
  | .ranging, _ =>
    if toUnsigned p.rangeConfidenceCap < base.confidence.toNat then
      { base with confidence := UInt8.ofNat (toUnsigned p.rangeConfidenceCap) }
    else base
  | .volatile, _ =>
    { base with
      stopLoss := widen p.volatileStopMult base.entryPrice base.stopLoss
      takeProfit := widen p.volatileStopMult base.entryPrice base.takeProfit
      leverage := UInt8.ofNat (max 1 (toUnsigned (base.leverage.toNat * p.volatileLeverageMult))) }

end Params

end EngineV3

/-- Version 3 of the engine: version 2, and the models by symbol. -/
structure EngineV3 where
  v2 : Engine ℝ
  hmmStates : Dict String EngineV3.HMMState
  params : EngineV3.Params

namespace EngineV3

/-- The model of a symbol, made on first use. -/
noncomputable def getState (e : EngineV3) (symbol : String) : HMMState :=
  (e.hmmStates.find? symbol).getD HMMState.fresh

/-- The model of a symbol after the last price of a window. -/
noncomputable def nextState (e : EngineV3) (symbol : String) (price : ℝ) : HMMState :=
  (e.getState symbol).update e.params.hmmUpdateThreshold price

/-- The regime that a signal is gated by, if there is a price and enough confidence. -/
noncomputable def gate? (e : EngineV3) (symbol : String) (candles : List (TimedBar ℝ)) :
    Option RegimeState := do
  let latest ← candles.getLast?
  let hmm := (e.nextState symbol latest.close).hmm
  if hmm.stateProbability hmm.mostLikelyState < e.params.minRegimeConfidence then none
  else return hmm.mostLikelyState

/-- A signal of version 2 behind a gate. -/
noncomputable def gated (p : Params) (base : FastSignal ℝ) : Option RegimeState → FastSignal ℝ
  | none => base
  | some regime => p.applyRegimeGating base regime

/-- The engine after a window. -/
noncomputable def observed (e : EngineV3) (symbol : String) (candles : List (TimedBar ℝ))
    (v2 : Engine ℝ) : EngineV3 :=
  match candles.getLast? with
  | none => { e with v2 := v2 }
  | some latest =>
    { e with v2 := v2, hmmStates := e.hmmStates.insert symbol (e.nextState symbol latest.close) }

variable (e : EngineV3) (symbol : String) (candles : List (TimedBar ℝ)) (ob : DepthBook ℝ)
  (pressure : PressureResult ℝ) (timestampNs : ℤ)

/-- `SignalEngineV3::analyze`. -/
noncomputable def analyze : Option (FastSignal ℝ × EngineV3) := do
  let base ← e.v2.params.analyze candles ob pressure timestampNs
  return (gated e.params base (e.gate? symbol candles), e.observed symbol candles e.v2)

/-- `SignalEngineV3::analyze_incremental`. -/
noncomputable def analyzeIncremental : Option (FastSignal ℝ × EngineV3) := do
  let base ← e.v2.analyzeIncremental symbol candles ob pressure timestampNs
  return (gated e.params base.1 (e.gate? symbol candles), e.observed symbol candles base.2)

end EngineV3

end TradingSim.Bot
