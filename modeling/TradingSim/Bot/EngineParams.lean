import Mathlib.Tactic.NormNum
import TradingSim.Bot.Indicators

/-!
# The parameters of the signal engine

All parameters of the engine, in the types of the source, and their validation: the checks are made in
order and the first one that fails is reported. The multiples of the range that are in force for a quiet
and for a lively market are among what is not checked.
-/

namespace TradingSim.Bot

namespace Engine

/-- `SignalEngineV2Params`. -/
structure Params (F : Type*) where
  emaFastPeriod : Int32
  emaSlowPeriod : Int32
  emaSignalPeriod : Int32
  rsiPeriod : Int32
  rsiOverbought : F
  rsiOversold : F
  obiLevels5 : Int32
  obiLevels10 : Int32
  obiLevels20 : Int32
  obiThreshold : F
  vwapBandMult : F
  vwapDevThreshold : F
  adxPeriod : Int32
  adxTrendThreshold : F
  pressureThreshold : F
  toxicPenalty : F
  bodyDirectionLookback : Int32
  wEma : F
  wRsi : F
  wObi : F
  wVwap : F
  wAdx : F
  wPressure : F
  buyThreshold : F
  sellThreshold : F
  minConfidence : UInt8
  cooldownMs : Int64
  slAtrMult : F
  tpAtrMult : F
  atrPeriod : Int32
  adaptiveSlTp : Bool
  lowVolAtrPct : F
  highVolAtrPct : F
  lowVolSlMult : F
  lowVolTpMult : F
  highVolSlMult : F
  highVolTpMult : F
  dynamicLeverage : Bool
  maxLeverage : UInt8
  highConfidenceLeverage : UInt8
  emergencyConfidenceThreshold : UInt8
  emergencyAdxThreshold : F

/-- What `validate` reports. -/
inductive ParamError
  | emaPeriods
  | emaOrder
  | rsiPeriod
  | rsiZones
  | obiLevels
  | obiThreshold
  | vwapBandMult
  | adxPeriod
  | adxTrendThreshold
  | weights
  | buyThreshold
  | sellThreshold
  | cooldownMs
  | atrPeriod
  | atrMults
  | maxLeverage
  | highConfidenceLeverage
  | pressureThreshold
  | toxicPenalty
  | bodyDirectionLookback
  deriving DecidableEq

namespace Params

variable {F : Type*} [Field F]

/-- The parameters that the source gives by default. -/
def default : Params F where
  emaFastPeriod := 21
  emaSlowPeriod := 50
  emaSignalPeriod := 9
  rsiPeriod := 14
  rsiOverbought := 70
  rsiOversold := 30
  obiLevels5 := 5
  obiLevels10 := 10
  obiLevels20 := 20
  obiThreshold := 15 / 100
  vwapBandMult := 2
  vwapDevThreshold := 5
  adxPeriod := 14
  adxTrendThreshold := 25
  pressureThreshold := 2 / 10
  toxicPenalty := 5 / 10
  bodyDirectionLookback := 5
  wEma := 25 / 100
  wRsi := 15 / 100
  wObi := 20 / 100
  wVwap := 10 / 100
  wAdx := 10 / 100
  wPressure := 20 / 100
  buyThreshold := 3 / 10
  sellThreshold := -3 / 10
  minConfidence := 60
  cooldownMs := 5000
  slAtrMult := 15 / 10
  tpAtrMult := 3
  atrPeriod := 14
  adaptiveSlTp := true
  lowVolAtrPct := 5 / 1000
  highVolAtrPct := 2 / 100
  lowVolSlMult := 1
  lowVolTpMult := 2
  highVolSlMult := 25 / 10
  highVolTpMult := 5
  dynamicLeverage := true
  maxLeverage := 5
  highConfidenceLeverage := 3
  emergencyConfidenceThreshold := 85
  emergencyAdxThreshold := 30

/-- The periods, as the indicators take them. -/
def periods (p : Params F) : SignalEngineV2Params where
  emaFastPeriod := p.emaFastPeriod.toInt.toNat
  emaSlowPeriod := p.emaSlowPeriod.toInt.toNat
  emaSignalPeriod := p.emaSignalPeriod.toInt.toNat
  rsiPeriod := p.rsiPeriod.toInt.toNat
  adxPeriod := p.adxPeriod.toInt.toNat
  atrPeriod := p.atrPeriod.toInt.toNat

variable [LinearOrder F]

def weightSum (p : Params F) : F := p.wEma + p.wRsi + p.wObi + p.wVwap + p.wAdx + p.wPressure

/-- The checks of `validate` in order: what fails each of them, and what is reported then. -/
def checks (p : Params F) : List (Bool × ParamError) :=
  [(p.emaFastPeriod ≤ 0 ∨ p.emaSlowPeriod ≤ 0 ∨ p.emaSignalPeriod ≤ 0, .emaPeriods),
    (p.emaSlowPeriod ≤ p.emaFastPeriod, .emaOrder),
    (p.rsiPeriod ≤ 0, .rsiPeriod),
    (p.rsiOverbought ≤ p.rsiOversold, .rsiZones),
    (p.obiLevels5 ≤ 0 ∨ p.obiLevels10 ≤ 0 ∨ p.obiLevels20 ≤ 0, .obiLevels),
    (p.obiThreshold ≤ 0, .obiThreshold),
    (p.vwapBandMult ≤ 0, .vwapBandMult),
    (p.adxPeriod ≤ 0, .adxPeriod),
    (p.adxTrendThreshold ≤ 0 ∨ 100 < p.adxTrendThreshold, .adxTrendThreshold),
    (1 / 100 < |p.weightSum - 1|, .weights),
    (p.buyThreshold ≤ 0 ∨ 1 < p.buyThreshold, .buyThreshold),
    (0 ≤ p.sellThreshold ∨ p.sellThreshold < -1, .sellThreshold),
    (p.cooldownMs < 0, .cooldownMs),
    (p.atrPeriod ≤ 0, .atrPeriod),
    (p.slAtrMult ≤ 0 ∨ p.tpAtrMult ≤ 0, .atrMults),
    (p.maxLeverage < 1, .maxLeverage),
    (p.highConfidenceLeverage < 1 ∨ p.maxLeverage < p.highConfidenceLeverage, .highConfidenceLeverage),
    (p.pressureThreshold ≤ 0, .pressureThreshold),
    (p.toxicPenalty < 0 ∨ 1 < p.toxicPenalty, .toxicPenalty),
    (p.bodyDirectionLookback ≤ 0, .bodyDirectionLookback)]

/-- `validate`: the first check that fails, if one does. -/
def validate (p : Params F) : Option ParamError := (p.checks.find? Prod.fst).map Prod.snd

/-- The parameters are accepted if no check fails. -/
theorem validate_eq_none_iff (p : Params F) : p.validate = none ↔ ∀ c ∈ p.checks, c.1 = false := by
  simp only [validate, Option.map_eq_none_iff, List.find?_eq_none, Bool.not_eq_true]

/-- What accepted parameters promise, as far as the engine relies on it. -/
structure Accepted (p : Params F) : Prop where
  fast : 0 < p.emaFastPeriod.toInt
  slow : 0 < p.emaSlowPeriod.toInt
  signal : 0 < p.emaSignalPeriod.toInt
  fastSlow : p.emaFastPeriod.toInt < p.emaSlowPeriod.toInt
  rsi : 0 < p.rsiPeriod.toInt
  adx : 0 < p.adxPeriod.toInt
  atr : 0 < p.atrPeriod.toInt
  lookback : 0 < p.bodyDirectionLookback.toInt
  slMult : 0 < p.slAtrMult
  tpMult : 0 < p.tpAtrMult
  maxLeverage : 1 ≤ p.maxLeverage.toNat
  highLeverage : 1 ≤ p.highConfidenceLeverage.toNat
  highLeverageLe : p.highConfidenceLeverage.toNat ≤ p.maxLeverage.toNat

theorem accepted {p : Params F} (h : p.validate = none) : p.Accepted := by
  rw [validate_eq_none_iff] at h
  simp only [checks, List.forall_mem_cons, decide_eq_false_iff_not, not_or, not_le, Int32.not_le,
    Int32.lt_iff_toInt_lt, UInt8.not_lt, UInt8.le_iff_toNat_le] at h
  obtain ⟨⟨hfast, hslow, hsignal⟩, hfastSlow, hrsi, -, -, -, -, hadx, -, -, -, -, -, hatr, ⟨hsl, htp⟩, hmax,
    ⟨hhigh, hhigh'⟩, -, -, hlookback, -⟩ := h
  exact
    { fast := hfast
      slow := hslow
      signal := hsignal
      fastSlow := hfastSlow
      rsi := hrsi
      adx := hadx
      atr := hatr
      lookback := hlookback
      slMult := hsl
      tpMult := htp
      maxLeverage := hmax
      highLeverage := hhigh
      highLeverageLe := hhigh' }

theorem validate_default [IsStrictOrderedRing F] : (default : Params F).validate = none := by
  rw [validate_eq_none_iff]
  norm_num [checks, default, weightSum]
  decide

end Params

end Engine

end TradingSim.Bot
