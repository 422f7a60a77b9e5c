import TradingSim.Bot.SignalEngine

/-!
# What the batch analysis reads

The length that the analysis asks for covers the periods of the averages, of the trend strength and of the
range, but not that of the relative strength index, whose first loop reads as many closes as its period. So
the analysis reads nothing else exactly if it gives up on a short window, or the window is longer than that
period.
-/

namespace TradingSim.Bot

open Foundations

namespace Engine

namespace Params

variable {F : Type*} [Field F] [LinearOrder F] {p : Params F} {closes highs lows volumes : List F} {n : ℕ}

/-! ### The loops that stay within -/

theorem emaScore_isSome (hn : 0 < n) (hcloses : closes.length = n) :
    (p.computeEmaScoreRaw closes n).isSome := by
  have hloop : (p.emaLoop closes n).isSome := by
    rw [emaLoop, List.getElem?_eq_getElem (hcloses ▸ hn)]
    apply checkedLoop_isSome
    intro i s hle hlt
    have hi : i < closes.length := by omega
    simp [hi]
  obtain ⟨s, hs⟩ := Option.isSome_iff_exists.mp hloop
  simp [computeEmaScoreRaw, hs]

omit [LinearOrder F] in
/-- The typical prices are cached up to the counter. -/
theorem vwapSums_length (hn : n ≤ 256) (hcloses : closes.length = n) (hhighs : highs.length = n)
    (hlows : lows.length = n) (hvolumes : volumes.length = n) :
    ∃ s, vwapSums closes highs lows volumes n = some s ∧ s.tpCache.length = 0 + n := by
  rw [vwapSums, min_eq_left hn]
  apply checkedLoop_spec (fun i (s : VwapLoop F) => s.tpCache.length = i)
  · simp
  · intro i s _ hlt hlength
    have hi : i < closes.length ∧ i < highs.length ∧ i < lows.length ∧ i < volumes.length := by omega
    simp [hi, hlength]

theorem vwapScore_isSome [SquareRoot F] (hn : n ≤ 256) (hcloses : closes.length = n)
    (hhighs : highs.length = n) (hlows : lows.length = n) (hvolumes : volumes.length = n) (price : F) :
    (p.computeVwapScoreRaw closes highs lows volumes n price).isSome := by
  obtain ⟨s, hs, hlength⟩ := vwapSums_length hn hcloses hhighs hlows hvolumes
  have hdeviations (vwap : F) : (vwapDeviations volumes n s vwap).isSome := by
    apply checkedLoop_isSome
    intro i cumVar _ hlt
    have hi : i < s.tpCache.length ∧ i < volumes.length := by omega
    simp [hi]
  obtain ⟨cumVar, hcumVar⟩ := Option.isSome_iff_exists.mp
    (hdeviations (if 0 < s.cumV then s.cumPv / s.cumV else price))
  simp [computeVwapScoreRaw, hs, hcumVar]

theorem adx_isSome (hn : 0 < n) (hcloses : closes.length = n) (hhighs : highs.length = n)
    (hlows : lows.length = n) : (p.computeAdxRaw closes highs lows n).isSome := by
  have hfirst : 0 < closes.length ∧ 0 < highs.length ∧ 0 < lows.length := by omega
  have hloop : (p.adxLoop closes highs lows n).isSome := by
    simp only [adxLoop, List.getElem?_eq_getElem hfirst.1, List.getElem?_eq_getElem hfirst.2.1,
      List.getElem?_eq_getElem hfirst.2.2]
    apply checkedLoop_isSome
    intro i s hle hlt
    have hi : i < closes.length ∧ i < highs.length ∧ i < lows.length := by omega
    simp [hi]
  obtain ⟨s, hs⟩ := Option.isSome_iff_exists.mp hloop
  simp [computeAdxRaw, hs]

/-- The bodies that are summed have a close before them. -/
theorem pressure_isSome (hn : 0 < n) (hsmall : n ≤ 256) (hcloses : closes.length = n)
    (hvolumes : volumes.length = n) (pressure : PressureResult F) :
    (p.computePressureRaw closes volumes n pressure).isSome := by
  have hwrap : wrap32 n = n := wrap32_of_lt (by omega) (by omega)
  have hloop : (p.bodySumsRaw closes volumes n).isSome := by
    apply checkedLoop_isSome
    intro i sums hle hlt
    have hi : i - 1 < closes.length ∧ i < closes.length ∧ i < volumes.length := by omega
    have hbody : (bodyAt closes i).isSome := by
      unfold bodyAt
      split_ifs
      · simp [hi]
      · rfl
    obtain ⟨body, hbody⟩ := Option.isSome_iff_exists.mp hbody
    simp [hbody, hi]
  obtain ⟨sums, hsums⟩ := Option.isSome_iff_exists.mp hloop
  simp [computePressureRaw, hsums]

theorem atr_isSome (hcloses : closes.length = n) (hhighs : highs.length = n) (hlows : lows.length = n) :
    (p.computeAtrRaw closes highs lows n).isSome := by
  have hrange (i : ℕ) (hi : i < n) : (trueRangeAt closes highs lows i).isSome := by
    have hi' : i < highs.length ∧ i < lows.length ∧ i - 1 < closes.length := by omega
    unfold trueRangeAt
    split_ifs <;> simp [hi']
  have hloop : (p.atrLoop closes highs lows n).isSome := by
    apply checkedLoop_isSome
    intro i s _ hlt
    obtain ⟨tr, htr⟩ := Option.isSome_iff_exists.mp (hrange i (by omega))
    simp [htr]
  obtain ⟨s, hs⟩ := Option.isSome_iff_exists.mp hloop
  simp [computeAtrRaw, hs]

/-! ### The loop that does not -/

/-- The first loop reads as many closes as its period. -/
theorem rsiSums_isSome_iff (hn : 0 < n) (hcloses : closes.length = n) (first : F) :
    (p.rsiSums closes first).isSome ↔ p.rsiPeriod.toInt < n := by
  rcases lt_or_ge p.rsiPeriod.toInt n with hlt | hge
  · simp only [hlt, iff_true]
    apply checkedLoop_isSome
    intro i s _ hlt'
    have hi : i < closes.length := by omega
    simp [hi]
  · have hfails : p.rsiSums closes first = none := by
      apply checkedLoop_eq_none (i := n)
      · omega
      · omega
      · simp [hcloses]
    simp [hfails, hge]

/-- **The relative strength index is read within the array** if its period is. -/
theorem rsiScore_isSome_iff (hn : 0 < n) (hsmall : n ≤ 256) (hcloses : closes.length = n)
    (hperiod : 0 < p.rsiPeriod.toInt) :
    (p.computeRsiScoreRaw closes n).isSome ↔ p.rsiPeriod.toInt < n := by
  have hfirst : 0 < closes.length := by omega
  have hwrap : wrapSize (p.rsiPeriod.toInt + 1) = p.rsiPeriod.toInt + 1 := by
    have hlt := p.rsiPeriod.toInt_lt
    exact wrapSize_of_lt (by omega) (by omega)
  have hsmoothed (s : RsiLoop F) : (p.rsiSmoothed closes n s).isSome := by
    apply checkedLoop_isSome
    intro i s _ hlt
    have hi : i < closes.length := by omega
    simp [hi]
  rw [← rsiSums_isSome_iff hn hcloses closes[0]]
  rw [computeRsiScoreRaw, rsiLoop, List.getElem?_eq_getElem hfirst]
  cases hsums : p.rsiSums closes closes[0] with
  | none => simp [hsums]
  | some sums =>
    obtain ⟨s, hs⟩ := Option.isSome_iff_exists.mp (hsmoothed
      { sums with
        avgGain := sums.avgGain * (1 / p.rsiPeriod.toInt)
        avgLoss := sums.avgLoss * (1 / p.rsiPeriod.toInt) })
    simp only [one_div] at hs
    simp [hsums, hs]

/-! ### The whole analysis -/

omit [Field F] [LinearOrder F] in
/-- The least number of candles is at least three. If the sums of the periods wrap around it is another
number of candles, or no window is long enough. -/
theorem three_le_minCandles (hadx : 0 < p.adxPeriod.toInt) : 3 ≤ p.minCandles := by
  have hadx' := p.adxPeriod.toInt_lt
  have hatr := p.atrPeriod.toInt_lt
  have hsum := wrap32_lt (p.emaSlowPeriod.toInt + p.emaSignalPeriod.toInt)
  unfold minCandles
  generalize hm : max (wrap32 (p.emaSlowPeriod.toInt + p.emaSignalPeriod.toInt))
    (max p.adxPeriod.toInt p.atrPeriod.toInt) = m
  rcases lt_or_ge (m + 2) (2 ^ 31) with hfits | hwraps
  · rw [wrap32_of_lt (by omega) hfits]
    have hsize := wrapSize_of_lt (n := m + 2) (by omega) (by omega)
    omega
  · have hneg : wrap32 (m + 2) < 0 := by
      unfold wrap32
      rw [Int.bmod_def]
      split_ifs
      · omega
      · omega
    have hlow := le_wrap32 (m + 2)
    have hbig := le_wrapSize hneg (by omega)
    omega

omit [Field F] [LinearOrder F] in
/-- The least number of candles if no sum of periods leaves 32 bits. -/
theorem minCandles_eq (hadx : 0 < p.adxPeriod.toInt)
    (hsum : wrap32 (p.emaSlowPeriod.toInt + p.emaSignalPeriod.toInt) =
      p.emaSlowPeriod.toInt + p.emaSignalPeriod.toInt)
    (hfits : max (p.emaSlowPeriod.toInt + p.emaSignalPeriod.toInt)
      (max p.adxPeriod.toInt p.atrPeriod.toInt) + 2 < 2 ^ 31) : (p.minCandles : ℤ) =
      max (p.emaSlowPeriod.toInt + p.emaSignalPeriod.toInt)
        (max p.adxPeriod.toInt p.atrPeriod.toInt) + 2 := by
  rw [minCandles, hsum, wrap32_of_lt (by omega) hfits]
  exact wrapSize_of_lt (by omega) (by omega)

section Analysis

variable [SquareRoot F] {ob : DepthBook F} {pressure : PressureResult F} {timestampNs : ℤ}

/-- A long enough window is read within the arrays if the period of the index is. -/
theorem draftRaw_isSome_iff (hn : 0 < n) (hsmall : n ≤ 256) (hcloses : closes.length = n)
    (hhighs : highs.length = n) (hlows : lows.length = n) (hvolumes : volumes.length = n)
    (hperiod : 0 < p.rsiPeriod.toInt) :
    (p.draftRaw closes n highs lows volumes n ob pressure timestampNs).isSome ↔ p.rsiPeriod.toInt < n := by
  have hlast : n - 1 < closes.length := by omega
  obtain ⟨ema, hema⟩ := Option.isSome_iff_exists.mp (emaScore_isSome (p := p) hn hcloses)
  obtain ⟨vwap, hvwap⟩ := Option.isSome_iff_exists.mp
    (vwapScore_isSome (p := p) hsmall hcloses hhighs hlows hvolumes closes[n - 1])
  obtain ⟨adx, hadx⟩ := Option.isSome_iff_exists.mp (adx_isSome (p := p) hn hcloses hhighs hlows)
  obtain ⟨score, hscore⟩ := Option.isSome_iff_exists.mp
    (pressure_isSome (p := p) hn hsmall hcloses hvolumes pressure)
  obtain ⟨atr, hatr⟩ := Option.isSome_iff_exists.mp (atr_isSome (p := p) hcloses hhighs hlows)
  rw [← rsiScore_isSome_iff hn hsmall hcloses hperiod, draftRaw, List.getElem?_eq_getElem hlast]
  cases p.computeRsiScoreRaw closes n with
  | none => simp [hema]
  | some rsi => simp [hema, hvwap, hadx, hscore, hatr]

variable [FloorRing F]

theorem analyze_isSome_iff (hp : p.Accepted) (candles : List (TimedBar F)) :
    (p.analyze candles ob pressure timestampNs).isSome ↔
      min candles.length 256 < p.minCandles ∨ p.rsiPeriod.toInt < (min candles.length 256 : ℕ) := by
  simp only [analyze, analyzeRaw, or_self]
  split_ifs with hshort
  · simp [hshort]
  · have hmin := three_le_minCandles hp.adx
    rw [Option.isSome_map, draftRaw_isSome_iff (by omega) (by omega) (by simp) (by simp) (by simp)
      (by simp) hp.rsi]
    simp [hshort]

/-- **The batch analysis reads nothing but what was copied** exactly if it gives up on a short window or
the window is longer than the period of the relative strength index. -/
theorem analyze_reads_iff (hp : p.validate = none) (candles : List (TimedBar F)) (ob : DepthBook F)
    (pressure : PressureResult F) (timestampNs : ℤ) : (p.analyze candles ob pressure timestampNs).isSome ↔
      min candles.length 256 < p.minCandles ∨ p.rsiPeriod.toInt < (min candles.length 256 : ℕ) :=
  analyze_isSome_iff (accepted hp) candles

/-- A window of the least length is longer than the default period. -/
theorem analyze_reads_default :
    ((default : Params ℝ).analyze (List.replicate 61 ⟨⟨1, 1, 1, 1⟩, 0⟩) ⟨[], []⟩ PressureModel.unmeasured
      0).isSome :=
  (analyze_reads_iff validate_default _ _ _ _).mpr (.inr (by
    decide))

/-- A period of a hundred is accepted, and a window of the least length is too short for it. -/
theorem not_analyze_reads_longPeriod :
    ¬∀ (p : Params ℝ), p.validate = none → ∀ candles ob pressure timestampNs,
      (p.analyze candles ob pressure timestampNs).isSome := by
  intro hreads
  let p : Params ℝ := { default with rsiPeriod := 100 }
  have hp : p.validate = none := by
    rw [validate_eq_none_iff]
    norm_num [p, checks, default, weightSum]
    decide
  have hmin : (p.minCandles : ℤ) = 61 :=
    minCandles_eq (by decide) (wrap32_of_lt (by decide) (by decide)) (by decide)
  have hsome := hreads p hp (List.replicate 61 ⟨⟨1, 1, 1, 1⟩, 0⟩) ⟨[], []⟩ PressureModel.unmeasured 0
  rw [analyze_isSome_iff (accepted hp), List.length_replicate] at hsome
  rcases hsome with hshort | hlong
  · omega
  · exact absurd hlong (by decide)

end Analysis

end Params

end Engine

end TradingSim.Bot
