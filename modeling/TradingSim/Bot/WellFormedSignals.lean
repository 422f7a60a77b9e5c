import TradingSim.Bot.RegimeGating

/-!
# Well-formed signals

A signal to trade is of use if its stop and its target are on their sides of the entry price and above
zero, its confidence is no percentage above one hundred and its leverage is within the bounds. Each of
these rests on numbers that nothing checks. A volatile regime moves the stop and the target further away,
and brings the leverage back within its bounds.
-/

namespace TradingSim.Bot

open Foundations

namespace Engine

variable {F : Type*} [Field F] [LinearOrder F]

/-- What a signal to trade should be. -/
structure FastSignal.WellFormed (p : Params F) (sig : FastSignal F) : Prop where
  long : sig.direction = .long →
    0 < sig.stopLoss ∧ sig.stopLoss < sig.entryPrice ∧ sig.entryPrice < sig.takeProfit
  short : sig.direction = .short →
    0 < sig.takeProfit ∧ sig.takeProfit < sig.entryPrice ∧ sig.entryPrice < sig.stopLoss
  confidence : sig.confidence.toNat ≤ 100
  leverage : 1 ≤ sig.leverage.toNat ∧ sig.leverage.toNat ≤ p.maxLeverage.toNat

theorem FastSignal.wellFormed_iff_of_long {p : Params F} {sig : FastSignal F} (hdir : sig.direction = .long) :
    sig.WellFormed p ↔
      (0 < sig.stopLoss ∧ sig.stopLoss < sig.entryPrice ∧ sig.entryPrice < sig.takeProfit) ∧
        sig.confidence.toNat ≤ 100 ∧ 1 ≤ sig.leverage.toNat ∧ sig.leverage.toNat ≤ p.maxLeverage.toNat :=
  ⟨fun h => ⟨h.long hdir, h.confidence, h.leverage⟩,
    fun ⟨hlevels, hconfidence, hleverage⟩ => ⟨fun _ => hlevels, by simp [hdir], hconfidence, hleverage⟩⟩

theorem FastSignal.wellFormed_iff_of_short {p : Params F} {sig : FastSignal F}
    (hdir : sig.direction = .short) : sig.WellFormed p ↔
      (0 < sig.takeProfit ∧ sig.takeProfit < sig.entryPrice ∧ sig.entryPrice < sig.stopLoss) ∧
        sig.confidence.toNat ≤ 100 ∧ 1 ≤ sig.leverage.toNat ∧ sig.leverage.toNat ≤ p.maxLeverage.toNat :=
  ⟨fun h => ⟨h.short hdir, h.confidence, h.leverage⟩,
    fun ⟨hlevels, hconfidence, hleverage⟩ => ⟨by simp [hdir], fun _ => hlevels, hconfidence, hleverage⟩⟩

namespace Params

/-- Whether `compute_leverage` adds one to a leverage that has no room for it in eight bits. -/
def LeverageOverflows (p : Params F) (confidence : UInt8) (adx : F) : Prop :=
  p.highConfidenceLeverage = 255 ∧ p.dynamicLeverage = true ∧
    ¬(p.emergencyConfidenceThreshold ≤ confidence ∧ p.emergencyAdxThreshold < adx) ∧
    (p.minConfidence.toNat + p.emergencyConfidenceThreshold.toNat) / 2 ≤ confidence.toNat ∧
    p.adxTrendThreshold < adx

section Leverage

variable {p : Params F} (confidence : UInt8) (adx : F)

theorem computeLeverage_le (hp : p.Accepted) :
    (p.computeLeverage confidence adx).toNat ≤ p.maxLeverage.toNat := by
  have hmax := hp.maxLeverage
  have hhigh := hp.highLeverageLe
  unfold computeLeverage
  split_ifs
  · exact hmax
  · exact le_rfl
  · rw [UInt8.toNat_min]
    exact min_le_left _ _
  · exact hhigh
  · exact hmax

/-- **The leverage is at least one** unless one is added to the greatest number of eight bits. -/
theorem one_le_computeLeverage_iff (hp : p.Accepted) :
    1 ≤ (p.computeLeverage confidence adx).toNat ↔ ¬p.LeverageOverflows confidence adx := by
  have hmax := hp.maxLeverage
  have hhigh := hp.highLeverage
  unfold computeLeverage LeverageOverflows
  split_ifs with hdynamic hemergency hconfident htrend
  · simp [hdynamic]
  · simp [hemergency, hmax]
  · have hfull : p.highConfidenceLeverage = 255 ↔ p.highConfidenceLeverage.toNat = 255 :=
      UInt8.toNat_inj.symm
    have hlt := p.highConfidenceLeverage.toNat_lt
    simp only [UInt8.toNat_min, UInt8.toNat_add, hfull, hdynamic, hemergency, hconfident, htrend]
    simp
    omega
  · simp [htrend, hhigh]
  · simp [hconfident]

end Leverage

section Confidence

variable [IsStrictOrderedRing F] [FloorRing F]

theorem confidence_le (t : F) : (confidence t).toNat ≤ 100 := by
  have hfloor : ⌊min 100 (60 + max 0 (min 1 t) * 40)⌋ ≤ 100 := by
    calc ⌊min 100 (60 + max 0 (min 1 t) * 40)⌋ ≤ ⌊(100 : F)⌋ := Int.floor_le_floor (min_le_left _ _)
      _ = 100 := Int.floor_ofNat 100
  rw [confidence, UInt8.toNat_ofNat']
  omega

end Confidence

end Params

/-- The range of a candle or, if that is nothing, a part of the price is above zero. -/
theorem usedRange_pos [IsStrictOrderedRing F] {atr price : F} (hprice : 0 < price) :
    0 < usedRange atr price := by
  have htiny : (0 : F) < tiny := by
    unfold tiny
    positivity
  unfold usedRange
  split_ifs with hsmall
  · positivity
  · exact htiny.trans_le (not_lt.mp hsmall)

end Engine

namespace EngineV3

open Engine

/-- How much further a gate moves the stop and the target away. -/
noncomputable def widening : Option RegimeState → ℝ
  | some .volatile => 15 / 10
  | _ => 1

/-- The multiple of the range by which the lower one of stop and target is below the price. -/
noncomputable def lowerMult (p : Engine.Params ℝ) (d : Draft ℝ) : ℝ :=
  if p.buyThreshold < d.composite then (p.applyAdaptiveSlTp d.atr d.price).1
  else (p.applyAdaptiveSlTp d.atr d.price).2

/-- The confidence before the regime layer. -/
noncomputable def baseConfidence (p : Engine.Params ℝ) (d : Draft ℝ) : UInt8 :=
  if p.buyThreshold < d.composite then p.longConfidence d.composite else p.shortConfidence d.composite

/-- When a signal is well formed: the multiples in force are above zero, the lower level stays above zero,
and the leverage does not overflow, or is brought back. -/
def Sound (p : Engine.Params ℝ) (d : Draft ℝ) (gate : Option RegimeState) : Prop :=
  0 < (p.applyAdaptiveSlTp d.atr d.price).1 ∧ 0 < (p.applyAdaptiveSlTp d.atr d.price).2 ∧
    widening gate * (lowerMult p d * d.atr) < d.price ∧
    (p.LeverageOverflows (baseConfidence p d) d.adx → gate = some .volatile)

/-! ### Levels -/

/-- A level at a distance from the entry price, moved away unless it is below zero. -/
noncomputable def levelAt (mult price dist : ℝ) : ℝ := if dist < price then price - mult * dist else price - dist

theorem widen_sub {price : ℝ} (hprice : 0 < price) (mult dist : ℝ) :
    widen mult price (price - dist) = levelAt mult price dist := by
  unfold widen levelAt
  have hlevel : 0 < price - dist ↔ dist < price := sub_pos
  simp only [hlevel, hprice, and_true, sub_sub_cancel]
  split_ifs with hdist hside
  · rw [abs_of_nonpos (by linarith)]
    ring
  · rw [abs_of_nonneg (by linarith)]
    ring
  · rfl

theorem levelAt_one (price dist : ℝ) : levelAt 1 price dist = price - dist := by
  simp [levelAt]

/-- **Two levels are on their sides of the price, the lower one above zero,** exactly if both distances
are above zero and the lower one stays below the price when it is widened. -/
theorem levelAt_ordered_iff {mult price lower upper : ℝ} (hmult : 1 ≤ mult) (hprice : 0 < price) :
    (0 < levelAt mult price lower ∧ levelAt mult price lower < price ∧
        price < levelAt mult price (-upper)) ↔ 0 < lower ∧ 0 < upper ∧ mult * lower < price := by
  have hupper : price < levelAt mult price (-upper) ↔ 0 < upper := by
    unfold levelAt
    split_ifs with hdist
    · constructor
      · intro h
        by_contra hneg
        nlinarith
      · intro h
        nlinarith
    · constructor
      · intro h
        linarith
      · intro h
        linarith
  have hlower : (0 < levelAt mult price lower ∧ levelAt mult price lower < price) ↔
      0 < lower ∧ mult * lower < price := by
    unfold levelAt
    split_ifs with hdist
    · constructor
      · rintro ⟨hpos, hlt⟩
        refine ⟨?_, by linarith⟩
        by_contra hneg
        nlinarith
      · rintro ⟨hpos, hlt⟩
        exact ⟨by linarith, by nlinarith⟩
    · constructor
      · rintro ⟨hpos, hlt⟩
        linarith
      · rintro ⟨hpos, hlt⟩
        nlinarith
  tauto

/-! ### The gate -/

section Gate

variable (base : FastSignal ℝ) (gate : Option RegimeState)

theorem one_le_widening (gate : Option RegimeState) : 1 ≤ widening gate := by
  unfold widening
  split
  · norm_num
  · exact le_rfl

theorem gated_levels (hentry : 0 < base.entryPrice) :
    (gated .default base gate).direction = base.direction ∧
      (gated .default base gate).entryPrice = base.entryPrice ∧ (gated .default base gate).stopLoss =
        levelAt (widening gate) base.entryPrice (base.entryPrice - base.stopLoss) ∧
      (gated .default base gate).takeProfit =
        levelAt (widening gate) base.entryPrice (base.entryPrice - base.takeProfit) := by
  have hkeep (level : ℝ) :
      level = levelAt 1 base.entryPrice (base.entryPrice - level) := by rw [levelAt_one, sub_sub_cancel]
  have hwiden (level : ℝ) : widen (15 / 10) base.entryPrice level =
      levelAt (15 / 10) base.entryPrice (base.entryPrice - level) := by
    rw [← widen_sub hentry, sub_sub_cancel]
  cases gate with
  | none => exact ⟨rfl, rfl, hkeep _, hkeep _⟩
  | some regime =>
    cases regime with
    | trendingUp =>
      cases hdir : base.direction <;> simp [gated, Params.applyRegimeGating, hdir, widening, ← hkeep]
    | trendingDown =>
      cases hdir : base.direction <;> simp [gated, Params.applyRegimeGating, hdir, widening, ← hkeep]
    | ranging =>
      simp only [gated, Params.applyRegimeGating, widening, ← hkeep]
      split_ifs <;> simp
    | volatile => exact ⟨rfl, rfl, hwiden _, hwiden _⟩

theorem toUnsigned_half_le (n : ℕ) : toUnsigned (n * (5 / 10)) ≤ n := by
  have hfloor : ⌊(n : ℝ) * (5 / 10)⌋ ≤ n := by
    rw [← Int.floor_natCast (R := ℝ) n]
    exact Int.floor_le_floor (by linarith [(n.cast_nonneg : (0 : ℝ) ≤ n)])
  unfold toUnsigned
  omega

theorem gated_confidence_le (h : base.confidence.toNat ≤ 100) :
    (gated .default base gate).confidence.toNat ≤ 100 := by
  have hboosted : ((Params.default.boosted base.confidence).toNat) ≤ 100 := by
    rw [Params.boosted, UInt8.toNat_ofNat']
    omega
  have hdampened : ((Params.default.dampened base.confidence).toNat) ≤ 100 := by
    have hhalf := toUnsigned_half_le base.confidence.toNat
    rw [Params.dampened, UInt8.toNat_ofNat', Params.default]
    dsimp only
    omega
  have hcap : toUnsigned Params.default.rangeConfidenceCap = 50 := by
    rw [toUnsigned, Params.default, Int.floor_ofNat]
    rfl
  cases gate with
  | none => exact h
  | some regime =>
    cases regime with
    | trendingUp =>
      cases hdir : base.direction <;> simp [gated, Params.applyRegimeGating, hdir, hboosted, hdampened, h]
    | trendingDown =>
      cases hdir : base.direction <;> simp [gated, Params.applyRegimeGating, hdir, hboosted, hdampened, h]
    | ranging =>
      simp only [gated, Params.applyRegimeGating, hcap]
      split_ifs
      · simp
      · exact h
    | volatile => exact h

/-- A volatile regime brings a leverage within its bounds, the others leave it. -/
theorem gated_leverage_iff {max : ℕ} (hmax : 1 ≤ max) (h : base.leverage.toNat ≤ max) :
    (1 ≤ (gated .default base gate).leverage.toNat ∧ (gated .default base gate).leverage.toNat ≤ max) ↔
      gate = some .volatile ∨ 1 ≤ base.leverage.toNat := by
  have hlt := base.leverage.toNat_lt
  cases gate with
  | none => simp [gated, h]
  | some regime =>
    cases regime with
    | trendingUp => cases hdir : base.direction <;> simp [gated, Params.applyRegimeGating, hdir, h]
    | trendingDown => cases hdir : base.direction <;> simp [gated, Params.applyRegimeGating, hdir, h]
    | ranging =>
      simp only [gated, Params.applyRegimeGating]
      split_ifs <;> simp [h]
    | volatile =>
      have hhalf := toUnsigned_half_le base.leverage.toNat
      simp only [gated, Params.applyRegimeGating, Params.default, UInt8.toNat_ofNat', true_or, iff_true]
      omega

end Gate

/-! ### The end of an analysis -/

section Finalize

variable {p : Engine.Params ℝ} {d : Draft ℝ}

theorem long_levels_iff (hprice : 0 < d.price) (hatr : 0 < d.atr) (m : ℝ × ℝ) (gate : Option RegimeState) :
    let sig := gated .default (p.setLongSignal d m.1 m.2) gate
    (0 < sig.stopLoss ∧ sig.stopLoss < sig.entryPrice ∧ sig.entryPrice < sig.takeProfit) ↔
      0 < m.1 ∧ 0 < m.2 ∧ widening gate * (m.1 * d.atr) < d.price := by
  obtain ⟨-, hentry, hstop, htarget⟩ := gated_levels (p.setLongSignal d m.1 m.2) gate hprice
  have hlower : d.price - (d.price - m.1 * d.atr) = m.1 * d.atr := by ring
  have hupper : d.price - (d.price + m.2 * d.atr) = -(m.2 * d.atr) := by ring
  simp only [hentry, hstop, htarget]
  simp only [Engine.Params.setLongSignal, hlower, hupper]
  rw [levelAt_ordered_iff (one_le_widening gate) hprice, mul_pos_iff_of_pos_right hatr,
    mul_pos_iff_of_pos_right hatr]

theorem short_levels_iff (hprice : 0 < d.price) (hatr : 0 < d.atr) (m : ℝ × ℝ)
    (gate : Option RegimeState) :
    let sig := gated .default (p.setShortSignal d m.1 m.2) gate
    (0 < sig.takeProfit ∧ sig.takeProfit < sig.entryPrice ∧ sig.entryPrice < sig.stopLoss) ↔
      0 < m.1 ∧ 0 < m.2 ∧ widening gate * (m.2 * d.atr) < d.price := by
  obtain ⟨-, hentry, hstop, htarget⟩ := gated_levels (p.setShortSignal d m.1 m.2) gate hprice
  have hlower : d.price - (d.price - m.2 * d.atr) = m.2 * d.atr := by ring
  have hupper : d.price - (d.price + m.1 * d.atr) = -(m.1 * d.atr) := by ring
  simp only [hentry, hstop, htarget]
  simp only [Engine.Params.setShortSignal, hlower, hupper]
  rw [levelAt_ordered_iff (one_le_widening gate) hprice, mul_pos_iff_of_pos_right hatr,
    mul_pos_iff_of_pos_right hatr, and_left_comm]

theorem gated_wellFormed_iff (hp : p.Accepted) (hprice : 0 < d.price) (hatr : 0 < d.atr)
    (gate : Option RegimeState) (hactionable : (p.finalizeSignal d).isActionable) :
    (gated .default (p.finalizeSignal d) gate).WellFormed p ↔ Sound p d gate := by
  have hleverage (base : FastSignal ℝ) (confidence : UInt8)
      (hlev : base.leverage = p.computeLeverage confidence d.adx) :
      (1 ≤ (gated .default base gate).leverage.toNat ∧
          (gated .default base gate).leverage.toNat ≤ p.maxLeverage.toNat) ↔
        (p.LeverageOverflows confidence d.adx → gate = some .volatile) := by
    have hle := Engine.Params.computeLeverage_le confidence d.adx hp
    rw [gated_leverage_iff base gate hp.maxLeverage (by rw [hlev]; exact hle), hlev,
      Engine.Params.one_le_computeLeverage_iff confidence d.adx hp]
    tauto
  unfold Engine.Params.finalizeSignal at hactionable ⊢
  unfold Sound lowerMult baseConfidence
  generalize p.applyAdaptiveSlTp d.atr d.price = m at hactionable ⊢
  split_ifs at hactionable ⊢ with hbuy hsell
  · obtain ⟨hdir, -⟩ := gated_levels (p.setLongSignal d m.1 m.2) gate hprice
    have hconfidence := gated_confidence_le (p.setLongSignal d m.1 m.2) gate
      (Engine.Params.confidence_le _)
    have hlevels := long_levels_iff (p := p) hprice hatr m gate
    dsimp only at hlevels
    rw [FastSignal.wellFormed_iff_of_long hdir, hlevels, hleverage _ _ rfl]
    tauto
  · obtain ⟨hdir, -⟩ := gated_levels (p.setShortSignal d m.1 m.2) gate hprice
    have hconfidence := gated_confidence_le (p.setShortSignal d m.1 m.2) gate
      (Engine.Params.confidence_le _)
    have hlevels := short_levels_iff (p := p) hprice hatr m gate
    dsimp only at hlevels
    rw [FastSignal.wellFormed_iff_of_short hdir, hlevels, hleverage _ _ rfl]
    tauto
  · simp [FastSignal.isActionable, FastSignal.idle] at hactionable

end Finalize

end EngineV3

/-! ### The calls -/

namespace Engine

/-- The two analyses. -/
inductive Mode
  | batch
  | incremental

variable {F : Type*} [Field F] [LinearOrder F] [SquareRoot F]

/-- What an analysis of either kind hands to the end, if it gets so far. -/
def draft? (e : Engine F) (mode : Mode) (symbol : String) (candles : List (TimedBar F)) (ob : DepthBook F)
    (pressure : PressureResult F) (timestampNs : ℤ) : Option (Draft F) :=
  match mode with
  | .batch =>
    let count := min candles.length 256
    let copied := candles.take count
    e.params.draftRaw (copied.map (·.close)) count (copied.map (·.high)) (copied.map (·.low))
      (copied.map (·.volume)) count ob pressure timestampNs
  | .incremental => do
    let latest ← candles.getLast?
    let ic ← (e.getCache symbol).updateIndicatorCache e.params candles latest
    e.params.draftCached ic ob candles pressure timestampNs latest.close

variable [FloorRing F]

/-- The signal of an analysis of either kind. -/
def signal? (e : Engine F) (mode : Mode) (symbol : String) (candles : List (TimedBar F)) (ob : DepthBook F)
    (pressure : PressureResult F) (timestampNs : ℤ) : Option (FastSignal F) :=
  match mode with
  | .batch => e.params.analyze candles ob pressure timestampNs
  | .incremental => (e.analyzeIncremental symbol candles ob pressure timestampNs).map Prod.fst

omit [LinearOrder F] [SquareRoot F] [FloorRing F] in
theorem not_isActionable_idle (timestampNs : ℤ) (reason : Reason F) :
    (FastSignal.idle timestampNs reason).isActionable = false := by
  simp [FastSignal.isActionable, FastSignal.idle]

section Incremental

variable {e : Engine F} {symbol : String} {candles : List (TimedBar F)} {ob : DepthBook F}
  {pressure : PressureResult F} {timestampNs : ℤ} {latest : TimedBar F} {ic : Cache F} {d : Draft F}

omit [FloorRing F] in
theorem draft?_incremental (hlatest : candles.getLast? = some latest)
    (hic : (e.getCache symbol).updateIndicatorCache e.params candles latest = some ic)
    (hd : e.params.draftCached ic ob candles pressure timestampNs latest.close = some d) :
    e.draft? .incremental symbol candles ob pressure timestampNs = some d :=
  Option.bind_eq_some_iff.mpr ⟨latest, hlatest, Option.bind_eq_some_iff.mpr ⟨ic, hic, hd⟩⟩

theorem signal?_incremental (hlatest : candles.getLast? = some latest)
    (hic : (e.getCache symbol).updateIndicatorCache e.params candles latest = some ic)
    (hcooldown : ¬timestampNs.tdiv 1000000 - ic.lastSignalMs < e.params.cooldownMs.toInt)
    (hd : e.params.draftCached ic ob candles pressure timestampNs latest.close = some d) :
    e.signal? .incremental symbol candles ob pressure timestampNs = some (e.params.finalizeSignal d) := by
  rw [signal?, analyzeIncremental_eq hlatest hic, if_neg hcooldown, hd]
  rfl

end Incremental

/-- **A signal to trade is made from a draft** whose price and range are above zero. -/
theorem exists_draft [IsStrictOrderedRing F] {e : Engine F} {mode : Mode} {symbol : String}
    {candles : List (TimedBar F)} {ob : DepthBook F} {pressure : PressureResult F} {timestampNs : ℤ}
    {sig : FastSignal F} (hpositive : ∀ c ∈ candles, 0 < c.close)
    (hsig : e.signal? mode symbol candles ob pressure timestampNs = some sig)
    (hactionable : sig.isActionable) : ∃ d, e.draft? mode symbol candles ob pressure timestampNs = some d ∧
      sig = e.params.finalizeSignal d ∧ 0 < d.price ∧ 0 < d.atr := by
  cases mode with
  | batch =>
    simp only [signal?, Params.analyze, Params.analyzeRaw, or_self] at hsig
    split_ifs at hsig with hshort
    · cases hsig
      simp [not_isActionable_idle] at hactionable
    · obtain ⟨d, hd, rfl⟩ := Option.map_eq_some_iff.mp hsig
      obtain ⟨-, hlast, -, -, -, -, atr, -, hatr⟩ := Params.draftRaw_parts hd
      obtain ⟨c, hc, hclose⟩ := List.mem_map.mp (List.mem_of_getElem? hlast)
      have hprice : 0 < d.price := hclose ▸ hpositive c (List.mem_of_mem_take hc)
      exact ⟨d, hd, rfl, hprice, hatr ▸ usedRange_pos hprice⟩
  | incremental =>
    obtain ⟨result, hresult, rfl⟩ := Option.map_eq_some_iff.mp hsig
    unfold analyzeIncremental at hresult
    cases hlatest : candles.getLast? with
    | none =>
      rw [hlatest] at hresult
      cases hresult
      simp [not_isActionable_idle] at hactionable
    | some latest =>
      simp only [hlatest, Option.bind_eq_bind, Option.bind_eq_some_iff, Option.pure_def] at hresult
      obtain ⟨ic, hic, hresult⟩ := hresult
      split_ifs at hresult with hcooldown
      · rw [Option.some.injEq] at hresult
        subst hresult
        simp [not_isActionable_idle] at hactionable
      · obtain ⟨d, hd, hresult⟩ := Option.bind_eq_some_iff.mp hresult
        rw [Option.some.injEq] at hresult
        subst hresult
        obtain ⟨-, hprice, hatr, -⟩ := Params.draftCached_parts hd
        have hpos : 0 < latest.close := hpositive latest (List.mem_of_getLast? hlatest)
        refine ⟨d, draft?_incremental hlatest hic hd, rfl, hprice ▸ hpos, ?_⟩
        rw [hatr]
        exact usedRange_pos hpos

end Engine

namespace EngineV3

open Engine (FastSignal Mode TimedBar)

/-- The signal of an analysis of either kind behind the regime layer. -/
noncomputable def signal? (e : EngineV3) (mode : Mode) (symbol : String) (candles : List (TimedBar ℝ))
    (ob : DepthBook ℝ) (pressure : PressureResult ℝ) (timestampNs : ℤ) : Option (FastSignal ℝ) :=
  match mode with
  | .batch => (e.analyze symbol candles ob pressure timestampNs).map Prod.fst
  | .incremental => (e.analyzeIncremental symbol candles ob pressure timestampNs).map Prod.fst

variable {e : EngineV3} {mode : Mode} {symbol : String} {candles : List (TimedBar ℝ)} {ob : DepthBook ℝ}
  {pressure : PressureResult ℝ} {timestampNs : ℤ} {sig : FastSignal ℝ}

theorem signal?_eq : e.signal? mode symbol candles ob pressure timestampNs =
      (e.v2.signal? mode symbol candles ob pressure timestampNs).map
        (gated e.params · (e.gate? symbol candles)) := by
  cases mode with
  | batch =>
    simp only [signal?, Engine.signal?, analyze]
    cases e.v2.params.analyze candles ob pressure timestampNs <;> rfl
  | incremental =>
    simp only [signal?, Engine.signal?, analyzeIncremental]
    cases e.v2.analyzeIncremental symbol candles ob pressure timestampNs <;> rfl

theorem isActionable_gated (p : Params) (base : FastSignal ℝ) (gate : Option RegimeState) :
    (gated p base gate).isActionable = base.isActionable := by
  cases gate with
  | none => rfl
  | some regime =>
    cases regime with
    | trendingUp =>
      cases hdir : base.direction <;> simp [gated, Params.applyRegimeGating, FastSignal.isActionable, hdir]
    | trendingDown =>
      cases hdir : base.direction <;> simp [gated, Params.applyRegimeGating, FastSignal.isActionable, hdir]
    | ranging =>
      simp only [gated, Params.applyRegimeGating]
      split_ifs <;> rfl
    | volatile => rfl

/-- **Signals to trade are well formed** exactly if what they are made from is sound: the signals of
version 2 without a gate, those of version 3 behind theirs. -/
theorem signals_wellFormed_iff (e : EngineV3) (hp : e.v2.params.validate = none)
    (hv3 : e.params = .default) (mode : Mode) (symbol : String) (candles : List (TimedBar ℝ))
    (hpositive : ∀ c ∈ candles, 0 < c.close) (ob : DepthBook ℝ) (pressure : PressureResult ℝ)
    (timestampNs : ℤ) :
    (∀ sig, e.v2.signal? mode symbol candles ob pressure timestampNs = some sig → sig.isActionable →
      ∃ d, e.v2.draft? mode symbol candles ob pressure timestampNs = some d ∧
        (sig.WellFormed e.v2.params ↔ Sound e.v2.params d none)) ∧
    (∀ sig, e.signal? mode symbol candles ob pressure timestampNs = some sig → sig.isActionable →
      ∃ d, e.v2.draft? mode symbol candles ob pressure timestampNs = some d ∧
        (sig.WellFormed e.v2.params ↔ Sound e.v2.params d (e.gate? symbol candles))) := by
  have hgated (gate : Option RegimeState) (base : FastSignal ℝ)
      (hbase : e.v2.signal? mode symbol candles ob pressure timestampNs = some base)
      (hactionable : base.isActionable) :
      ∃ d, e.v2.draft? mode symbol candles ob pressure timestampNs = some d ∧
        ((gated .default base gate).WellFormed e.v2.params ↔ Sound e.v2.params d gate) := by
    obtain ⟨d, hd, rfl, hprice, hatr⟩ := Engine.exists_draft hpositive hbase hactionable
    exact ⟨d, hd, gated_wellFormed_iff (Engine.Params.accepted hp) hprice hatr gate hactionable⟩
  constructor
  · intro sig hsig hactionable
    exact hgated none sig hsig hactionable
  · intro sig hsig hactionable
    rw [signal?_eq, hv3] at hsig
    obtain ⟨base, hbase, rfl⟩ := Option.map_eq_some_iff.mp hsig
    rw [isActionable_gated] at hactionable
    exact hgated _ base hbase hactionable

end EngineV3

namespace Engine

/-! ### One candle -/

section OneCandle

/-- Parameters that weigh nothing but the book. -/
noncomputable def bookParams : Params ℝ :=
  { Params.default with wEma := 0, wRsi := 0, wObi := 1, wVwap := 0, wAdx := 0, wPressure := 0 }

theorem validate_bookParams : bookParams.validate = none := by
  rw [Params.validate_eq_none_iff]
  norm_num [bookParams, Params.checks, Params.default, Params.weightSum]
  decide

/-- A book with more to buy than to sell. -/
def buyersBook : DepthBook ℝ := ⟨[⟨1, 3⟩], [⟨2, 1⟩]⟩

theorem obiScore_buyersBook : bookParams.computeObiScore buyersBook = 1 := by
  have hdepth : buyersBook.depth = 1 := wrap32_of_lt (by decide) (by decide)
  have hlevels : buyersBook.levels 1 = [(3, 1)] := rfl
  have hperiods : bookParams.obiLevels5.toInt = 5 ∧ bookParams.obiLevels10.toInt = 10 ∧
      bookParams.obiLevels20.toInt = 20 := by decide
  have hall : computeObiAll buyersBook 5 10 20 = ⟨1 / 2, 1 / 2, 1 / 2⟩ := by
    norm_num [computeObiAll, hdepth, hlevels, foldIdx, ObiLoop.turn, addLevel, addWeighted, imbalance, tiny]
  simp only [Params.computeObiScore, hperiods, hall]
  norm_num [thresholded, bookParams, Params.default, clamp, abs_of_pos]

theorem bodyDirection_oneCandle (p : Params ℝ) (hp : p.Accepted) (c : TimedBar ℝ) :
    p.computeBodyDirection [c] = some 0 := by
  have hwrap : wrap32 1 = 1 := wrap32_of_lt (by decide) (by decide)
  have hlookback : min p.bodyDirectionLookback.toInt 0 = 0 := min_eq_right hp.lookback.le
  simp [Params.computeBodyDirection, Params.bodySums, hwrap, hlookback, imbalance, tiny]

noncomputable def oneCandle (c : TimedBar ℝ) : Cache ℝ :=
  { (Indicators.fresh bookParams.periods).feedBar c.toBar with
    initialized := true
    lastCandleTs := c.timestamp
    candleCount := wrap32 1
    lastSignalMs := 0 }

theorem signal?_oneCandle (c : TimedBar ℝ) (hvolume : c.volume ≠ 0) :
    ∃ d, (new bookParams).draft? .incremental "BTC" [c] buyersBook PressureModel.unmeasured (10 ^ 10) =
        some d ∧
      (new bookParams).signal? .incremental "BTC" [c] buyersBook PressureModel.unmeasured (10 ^ 10) =
        some (bookParams.finalizeSignal d) ∧
      d.composite = 1 / 2 ∧ d.price = c.close ∧ d.atr = usedRange (c.high - c.low) c.close ∧
      d.adx = 0 := by
  have hic : ((new bookParams).getCache "BTC").updateIndicatorCache bookParams [c] c =
      some (oneCandle c) := by
    have hfresh : (new bookParams).getCache "BTC" = Cache.fresh bookParams := rfl
    have hfeed : Cache.feedBar? (Cache.fresh bookParams).toIndicators c =
        some ((Indicators.fresh bookParams.periods).feedBar c.toBar) := by
      simp [Cache.feedBar?, Cache.fresh, Indicators.fresh, InlineVWAP.empty, hvolume]
    rw [hfresh, Cache.updateIndicatorCache, if_pos (.inl rfl), List.foldlM_cons, hfeed]
    rfl
  have hatr : (oneCandle c).atr.atr = c.high - c.low := by
    simp [oneCandle, Indicators.feedBar, Indicators.fresh, InlineATR.update, InlineATR.ofPeriod]
  have hadx : (oneCandle c).adx.adx = 0 := by
    simp [oneCandle, Indicators.feedBar, Indicators.fresh, InlineADX.update, InlineADX.ofPeriod]
  have hcached : ∃ d, bookParams.draftCached (oneCandle c) buyersBook [c] PressureModel.unmeasured
      (10 ^ 10) c.close = some d ∧ d.composite = 1 / 2 ∧ d.price = c.close ∧
      d.atr = usedRange (c.high - c.low) c.close ∧ d.adx = 0 := by
    have hbody := bodyDirection_oneCandle bookParams (Params.accepted validate_bookParams) c
    simp only [Params.draftCached, Params.computeCachedScores, hbody, obiScore_buyersBook, hatr, hadx]
    refine ⟨_, rfl, ?_, rfl, rfl, rfl⟩
    norm_num [Params.computeComposite, bookParams, Params.default]
  obtain ⟨d, hd, hcomposite, hprice, hrange, htrend⟩ := hcached
  have hcooldown : ¬((10 ^ 10 : ℤ).tdiv 1000000 - 0 < 5000) := by decide
  exact ⟨d, draft?_incremental rfl hic hd, signal?_incremental rfl hic hcooldown hd, hcomposite, hprice,
    hrange, htrend⟩

theorem finalizeSignal_long {d : Draft ℝ} (hcomposite : d.composite = 1 / 2) :
    bookParams.finalizeSignal d = bookParams.setLongSignal d (bookParams.applyAdaptiveSlTp d.atr d.price).1
        (bookParams.applyAdaptiveSlTp d.atr d.price).2 := by
  have hbuy : bookParams.buyThreshold < d.composite := by
    norm_num [hcomposite, bookParams, Params.default]
  rw [Params.finalizeSignal, if_pos hbuy]

end OneCandle

end Engine

namespace EngineV3

open Engine (FastSignal Mode TimedBar)

/-- Version 3 at its start, with parameters that weigh nothing but the book. -/
noncomputable def bookEngine : EngineV3 := ⟨.new Engine.bookParams, Dict.empty, .default⟩

/-- A candle at one price makes a well-formed long signal. -/
theorem signals_wellFormed_flat :
    ∃ sig, bookEngine.v2.signal? .incremental "BTC" [⟨⟨1, 1, 1, 1⟩, 0⟩] Engine.buyersBook
        PressureModel.unmeasured (10 ^ 10) = some sig ∧
      sig.isActionable ∧ sig.WellFormed Engine.bookParams := by
  obtain ⟨d, hd, hsig, hcomposite, hprice, hatr, hadx⟩ :=
    Engine.signal?_oneCandle ⟨⟨1, 1, 1, 1⟩, 0⟩ one_ne_zero
  have hlong := Engine.finalizeSignal_long hcomposite
  have hactionable : (Engine.bookParams.finalizeSignal d).isActionable := by
    rw [hlong]
    rfl
  have hrange : d.atr = 1 / 100 := by norm_num [hatr, Engine.usedRange, tiny]
  obtain ⟨d', hd', hiff⟩ := (signals_wellFormed_iff bookEngine Engine.validate_bookParams rfl .incremental
    "BTC" [⟨⟨1, 1, 1, 1⟩, 0⟩] (by simp) Engine.buyersBook PressureModel.unmeasured (10 ^ 10)).1 _ hsig
    hactionable
  obtain rfl : d = d' := Option.some.inj (hd.symm.trans hd')
  replace hprice : d.price = 1 := hprice
  have hmults : Engine.bookParams.applyAdaptiveSlTp d.atr d.price = (15 / 10, 3) := by
    norm_num [Engine.Params.applyAdaptiveSlTp, hprice, hrange, Engine.bookParams, Engine.Params.default]
  have hlower : lowerMult Engine.bookParams d ≤ 3 := by
    unfold lowerMult
    rw [hmults]
    split_ifs <;> norm_num
  have hroom : ¬Engine.bookParams.LeverageOverflows (baseConfidence Engine.bookParams d) d.adx := by
    rintro ⟨hfull, -⟩
    exact absurd hfull (by decide)
  have hwiden : widening none = 1 := rfl
  have hsound : Sound Engine.bookParams d none := by
    rw [Sound, hmults, hprice, hrange, hwiden]
    exact ⟨by norm_num, by norm_num, by linarith, fun hover => absurd hover hroom⟩
  exact ⟨_, hsig, hactionable, hiff.mpr hsound⟩

/-- A candle whose range is half its price makes a long signal with a stop below zero. -/
theorem not_signals_wellFormed_wideCandle :
    ¬∀ (e : EngineV3), e.v2.params.validate = none → e.params = .default →
      ∀ (mode : Mode) (symbol : String) (candles : List (TimedBar ℝ)),
        (∀ c ∈ candles, 0 < c.low ∧ c.low ≤ c.close ∧ c.close ≤ c.high ∧ 0 < c.volume) →
        ∀ ob pressure timestampNs sig,
          e.v2.signal? mode symbol candles ob pressure timestampNs = some sig → sig.isActionable →
            sig.WellFormed e.v2.params := by
  intro hall
  obtain ⟨d, -, hsig, hcomposite, hprice, hatr, -⟩ :=
    Engine.signal?_oneCandle ⟨⟨3 / 2, 1, 1, 1⟩, 0⟩ one_ne_zero
  have hlong := Engine.finalizeSignal_long hcomposite
  have hactionable : (Engine.bookParams.finalizeSignal d).isActionable := by
    rw [hlong]
    rfl
  have hwell := hall bookEngine Engine.validate_bookParams rfl .incremental "BTC" [⟨⟨3 / 2, 1, 1, 1⟩, 0⟩]
    (by norm_num) _ _ _ _ hsig hactionable
  have hstop := (hwell.long (by rw [hlong]; rfl)).1
  have hrange : d.atr = 1 / 2 := by norm_num [hatr, Engine.usedRange, tiny]
  rw [hlong] at hstop
  norm_num [Engine.Params.setLongSignal, Engine.Params.applyAdaptiveSlTp, hprice, hrange,
    Engine.bookParams, Engine.Params.default] at hstop

end EngineV3

end TradingSim.Bot
