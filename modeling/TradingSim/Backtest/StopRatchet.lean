import TradingSim.Backtest.StopTiming

/-!
# How the stop of a position ratchets

Every update of the risk manager may offer two stops, one at the entry and one behind its price. The stop of
a position is the tightest of its first one and all that were offered so far, so it is never loosened, and
an update asks for a stop exactly when it changes it.
-/

namespace TradingSim.Backtest

open Foundations
open FloatOps

/-- What an update is called with. -/
structure Tick (F : Type) where
  price : F
  candle : Option (Candle F) := none

namespace RiskManager

section Updates

variable {F : Type} [FloatOps F]

/-- The state of a position after updates. -/
def held (config : RiskConfig F) (pos : PositionRiskState F) (ticks : List (Tick F)) :
    PositionRiskState F :=
  run (fun state tick => (updateWith config state tick.price tick.candle).1) pos ticks

end Updates

variable {config : RiskConfig ℚ} {pos state : PositionRiskState ℚ} {ticks : List (Tick ℚ)} {price : ℚ}

section Tightest

variable {side : SignalDirection} {levels : Set ℚ} {stop new : ℚ}

/-- A stop is the tightest of some levels. -/
def IsTightest (side : SignalDirection) (levels : Set ℚ) (stop : ℚ) : Prop :=
  stop ∈ levels ∧ ∀ level ∈ levels, tightness side level ≤ tightness side stop

theorem IsTightest.isGreatest (h : IsTightest .long levels stop) : IsGreatest levels stop := h

theorem IsTightest.isLeast (h : IsTightest side levels stop) (hside : side ≠ .long) :
    IsLeast levels stop := by
  refine ⟨h.1, fun level hlevel => ?_⟩
  have hle := h.2 level hlevel
  rwa [tightness, tightness, if_neg hside, if_neg hside, neg_le_neg_iff] at hle

theorem isTightest_singleton (side : SignalDirection) (stop : ℚ) : IsTightest side {stop} stop := by
  refine ⟨rfl, ?_⟩
  rintro level rfl
  exact le_rfl

theorem IsTightest.insert (h : IsTightest side levels stop) (new : ℚ) :
    IsTightest side (insert new levels) (if tightness side stop < tightness side new then new else stop) := by
  split_ifs with htighter
  · refine ⟨Set.mem_insert _ _, ?_⟩
    rintro level (rfl | hlevel)
    · exact le_rfl
    · exact (h.2 level hlevel).trans htighter.le
  · refine ⟨Set.mem_insert_of_mem _ h.1, ?_⟩
    rintro level (rfl | hlevel)
    · exact not_lt.mp htighter
    · exact h.2 level hlevel

theorem setOf_or_offered {offered : Prop} (h : offered) (levels : Set ℚ) (new : ℚ) :
    {level | level ∈ levels ∨ offered ∧ level = new} = insert new levels := by
  ext level
  simp only [h, true_and, Set.mem_ofPred_eq, Set.mem_insert_iff, or_comm]

/-- The levels without one that is not offered. -/
theorem setOf_or_withheld {offered : Prop} (h : ¬ offered) (levels : Set ℚ) (new : ℚ) :
    {level | level ∈ levels ∨ offered ∧ level = new} = levels := by
  ext level
  simp only [h, false_and, or_false, Set.ofPred_mem_eq]

end Tightest

section Levels

/-- How far behind a price the trailing stop is, for a range of the candles. -/
def distance (config : RiskConfig ℚ) (atr price : ℚ) : ℚ :=
  if 0 < config.trailingAtrMultiplier ∧ 0 < atr then atr * config.trailingAtrMultiplier
  else price * config.trailingDistancePct / 100

/-- The stop behind a price. -/
def trailingLevel (config : RiskConfig ℚ) (side : SignalDirection) (atr price : ℚ) : ℚ :=
  if side = .long then price - distance config atr price else price + distance config atr price

/-- The range that counts after updates: that of the last candle, if candles count. -/
def atrAfter (config : RiskConfig ℚ) (pos : PositionRiskState ℚ) (ticks : List (Tick ℚ)) : ℚ :=
  if 0 < config.trailingAtrMultiplier then
    ((ticks.filterMap Tick.candle).getLast?.map calcAtrFromCandle).getD pos.atr
  else pos.atr

/-- The stops that a position has had offered: its first one, the one at the entry once a price has come far
enough, and one behind every price. -/
inductive Level (config : RiskConfig ℚ) (pos : PositionRiskState ℚ) (ticks : List (Tick ℚ)) : ℚ → Prop
  | original : Level config pos ticks pos.originalStopLoss
  | breakeven (tick : Tick ℚ) : config.breakevenEnabled = true → tick ∈ ticks →
      config.breakevenTriggerPct ≤ priceMovePct pos tick.price →
        Level config pos ticks (breakevenStop config pos)
  | trailing (k : ℕ) (tick : Tick ℚ) : config.trailingStopEnabled = true → ticks[k]? = some tick →
      Level config pos ticks
        (trailingLevel config pos.side (atrAfter config pos (ticks.take (k + 1))) tick.price)

/-- One more update offers at most two more stops. -/
theorem level_concat (tick : Tick ℚ) (level : ℚ) : Level config pos (ticks ++ [tick]) level ↔
      (Level config pos ticks level ∨
        (config.breakevenEnabled = true ∧ config.breakevenTriggerPct ≤ priceMovePct pos tick.price) ∧
          level = breakevenStop config pos) ∨ config.trailingStopEnabled = true ∧
        level = trailingLevel config pos.side (atrAfter config pos (ticks ++ [tick])) tick.price := by
  constructor
  · intro h
    cases h with
    | original => exact Or.inl (Or.inl .original)
    | breakeven other henabled hmem hmove =>
      rcases List.mem_append.mp hmem with hbefore | hlast
      · exact Or.inl (Or.inl (.breakeven other henabled hbefore hmove))
      · rw [List.mem_singleton.mp hlast] at hmove
        exact Or.inl (Or.inr ⟨⟨henabled, hmove⟩, rfl⟩)
    | trailing k other henabled hk =>
      have hlength : k < ticks.length + 1 := by simpa using (List.getElem?_eq_some_iff.mp hk).1
      rcases Nat.lt_succ_iff_lt_or_eq.mp hlength with hbefore | rfl
      · rw [List.getElem?_append_left hbefore] at hk
        rw [List.take_append_of_le_length hbefore]
        exact Or.inl (Or.inl (.trailing k other henabled hk))
      · rw [List.getElem?_concat_length] at hk
        cases hk
        rw [List.take_of_length_le (by simp)]
        exact Or.inr ⟨henabled, rfl⟩
  · rintro ((h | ⟨⟨henabled, hmove⟩, rfl⟩) | ⟨henabled, rfl⟩)
    · cases h with
      | original => exact .original
      | breakeven other henabled hmem hmove =>
        exact .breakeven other henabled (List.mem_append_left _ hmem) hmove
      | trailing k other henabled hk =>
        have hbefore : k < ticks.length := (List.getElem?_eq_some_iff.mp hk).1
        have htake : (ticks ++ [tick]).take (k + 1) = ticks.take (k + 1) :=
          List.take_append_of_le_length hbefore
        rw [← htake]
        exact .trailing k other henabled (by rwa [List.getElem?_append_left hbefore])
    · exact .breakeven tick henabled (List.mem_append_right _ (List.mem_singleton_self _)) hmove
    · have hlevel : Level config pos (ticks ++ [tick]) _ := .trailing ticks.length tick henabled
        (show (ticks ++ [tick])[ticks.length]? = some tick by simp)
      rwa [List.take_of_length_le (by simp)] at hlevel

end Levels

section Update

variable {atr : ℚ} {levels : Set ℚ} {u u' : Updated ℚ}

/-- An update on its way has been offered some levels, and its stop is the tightest of them. -/
structure Offered (config : RiskConfig ℚ) (pos state : PositionRiskState ℚ) (atr : ℚ) (levels : Set ℚ)
    (u : Updated ℚ) : Prop where
  side : u.1.side = pos.side
  entryPrice : u.1.entryPrice = pos.entryPrice
  atr : u.1.atr = atr
  moved : u.1.breakevenMoved = true →
    tightness pos.side (breakevenStop config pos) ≤ tightness pos.side u.1.currentStopLoss
  tightest : IsTightest pos.side levels u.1.currentStopLoss
  loosens : tightness pos.side state.currentStopLoss ≤ tightness pos.side u.1.currentStopLoss
  reports : u.2.newStopLoss =
    if u.1.currentStopLoss = state.currentStopLoss then none else some u.1.currentStopLoss

namespace Offered

/-- A level that is offered and not tighter changes nothing. -/
theorem ignore (h : Offered config pos state atr levels u) {new : ℚ}
    (hloose : tightness pos.side new ≤ tightness pos.side u.1.currentStopLoss) :
    Offered config pos state atr (insert new levels) u := by
  have htightest := h.tightest.insert new
  rw [if_neg hloose.not_gt] at htightest
  exact ⟨h.side, h.entryPrice, h.atr, h.moved, htightest, h.loosens, h.reports⟩

/-- A level that is offered and tighter becomes the stop, and is reported. -/
theorem take (h : Offered config pos state atr levels u) {new : ℚ}
    (htighter : tightness pos.side u.1.currentStopLoss < tightness pos.side new)
    (hkeeps : u'.1.side = u.1.side ∧ u'.1.entryPrice = u.1.entryPrice ∧ u'.1.atr = u.1.atr)
    (hmoved : u'.1.breakevenMoved = true → u.1.breakevenMoved = true ∨ new = breakevenStop config pos)
    (hstop : u'.1.currentStopLoss = new) (hasked : u'.2.newStopLoss = some new) :
    Offered config pos state atr (insert new levels) u' := by
  have htightest := h.tightest.insert new
  rw [if_pos htighter] at htightest
  have hfar : tightness pos.side state.currentStopLoss < tightness pos.side new := h.loosens.trans_lt htighter
  have hchanged : u'.1.currentStopLoss ≠ state.currentStopLoss := by
    rw [hstop]
    rintro rfl
    exact lt_irrefl _ hfar
  refine ⟨hkeeps.1.trans h.side, hkeeps.2.1.trans h.entryPrice, hkeeps.2.2.trans h.atr, ?_,
    hstop.symm ▸ htightest, ?_, ?_⟩
  · intro hnow
    rw [hstop]
    rcases hmoved hnow with hbefore | rfl
    · exact (h.moved hbefore).trans htighter.le
    · exact le_rfl
  · rw [hstop]
    exact hfar.le
  · rw [if_neg hchanged, hasked, hstop]

/-- The stop at the entry is offered once the price has come far enough. -/
theorem checkBreakevenAction (h : Offered config pos state atr levels u) (hentry : 0 < pos.entryPrice) :
    Offered config pos state atr {level | level ∈ levels ∨
        (config.breakevenEnabled = true ∧ config.breakevenTriggerPct ≤ priceMovePct pos price) ∧
          level = breakevenStop config pos} (checkBreakevenAction config price u) := by
  have hlevel : breakevenStop config u.1 = breakevenStop config pos := by
    rw [breakevenStop, breakevenStop, h.side, h.entryPrice]
  have hmove : priceMovePct u.1 price = priceMovePct pos price := by
    rw [priceMovePct, priceMovePct, h.side, h.entryPrice]
  rw [RiskManager.checkBreakevenAction, checkBreakeven_eq, hlevel, hmove, h.entryPrice]
  by_cases hreached : config.breakevenEnabled = true ∧ config.breakevenTriggerPct ≤ priceMovePct pos price
  · rw [setOf_or_offered hreached]
    by_cases hmoved : u.1.breakevenMoved = true
    · rw [if_pos (by simp [hmoved])]
      exact h.ignore (h.moved hmoved)
    · rw [if_neg (by simp [hmoved, hreached.1])]
      by_cases htighter : tightness pos.side u.1.currentStopLoss <
          tightness pos.side (breakevenStop config pos)
      · have hasked : 0 < pos.entryPrice ∧ config.breakevenTriggerPct ≤ priceMovePct pos price ∧
            Tighter u.1 (breakevenStop config pos) := by
          refine ⟨hentry, hreached.2, ?_⟩
          rwa [Tighter, h.side]
        rw [if_pos hasked]
        exact h.take htighter ⟨rfl, rfl, rfl⟩ (fun _ => Or.inr rfl) rfl rfl
      · have hasked : ¬ (0 < pos.entryPrice ∧ config.breakevenTriggerPct ≤ priceMovePct pos price ∧
            Tighter u.1 (breakevenStop config pos)) := by
          rintro ⟨-, -, hclaim⟩
          rw [Tighter, h.side] at hclaim
          exact htighter hclaim
        rw [if_neg hasked]
        exact h.ignore (not_lt.mp htighter)
  · rw [setOf_or_withheld hreached]
    split_ifs with hskip hasked
    · exact h
    · have henabled : config.breakevenEnabled = true := by
        by_contra hoff
        simp [hoff] at hskip
      exact absurd ⟨henabled, hasked.2.1⟩ hreached
    · exact h

/-- The stop behind the price is offered by every update. -/
theorem checkTrailingAction (h : Offered config pos state atr levels u) : Offered config pos state atr
      {level | level ∈ levels ∨
        config.trailingStopEnabled = true ∧ level = trailingLevel config pos.side atr price}
      (checkTrailingAction config price u) := by
  have hchecked : checkTrailing config u.1 price =
      if tightness pos.side u.1.currentStopLoss < tightness pos.side (trailingLevel config pos.side atr price)
      then some (trailingLevel config pos.side atr price) else none := by
    have hdistance : (if lt (lit 0) config.trailingAtrMultiplier && lt (lit 0) u.1.atr then
          u.1.atr * config.trailingAtrMultiplier
        else price * config.trailingDistancePct / lit 100) = distance config atr price := by
      simp [distance, h.atr]
    rw [checkTrailing, hdistance, h.side]
    by_cases hside : pos.side = .long
    · simp [hside, tightness, trailingLevel]
    · simp [hside, tightness, trailingLevel]
  rw [RiskManager.checkTrailingAction, hchecked]
  by_cases henabled : config.trailingStopEnabled = true
  · rw [setOf_or_offered henabled, if_neg (by simp [henabled])]
    by_cases htighter : tightness pos.side u.1.currentStopLoss <
        tightness pos.side (trailingLevel config pos.side atr price)
    · rw [if_pos htighter]
      exact h.take htighter ⟨rfl, rfl, rfl⟩ Or.inl rfl rfl
    · rw [if_neg htighter]
      exact h.ignore (not_lt.mp htighter)
  · rw [setOf_or_withheld henabled, if_pos (by simp [henabled])]
    exact h

/-- The checks that follow leave the stop alone. -/
theorem rest (h : Offered config pos state atr levels u) (price : ℚ) :
    Offered config pos state atr levels (checkMaxHold config (checkPartialTpAction config price u)) := by
  have hpart : Offered config pos state atr levels (checkPartialTpAction config price u) := by
    rw [checkPartialTpAction]
    split
    · exact h
    · dsimp only
      split
      · exact ⟨h.side, h.entryPrice, h.atr, h.moved, h.tightest, h.loosens, h.reports⟩
      · exact h
  rw [checkMaxHold]
  split
  · exact ⟨hpart.side, hpart.entryPrice, hpart.atr, hpart.moved, hpart.tightest, hpart.loosens, hpart.reports⟩
  · exact hpart

end Offered

/-- A position after updates: its stop is the tightest of the levels that it has had offered. -/
structure Ratcheted (config : RiskConfig ℚ) (pos : PositionRiskState ℚ) (ticks : List (Tick ℚ))
    (state : PositionRiskState ℚ) : Prop where
  side : state.side = pos.side
  entryPrice : state.entryPrice = pos.entryPrice
  atr : state.atr = atrAfter config pos ticks
  moved : state.breakevenMoved = true →
    tightness pos.side (breakevenStop config pos) ≤ tightness pos.side state.currentStopLoss
  tightest : IsTightest pos.side {level | Level config pos ticks level} state.currentStopLoss

/-- The range that counts after one more update. -/
theorem atrAfter_concat (ticks : List (Tick ℚ)) (tick : Tick ℚ) : atrAfter config pos (ticks ++ [tick]) =
      match tick.candle with
      | some candle =>
        if 0 < config.trailingAtrMultiplier then calcAtrFromCandle candle else atrAfter config pos ticks
      | none => atrAfter config pos ticks := by
  cases hcandle : tick.candle with
  | none => simp [atrAfter, hcandle]
  | some candle => by_cases hpos : 0 < config.trailingAtrMultiplier <;> simp [atrAfter, hcandle, hpos]

theorem Ratcheted.offered (h : Ratcheted config pos ticks state) (hentry : 0 < pos.entryPrice)
    (tick : Tick ℚ) : Offered config pos state (atrAfter config pos (ticks ++ [tick]))
      {level | Level config pos (ticks ++ [tick]) level}
      (updateWith config state tick.price tick.candle) := by
  obtain ⟨hside, hentryPrice, hstop, hmoved⟩ :=
    @trackPeakTrough_keeps { state with candlesHeld := state.candlesHeld + 1 } tick.price
  have hatr : (trackPeakTrough { state with candlesHeld := state.candlesHeld + 1 } tick.price).atr =
      state.atr := by
    rw [trackPeakTrough]
    split <;> rfl
  have hstart (tracked : PositionRiskState ℚ) (hside : tracked.side = state.side)
      (hentryPrice : tracked.entryPrice = state.entryPrice)
      (hstop : tracked.currentStopLoss = state.currentStopLoss)
      (hmoved : tracked.breakevenMoved = state.breakevenMoved)
      (hatr : tracked.atr = atrAfter config pos (ticks ++ [tick])) :
      Offered config pos state (atrAfter config pos (ticks ++ [tick]))
        {level | Level config pos ticks level} (tracked, {}) := by
    refine ⟨hside.trans h.side, hentryPrice.trans h.entryPrice, hatr, ?_, hstop ▸ h.tightest, hstop ▸ le_rfl, ?_⟩
    · rw [hmoved, hstop]
      exact h.moved
    · rw [if_pos hstop]
  have hchecks (tracked : PositionRiskState ℚ)
      (h : Offered config pos state (atrAfter config pos (ticks ++ [tick]))
        {level | Level config pos ticks level} (tracked, {})) :
      Offered config pos state (atrAfter config pos (ticks ++ [tick]))
        {level | Level config pos (ticks ++ [tick]) level}
        (checkMaxHold config (checkPartialTpAction config tick.price (checkTrailingAction config tick.price
          (checkBreakevenAction config tick.price (tracked, {}))))) := by
    have hlevels (level : ℚ) : Level config pos (ticks ++ [tick]) level ↔ _ := level_concat tick level
    rw [funext fun level => propext (hlevels level)]
    exact ((h.checkBreakevenAction hentry).checkTrailingAction).rest tick.price
  have hafter : atrAfter config pos (ticks ++ [tick]) = _ := atrAfter_concat ticks tick
  cases hcandle : tick.candle with
  | none =>
    rw [hcandle] at hafter
    exact hchecks _ (hstart _ hside hentryPrice hstop hmoved (hatr.trans (h.atr.trans hafter.symm)))
  | some candle =>
    rw [hcandle] at hafter
    dsimp only at hafter
    unfold updateWith
    dsimp only
    by_cases hpos : 0 < config.trailingAtrMultiplier
    · have hcounts : lt (lit 0) config.trailingAtrMultiplier = true := lt_rat.mpr hpos
      rw [if_pos hpos] at hafter
      rw [if_pos hcounts]
      exact hchecks _ (hstart _ hside hentryPrice hstop hmoved hafter.symm)
    · have hcounts : ¬ lt (lit 0) config.trailingAtrMultiplier = true := mt lt_rat.mp hpos
      rw [if_neg hpos] at hafter
      rw [if_neg hcounts]
      exact hchecks _ (hstart _ hside hentryPrice hstop hmoved (hatr.trans (h.atr.trans hafter.symm)))

/-- What the updates of a position do to its stop. -/
theorem ratcheted_held (config : RiskConfig ℚ) (hentry : 0 < pos.entryPrice)
    (hfirst : pos.currentStopLoss = pos.originalStopLoss) (hfresh : pos.breakevenMoved = false)
    (ticks : List (Tick ℚ)) : Ratcheted config pos ticks (held config pos ticks) := by
  induction ticks using List.reverseRecOn with
  | nil =>
    have hnone : {level | Level config pos [] level} = {pos.currentStopLoss} := by
      ext level
      constructor
      · intro h
        cases h with
        | original => exact hfirst.symm
        | breakeven tick _ hmem _ => cases hmem
        | trailing k tick _ hk => cases hk
      · rintro rfl
        rw [hfirst]
        exact .original
    refine ⟨rfl, rfl, by simp [held, atrAfter], ?_, ?_⟩
    · intro hmoved
      rw [held, run_nil, hfresh] at hmoved
      cases hmoved
    · rw [hnone]
      exact isTightest_singleton _ _
  | append_singleton ticks tick ih =>
    rw [held, run_append, run_cons, run_nil]
    have hoffered := ih.offered hentry tick
    exact ⟨hoffered.side, hoffered.entryPrice, hoffered.atr, hoffered.moved, hoffered.tightest⟩

/-- The stop of a position after updates: the tightest of its levels. Another update does not loosen it, and
asks for a stop exactly when it changes. -/
structure Ratchets (config : RiskConfig ℚ) (pos : PositionRiskState ℚ) (ticks : List (Tick ℚ)) : Prop where
  long : pos.side = .long →
    IsGreatest {level | Level config pos ticks level} (held config pos ticks).currentStopLoss
  short : pos.side ≠ .long →
    IsLeast {level | Level config pos ticks level} (held config pos ticks).currentStopLoss
  rises : ∀ tick, pos.side = .long →
    (held config pos ticks).currentStopLoss ≤ (held config pos (ticks ++ [tick])).currentStopLoss
  falls : ∀ tick, pos.side ≠ .long →
    (held config pos (ticks ++ [tick])).currentStopLoss ≤ (held config pos ticks).currentStopLoss
  reports : ∀ tick, (updateWith config (held config pos ticks) tick.price tick.candle).2.newStopLoss =
    if (held config pos (ticks ++ [tick])).currentStopLoss = (held config pos ticks).currentStopLoss then none
    else some (held config pos (ticks ++ [tick])).currentStopLoss

/-- **The stop ratchets.** Whatever the configuration and the prices and candles of its updates. -/
theorem stop_ratchets (config : RiskConfig ℚ) (entryPrice : ℚ) (side : SignalDirection)
    (stopLoss takeProfit quantity atr : ℚ) (ticks : List (Tick ℚ)) (hentry : 0 < entryPrice) :
    Ratchets config (initPosition entryPrice side stopLoss takeProfit quantity atr) ticks := by
  set pos := initPosition entryPrice side stopLoss takeProfit quantity atr with hpos
  have hratcheted : Ratcheted config pos ticks _ := ratcheted_held config hentry rfl rfl ticks
  have hnext (tick : Tick ℚ) : held config pos (ticks ++ [tick]) =
      (updateWith config (held config pos ticks) tick.price tick.candle).1 := by
    rw [held, held, run_append, run_cons, run_nil]
  have htightens (tick : Tick ℚ) := (hratcheted.offered hentry tick).loosens
  constructor
  · intro hlong
    have htightest := hratcheted.tightest
    rw [hlong] at htightest
    exact htightest.isGreatest
  · exact hratcheted.tightest.isLeast
  · intro tick hlong
    rw [hnext]
    have hle := htightens tick
    rwa [hlong, tightness, tightness, if_pos rfl, if_pos rfl] at hle
  · intro tick hshort
    rw [hnext]
    have hle := htightens tick
    rwa [tightness, tightness, if_neg hshort, if_neg hshort, neg_le_neg_iff] at hle
  · intro tick
    rw [hnext]
    exact (hratcheted.offered hentry tick).reports

/-- A long position with the default configuration, and two updates. -/
theorem stop_ratchets_default :
    (0 : ℚ) < 100 ∧ Ratchets RiskConfig.default (initPosition 100 .long 90 120 1 0)
      [{ price := 101 }, { price := 95 }] :=
  ⟨by decide, stop_ratchets _ _ _ _ _ _ _ _ (by decide)⟩

end Update

end RiskManager

end TradingSim.Backtest
