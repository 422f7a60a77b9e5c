import TradingSim.Backtest.BarOutcomes

/-!
# What becomes of the risk manager's actions

The backtester moves the stop of a position as the risk manager asks. A close for the holding time raises,
and a partial close is not read at all. A run honours all actions exactly when it is not asked for either.
-/

namespace TradingSim.Backtest

open Foundations
open FloatOps

variable {F σ : Type} [FloatOps F]

namespace RiskManager

variable {config : RiskConfig F} {state : PositionRiskState F} {price : F} {candle : Candle F}

/-- The position has been held as long as it may be. -/
def HeldTooLong (config : RiskConfig F) (state : PositionRiskState F) : Prop :=
  0 < config.maxHoldCandles ∧ config.maxHoldCandles ≤ state.candlesHeld + 1

instance : Decidable (HeldTooLong config state) := inferInstanceAs (Decidable (_ ∧ _))

/-- A part of the position is to be closed at a price. -/
def TakesPart (config : RiskConfig F) (state : PositionRiskState F) (price : F) : Prop :=
  config.partialTpEnabled = true ∧ state.partialTpExecuted = false ∧
    lt (lit 0) (checkPartialTp config state price) = true

instance : Decidable (TakesPart config state price) := inferInstanceAs (Decidable (_ ∧ _ ∧ _))

/-- An update of a position on its way: the stop may have moved, and nothing else is asked for yet. -/
structure Underway (state : PositionRiskState F) (u : Updated F) : Prop where
  entryPrice : u.1.entryPrice = state.entryPrice
  side : u.1.side = state.side
  candlesHeld : u.1.candlesHeld = state.candlesHeld + 1
  partialTpExecuted : u.1.partialTpExecuted = state.partialTpExecuted
  partialClosePct : u.2.partialClosePct = none
  closePosition : u.2.closePosition = none

theorem underway_start (state : PositionRiskState F) (price atr : F) :
    Underway state (trackPeakTrough { state with candlesHeld := state.candlesHeld + 1 } price, {}) ∧
      Underway state
        ({ trackPeakTrough { state with candlesHeld := state.candlesHeld + 1 } price with atr := atr },
          {}) := by
  rw [trackPeakTrough]
  split_ifs <;> exact ⟨⟨rfl, rfl, rfl, rfl, rfl, rfl⟩, ⟨rfl, rfl, rfl, rfl, rfl, rfl⟩⟩

theorem Underway.checkBreakevenAction {u : Updated F} (h : Underway state u) :
    Underway state (checkBreakevenAction config price u) := by
  rw [RiskManager.checkBreakevenAction]
  split
  · exact h
  · split
    · exact ⟨h.1, h.2, h.3, h.4, h.5, h.6⟩
    · exact h

theorem Underway.checkTrailingAction {u : Updated F} (h : Underway state u) :
    Underway state (checkTrailingAction config price u) := by
  rw [RiskManager.checkTrailingAction]
  split
  · exact h
  · split
    · exact ⟨h.1, h.2, h.3, h.4, h.5, h.6⟩
    · exact h

/-- The partial close is decided by the price, and the close by the bars that the position was held. -/
theorem Underway.asks {u : Updated F} (h : Underway state u) :
    (checkMaxHold config (checkPartialTpAction config price u)).2.partialClosePct =
        (if TakesPart config state price then some (checkPartialTp config state price) else none) ∧
      (checkMaxHold config (checkPartialTpAction config price u)).2.closePosition =
        if HeldTooLong config state then some .maxHoldTime else none := by
  have hpct : checkPartialTp config u.1 price = checkPartialTp config state price := by
    rw [checkPartialTp, checkPartialTp, priceMovePct, priceMovePct, h.entryPrice, h.side]
  have hpart : (checkPartialTpAction config price u).2.partialClosePct =
      (if TakesPart config state price then some (checkPartialTp config state price) else none) ∧
      (checkPartialTpAction config price u).2.closePosition = none ∧
      (checkPartialTpAction config price u).1.candlesHeld = state.candlesHeld + 1 := by
    rw [checkPartialTpAction]
    by_cases henabled : (!config.partialTpEnabled || u.1.partialTpExecuted) = true
    · have hnot : ¬ TakesPart config state price := by
        rintro ⟨hon, hfresh, -⟩
        simp [hon, h.partialTpExecuted, hfresh] at henabled
      rw [if_pos henabled, if_neg hnot]
      exact ⟨h.partialClosePct, h.closePosition, h.candlesHeld⟩
    · rw [if_neg henabled]
      rw [hpct]
      simp only [h.partialTpExecuted, Bool.or_eq_true, Bool.not_eq_true', not_or,
        Bool.not_eq_false, Bool.not_eq_true] at henabled
      by_cases hpos : lt (lit 0) (checkPartialTp config state price) = true
      · rw [if_pos hpos, if_pos ⟨henabled.1, henabled.2, hpos⟩]
        exact ⟨rfl, h.closePosition, h.candlesHeld⟩
      · rw [if_neg hpos, if_neg fun htakes => hpos htakes.2.2]
        exact ⟨h.partialClosePct, h.closePosition, h.candlesHeld⟩
  rw [checkMaxHold, hpart.2.2]
  by_cases hheld : HeldTooLong config state
  · have hbars : 0 < config.maxHoldCandles ∧ config.maxHoldCandles ≤ state.candlesHeld + 1 := hheld
    rw [if_pos hheld, if_pos hbars]
    exact ⟨hpart.1, rfl⟩
  · have hbars : ¬ (0 < config.maxHoldCandles ∧ config.maxHoldCandles ≤ state.candlesHeld + 1) := hheld
    rw [if_neg hheld, if_neg hbars]
    exact ⟨hpart.1, hpart.2.1⟩

theorem update_asks : (update config state price candle).2.partialClosePct =
        (if TakesPart config state price then some (checkPartialTp config state price) else none) ∧
      (update config state price candle).2.closePosition =
        if HeldTooLong config state then some .maxHoldTime else none := by
  unfold update updateWith
  dsimp only
  apply Underway.asks
  apply Underway.checkTrailingAction
  apply Underway.checkBreakevenAction
  split
  · exact (underway_start state price _).2
  · exact (underway_start state price (lit 0)).1

end RiskManager

namespace Backtester

variable {b : Backtester F} {candle : Candle F} {s : Replay F σ}

/-- Every action that the risk manager returns on a bar takes effect: a new stop, a close with a trade of
its reason, a partial close with a trade over that percentage. -/
structure Honours (b : Backtester F) (candle : Candle F) (s : Replay F σ) : Prop where
  newStopLoss : ∀ pos state actions, b.riskUpdate candle s = some (pos, state, actions) →
    ∀ stop, actions.newStopLoss = some stop → actions.closePosition = none →
      ∃ pos', (b.processRiskUpdate candle s).1.currentPosition = some pos' ∧ pos'.stopLoss = stop
  closePosition : ∀ pos state actions, b.riskUpdate candle s = some (pos, state, actions) →
    ∀ reason, actions.closePosition = some reason →
      (b.processRiskUpdate candle s).1.currentPosition = none ∧
        ∃ trade, (b.processRiskUpdate candle s).1.trades = s.trades ++ [trade] ∧ trade.exitReason = reason
  partialClosePct : ∀ pos state actions, b.riskUpdate candle s = some (pos, state, actions) →
    ∀ pct, actions.partialClosePct = some pct → actions.closePosition = none →
      ∃ pos' trade, (b.processRiskUpdate candle s).1.currentPosition = some pos' ∧
        pos'.quantity = pos.quantity - pos.quantity * pct / lit 100 ∧
        (b.processRiskUpdate candle s).1.trades = s.trades ++ [trade] ∧
        trade.quantity = pos.quantity * pct / lit 100

/-- The risk manager finds neither that the position has been held too long nor that a part of it is to be
closed. -/
def Quiet (b : Backtester F) (candle : Candle F) (s : Replay F σ) : Prop :=
  ∀ config state, b.riskConfig = some config → s.currentPosition.isSome → s.riskState = some state →
    ¬ RiskManager.HeldTooLong config state ∧ ¬ RiskManager.TakesPart config state candle.close

/-- A position with a state is closed when it has been held too long. -/
theorem closeAsked_of_some {config : RiskConfig F} {state : PositionRiskState F} {pos : Position F}
    (hpos : s.currentPosition = some pos) (hconfig : b.riskConfig = some config)
    (hstate : s.riskState = some state) :
    b.closeAsked candle s = if RiskManager.HeldTooLong config state then some .maxHoldTime else none := by
  have hupdate := riskUpdate_of_some hpos hconfig hstate candle
  rw [closeAsked, hupdate]
  exact RiskManager.update_asks.2

theorem quiet_iff :
    Quiet b candle s ↔ ∀ pos state actions, b.riskUpdate candle s = some (pos, state, actions) →
      actions.partialClosePct = none ∧ actions.closePosition = none := by
  constructor
  · intro hquiet pos state actions hupdate
    obtain ⟨config, before, hpos, hconfig, hstate, hanswer⟩ := riskUpdate_eq_some_iff.mp hupdate
    obtain ⟨hheld, hpart⟩ := hquiet config before hconfig (by simp [hpos]) hstate
    have hasks := @RiskManager.update_asks F _ config before candle.close candle
    rwa [← hanswer, if_neg hheld, if_neg hpart] at hasks
  · intro hnone config state hconfig hopen hstate
    obtain ⟨pos, hpos⟩ := Option.isSome_iff_exists.mp hopen
    have hupdate := riskUpdate_of_some hpos hconfig hstate candle
    obtain ⟨hpart, hclose⟩ := hnone pos (RiskManager.update config state candle.close candle).1
      (RiskManager.update config state candle.close candle).2 hupdate
    rw [RiskManager.update_asks.1] at hpart
    rw [RiskManager.update_asks.2] at hclose
    constructor
    · intro hheld
      rw [if_pos hheld] at hclose
      cases hclose
    · intro htakes
      rw [if_pos htakes] at hpart
      cases hpart

/-- A bar on which no close is asked for honours the actions of the risk manager exactly when it is not asked
for a partial close. -/
theorem honours_iff_quiet (hclose : b.closeAsked candle s = none) :
    Honours b candle s ↔ Quiet b candle s := by
  have hnone (pos : Position F) (state : PositionRiskState F) (actions : RiskActions F)
      (hupdate : b.riskUpdate candle s = some (pos, state, actions)) :
      actions.closePosition = none := by
    rwa [closeAsked, hupdate] at hclose
  have hafter := processRiskUpdate_of_none hclose
  have htrades : (b.stopMoved candle s).trades = s.trades := by
    rw [stopMoved]
    split <;> rfl
  rw [quiet_iff]
  constructor
  · intro h pos state actions hupdate
    refine ⟨?_, hnone pos state actions hupdate⟩
    cases hpart : actions.partialClosePct with
    | none => rfl
    | some pct =>
      -- The partial close would have left a trade.
      obtain ⟨_, trade, -, -, hadded, -⟩ := h.partialClosePct pos state actions hupdate pct hpart
        (hnone pos state actions hupdate)
      rw [hafter, htrades] at hadded
      simp at hadded
  · intro hquiet
    refine ⟨?_, ?_, ?_⟩
    · intro pos state actions hupdate stop hstop _
      rw [hafter, stopMoved, hupdate]
      exact ⟨_, rfl, by simp [hstop]⟩
    · intro pos state actions hupdate reason hreason
      rw [hnone pos state actions hupdate] at hreason
      cases hreason
    · intro pos state actions hupdate pct hpct _
      rw [(hquiet pos state actions hupdate).1] at hpct
      cases hpct

variable {strategy : Strategy F σ} {strategyState : σ} {symbol : String} {warmup : ℕ}
  {candles : List (Candle F)}

/-- A run completes and every action of the risk manager takes effect. -/
structure HonoursRisk (b : Backtester F) (strategy : Strategy F σ) (strategyState : σ) (symbol : String)
    (warmup : ℕ) (candles : List (Candle F)) : Prop where
  completes : ∃ result, b.run strategy strategyState symbol warmup candles = .ok result
  honours : ∀ i candle s, ComesTo b strategy strategyState symbol warmup candles i candle s →
    Honours b candle s

/-- A run honours the risk manager exactly when no bar that it comes to is asked for a close or for a
partial close. -/
theorem honoursRisk_iff (b : Backtester F) (strategy : Strategy F σ) (strategyState : σ)
    (symbol : String) (warmup : ℕ) (candles : List (Candle F)) :
    HonoursRisk b strategy strategyState symbol warmup candles ↔
      ∀ i candle s, ComesTo b strategy strategyState symbol warmup candles i candle s →
        Quiet b candle s := by
  constructor
  · rintro ⟨hcompletes, hhonours⟩ i candle s h
    exact (honours_iff_quiet (run_isOk_iff.mp hcompletes i candle s h)).mp (hhonours i candle s h)
  · intro hquiet
    have hclose (i : ℕ) (candle : Candle F) (s : Replay F σ)
        (h : ComesTo b strategy strategyState symbol warmup candles i candle s) :
        b.closeAsked candle s = none := by
      rw [closeAsked]
      cases hupdate : b.riskUpdate candle s with
      | none => rfl
      | some answer => exact (quiet_iff.mp (hquiet i candle s h) _ _ _ hupdate).2
    refine ⟨run_isOk_iff.mpr hclose, ?_⟩
    intro i candle s h
    exact (honours_iff_quiet (hclose i candle s h)).mpr (hquiet i candle s h)

/-- A backtester that holds a position for one bar. -/
def oneBar : Backtester ℚ :=
  { Backtester.default with riskConfig := some { RiskConfig.default with maxHoldCandles := 1 } }

/-- A position that has been held for one bar ends the run with an error. -/
theorem not_honoursRisk_oneBar :
    ¬ HonoursRisk oneBar alternating false "BTC/USDT" 1 [flatCandle 100, flatCandle 101, flatCandle 102] := by
  intro h
  obtain ⟨result, hrun⟩ := h.completes
  have hraises : (oneBar.run alternating false "BTC/USDT" 1
      [flatCandle 100, flatCandle 101, flatCandle 102]).isOk = false := by decide +kernel
  rw [hrun] at hraises
  cases hraises

end Backtester

end TradingSim.Backtest
