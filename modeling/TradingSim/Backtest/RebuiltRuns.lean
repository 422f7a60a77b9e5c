import TradingSim.Backtest.GridSearch
import TradingSim.Backtest.StopTiming

/-!
# When a rebuilt backtester runs alike

Two backtesters run alike if they open and close positions alike and the risk manager of neither does
anything. So do two that never open a position. These are the settings that the processes of a search can be
given a backtester for without being told them.
-/

namespace TradingSim.Backtest

open Foundations
open FloatOps
open RawOrders (PyException)

namespace Replay

variable {F σ : Type}

/-- A run without the state of the risk manager. -/
def withoutRisk (s : Replay F σ) : Replay F σ := { s with riskState := none }

end Replay

namespace Backtester

open Replay

section Simulation

variable {F σ : Type} [FloatOps F] {b d : Backtester F} {strategy : Strategy F σ} {strategyState : σ}
  {symbol : String} {warmup : ℕ} {window candles : List (Candle F)} {candle : Candle F} {s : Replay F σ}

theorem closeAsked_of_config_none (hd : d.riskConfig = none) : d.closeAsked candle s = none := by
  rw [closeAsked, riskUpdate, hd]
  cases s.currentPosition <;> rfl

theorem stopMoved_of_config_none (hd : d.riskConfig = none) : d.stopMoved candle s = s := by
  rw [stopMoved, riskUpdate, hd]
  cases s.currentPosition <;> rfl

theorem initRiskState_of_config_none (hd : d.riskConfig = none) (pos : Option (Position F)) :
    d.initRiskState pos = none := by
  cases pos with
  | none => rfl
  | some pos => simp only [initRiskState, hd]

theorem closed_withoutRisk (hclose : b.closePosition = d.closePosition) (pos : Position F) (exitPrice : F)
    (reason : ExitReason) :
    d.closed s.withoutRisk pos exitPrice reason candle = (b.closed s pos exitPrice reason candle).withoutRisk := by
  simp only [closed, hclose, withoutRisk]

theorem opened_withoutRisk (hd : d.riskConfig = none) {signal : Signal F}
    (hopen : b.openPosition signal candle.close s.balance (candle.timestamp.getD 0) symbol =
      d.openPosition signal candle.close s.balance (candle.timestamp.getD 0) symbol) :
    d.opened s.withoutRisk signal symbol candle = (b.opened s signal symbol candle).withoutRisk := by
  simp only [opened, withoutRisk, hopen, initRiskState_of_config_none hd]

theorem managePositionOrEntry_withoutRisk (hd : d.riskConfig = none)
    (hclose : s.currentPosition ≠ none → b.closePosition = d.closePosition)
    (hopen : ∀ signal balance, (s.currentPosition = none → balance = s.balance) →
      b.openPosition signal candle.close balance (candle.timestamp.getD 0) symbol =
        d.openPosition signal candle.close balance (candle.timestamp.getD 0) symbol) :
    d.managePositionOrEntry strategy symbol window candle s.withoutRisk =
      (b.managePositionOrEntry strategy symbol window candle s).withoutRisk := by
  have hasked : asked strategy symbol window s.withoutRisk =
      ((asked strategy symbol window s).1, (asked strategy symbol window s).2.withoutRisk) := rfl
  have hposition : s.withoutRisk.currentPosition = s.currentPosition := rfl
  have hbalance : (asked strategy symbol window s).2.balance = s.balance := rfl
  rw [managePositionOrEntry, managePositionOrEntry, hposition]
  cases hpos : s.currentPosition with
  | none =>
    simp only [checkEntry, hasked]
    split_ifs
    · exact opened_withoutRisk hd (hopen _ _ fun _ => hbalance)
    · rfl
  | some pos =>
    have hsame := hclose (by simp [hpos])
    dsimp only
    cases checkSlTp pos candle with
    | some exit => exact closed_withoutRisk hsame pos exit.2 exit.1
    | none =>
      simp only [handleSignalReversal, hasked]
      split_ifs
      · rw [closed_withoutRisk hsame]
        refine opened_withoutRisk hd (hopen _ _ fun hnone => ?_)
        rw [hpos] at hnone
        cases hnone
      · rfl

theorem turn_withoutRisk (hd : d.riskConfig = none)
    (hmoved : (b.stopMoved candle s).withoutRisk = s.withoutRisk)
    (hclose : s.currentPosition ≠ none → b.closePosition = d.closePosition)
    (hopen : ∀ signal balance, (s.currentPosition = none → balance = s.balance) →
      b.openPosition signal candle.close balance (candle.timestamp.getD 0) symbol =
        d.openPosition signal candle.close balance (candle.timestamp.getD 0) symbol) :
    d.turn strategy symbol window candle s.withoutRisk =
      (b.turn strategy symbol window candle s).withoutRisk := by
  have hposition : (b.stopMoved candle s).currentPosition = s.currentPosition := by
    have hfields := congrArg Replay.currentPosition hmoved
    exact hfields
  have hbalance : (b.stopMoved candle s).balance = s.balance := by
    have hfields := congrArg Replay.balance hmoved
    exact hfields
  have hmanaged := @managePositionOrEntry_withoutRisk F σ _ b d strategy symbol window candle
    (b.stopMoved candle s) hd (by rwa [hposition]) (by rwa [hposition, hbalance])
  rw [turn, turn, stopMoved_of_config_none hd, ← hmoved, hmanaged]
  rfl

/-- **The simulation rule.** If the turns of one backtester are those of another without a risk manager as
long as an invariant holds, then so are its runs. -/
theorem before_withoutRisk {P : Replay F σ → Prop} (hd : d.riskConfig = none)
    (hinitial : d.initialBalance = b.initialBalance) (hstart : P (b.start strategyState))
    (hturn : ∀ candle window s, P s → b.closeAsked candle s = none ∧
      d.turn strategy symbol window candle s.withoutRisk =
          (b.turn strategy symbol window candle s).withoutRisk ∧
        P (b.turn strategy symbol window candle s)) :
    ∃ s, P s ∧ b.before strategy strategyState symbol warmup candles candles.length = (s, .ok ()) ∧
      d.before strategy strategyState symbol warmup candles candles.length = (s.withoutRisk, .ok ()) := by
  have hsame : d.start strategyState = (b.start strategyState).withoutRisk := by
    simp only [start, hinitial, withoutRisk]
  have hrun : ∃ s, b.before strategy strategyState symbol warmup candles candles.length = (s, .ok ()) ∧
      P s ∧ d.before strategy strategyState symbol warmup candles candles.length = (s.withoutRisk, .ok ()) := by
    refine before_spec (fun i s =>
      P s ∧ d.before strategy strategyState symbol warmup candles i = (s.withoutRisk, .ok ())) ?_ ?_ le_rfl
    · intro i hi
      refine ⟨hstart, ?_⟩
      simp [before, Nat.sub_eq_zero_of_le hi, Action.pure_apply, hsame]
    · intro i candle s hcomes hboth
      obtain ⟨hclose, hnext, hkept⟩ := hturn candle (Backtester.window warmup candles i) s hboth.1
      have hcomesd : ComesTo d strategy strategyState symbol warmup candles i candle s.withoutRisk :=
        ⟨hcomes.warm, hcomes.candle, hboth.2⟩
      refine ⟨hclose, hkept, ?_⟩
      rw [hcomesd.before_succ_of_none (closeAsked_of_config_none hd), hnext]
  obtain ⟨s, hs, hP, hds⟩ := hrun
  exact ⟨s, hP, hs, hds⟩

end Simulation

end Backtester

theorem Engine.run_congr {F σ : Type} [FloatOps F] {engine d : Engine F} {root : F → F}
    {strategy : FallibleStrategy F σ} {state : σ} {symbol : String} {warmup : ℕ} {candles : List (Candle F)}
    {P : Replay F (Except BacktestError σ) → Prop} (hd : d.riskConfig = none)
    (hinitial : d.initialBalance = engine.initialBalance) (hstart : P (engine.start (.ok state)))
    (hturn : ∀ candle window s, P s → engine.closeAsked candle s = none ∧
      d.turn strategy.kept symbol window candle s.withoutRisk =
          (engine.turn strategy.kept symbol window candle s).withoutRisk ∧
        P (engine.turn strategy.kept symbol window candle s))
    (hmeasured : ∀ s, P s → measured root engine.candleIntervalMinutes (engine.finalizeBacktest candles s) =
      measured root d.candleIntervalMinutes (d.finalizeBacktest candles s.withoutRisk)) :
    engine.run root strategy state symbol warmup candles = d.run root strategy state symbol warmup candles := by
  obtain ⟨s, hP, hs, hds⟩ := Backtester.before_withoutRisk hd hinitial hstart hturn
  rw [Engine.run, Engine.run, hs, hds]
  dsimp only
  rw [hmeasured s hP]
  rfl

namespace RiskManager

variable {config : RiskConfig ℚ}

/-- A configuration with which the risk manager does nothing that the backtester heeds. -/
structure Inert (config : RiskConfig ℚ) : Prop where
  trailing : config.trailingStopEnabled = false
  breakeven : config.breakevenEnabled = false
  hold : config.maxHoldCandles ≤ 0

theorem newStopLoss_of_off (htrailing : config.trailingStopEnabled = false)
    (hbreakeven : config.breakevenEnabled = false) (state : PositionRiskState ℚ) (candle : Candle ℚ) :
    (update config state candle.close candle).2.newStopLoss = none := by
  rw [(update_answers config state candle).newStopLoss_eq_none_iff]
  intro level hoffers
  cases hoffers with
  | breakeven henabled =>
    rw [hbreakeven] at henabled
    cases henabled
  | trailing henabled =>
    rw [htrailing] at henabled
    cases henabled

theorem Inert.update_asks (h : Inert config) (state : PositionRiskState ℚ) (candle : Candle ℚ) :
    (update config state candle.close candle).2.newStopLoss = none ∧
      (update config state candle.close candle).2.closePosition = none := by
  refine ⟨newStopLoss_of_off h.trailing h.breakeven state candle, ?_⟩
  rw [RiskManager.update_asks.2, if_neg]
  exact fun hheld => absurd h.hold (not_le.mpr hheld.1)

end RiskManager

namespace Backtester

open Replay

section Alike

variable {σ : Type} {b d : Backtester ℚ} {candle : Candle ℚ} {s : Replay ℚ σ}

theorem inert_keeps (h : ∀ config, b.riskConfig = some config → RiskManager.Inert config) :
    b.closeAsked candle s = none ∧ (b.stopMoved candle s).withoutRisk = s.withoutRisk := by
  rw [closeAsked, stopMoved]
  cases hupdate : b.riskUpdate candle s with
  | none => exact ⟨rfl, rfl⟩
  | some answer =>
    obtain ⟨config, state, hpos, hconfig, -, hanswer⟩ := riskUpdate_eq_some_iff.mp hupdate
    obtain ⟨hstop, hclose⟩ := (h config hconfig).update_asks state candle
    rw [← hanswer] at hstop hclose
    refine ⟨hclose, ?_⟩
    dsimp only
    rw [hstop, Option.getD_none, withoutRisk, withoutRisk, hpos]

theorem openPosition_congr (hslippage : b.slippageBps = d.slippageBps) (hfee : b.feePct = d.feePct)
    (hrisk : b.riskPerTradePct = d.riskPerTradePct)
    (hposition : (b.leverage : ℚ) * b.maxPositionPct = d.leverage * d.maxPositionPct) (signal : Signal ℚ)
    (price balance : ℚ) (timestamp : ℤ) (symbol : String) :
    b.openPosition signal price balance timestamp symbol = d.openPosition signal price balance timestamp symbol := by
  simp only [openPosition, lit_rat, hslippage, hfee, hrisk, mul_assoc, hposition]

theorem closePosition_congr (hslippage : b.slippageBps = d.slippageBps) (hfee : b.feePct = d.feePct) :
    b.closePosition = d.closePosition := by
  funext pos exitPrice reason balance timestamp
  simp only [closePosition, hslippage, hfee]

def fillPrice (b : Backtester ℚ) (signal : Signal ℚ) (price : ℚ) : ℚ :=
  if signal.direction = .long then price * (1 + b.slippageBps / 10000) else price * (1 - b.slippageBps / 10000)

/-- The quantity that is opened: what the risk to the stop allows and what the greatest position does. -/
def quantityAt (b : Backtester ℚ) (signal : Signal ℚ) (fill balance : ℚ) : ℚ :=
  balance * b.riskPerTradePct / 100 / |fill - signal.stopLoss| ⊓
    if 0 < fill then balance * (b.leverage * b.maxPositionPct) / 100 / fill else 0

theorem min_rat (x y : ℚ) : FloatOps.min x y = x ⊓ y := by
  rw [FloatOps.min]
  split_ifs with hlt
  · exact (inf_eq_right.mpr (lt_rat.mp hlt).le).symm
  · exact (inf_eq_left.mpr (not_lt.mp (mt lt_rat.mpr hlt))).symm

theorem openPosition_eq (b : Backtester ℚ) (signal : Signal ℚ) (price balance : ℚ) (timestamp : ℤ)
    (symbol : String) : b.openPosition signal price balance timestamp symbol =
      if 0 < b.quantityAt signal (b.fillPrice signal price) balance then
        some {
          symbol := symbol
          side := signal.direction
          entryPrice := b.fillPrice signal price
          quantity := b.quantityAt signal (b.fillPrice signal price) balance
          stopLoss := signal.stopLoss
          takeProfit := signal.takeProfit
          entryTime := timestamp
          fee := b.fillPrice signal price * b.quantityAt signal (b.fillPrice signal price) balance *
            b.feePct / 100 }
      else none := by
  have hfill : (if signal.direction = .long then price * (lit 1 + b.slippageBps / lit 10000)
      else price * (lit 1 - b.slippageBps / lit 10000)) = b.fillPrice signal price := rfl
  have hquantity (fill : ℚ) : FloatOps.min (balance * b.riskPerTradePct / lit 100 / FloatOps.abs (fill - signal.stopLoss))
      (if lt (lit 0) fill then balance * lit b.leverage * b.maxPositionPct / lit 100 / fill else lit 0) =
        b.quantityAt signal fill balance := by
    simp only [quantityAt, min_rat, lit_rat, lt_rat, abs_rat, mul_assoc]
  rw [openPosition]
  simp only [hfill, hquantity]
  generalize b.fillPrice signal price = fill
  by_cases hflat : fill = signal.stopLoss
  · -- Without a risk the source opens nothing, and the quantity comes to no more than zero.
    have hzero : ¬ 0 < b.quantityAt signal fill balance := by
      rw [quantityAt, hflat, sub_self, abs_zero, div_zero, not_lt]
      exact inf_le_left
    rw [if_pos (by simp [hflat]), if_neg hzero]
  · have hrisk : ¬ le (FloatOps.abs (fill - signal.stopLoss)) (lit 0) = true := by
      rw [le_rat, lit_rat, abs_rat, not_le, abs_pos]
      exact sub_ne_zero.mpr hflat
    rw [if_neg hrisk]
    by_cases hpos : 0 < b.quantityAt signal fill balance
    · rw [if_neg (by rw [le_rat, lit_rat]; exact not_le.mpr hpos), if_pos hpos]
      rfl
    · rw [if_pos (by rw [le_rat, lit_rat]; exact not_lt.mp hpos), if_neg hpos]

/-- Nothing is opened if the risk or the greatest position is not positive. -/
theorem quantityAt_nonpos (signal : Signal ℚ) (fill : ℚ) {balance : ℚ}
    (h : balance * b.riskPerTradePct ≤ 0 ∨ balance * (b.leverage * b.maxPositionPct) ≤ 0) :
    b.quantityAt signal fill balance ≤ 0 := by
  have hhundred : (0 : ℚ) ≤ 100 := by norm_num
  rcases h with hrisk | hposition
  · exact inf_le_left.trans
      (div_nonpos_of_nonpos_of_nonneg (div_nonpos_of_nonpos_of_nonneg hrisk hhundred) (abs_nonneg _))
  · refine inf_le_right.trans ?_
    split_ifs with hfill
    · exact div_nonpos_of_nonpos_of_nonneg (div_nonpos_of_nonpos_of_nonneg hposition hhundred) hfill.le
    · exact le_rfl

theorem openPosition_eq_none (signal : Signal ℚ) (price : ℚ) {balance : ℚ} (timestamp : ℤ) (symbol : String)
    (h : balance * b.riskPerTradePct ≤ 0 ∨ balance * (b.leverage * b.maxPositionPct) ≤ 0) :
    b.openPosition signal price balance timestamp symbol = none := by
  rw [openPosition_eq, if_neg (not_lt.mpr (quantityAt_nonpos signal _ h))]

/-! ### Runs without a position -/

/-- A run that has never held a position. -/
structure Untouched (initialBalance : ℚ) (s : Replay ℚ σ) : Prop where
  position : s.currentPosition = none
  balance : s.balance = initialBalance
  curve : ∀ equity ∈ s.equityCurve, equity = initialBalance
  peak : s.peakEquity = initialBalance
  drawdown : s.maxDrawdownPct = 0

theorem untouched_start (b : Backtester ℚ) (strategyState : σ) :
    Untouched b.initialBalance (b.start strategyState) := by
  constructor
  · rfl
  · rfl
  · exact fun equity hequity => List.mem_singleton.mp hequity
  · rfl
  · rfl

theorem riskUpdate_of_untouched {initialBalance : ℚ} (h : Untouched initialBalance s) :
    b.riskUpdate candle s = none := by
  rw [riskUpdate, h.position]

theorem Untouched.turn {initialBalance : ℚ} (h : Untouched initialBalance s) (hnonpos : initialBalance ≤ 0)
    {strategy : Strategy ℚ σ} {symbol : String} {window : List (Candle ℚ)}
    (hopen : ∀ signal, b.openPosition signal candle.close initialBalance (candle.timestamp.getD 0) symbol = none) :
    Untouched initialBalance (b.turn strategy symbol window candle s) := by
  have hmoved : b.stopMoved candle s = s := by
    rw [stopMoved, riskUpdate_of_untouched h]
  have hmanaged : Untouched initialBalance (b.managePositionOrEntry strategy symbol window candle s) := by
    rw [managePositionOrEntry, h.position]
    simp only [checkEntry]
    split_ifs
    · have hnone := hopen (asked strategy symbol window s).1
      rw [← h.balance] at hnone
      exact ⟨hnone, h.balance, h.curve, h.peak, h.drawdown⟩
    · exact ⟨rfl, h.balance, h.curve, h.peak, h.drawdown⟩
  rw [Backtester.turn, hmoved]
  generalize b.managePositionOrEntry strategy symbol window candle s = s' at hmanaged
  have hequity : trackEquity s'.currentPosition s'.balance candle.close = initialBalance := by
    rw [hmanaged.position, hmanaged.balance]
    rfl
  rw [trackEquityAndDrawdown, hequity]
  refine ⟨hmanaged.position, hmanaged.balance, ?_, ?_, ?_⟩
  · intro equity hmem
    obtain hmem | hmem := List.mem_append.mp hmem
    · exact hmanaged.curve equity hmem
    · exact List.mem_singleton.mp hmem
  · change FloatOps.max s'.peakEquity initialBalance = initialBalance
    rw [hmanaged.peak, max_rat, max_self]
  · have hpeak : ¬ lt (lit 0) (FloatOps.max s'.peakEquity initialBalance) = true := by
      rw [hmanaged.peak, max_rat, max_self, lt_rat]
      exact not_lt.mpr hnonpos
    change FloatOps.max s'.maxDrawdownPct (if lt (lit 0) (FloatOps.max s'.peakEquity initialBalance) then _ else _) = 0
    rw [if_neg hpeak, hmanaged.drawdown, max_rat]
    exact max_self 0

end Alike

end Backtester

/-- Without a drawdown and without a positive equity the interval of the candles is not used. -/
theorem measured_interval (root : ℚ → ℚ) (interval interval' : ℤ) {result : BacktestResult ℚ}
    (hdrawdown : result.maxDrawdownPct = 0) (hcurve : ∀ equity ∈ result.equityCurve, equity ≤ 0) :
    measured root interval result = measured root interval' result := by
  have hreturns : barReturns result.equityCurve = [] := by
    rw [barReturns, List.filterMap_eq_nil_iff]
    rintro ⟨previous, equity⟩ hmem
    have hprevious := hcurve previous (List.of_mem_zip hmem).1
    exact if_neg (mt lt_rat.mp (not_lt.mpr hprevious))
  have hcalmar (interval : ℤ) : calmarRatio interval result = .ok (lit 0) := by
    rw [calmarRatio, hdrawdown]
    rfl
  simp only [measured, calculateDrawdownMetrics, hcalmar, hreturns]
  rfl

/-! ### Faithful settings -/

/-- The settings with which a backtester that is rebuilt from its balance and its fee runs alike: no
position can ever be opened, or the default ones as far as they matter. -/
inductive Faithful (engine : Engine ℚ) : Prop
  | idle : engine.initialBalance ≤ 0 →
      engine.initialBalance * engine.riskPerTradePct ≤ 0 ∨
        engine.initialBalance * (engine.leverage * engine.maxPositionPct) ≤ 0 → Faithful engine
  | default : engine.slippageBps = 2 → engine.riskPerTradePct = 2 →
      engine.leverage * engine.maxPositionPct = 10 → engine.candleIntervalMinutes = 5 →
      (∀ config, engine.riskConfig = some config → RiskManager.Inert config) → Faithful engine

theorem Faithful.run_eq {engine : Engine ℚ} (h : Faithful engine) {σ : Type} (root : ℚ → ℚ)
    (strategy : FallibleStrategy ℚ σ) (state : σ) (symbol : String) (warmup : ℕ) (candles : List (Candle ℚ)) :
    engine.run root strategy state symbol warmup candles =
      (Engine.rebuilt engine.initialBalance engine.feePct).run root strategy state symbol warmup candles := by
  cases h with
  | idle hnonpos hrisk =>
    have hopen (price : ℚ) (timestamp : ℤ) (signal : Signal ℚ) :
        engine.openPosition signal price engine.initialBalance timestamp symbol = none :=
      Backtester.openPosition_eq_none signal price timestamp symbol hrisk
    have hopen' (price : ℚ) (timestamp : ℤ) (signal : Signal ℚ) :
        (Engine.rebuilt engine.initialBalance engine.feePct).openPosition signal price engine.initialBalance
          timestamp symbol = none :=
      Backtester.openPosition_eq_none signal price timestamp symbol
        (.inl (mul_nonpos_of_nonpos_of_nonneg hnonpos zero_le_two))
    refine Engine.run_congr rfl rfl (Backtester.untouched_start engine.toBacktester _) ?_ ?_
    · intro candle window s hs
      have hupdate : engine.riskUpdate candle s = none := Backtester.riskUpdate_of_untouched hs
      refine ⟨by rw [Backtester.closeAsked, hupdate]; rfl, ?_, hs.turn hnonpos (hopen _ _)⟩
      refine Backtester.turn_withoutRisk rfl (by rw [Backtester.stopMoved, hupdate])
        (fun hne => absurd hs.position hne) fun signal balance hbalance => ?_
      rw [hbalance hs.position, hs.balance, hopen, hopen']
    · intro s hs
      have hfinal : engine.finalizeBacktest candles s =
          (Engine.rebuilt engine.initialBalance engine.feePct).finalizeBacktest candles s.withoutRisk := by
        rw [Backtester.finalizeBacktest, Backtester.finalizeBacktest]
        simp only [Replay.withoutRisk, hs.position]
        rfl
      have hdrawdown : (engine.finalizeBacktest candles s).maxDrawdownPct = 0 := by
        simp only [Backtester.finalizeBacktest, hs.position]
        exact hs.drawdown
      rw [← hfinal]
      refine measured_interval root _ _ hdrawdown fun equity hmem => ?_
      rw [(Backtester.finalizeBacktest_appends _ _ _).1] at hmem
      rw [hs.curve equity hmem]
      exact hnonpos
  | default hslippage hrisk hposition hinterval hinert =>
    have hopen : ∀ signal price balance timestamp symbol,
        engine.openPosition signal price balance timestamp symbol =
          (Engine.rebuilt engine.initialBalance engine.feePct).openPosition signal price balance timestamp symbol := by
      refine Backtester.openPosition_congr hslippage rfl hrisk ?_
      rw [hposition]
      norm_num [Engine.rebuilt, Engine.default, Backtester.default]
    have hclose : engine.closePosition =
        (Engine.rebuilt engine.initialBalance engine.feePct).closePosition :=
      Backtester.closePosition_congr hslippage rfl
    refine Engine.run_congr (P := fun _ => True) rfl rfl trivial ?_ ?_
    · intro candle window s _
      obtain ⟨hasked, hmoved⟩ := Backtester.inert_keeps hinert
      exact ⟨hasked, Backtester.turn_withoutRisk rfl hmoved (fun _ => hclose) fun _ _ _ => hopen _ _ _ _ _, trivial⟩
    · intro s _
      have hfinal : engine.finalizeBacktest candles s =
          (Engine.rebuilt engine.initialBalance engine.feePct).finalizeBacktest candles s.withoutRisk := by
        rw [Backtester.finalizeBacktest, Backtester.finalizeBacktest]
        simp only [Replay.withoutRisk, Backtester.closed, hclose]
        cases s.currentPosition <;> cases candles.getLast? <;> rfl
      rw [hfinal, hinterval]
      rfl

end TradingSim.Backtest
