import TradingSim.Backtest.RevealingRuns

/-!
# When a parallel search is the sequential one

A second bar can make the risk manager move the stop of a position to where the same bar meets it; without
one the position is kept. The processes of a parallel search build their backtester from the balance and the
fee alone, so a search that is left to them gives what a sequential one gives, for all strategies and
candles, exactly if the other settings are the default ones as far as they matter.
-/

namespace TradingSim.Backtest

open Foundations
open FloatOps
open RawOrders (PyException)

namespace Backtester

variable {b : Backtester ℚ} {signal : Signal ℚ} {symbol : String} {first second : Candle ℚ} {pos : Position ℚ}
  {config : RiskConfig ℚ}

/-- What the risk manager knows of a position that has just been opened. -/
def freshState (pos : Position ℚ) : PositionRiskState ℚ :=
  RiskManager.initPosition pos.entryPrice pos.side pos.stopLoss pos.takeProfit pos.quantity 0

theorem Opened.not_long {stopLoss takeProfit price : ℚ} (h : Opened b ⟨.short, stopLoss, takeProfit⟩ price pos) :
    ¬ (freshState pos).side = .long := by
  change ¬ pos.side = .long
  rw [h.side]
  exact SignalDirection.noConfusion

theorem Opened.priceMovePct {stopLoss takeProfit price close : ℚ}
    (h : Opened b ⟨.short, stopLoss, takeProfit⟩ price pos) :
    RiskManager.priceMovePct (freshState pos) close = (pos.entryPrice - close) / pos.entryPrice * 100 :=
  if_neg h.not_long

/-- A stop that the risk manager may leave a new position with on a candle. -/
structure MayStop (config : RiskConfig ℚ) (pos : Position ℚ) (candle : Candle ℚ) (stop : ℚ) : Prop where
  present : stop = pos.stopLoss ∨ RiskManager.Offers config (freshState pos) candle stop
  tightest : ∀ other, RiskManager.Offers config (freshState pos) candle other →
    RiskManager.tightness pos.side other ≤ RiskManager.tightness pos.side stop

theorem exists_mayStop (second : Candle ℚ) (hconfig : b.riskConfig = some config)
    (hopen : b.openPosition signal first.close b.initialBalance (first.timestamp.getD 0) symbol = some pos) :
    ∃ stop, MayStop config pos second stop ∧
      (b.stopMoved second (b.afterFirst signal symbol first)).currentPosition =
        some { pos with stopLoss := stop } := by
  have hpos : (b.afterFirst signal symbol first).currentPosition = some pos := hopen
  have hstate : (b.afterFirst signal symbol first).riskState = some (freshState pos) := by
    rw [afterFirst_fields.2.1, hopen]
    simp only [initRiskState, hconfig]
    rfl
  have hanswers := RiskManager.update_answers config (freshState pos) second
  have hcurrent : (RiskManager.update config (freshState pos) second.close second).1.currentStopLoss =
      (RiskManager.update config (freshState pos) second.close second).2.newStopLoss.getD pos.stopLoss :=
    hanswers.currentStopLoss
  refine ⟨_, ⟨?_, ?_⟩, by rw [stopMoved, riskUpdate_of_some hpos hconfig hstate]⟩
  · cases hnew : (RiskManager.update config (freshState pos) second.close second).2.newStopLoss with
    | none => exact .inl rfl
    | some stop => exact .inr (hanswers.newStopLoss stop hnew).1
  · intro other hother
    rw [← hcurrent]
    exact hanswers.tightest other hother

end Backtester

namespace Engine

variable {e : Engine ℚ} {root : ℚ → ℚ} {signal : Signal ℚ} {second : Candle ℚ} {pos : Position ℚ}
  {config : RiskConfig ℚ}

/-- The positions are opened as by the rebuilt backtester. -/
def OpensAlike (e : Engine ℚ) : Prop :=
  ∀ signal price balance timestamp symbol, e.openPosition signal price balance timestamp symbol =
    e.counterpart.openPosition signal price balance timestamp symbol

/-- A second bar that the rebuilt backtester keeps its position over meets no stop of the risk manager. -/
theorem RunsAlike.not_hit (h : RunsAlike e root) (hopens : OpensAlike e) (hconfig : e.riskConfig = some config)
    (hactionable : signal.isActionable = true)
    (hopen : e.counterpart.openPosition signal 1 e.initialBalance 0 "" = some pos)
    (hside : pos.side = signal.direction) (hmiss : Backtester.checkSlTp pos second = none) :
    ¬ ∀ stop, Backtester.MayStop config pos second stop →
      Backtester.checkSlTp { pos with stopLoss := stop } second = some (.stopLoss, stop) := by
  intro hhit
  obtain ⟨s, -, hs, hsame, -, -⟩ := h.results signal "" [flatCandle 1, second]
    (Backtester.before_two_held rfl hactionable hopen hmiss hside)
  have hreasons := congrArg (fun result => result.trades.map (·.exitReason)) hsame
  have hend : (e.counterpart.finalizeBacktest [flatCandle 1, second]
      (Backtester.held (e.counterpart.afterFirst signal "" (flatCandle 1)) signal second)).trades.map
        (·.exitReason) = [.end] := by
    have hkept : (Backtester.held (e.counterpart.afterFirst signal "" (flatCandle 1)) signal second).currentPosition =
        some pos := hopen
    rw [Backtester.trades_finalizeBacktest_of_some hkept rfl]
    rfl
  have hown : e.openPosition signal (flatCandle 1).close e.initialBalance ((flatCandle 1).timestamp.getD 0) "" =
      some pos := (hopens _ _ _ _ _).trans hopen
  cases hclose : e.closeAsked second (e.afterFirst signal "" (flatCandle 1)) with
  | some reason =>
    have hraised := Backtester.before_two_of_closeAsked hactionable hclose
    cases (congrArg Prod.snd hs).symm.trans hraised
  | none =>
    obtain ⟨rfl, -⟩ := Prod.mk.inj ((Backtester.before_two hactionable hclose).symm.trans hs)
    obtain ⟨stop, hstop, hmoved⟩ := Backtester.exists_mayStop second hconfig hown
    obtain ⟨hclosed, hstopped⟩ := Backtester.turn_hit hmoved (hhit stop hstop) rfl
    rw [hend, Backtester.trades_finalizeBacktest_of_none hclosed, hstopped] at hreasons
    cases hreasons

/-! ### Stops that move -/

/-- A candle that closes at one price and has been at another one only. -/
def probe (close reached : ℚ) : Candle ℚ where
  «open» := close
  high := reached
  low := reached
  close := close
  volume := 1
  prevClose := some reached

theorem trailingDistance_probe (config : RiskConfig ℚ) (close reached : ℚ) :
    RiskManager.trailingDistance config (probe close reached) = close * config.trailingDistancePct / 100 := by
  have hrange : RiskManager.calcAtrFromCandle (probe close reached) = 0 := by
    simp [RiskManager.calcAtrFromCandle, probe]
  rw [RiskManager.trailingDistance, hrange, if_neg fun hboth => lt_irrefl 0 hboth.2]
  rfl

theorem RunsAlike.long_offer_nonpos (h : RunsAlike e root) (hopens : OpensAlike e)
    (hconfig : e.riskConfig = some config)
    (hopen : e.counterpart.openPosition ⟨.long, 0, 0⟩ 1 e.initialBalance 0 "" = some pos)
    (hopened : Backtester.Opened e.counterpart.toBacktester ⟨.long, 0, 0⟩ 1 pos) {close level : ℚ}
    (hoffer : RiskManager.Offers config (Backtester.freshState pos) (probe close 0) level) : level ≤ 0 := by
  by_contra hpos
  rw [not_le] at hpos
  refine h.not_hit hopens hconfig rfl hopen hopened.side
    (Backtester.checkSlTp_off hopened.stopLoss hopened.takeProfit (probe close 0)) fun stop hstop => ?_
  have htight := hstop.tightest level hoffer
  have hside : pos.side = .long := hopened.side
  rw [RiskManager.tightness, RiskManager.tightness, if_pos hside, if_pos hside] at htight
  have hstoppos : 0 < stop := hpos.trans_le htight
  simp [Backtester.checkSlTp, hside, probe, hstoppos, hstoppos.le]

theorem RunsAlike.not_short_offer (h : RunsAlike e root) (hopens : OpensAlike e)
    (hconfig : e.riskConfig = some config) {close level : ℚ} (hlevel : 0 < level)
    (hopen : e.counterpart.openPosition ⟨.short, level + 1, 0⟩ 1 e.initialBalance 0 "" = some pos)
    (hopened : Backtester.Opened e.counterpart.toBacktester ⟨.short, level + 1, 0⟩ 1 pos)
    (hoffer : RiskManager.Offers config (Backtester.freshState pos) (probe close level) level)
    (honly : ∀ other, RiskManager.Offers config (Backtester.freshState pos) (probe close level) other →
      other = level) : False := by
  have hside : pos.side = .short := hopened.side
  have hlong : ¬ pos.side = .long := hopened.not_long
  have hmiss : Backtester.checkSlTp pos (probe close level) = none := by
    simp [Backtester.checkSlTp, hside, hopened.stopLoss, hopened.takeProfit, probe]
  refine h.not_hit hopens hconfig rfl hopen hopened.side hmiss fun stop hstop => ?_
  have htight := hstop.tightest level hoffer
  rw [RiskManager.tightness, RiskManager.tightness, if_neg hlong, if_neg hlong, neg_le_neg_iff] at htight
  have hstoppos : 0 < stop := by
    rcases hstop.present with hkept | hmoved
    · rw [hkept, hopened.stopLoss]
      exact add_pos hlevel one_pos
    · rwa [honly stop hmoved]
  simp [Backtester.checkSlTp, hside, probe, hstoppos, htight]

theorem fillPrice_counterpart_short (stopLoss takeProfit : ℚ) :
    e.counterpart.fillPrice ⟨.short, stopLoss, takeProfit⟩ 1 = 9998 / 10000 := by
  change 1 * (1 - 2 / 10000) = (9998 / 10000 : ℚ)
  norm_num

theorem exists_long (hbalance : 0 < e.initialBalance) :
    ∃ pos, e.counterpart.openPosition ⟨.long, 0, 0⟩ 1 e.initialBalance 0 "" = some pos ∧
      Backtester.Opened e.counterpart.toBacktester ⟨.long, 0, 0⟩ 1 pos := by
  have hfill := @fillPrice_counterpart e 0 0
  exact exists_opened_counterpart hbalance (by rw [hfill]; norm_num) (by rw [hfill]; norm_num)

theorem exists_short (hbalance : 0 < e.initialBalance) {level : ℚ} (hlevel : 0 < level) :
    ∃ pos, e.counterpart.openPosition ⟨.short, level + 1, 0⟩ 1 e.initialBalance 0 "" = some pos ∧
      Backtester.Opened e.counterpart.toBacktester ⟨.short, level + 1, 0⟩ 1 pos := by
  have hfill := @fillPrice_counterpart_short e (level + 1) 0
  refine exists_opened_counterpart hbalance (by rw [hfill]; norm_num) ?_
  intro hsame
  linarith

/-- A trailing stop is met on one of the two sides, whatever its distance. -/
theorem RunsAlike.trailing_off (h : RunsAlike e root) (hopens : OpensAlike e) (hbalance : 0 < e.initialBalance)
    (hconfig : e.riskConfig = some config) : config.trailingStopEnabled = false := by
  rw [← Bool.not_eq_true]
  intro htrailing
  have hdistance : 100 ≤ config.trailingDistancePct := by
    obtain ⟨pos, hopen, hopened⟩ := exists_long hbalance
    have hside : (Backtester.freshState pos).side = .long := hopened.side
    have hoffer : RiskManager.Offers config (Backtester.freshState pos) (probe 1 0)
        (RiskManager.trailingStop config (Backtester.freshState pos) (probe 1 0)) := .trailing htrailing
    have hlevel := h.long_offer_nonpos hopens hconfig hopen hopened hoffer
    rw [RiskManager.trailingStop, if_pos hside, trailingDistance_probe] at hlevel
    change 1 - _ ≤ 0 at hlevel
    linarith
  -- A close so high that the breakeven stop is not offered.
  let close := 1 + |9998 / 10000 * (1 - config.breakevenTriggerPct / 100)|
  have hclose : 0 < close := add_pos_of_pos_of_nonneg one_pos (abs_nonneg _)
  let level := close + close * config.trailingDistancePct / 100
  have hlevel : 0 < level := by
    have hpart : 0 < close * config.trailingDistancePct / 100 := by positivity
    exact add_pos hclose hpart
  obtain ⟨pos, hopen, hopened⟩ := exists_short hbalance hlevel
  have hside := hopened.not_long
  have hentry : pos.entryPrice = 9998 / 10000 :=
    hopened.entryPrice.trans (fillPrice_counterpart_short (level + 1) 0)
  have hstop : RiskManager.trailingStop config (Backtester.freshState pos) (probe close level) = level := by
    rw [RiskManager.trailingStop, if_neg hside, trailingDistance_probe]
    rfl
  have hoffer : RiskManager.Offers config (Backtester.freshState pos) (probe close level) level := by
    have htrail : RiskManager.Offers config (Backtester.freshState pos) (probe close level)
        (RiskManager.trailingStop config (Backtester.freshState pos) (probe close level)) := .trailing htrailing
    rwa [hstop] at htrail
  refine h.not_short_offer hopens hconfig hlevel hopen hopened hoffer fun other hother => ?_
  cases hother with
  | trailing => exact hstop
  | breakeven _ _ _ hmove =>
    rw [hopened.priceMovePct, hentry] at hmove
    have hhigh : 9998 / 10000 * (1 - config.breakevenTriggerPct / 100) < (probe close level).close :=
      (le_abs_self _).trans_lt (lt_add_of_pos_left _ one_pos)
    linarith

/-- So is a stop at the entry, if no stop trails the price. -/
theorem RunsAlike.breakeven_off (h : RunsAlike e root) (hopens : OpensAlike e) (hbalance : 0 < e.initialBalance)
    (hconfig : e.riskConfig = some config) (htrailing : config.trailingStopEnabled = false) :
    config.breakevenEnabled = false := by
  rw [← Bool.not_eq_true]
  intro hbreakeven
  have hbuffer : config.breakevenBufferPct ≤ -100 := by
    obtain ⟨pos, hopen, hopened⟩ := exists_long hbalance
    have hside : (Backtester.freshState pos).side = .long := hopened.side
    have hentry : (Backtester.freshState pos).entryPrice = 10002 / 10000 :=
      hopened.entryPrice.trans (fillPrice_counterpart 0 0)
    -- The close at which the price has come just far enough.
    let close : ℚ := 10002 / 10000 * (1 + config.breakevenTriggerPct / 100)
    have hmove : config.breakevenTriggerPct ≤
        RiskManager.priceMovePct (Backtester.freshState pos) (probe close 0).close := by
      rw [RiskManager.priceMovePct, if_pos hside, hentry]
      change _ ≤ (10002 / 10000 * (1 + config.breakevenTriggerPct / 100) - 10002 / 10000) / (10002 / 10000) * 100
      linarith
    have hlevel := h.long_offer_nonpos hopens hconfig hopen hopened
      (.breakeven hbreakeven rfl (by rw [hentry]; norm_num) hmove)
    rw [RiskManager.breakevenStop, if_pos hside, hentry] at hlevel
    linarith
  let close : ℚ := 9998 / 10000 * (1 - config.breakevenTriggerPct / 100)
  let level : ℚ := 9998 / 10000 * (1 - config.breakevenBufferPct / 100)
  have hlevel : 0 < level := by
    change 0 < (9998 / 10000 : ℚ) * (1 - config.breakevenBufferPct / 100)
    linarith
  obtain ⟨pos, hopen, hopened⟩ := exists_short hbalance hlevel
  have hentry : pos.entryPrice = 9998 / 10000 :=
    hopened.entryPrice.trans (fillPrice_counterpart_short (level + 1) 0)
  have hstop : RiskManager.breakevenStop config (Backtester.freshState pos) = level := by
    rw [RiskManager.breakevenStop, if_neg hopened.not_long]
    change pos.entryPrice * (1 - config.breakevenBufferPct / 100) = level
    rw [hentry]
  have hmove : config.breakevenTriggerPct ≤
      RiskManager.priceMovePct (Backtester.freshState pos) (probe close level).close := by
    rw [hopened.priceMovePct, hentry]
    change _ ≤ (9998 / 10000 - 9998 / 10000 * (1 - config.breakevenTriggerPct / 100)) / (9998 / 10000) * 100
    linarith
  have hpositive : 0 < (Backtester.freshState pos).entryPrice := by
    change 0 < pos.entryPrice
    rw [hentry]
    norm_num
  have hoffer : RiskManager.Offers config (Backtester.freshState pos) (probe close level) level := by
    have hbreak : RiskManager.Offers config (Backtester.freshState pos) (probe close level)
        (RiskManager.breakevenStop config (Backtester.freshState pos)) :=
      .breakeven hbreakeven rfl hpositive hmove
    rwa [hstop] at hbreak
  refine h.not_short_offer hopens hconfig hlevel hopen hopened hoffer fun other hother => ?_
  cases hother with
  | trailing henabled =>
    rw [htrailing] at henabled
    cases henabled
  | breakeven => exact hstop

end Engine

theorem RiskManager.candlesHeld_update (config : RiskConfig ℚ) (state : PositionRiskState ℚ) (price : ℚ)
    (candle : Candle ℚ) : (update config state price candle).1.candlesHeld = state.candlesHeld + 1 := by
  have hcounted (u : Updated ℚ) (hu : Underway state u) :
      (checkMaxHold config (checkPartialTpAction config price u)).1.candlesHeld = state.candlesHeld + 1 := by
    have hpart : (checkPartialTpAction config price u).1.candlesHeld = state.candlesHeld + 1 := by
      rw [checkPartialTpAction]
      split
      · exact hu.candlesHeld
      · dsimp only
        split
        · exact hu.candlesHeld
        · exact hu.candlesHeld
    rw [checkMaxHold]
    split
    · exact hpart
    · exact hpart
  apply hcounted
  apply Underway.checkTrailingAction
  apply Underway.checkBreakevenAction
  dsimp only
  split
  · exact (underway_start state price _).2
  · exact (underway_start state price 0).1

namespace Engine

variable {e : Engine ℚ} {root : ℚ → ℚ} {config : RiskConfig ℚ}

/-! ### Positions that are held -/

/-- With no stop that moves, a position without one is held for as long as the bars go through. -/
theorem held_before {pos : Position ℚ} {candles : List (Candle ℚ)} (hconfig : e.riskConfig = some config)
    (htrailing : config.trailingStopEnabled = false) (hbreakeven : config.breakevenEnabled = false)
    (hopen : e.openPosition ⟨.long, 0, 0⟩ 1 e.initialBalance 0 "" = some pos) (hside : pos.side = .long)
    (hstop : pos.stopLoss = 0) (htarget : pos.takeProfit = 0)
    (hok : (e.before (always ⟨.long, 0, 0⟩).kept (.ok ()) "" 0 (flatCandle 1 :: candles)
      (candles.length + 1)).2 = .ok ()) {i : ℕ} (hi : i ≤ candles.length) :
    ∃ s state, e.before (always ⟨.long, 0, 0⟩).kept (.ok ()) "" 0 (flatCandle 1 :: candles) (i + 1) = (s, .ok ()) ∧
      s.currentPosition = some pos ∧ s.riskState = some state ∧ state.candlesHeld = i := by
  induction i with
  | zero =>
    refine ⟨_, Backtester.freshState pos, Backtester.before_one rfl, hopen, ?_, rfl⟩
    have hown : e.openPosition ⟨.long, 0, 0⟩ (flatCandle 1).close e.initialBalance
        ((flatCandle 1).timestamp.getD 0) "" = some pos := hopen
    rw [Backtester.afterFirst_fields.2.1, hown]
    simp only [Backtester.initRiskState, hconfig]
    rfl
  | succ i ih =>
    obtain ⟨s, state, hs, hpos, hstate, hheld⟩ := ih (Nat.le_of_succ_le hi)
    have hlt : i + 1 < (flatCandle 1 :: candles).length := Nat.succ_lt_succ hi
    obtain ⟨hcomes, hclose⟩ := Backtester.comesTo_of_ok (j := candles.length + 1) le_rfl hok hlt (Nat.zero_le _)
      (List.getElem?_eq_getElem hlt)
    rw [hs] at hcomes hclose
    let candle := (flatCandle 1 :: candles)[i + 1]
    have hmoved : e.stopMoved candle s =
        { s with
          currentPosition := some pos
          riskState := some (RiskManager.update config state candle.close candle).1 } := by
      rw [Backtester.stopMoved, Backtester.riskUpdate_of_some hpos hconfig hstate]
      dsimp only
      rw [RiskManager.newStopLoss_of_off htrailing hbreakeven]
      rfl
    have hreplied : s.strategyState = .ok () := Backtester.strategyState_before hlt.le hs
    have hstrategy : (e.stopMoved candle s).strategyState = .ok () := by
      rw [hmoved]
      exact hreplied
    have hkept : (e.stopMoved candle s).currentPosition = some pos := by
      rw [hmoved]
    have hturn : e.turn (always ⟨.long, 0, 0⟩).kept ""
        (Backtester.window 0 (flatCandle 1 :: candles) (i + 1)) candle s =
          Backtester.held (e.stopMoved candle s) ⟨.long, 0, 0⟩ candle :=
      Backtester.turn_held hstrategy hkept (Backtester.checkSlTp_off hstop htarget candle) hside
    refine ⟨_, (RiskManager.update config state candle.close candle).1,
      hcomes.before_succ_of_none hclose, ?_, ?_, ?_⟩
    · rw [hturn, hmoved]
      rfl
    · rw [hturn, hmoved]
      rfl
    · rw [RiskManager.candlesHeld_update, hheld]
      rfl

/-- A position that no stop ends is held until it is closed for its time, and that raises. -/
theorem RunsAlike.hold_off (h : RunsAlike e root) (hopens : OpensAlike e) (hbalance : 0 < e.initialBalance)
    (hconfig : e.riskConfig = some config) (htrailing : config.trailingStopEnabled = false)
    (hbreakeven : config.breakevenEnabled = false) : config.maxHoldCandles ≤ 0 := by
  by_contra hpositive
  rw [not_le] at hpositive
  obtain ⟨pos, hopen, hopened⟩ := exists_long hbalance
  obtain ⟨n, hn⟩ : ∃ n : ℕ, config.maxHoldCandles = n + 1 :=
    ⟨(config.maxHoldCandles - 1).toNat, by omega⟩
  let candles := List.replicate (n + 1) (flatCandle 1)
  obtain ⟨s', hs'⟩ := exists_before_counterpart e ⟨.long, 0, 0⟩ "" (flatCandle 1 :: candles)
  obtain ⟨s, -, hs, -⟩ := h.results ⟨.long, 0, 0⟩ "" (flatCandle 1 :: candles) hs'
  have hok : (e.before (always ⟨.long, 0, 0⟩).kept (.ok ()) "" 0 (flatCandle 1 :: candles)
      (candles.length + 1)).2 = .ok () := congrArg Prod.snd hs
  have hlength : candles.length = n + 1 := List.length_replicate
  obtain ⟨s₁, state, hs₁, hpos₁, hstate₁, hheld⟩ := held_before hconfig htrailing hbreakeven
    ((hopens _ _ _ _ _).trans hopen) hopened.side hopened.stopLoss hopened.takeProfit hok
    (show n ≤ candles.length by omega)
  have hlt : n + 1 < (flatCandle 1 :: candles).length := by
    rw [List.length_cons, hlength]
    exact Nat.lt_succ_self _
  obtain ⟨-, hclose⟩ := Backtester.comesTo_of_ok (Nat.le_of_eq rfl) hok hlt (Nat.zero_le _)
    (List.getElem?_eq_getElem hlt)
  rw [hs₁, Backtester.closeAsked_of_some hpos₁ hconfig hstate₁, if_pos] at hclose
  · cases hclose
  · exact ⟨hpositive, by rw [hheld, hn]⟩

theorem RunsAlike.faithful (h : RunsAlike e root) : Faithful e := by
  rcases le_or_gt e.initialBalance 0 with hbalance | hbalance
  · exact .idle hbalance (h.idle hbalance)
  · obtain ⟨hslippage, hrisk, hposition⟩ := h.sizes hbalance
    have hopens : OpensAlike e := by
      refine Backtester.openPosition_congr hslippage rfl hrisk ?_
      rw [hposition]
      norm_num [counterpart, Engine.rebuilt, Engine.default, Backtester.default]
    refine .default hslippage hrisk hposition (h.interval hbalance) fun config hconfig => ?_
    have htrailing := h.trailing_off hopens hbalance hconfig
    have hbreakeven := h.breakeven_off hopens hbalance hconfig htrailing
    exact ⟨htrailing, hbreakeven, h.hold_off hopens hbalance hconfig htrailing hbreakeven⟩

end Engine

/-! ### When a parallel search is the sequential one -/

open Foundations

namespace StrategyOptimizer

/-- Searching in parallel and in sequence give the same for all strategies, candles and fitness functions exactly
if there are few combinations or the settings are faithful. -/
theorem gridSearch_parallel_iff {V : Type} (engine : Engine ℚ) (root : ℚ → ℚ)
    (paramGrid : List (String × List V)) (maxCombinations : ℤ) :
    (∀ (σ K : Type) [LinearOrder K] (fitnessFn : MeasuredResult ℚ → Except BacktestError K)
        (strategyClass : StrategyClass ℚ V σ) (candles : List (Candle ℚ)) (symbol : String) (warmup : ℕ)
        (pool : Pool ℚ V σ) (nWorkers : Option ℤ), Evaluates root pool nWorkers →
      let o : StrategyOptimizer ℚ K := { backtester := engine, fitnessFn := fitnessFn }
      o.gridSearch root pool strategyClass paramGrid candles symbol warmup maxCombinations true nWorkers =
        o.gridSearch root pool strategyClass paramGrid candles symbol warmup maxCombinations false nWorkers) ↔
      ¬ Distributed paramGrid maxCombinations ∨ Faithful engine := by
  constructor
  · intro hsame
    by_cases hdistributed : Distributed paramGrid maxCombinations
    · right
      have halike : Engine.RunsAlike engine root := by
        intro signal symbol candles result hrun
        have hsearched := hsame Unit ℚ (fun _ => .ok 0) (fun _ => .ok (always signal, ())) candles symbol 0
          (fun _ calls => .ok (calls.map (runSingleBacktest root))) none fun _ => rfl
        exact run_of_gridSearch_eq (by rfl) hdistributed (fun _ => rfl) hrun hsearched
      exact halike.faithful
    · exact .inl hdistributed
  · intro hcondition σ K _ fitnessFn strategyClass candles symbol warmup pool nWorkers hpool
    dsimp only
    by_cases hdistributed : Distributed paramGrid maxCombinations
    · have hfaithful := hcondition.resolve_left (not_not.mpr hdistributed)
      rw [gridSearch_of_distributed hdistributed hpool]
      refine gridSearch_congr rfl fun params => ?_
      simp only [Engine.runMade, rebuilt, hfaithful.run_eq]
    · exact gridSearch_of_not_distributed hdistributed true

/-- Eleven values of a parameter. -/
def elevenValues : List (String × List ℕ) := [("period", List.range 11)]

/-- A backtester with a slippage of five basis points. -/
def slipping : Engine ℚ := { Engine.default with slippageBps := 5 }

/-- A strategy that buys does so at another price in parallel, where a slippage of five basis points is one of
two. -/
theorem gridSearch_parallel_ne :
    let o : StrategyOptimizer ℚ ℚ := { backtester := slipping, fitnessFn := defaultFitness }
    let search (parallel : Bool) := o.gridSearch id (fun _ calls => .ok (calls.map (runSingleBacktest id)))
      (fun _ => .ok (always ⟨.long, 90, 200⟩, ())) elevenValues [flatCandle 100] "BTC/USDT" 0 1000 parallel none
    search true ≠ search false := by
  intro o search hsame
  have hdistributed : Distributed elevenValues 1000 := by decide
  have hprices : ((Engine.rebuilt slipping.initialBalance slipping.feePct).run id (always ⟨.long, 90, 200⟩) ()
        "BTC/USDT" 0 [flatCandle 100]).map (fun result => result.trades.map (·.entryPrice)) =
          .ok [5001 / 50] ∧
      (slipping.run id (always ⟨.long, 90, 200⟩) () "BTC/USDT" 0 [flatCandle 100]).map
        (fun result => result.trades.map (·.entryPrice)) = .ok [2001 / 20] := by
    decide +kernel
  cases hrun : (Engine.rebuilt slipping.initialBalance slipping.feePct).run id (always ⟨.long, 90, 200⟩) ()
      "BTC/USDT" 0 [flatCandle 100] with
  | error e =>
    rw [hrun] at hprices
    cases hprices.1
  | ok result =>
    obtain ⟨fitness, hfitness⟩ := exists_defaultFitness result
    have hown := run_of_gridSearch_eq hfitness hdistributed (fun _ => rfl) hrun hsame
    rw [hrun, hown] at hprices
    exact absurd (hprices.1.symm.trans hprices.2) (by decide +kernel)

end StrategyOptimizer

end TradingSim.Backtest
