import TradingSim.Backtest.RiskActions
import TradingSim.Foundations.Drawdowns
import Mathlib.Tactic.Ring

/-!
# The ledger of a backtest

The balance of a run is what it started with and the profits of its trades, the trades follow each other bar
by bar, and the drawdown is the one of the equity curve. A position is worth nothing to the ledger while it
is open: both fees are settled when it is closed.
-/

namespace TradingSim.Backtest

open Foundations
open FloatOps

/-- The signed price difference of a trade times the quantity, less the fees of the entry and of the exit. -/
def Trade.profit (trade : Trade ℚ) (feePct : ℚ) : ℚ :=
  (if trade.side = .long then trade.exitPrice - trade.entryPrice
    else trade.entryPrice - trade.exitPrice) * trade.quantity -
      trade.entryPrice * trade.quantity * feePct / 100 - trade.exitPrice * trade.quantity * feePct / 100

/-- The bars of entries and exits, all before a bar: an exit is not before its entry nor after the next
entry. -/
structure Spans (times : ℕ → ℤ) (n : ℕ) (trades : List (Trade ℚ)) (spans : List (ℕ × ℕ)) : Prop where
  times : trades.map (fun trade => (trade.entryTime, trade.exitTime)) =
    spans.map fun span => (times span.1, times span.2)
  ordered : ∀ span ∈ spans, span.1 ≤ span.2 ∧ span.2 < n
  apart : spans.Pairwise fun earlier later => earlier.2 ≤ later.1

namespace Spans

variable {times : ℕ → ℤ} {n : ℕ} {trades : List (Trade ℚ)} {spans : List (ℕ × ℕ)}

theorem mono {m : ℕ} (h : Spans times n trades spans) (hle : n ≤ m) : Spans times m trades spans where
  times := h.times
  ordered span hspan := ⟨(h.ordered span hspan).1, (h.ordered span hspan).2.trans_le hle⟩
  apart := h.apart

/-- One more trade after the others. -/
theorem concat (h : Spans times n trades spans) {trade : Trade ℚ} {i j : ℕ}
    (hentry : trade.entryTime = times i) (hexit : trade.exitTime = times j) (hij : i ≤ j) (hj : j < n)
    (hafter : ∀ span ∈ spans, span.2 ≤ i) : Spans times n (trades ++ [trade]) (spans ++ [(i, j)]) where
  times := by simp [h.times, hentry, hexit]
  ordered span hspan := by
    obtain hspan | hspan := List.mem_append.mp hspan
    · exact h.ordered span hspan
    · rw [List.mem_singleton.mp hspan]
      exact ⟨hij, hj⟩
  apart := by
    rw [List.pairwise_append]
    refine ⟨h.apart, List.pairwise_singleton _ _, ?_⟩
    intro earlier hearlier later hlater
    rw [List.mem_singleton.mp hlater]
    exact hafter earlier hearlier

theorem times_apart (h : Spans times n trades spans) (hmono : ∀ i j, i ≤ j → j < n → times i ≤ times j) :
    (∀ trade ∈ trades, trade.entryTime ≤ trade.exitTime) ∧
      trades.Pairwise fun earlier later => earlier.exitTime ≤ later.entryTime := by
  have hwhole : ∀ times' ∈ trades.map (fun trade => (trade.entryTime, trade.exitTime)),
      times'.1 ≤ times'.2 := by
    rw [h.times]
    intro times' hmem
    obtain ⟨span, hspan, rfl⟩ := List.mem_map.mp hmem
    exact hmono span.1 span.2 (h.ordered span hspan).1 (h.ordered span hspan).2
  have hpairs : (trades.map fun trade => (trade.entryTime, trade.exitTime)).Pairwise
      fun earlier later => earlier.2 ≤ later.1 := by
    rw [h.times, List.pairwise_map]
    apply h.apart.imp_of_mem
    intro earlier later _ hlater hle
    have hordered := h.ordered later hlater
    exact hmono earlier.2 later.1 hle (hordered.1.trans_lt hordered.2)
  constructor
  · intro trade htrade
    exact hwhole _ (List.mem_map_of_mem htrade)
  · rwa [List.pairwise_map] at hpairs

end Spans

namespace Backtester

variable {σ : Type} {b : Backtester ℚ} {times : ℕ → ℤ} {n i : ℕ} {s s' : Replay ℚ σ} {pos : Position ℚ}
  {candle : Candle ℚ}

/-- What the ledger reads of a position. -/
def entryOf (pos : Position ℚ) : SignalDirection × ℚ × ℚ × ℤ × ℚ :=
  (pos.side, pos.entryPrice, pos.quantity, pos.entryTime, pos.fee)

/-- The ledger of a run is in order before a bar. -/
structure Books (b : Backtester ℚ) (times : ℕ → ℤ) (n : ℕ) (s : Replay ℚ σ) : Prop where
  balance : s.balance = b.initialBalance + (s.trades.map Trade.pnl).sum
  pnl : ∀ trade ∈ s.trades, trade.pnl = trade.profit b.feePct
  fee : ∀ pos, s.currentPosition = some pos → pos.fee = pos.entryPrice * pos.quantity * b.feePct / 100
  spans : ∃ spans, Spans times n s.trades spans ∧ ∀ pos, s.currentPosition = some pos →
    ∃ k < n, pos.entryTime = times k ∧ ∀ span ∈ spans, span.2 ≤ k
  drawdown : KeepsDrawdown 100 s.equityCurve s.peakEquity s.maxDrawdownPct

theorem closePosition_profit (hfee : pos.fee = pos.entryPrice * pos.quantity * b.feePct / 100)
    (exitPrice : ℚ) (reason : ExitReason) (balance : ℚ) (timestamp : ℤ) :
    let closed := b.closePosition pos exitPrice reason balance timestamp
    closed.1.pnl = closed.1.profit b.feePct ∧ closed.2 = balance + closed.1.pnl := by
  refine ⟨?_, rfl⟩
  simp only [closePosition, Trade.profit, hfee, lit_rat]
  split_ifs
  · ring
  · ring

namespace Books

theorem start (b : Backtester ℚ) (strategyState : σ) : Books b times n (b.start strategyState) where
  balance := by simp [Backtester.start]
  pnl := by simp [Backtester.start]
  fee := by simp [Backtester.start]
  spans := by
    use []
    constructor
    · exact ⟨rfl, by simp, List.Pairwise.nil⟩
    · simp [Backtester.start]
  drawdown := KeepsDrawdown.singleton b.initialBalance

theorem mono {m : ℕ} (h : Books b times n s) (hle : n ≤ m) : Books b times m s where
  balance := h.balance
  pnl := h.pnl
  fee := h.fee
  spans := by
    obtain ⟨spans, hspans, hopen⟩ := h.spans
    refine ⟨spans, hspans.mono hle, ?_⟩
    intro pos hpos
    obtain ⟨k, hk, hafter⟩ := hopen pos hpos
    exact ⟨k, hk.trans_le hle, hafter⟩
  drawdown := h.drawdown

/-- A step that changes nothing that the ledger reads. -/
theorem congr (h : Books b times n s) (hbalance : s'.balance = s.balance) (htrades : s'.trades = s.trades)
    (hpos : ∀ pos, s'.currentPosition = some pos →
      ∃ pos', s.currentPosition = some pos' ∧ entryOf pos = entryOf pos')
    (hcurve : s'.equityCurve = s.equityCurve) (hpeak : s'.peakEquity = s.peakEquity)
    (hdrawdown : s'.maxDrawdownPct = s.maxDrawdownPct) : Books b times n s' where
  balance := by rw [hbalance, htrades, h.balance]
  pnl := by rw [htrades]; exact h.pnl
  fee pos hopen := by
    obtain ⟨pos', hopen', hentry⟩ := hpos pos hopen
    simp only [entryOf, Prod.mk.injEq] at hentry
    obtain ⟨-, hprice, hquantity, -, hfee⟩ := hentry
    rw [hfee, hprice, hquantity, h.fee pos' hopen']
  spans := by
    obtain ⟨spans, hspans, hafter⟩ := h.spans
    refine ⟨spans, htrades ▸ hspans, ?_⟩
    intro pos hopen
    obtain ⟨pos', hopen', hentry⟩ := hpos pos hopen
    simp only [entryOf, Prod.mk.injEq] at hentry
    rw [hentry.2.2.2.1]
    exact hafter pos' hopen'
  drawdown := by rw [hcurve, hpeak, hdrawdown]; exact h.drawdown

theorem closed (h : Books b times (i + 1) s) (hpos : s.currentPosition = some pos) (exitPrice : ℚ)
    (reason : ExitReason) (htime : candle.timestamp.getD 0 = times i) :
    Books b times (i + 1) (b.closed s pos exitPrice reason candle) := by
  obtain ⟨hprofit, hbalance⟩ := @closePosition_profit b pos (h.fee pos hpos) exitPrice reason s.balance
    (candle.timestamp.getD 0)
  constructor
  · calc (b.closed s pos exitPrice reason candle).balance
        = s.balance + (b.closePosition pos exitPrice reason s.balance (candle.timestamp.getD 0)).1.pnl :=
          hbalance
      _ = b.initialBalance + ((s.trades ++
            [(b.closePosition pos exitPrice reason s.balance (candle.timestamp.getD 0)).1]).map
              Trade.pnl).sum := by
          rw [List.map_append, List.sum_append, ← add_assoc, ← h.balance, List.map_singleton,
            List.sum_singleton]
  · intro trade htrade
    obtain htrade | htrade := List.mem_append.mp htrade
    · exact h.pnl trade htrade
    · rw [List.mem_singleton.mp htrade]
      exact hprofit
  · intro pos hnone
    cases hnone
  · obtain ⟨spans, hspans, hopen⟩ := h.spans
    obtain ⟨k, hk, hentry, hafter⟩ := hopen pos hpos
    use spans ++ [(k, i)]
    constructor
    · exact hspans.concat hentry htime (Nat.le_of_lt_succ hk) (Nat.lt_succ_self i) hafter
    · intro pos hnone
      cases hnone
  · exact h.drawdown

theorem opened (h : Books b times (i + 1) s) (signal : Signal ℚ) (symbol : String)
    (htime : candle.timestamp.getD 0 = times i) :
    Books b times (i + 1) (b.opened s signal symbol candle) := by
  have hopened (pos : Position ℚ) (hpos : (b.opened s signal symbol candle).currentPosition = some pos) :
      pos.fee = pos.entryPrice * pos.quantity * b.feePct / 100 ∧ pos.entryTime = times i := by
    simp only [Backtester.opened, openPosition] at hpos
    split_ifs at hpos
    all_goals
      cases hpos
      exact ⟨rfl, htime⟩
  constructor
  · exact h.balance
  · exact h.pnl
  · intro pos hpos
    exact (hopened pos hpos).1
  · obtain ⟨spans, hspans, -⟩ := h.spans
    refine ⟨spans, hspans, ?_⟩
    intro pos hpos
    use i, Nat.lt_succ_self i, (hopened pos hpos).2
    intro span hspan
    exact Nat.le_of_lt_succ (hspans.ordered span hspan).2
  · exact h.drawdown

/-- The equity of a bar is put on the curve. -/
theorem track (h : Books b times n s) (price : ℚ) : Books b times n (s.trackEquityAndDrawdown price) where
  balance := h.balance
  pnl := h.pnl
  fee := h.fee
  spans := h.spans
  drawdown := by
    have hkeeps := h.drawdown.concat (trackEquity s.currentPosition s.balance price)
    simpa [Replay.trackEquityAndDrawdown, Replay.updateDrawdown, decline] using hkeeps

theorem stopMoved (h : Books b times n s) (candle : Candle ℚ) : Books b times n (b.stopMoved candle s) := by
  rw [Backtester.stopMoved]
  cases hupdate : b.riskUpdate candle s with
  | none => exact h
  | some answer =>
    obtain ⟨pos, state, actions⟩ := answer
    obtain ⟨-, -, hpos, -⟩ := riskUpdate_eq_some_iff.mp hupdate
    apply h.congr
    · rfl
    · rfl
    · intro pos' hpos'
      cases hpos'
      exact ⟨pos, hpos, rfl⟩
    · rfl
    · rfl
    · rfl

theorem asked (h : Books b times n s) {strategy : Strategy ℚ σ} {symbol : String}
    {window : List (Candle ℚ)} {signal : Signal ℚ} (hasked : asked strategy symbol window s = (signal, s')) :
    Books b times n s' := by
  obtain ⟨-, rfl⟩ := Prod.mk.inj hasked
  exact ⟨h.1, h.2, h.3, h.4, h.5⟩

/-- **The step lemma.** The ledger stays in order over a bar on which no close is asked for. -/
theorem turn (h : Books b times i s) (strategy : Strategy ℚ σ) (symbol : String)
    (window : List (Candle ℚ)) (htime : candle.timestamp.getD 0 = times i) :
    Books b times (i + 1) (b.turn strategy symbol window candle s) := by
  apply track
  have hmanaged := b.managed strategy symbol window candle (b.stopMoved candle s)
  have hmoved : Books b times (i + 1) (b.stopMoved candle s) := (h.stopMoved candle).mono (Nat.le_succ i)
  generalize b.managePositionOrEntry strategy symbol window candle (b.stopMoved candle s) = managed
    at hmanaged ⊢
  cases hmanaged with
  | hit pos reason exitPrice hpos _ => exact hmoved.closed hpos exitPrice reason htime
  | reversed pos signal s' hpos _ hasked _ =>
    have hpos' : s'.currentPosition = some pos := (asked_keeps hasked).1.trans hpos
    exact ((hmoved.asked hasked).closed hpos' candle.close .signalExit htime).opened signal symbol htime
  | kept pos signal s' _ _ hasked _ => exact hmoved.asked hasked
  | entered signal s' _ hasked _ => exact (hmoved.asked hasked).opened signal symbol htime
  | idle signal s' _ hasked =>
    apply (hmoved.asked hasked).congr
    · rfl
    · rfl
    · intro pos hnone
      cases hnone
    · rfl
    · rfl
    · rfl

end Books

def barTime (candles : List (Candle ℚ)) (i : ℕ) : ℤ := ((candles[i]?).bind Candle.timestamp).getD 0

/-- What the ledger of a result is. Where the equity is never negative, the drawdown is its greatest decline
from any value to a later one. -/
structure Ledger (b : Backtester ℚ) (candles : List (Candle ℚ)) (result : BacktestResult ℚ) : Prop where
  finalBalance : result.finalBalance = b.initialBalance + (result.trades.map Trade.pnl).sum
  pnl : ∀ trade ∈ result.trades, trade.pnl = trade.profit b.feePct
  spans : ∃ spans, Spans (barTime candles) candles.length result.trades spans
  times : (∀ i j, i ≤ j → j < candles.length → barTime candles i ≤ barTime candles j) →
    (∀ trade ∈ result.trades, trade.entryTime ≤ trade.exitTime) ∧
      result.trades.Pairwise fun earlier later => earlier.exitTime ≤ later.entryTime
  maxDrawdownPct : IsGreatest (insert 0 (peakDeclines 100 result.equityCurve)) result.maxDrawdownPct
  maxDrawdownPct_pairs : (∀ equity ∈ result.equityCurve, 0 ≤ equity) →
    IsGreatest (insert 0 (pairDeclines 100 result.equityCurve)) result.maxDrawdownPct

/-- Where no position is left, the result has the ledger of the run. -/
theorem Books.ledger {candles : List (Candle ℚ)} (h : Books b (barTime candles) candles.length s)
    {result : BacktestResult ℚ} (hbalance : result.finalBalance = s.balance)
    (htrades : result.trades = s.trades) (hcurve : result.equityCurve = s.equityCurve)
    (hdrawdown : result.maxDrawdownPct = s.maxDrawdownPct) : Ledger b candles result := by
  obtain ⟨spans, hspans, -⟩ := h.spans
  rw [← htrades] at hspans
  have hworst := h.drawdown.worst
  rw [← hcurve, ← hdrawdown] at hworst
  constructor
  · rw [hbalance, htrades, h.balance]
  · rw [htrades]
    exact h.pnl
  · exact ⟨spans, hspans⟩
  · exact hspans.times_apart
  · exact hworst
  · intro hcurve
    exact isGreatest_pairDeclines (by norm_num) hcurve hworst

theorem Books.finalizeBacktest {candles : List (Candle ℚ)}
    (h : Books b (barTime candles) candles.length s) : Ledger b candles (b.finalizeBacktest candles s) := by
  unfold Backtester.finalizeBacktest
  cases hpos : s.currentPosition with
  | none => exact h.ledger rfl rfl rfl rfl
  | some pos =>
    cases hlast : candles.getLast? with
    | none => exact h.ledger rfl rfl rfl rfl
    | some last =>
      have hne : candles ≠ [] := by
        rintro rfl
        cases hlast
      obtain ⟨i, hi⟩ := Nat.exists_eq_succ_of_ne_zero (List.length_pos_iff.mpr hne).ne'
      have htime : last.timestamp.getD 0 = barTime candles i := by
        rw [List.getLast?_eq_getElem?, hi, Nat.succ_sub_one] at hlast
        rw [barTime, hlast, Option.bind_some]
      rw [hi] at h
      have hclosed := h.closed hpos last.close .end htime
      rw [← Nat.succ_eq_add_one, ← hi] at hclosed
      exact hclosed.ledger rfl rfl rfl rfl

/-- A run without a limit to the holding time completes, and its ledger is in order. -/
theorem run_ledger (b : Backtester ℚ) (strategy : Strategy ℚ σ) (strategyState : σ) (symbol : String)
    (warmup : ℕ) (candles : List (Candle ℚ))
    (hhold : ∀ config, b.riskConfig = some config → config.maxHoldCandles ≤ 0) :
    ∃ result, b.run strategy strategyState symbol warmup candles = .ok result ∧ Ledger b candles result := by
  have hclose (candle : Candle ℚ) (s : Replay ℚ σ) : b.closeAsked candle s = none := by
    rw [closeAsked]
    cases hupdate : b.riskUpdate candle s with
    | none => rfl
    | some answer =>
      obtain ⟨config, state, -, hconfig, -, hanswer⟩ := riskUpdate_eq_some_iff.mp hupdate
      have hshort : ¬ RiskManager.HeldTooLong config state := by
        rintro ⟨hpos, -⟩
        exact absurd (hhold config hconfig) (not_le.mpr hpos)
      rw [Option.bind_some, hanswer, RiskManager.update_asks.2, if_neg hshort]
  have hrun : ∃ s, b.before strategy strategyState symbol warmup candles candles.length = (s, .ok ()) ∧
      Books b (barTime candles) candles.length s := by
    apply before_spec fun i s => Books b (barTime candles) i s
    · intro i _
      exact Books.start b strategyState
    · intro i candle s h hbooks
      have htime : candle.timestamp.getD 0 = barTime candles i := by
        rw [barTime, h.candle, Option.bind_some]
      exact ⟨hclose candle s, hbooks.turn strategy symbol _ htime⟩
    · exact le_rfl
  obtain ⟨s, hs, hbooks⟩ := hrun
  exact ⟨_, by rw [run, hs], hbooks.finalizeBacktest⟩

/-- The run of the default backtester over three bars. -/
theorem run_ledger_threeBars : ∃ result, Backtester.default.run alternating false "BTC/USDT" 1
        [flatCandle 100, flatCandle 101, flatCandle 102] = .ok result ∧
      Ledger .default [flatCandle 100, flatCandle 101, flatCandle 102] result :=
  run_ledger .default alternating false "BTC/USDT" 1 _ fun config hconfig => by cases hconfig

/-- A backtester without fees and slippage. -/
def frictionless : Backtester ℚ := { Backtester.default with feePct := 0, slippageBps := 0 }

/-- A strategy that sells without a stop and without a target. -/
def unprotected : Strategy ℚ Unit where
  analyze _ _ _ := (⟨.short, 0, 0⟩, ())

/-- A short position without a stop takes the equity from 10000 to 4000 and below zero. It declines by 120
percent of the highest equity, and by 150 percent of the one in between. -/
theorem not_pairDeclines_unprotected : ∃ result, frictionless.run unprotected () "BTC/USDT" 1
        [flatCandle 100, flatCandle 100, flatCandle 3100, flatCandle 6100] = .ok result ∧
      ¬ IsGreatest (insert 0 (pairDeclines 100 result.equityCurve)) result.maxDrawdownPct := by
  have hresult : ((frictionless.run unprotected () "BTC/USDT" 1
      [flatCandle 100, flatCandle 100, flatCandle 3100, flatCandle 6100]).toOption.map
        fun result => (result.equityCurve, result.maxDrawdownPct)) =
      some ([10000, 10000, 4000, -2000], 120) := by
    decide +kernel
  cases hrun : frictionless.run unprotected () "BTC/USDT" 1
      [flatCandle 100, flatCandle 100, flatCandle 3100, flatCandle 6100] with
  | error e =>
    rw [hrun] at hresult
    cases hresult
  | ok result =>
    rw [hrun] at hresult
    obtain ⟨hcurve, hdrawdown⟩ := Prod.mk.inj (Option.some.inj hresult)
    refine ⟨result, rfl, ?_⟩
    rw [hcurve, hdrawdown]
    intro hgreatest
    have hdecline : decline 100 (4000 : ℚ) (-2000) ≤ 120 :=
      hgreatest.2 (Or.inr ⟨2, 3, 4000, -2000, by decide, rfl, rfl, by decide, rfl⟩)
    rw [decline] at hdecline
    norm_num at hdecline

end Backtester

end TradingSim.Backtest
