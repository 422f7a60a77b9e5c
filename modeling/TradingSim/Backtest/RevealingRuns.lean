import TradingSim.Backtest.RebuiltRuns

/-!
# What runs tell of the settings

A strategy that always sends the same signal runs over a few bars. The first trade tells the slippage and the
limits of the quantity, the return of a year tells the interval of the candles, and a second bar that one of
the stops of the risk manager moves to tells whether there is such a stop.
-/

namespace TradingSim.Backtest

open Foundations
open FloatOps
open RawOrders (PyException)

/-- A strategy that always sends one signal. -/
def always (signal : Signal ℚ) : FallibleStrategy ℚ Unit where
  analyze state _ _ := .ok (signal, state)

namespace Backtester

variable {b : Backtester ℚ} {signal : Signal ℚ} {symbol : String} {warmup : ℕ} {candles : List (Candle ℚ)}
  {candle : Candle ℚ} {s : Replay ℚ (Except BacktestError Unit)} {pos : Position ℚ}

theorem asked_always (hstate : s.strategyState = .ok ()) (window : List (Candle ℚ)) :
    asked (always signal).kept symbol window s = (signal, { s with
        signalsGenerated := s.signalsGenerated + 1
        signalsValid := if signal.isActionable then s.signalsValid + 1 else s.signalsValid }) := by
  obtain ⟨balance, equityCurve, currentPosition, riskState, peakEquity, trades, generated, valid,
    maxDrawdownPct, strategyState⟩ := s
  obtain rfl : strategyState = .ok () := hstate
  rfl

theorem strategyState_asked {signal' : Signal ℚ} {s' : Replay ℚ (Except BacktestError Unit)}
    (hstate : s.strategyState = .ok ()) {window : List (Candle ℚ)}
    (hasked : asked (always signal).kept symbol window s = (signal', s')) : s'.strategyState = .ok () := by
  rw [asked_always hstate] at hasked
  obtain ⟨-, rfl⟩ := Prod.mk.inj hasked
  exact hstate

theorem strategyState_turn (hstate : s.strategyState = .ok ()) (window : List (Candle ℚ)) :
    (b.turn (always signal).kept symbol window candle s).strategyState = .ok () := by
  have hmoved : (b.stopMoved candle s).strategyState = .ok () := by
    rw [stopMoved]
    cases b.riskUpdate candle s <;> exact hstate
  rw [turn]
  generalize b.stopMoved candle s = moved at hmoved
  change (b.managePositionOrEntry (always signal).kept symbol window candle moved).strategyState = .ok ()
  have hmanaged := managed b (always signal).kept symbol window candle moved
  generalize b.managePositionOrEntry (always signal).kept symbol window candle moved = s' at hmanaged
  cases hmanaged with
  | hit => exact hmoved
  | reversed _ _ _ _ _ hasked =>
    have hkept := strategyState_asked hmoved hasked
    exact hkept
  | kept _ _ _ _ _ hasked => exact strategyState_asked hmoved hasked
  | entered _ _ _ hasked =>
    have hkept := strategyState_asked hmoved hasked
    exact hkept
  | idle _ _ _ hasked =>
    have hkept := strategyState_asked hmoved hasked
    exact hkept

theorem strategyState_before {j : ℕ} (hj : j ≤ candles.length)
    (hbefore : b.before (always signal).kept (.ok ()) symbol warmup candles j = (s, .ok ())) :
    s.strategyState = .ok () := by
  induction j generalizing s with
  | zero =>
    rw [before, Nat.zero_sub] at hbefore
    obtain ⟨rfl, -⟩ := Prod.mk.inj hbefore
    rfl
  | succ j ih =>
    by_cases hwarm : warmup ≤ j
    · obtain ⟨hcomes, hclose⟩ := comesTo_of_ok hj (congrArg Prod.snd hbefore) (Nat.lt_succ_self j) hwarm
        (List.getElem?_eq_getElem hj)
      rw [hcomes.before_succ_of_none hclose] at hbefore
      obtain ⟨rfl, -⟩ := Prod.mk.inj hbefore
      exact strategyState_turn (ih (Nat.le_of_succ_le hj) hcomes.state) _
    · rw [before, Nat.sub_eq_zero_of_le (Nat.lt_of_not_le hwarm)] at hbefore
      obtain ⟨rfl, -⟩ := Prod.mk.inj hbefore
      rfl

end Backtester

namespace Engine

variable {e d : Engine ℚ} {root : ℚ → ℚ} {signal : Signal ℚ} {symbol : String} {warmup : ℕ}
  {candles : List (Candle ℚ)} {result : MeasuredResult ℚ}

theorem run_always_eq_ok_iff : e.run root (always signal) () symbol warmup candles = .ok result ↔
      ∃ s, e.before (always signal).kept (.ok ()) symbol warmup candles candles.length = (s, .ok ()) ∧
        measured root e.candleIntervalMinutes (e.finalizeBacktest candles s) = .ok result := by
  rw [Engine.run]
  generalize hran : e.before (always signal).kept (.ok ()) symbol warmup candles candles.length = ran
  obtain ⟨s, error | u⟩ := ran
  · constructor
    · intro hrun
      cases hstate : s.strategyState <;> simp [hstate] at hrun
    · rintro ⟨s', hs', -⟩
      cases hs'
  · have hstate := Backtester.strategyState_before le_rfl hran
    simp only [hstate]
    constructor
    · intro hrun
      cases hmeasured : measured root e.candleIntervalMinutes (e.finalizeBacktest candles s) with
      | error error =>
        rw [hmeasured] at hrun
        cases hrun
      | ok measuredResult =>
        rw [hmeasured] at hrun
        obtain rfl : measuredResult = result := Except.ok.inj hrun
        exact ⟨s, rfl, hmeasured⟩
    · rintro ⟨s', hs', hmeasured⟩
      obtain ⟨rfl, -⟩ := Prod.mk.inj hs'
      rw [hmeasured]
      rfl

end Engine

section Measures

variable {root : ℚ → ℚ} {interval : ℤ} {base : BacktestResult ℚ} {result : MeasuredResult ℚ}

/-- With an interval the metrics can be computed. -/
theorem exists_measured (hinterval : interval ≠ 0) : ∃ result, measured root interval base = .ok result := by
  have hperiods : periodsPerYear interval = (.ok (365 * 24 * 60 / interval) : Except PyException ℚ) :=
    if_neg hinterval
  have hcalmar : ∃ calmar, calmarRatio interval base = .ok calmar := by
    rw [calmarRatio, hperiods]
    split_ifs
    · exact ⟨_, rfl⟩
    · exact ⟨_, rfl⟩
  have hratios (returns : List ℚ) : ∃ ratios, sharpeSortino root interval returns = .ok ratios := by
    rw [sharpeSortino, hperiods]
    split_ifs
    · exact ⟨_, rfl⟩
    · exact ⟨_, rfl⟩
  obtain ⟨calmar, hcalmar⟩ := hcalmar
  obtain ⟨ratios, hratios⟩ := hratios (barReturns base.equityCurve)
  rw [measured, calculateDrawdownMetrics]
  split
  · rw [hcalmar, hratios]
    exact ⟨_, rfl⟩
  · exact ⟨_, rfl⟩

theorem toBacktestResult_measured (h : measured root interval base = .ok result) :
    result.toBacktestResult = base := by
  rw [measured] at h
  cases hdrawdown : calculateDrawdownMetrics root interval base with
  | error e =>
    rw [hdrawdown] at h
    cases h
  | ok drawdown =>
    rw [hdrawdown] at h
    rw [← Except.ok.inj h]

theorem calmarRatio_of_measured (h : measured root interval base = .ok result)
    (hcurve : 1 < base.equityCurve.length) : calmarRatio interval base = .ok result.calmarRatio := by
  rw [measured, calculateDrawdownMetrics] at h
  split at h
  · cases hcalmar : calmarRatio interval base with
    | error e =>
      rw [hcalmar] at h
      cases h
    | ok calmar =>
      cases hratios : sharpeSortino root interval (barReturns base.equityCurve) with
      | error e =>
        rw [hcalmar, hratios] at h
        cases h
      | ok ratios =>
        rw [hcalmar, hratios] at h
        rw [← Except.ok.inj h]
  · rename_i hshort
    cases hbase : base.equityCurve with
    | nil => simp [hbase] at hcurve
    | cons first rest =>
      cases rest with
      | nil => simp [hbase] at hcurve
      | cons second rest => exact absurd hbase (hshort first second rest)

/-- The return of a year, if there has been a drawdown. -/
theorem calmarRatio_eq {calmar : ℚ} (h : calmarRatio interval base = .ok calmar)
    (hdrawdown : 0 < base.maxDrawdownPct) : interval ≠ 0 ∧
      calmar = base.totalReturnPct * (525600 / interval / base.equityCurve.length) / base.maxDrawdownPct := by
  have hpositive : lt (lit 0) base.maxDrawdownPct = true := lt_rat.mpr hdrawdown
  rw [calmarRatio, if_pos hpositive, periodsPerYear] at h
  split_ifs at h with hzero
  · cases h
  · refine ⟨hzero, ?_⟩
    rw [← Except.ok.inj h]
    norm_num

theorem interval_eq_of_measured {interval' : ℤ} (h : measured root interval base = .ok result)
    (h' : measured root interval' base = .ok result) (hcurve : 1 < base.equityCurve.length)
    (hdrawdown : 0 < base.maxDrawdownPct) (hreturn : base.totalReturnPct ≠ 0) : interval = interval' := by
  obtain ⟨hne, hcalmar⟩ := calmarRatio_eq (calmarRatio_of_measured h hcurve) hdrawdown
  obtain ⟨hne', hcalmar'⟩ := calmarRatio_eq (calmarRatio_of_measured h' hcurve) hdrawdown
  have hlength : (base.equityCurve.length : ℚ) ≠ 0 := by exact_mod_cast (Nat.zero_lt_of_lt hcurve).ne'
  rw [hcalmar, div_left_inj' hdrawdown.ne'] at hcalmar'
  have hquotient := mul_left_cancel₀ hreturn hcalmar'
  rw [div_left_inj' hlength] at hquotient
  have hinterval : (interval : ℚ) ≠ 0 := by exact_mod_cast hne
  have hinterval' : (interval' : ℚ) ≠ 0 := by exact_mod_cast hne'
  have hnumerator : (525600 : ℚ) ≠ 0 := by norm_num
  have hcast := mul_left_cancel₀ hnumerator ((div_eq_div_iff hinterval hinterval').mp hquotient)
  exact_mod_cast hcast.symm

end Measures

namespace Backtester

/-! ### The first bar -/

section First

variable {b : Backtester ℚ} {signal : Signal ℚ} {symbol : String} {first : Candle ℚ} {rest : List (Candle ℚ)}

/-- The run after its first bar, on which a signal is sent and a position may be opened. -/
def afterFirst (b : Backtester ℚ) (signal : Signal ℚ) (symbol : String) (first : Candle ℚ) :
    Replay ℚ (Except BacktestError Unit) :=
  (b.opened { b.start (.ok ()) with signalsGenerated := 1, signalsValid := 1 } signal symbol
    first).trackEquityAndDrawdown first.close

theorem before_one (hactionable : signal.isActionable = true) :
    b.before (always signal).kept (.ok ()) symbol 0 (first :: rest) 1 =
      (b.afterFirst signal symbol first, .ok ()) := by
  let s : Replay ℚ (Except BacktestError Unit) := b.start (.ok ())
  have hcomes : ComesTo b (always signal).kept (.ok ()) symbol 0 (first :: rest) 0 first s := ⟨le_rfl, rfl, rfl⟩
  have hmoved : b.stopMoved first s = s := rfl
  have hnone : s.currentPosition = none := rfl
  rw [hcomes.before_succ_of_none rfl, turn, hmoved, managePositionOrEntry, hnone]
  simp only [checkEntry, asked_always (rfl : s.strategyState = .ok ()), hactionable, ↓reduceIte]
  rfl

theorem afterFirst_fields :
    let pos := b.openPosition signal first.close b.initialBalance (first.timestamp.getD 0) symbol
    (b.afterFirst signal symbol first).currentPosition = pos ∧
      (b.afterFirst signal symbol first).riskState = b.initRiskState pos ∧
      (b.afterFirst signal symbol first).trades = [] ∧
      (b.afterFirst signal symbol first).balance = b.initialBalance ∧
      (b.afterFirst signal symbol first).strategyState = .ok () :=
  ⟨rfl, rfl, rfl, rfl, rfl⟩

end First

section Last

variable {σ : Type} {b : Backtester ℚ} {candles : List (Candle ℚ)} {last : Candle ℚ} {s : Replay ℚ σ}

theorem trades_finalizeBacktest_of_some {pos : Position ℚ} (hpos : s.currentPosition = some pos)
    (hlast : candles.getLast? = some last) : (b.finalizeBacktest candles s).trades =
      s.trades ++ [(b.closePosition pos last.close .end s.balance (last.timestamp.getD 0)).1] := by
  rw [finalizeBacktest, hpos, hlast]
  rfl

theorem trades_finalizeBacktest_of_none (hpos : s.currentPosition = none) :
    (b.finalizeBacktest candles s).trades = s.trades := by
  rw [finalizeBacktest, hpos]

/-- What the trades of a run over one bar tell of the position. -/
theorem entries_one {signal : Signal ℚ} {symbol : String} :
    ((b.finalizeBacktest [last] (b.afterFirst signal symbol last)).trades.map fun trade =>
        (trade.entryPrice, trade.quantity)) =
      ((b.openPosition signal last.close b.initialBalance (last.timestamp.getD 0) symbol).map fun pos =>
        (pos.entryPrice, pos.quantity)).toList := by
  have hfirst := (@afterFirst_fields b signal symbol last).1
  cases hopen : b.openPosition signal last.close b.initialBalance (last.timestamp.getD 0) symbol with
  | none =>
    rw [hopen] at hfirst
    rw [trades_finalizeBacktest_of_none hfirst]
    rfl
  | some pos =>
    rw [hopen] at hfirst
    rw [trades_finalizeBacktest_of_some hfirst rfl]
    rfl

end Last

end Backtester

namespace Engine

variable {e : Engine ℚ} {root : ℚ → ℚ} {signal : Signal ℚ} {symbol : String} {candles : List (Candle ℚ)}

/-- The backtester as the processes build it. -/
abbrev counterpart (e : Engine ℚ) : Engine ℚ := Engine.rebuilt e.initialBalance e.feePct

/-- Runs of the rebuilt backtester that go through are runs of the backtester itself. -/
def RunsAlike (e : Engine ℚ) (root : ℚ → ℚ) : Prop :=
  ∀ signal symbol candles result, e.counterpart.run root (always signal) () symbol 0 candles = .ok result →
    e.run root (always signal) () symbol 0 candles = .ok result

/-- Without a risk manager all bars go through. -/
theorem exists_before_counterpart (e : Engine ℚ) (signal : Signal ℚ) (symbol : String)
    (candles : List (Candle ℚ)) :
    ∃ s, e.counterpart.before (always signal).kept (.ok ()) symbol 0 candles candles.length = (s, .ok ()) := by
  have hspec : ∃ s, e.counterpart.before (always signal).kept (.ok ()) symbol 0 candles candles.length =
      (s, .ok ()) ∧ True :=
    Backtester.before_spec (fun _ _ => True) (fun _ _ => trivial)
      (fun _ _ _ _ _ => ⟨Backtester.closeAsked_of_config_none rfl, trivial⟩) le_rfl
  obtain ⟨s, hs, -⟩ := hspec
  exact ⟨s, hs⟩

theorem RunsAlike.results (h : RunsAlike e root) (signal : Signal ℚ) (symbol : String) (candles : List (Candle ℚ))
    {s' : Replay ℚ (Except BacktestError Unit)}
    (hs' : e.counterpart.before (always signal).kept (.ok ()) symbol 0 candles candles.length = (s', .ok ())) :
    ∃ s result, e.before (always signal).kept (.ok ()) symbol 0 candles candles.length = (s, .ok ()) ∧
      e.finalizeBacktest candles s = e.counterpart.finalizeBacktest candles s' ∧
      measured root e.candleIntervalMinutes (e.counterpart.finalizeBacktest candles s') = .ok result ∧
      measured root 5 (e.counterpart.finalizeBacktest candles s') = .ok result := by
  have hmeasures : ∃ result, measured root 5 (e.counterpart.finalizeBacktest candles s') = .ok result :=
    exists_measured (by decide)
  obtain ⟨result, hresult⟩ := hmeasures
  have hrun := h signal symbol candles result (run_always_eq_ok_iff.mpr ⟨s', hs', hresult⟩)
  obtain ⟨s, hs, hmeasured⟩ := run_always_eq_ok_iff.mp hrun
  have hsame : e.finalizeBacktest candles s = e.counterpart.finalizeBacktest candles s' := by
    rw [← toBacktestResult_measured hmeasured, ← toBacktestResult_measured hresult]
  rw [hsame] at hmeasured
  exact ⟨s, result, hs, hsame, hmeasured, hresult⟩

theorem RunsAlike.opens (h : RunsAlike e root) (symbol : String) (hactionable : signal.isActionable = true) :
    (e.openPosition signal 1 e.initialBalance 0 symbol).map (fun pos => (pos.entryPrice, pos.quantity)) =
      (e.counterpart.openPosition signal 1 e.initialBalance 0 symbol).map
        fun pos => (pos.entryPrice, pos.quantity) := by
  obtain ⟨s, -, hs, hsame, -, -⟩ := h.results signal symbol [flatCandle 1] (Backtester.before_one hactionable)
  obtain ⟨rfl, -⟩ := Prod.mk.inj ((Backtester.before_one hactionable).symm.trans hs)
  have htrades := congrArg (fun result => result.trades.map fun trade => (trade.entryPrice, trade.quantity)) hsame
  simp only [Backtester.entries_one] at htrades
  have hheads := congrArg List.head? htrades
  rwa [Option.head?_toList, Option.head?_toList] at hheads

theorem RunsAlike.quantities (h : RunsAlike e root) (signal : Signal ℚ) (hactionable : signal.isActionable = true) :
    (0 < e.quantityAt signal (e.fillPrice signal 1) e.initialBalance →
      0 < e.counterpart.quantityAt signal (e.counterpart.fillPrice signal 1) e.initialBalance) ∧
    (0 < e.counterpart.quantityAt signal (e.counterpart.fillPrice signal 1) e.initialBalance →
      e.fillPrice signal 1 = e.counterpart.fillPrice signal 1 ∧
        e.quantityAt signal (e.fillPrice signal 1) e.initialBalance =
          e.counterpart.quantityAt signal (e.counterpart.fillPrice signal 1) e.initialBalance) := by
  have hopens := h.opens "" hactionable
  rw [Backtester.openPosition_eq, Backtester.openPosition_eq] at hopens
  constructor
  · intro hpos
    by_contra hnot
    rw [if_pos hpos, if_neg hnot] at hopens
    cases hopens
  · intro hpos
    by_cases hown : 0 < e.quantityAt signal (e.fillPrice signal 1) e.initialBalance
    · rw [if_pos hown, if_pos hpos] at hopens
      exact Prod.mk.inj (Option.some.inj hopens)
    · rw [if_neg hown, if_pos hpos] at hopens
      cases hopens

end Engine

namespace Backtester

theorem quantityAt_part {b : Backtester ℚ} {direction : SignalDirection} {fill balance times takeProfit : ℚ}
    (hfill : 0 < fill) (htimes : 0 < times) (hbalance : 0 ≤ balance) :
    b.quantityAt ⟨direction, fill - fill / times, takeProfit⟩ fill balance =
      balance / 100 / fill * (times * b.riskPerTradePct ⊓ b.leverage * b.maxPositionPct) := by
  have hrisk : |fill - (fill - fill / times)| = fill / times := by
    rw [sub_sub_cancel, abs_of_pos (div_pos hfill htimes)]
  have hscale : 0 ≤ balance / 100 / fill := by positivity
  rw [quantityAt, hrisk, if_pos hfill, mul_min_of_nonneg _ _ hscale]
  congr 1
  · field_simp
  · ring

end Backtester

namespace Engine

variable {e : Engine ℚ} {root : ℚ → ℚ}

theorem fillPrice_counterpart (stopLoss takeProfit : ℚ) :
    e.counterpart.fillPrice ⟨.long, stopLoss, takeProfit⟩ 1 = 10002 / 10000 := by
  change 1 * (1 + 2 / 10000) = (10002 / 10000 : ℚ)
  norm_num

/-- The first trades tell the slippage, the risk of a trade and the greatest position. -/
theorem RunsAlike.sizes (h : RunsAlike e root) (hbalance : 0 < e.initialBalance) :
    e.slippageBps = 2 ∧ e.riskPerTradePct = 2 ∧ e.leverage * e.maxPositionPct = 10 := by
  have hfill : (0 : ℚ) < 10002 / 10000 := by norm_num
  have hlimits : e.counterpart.riskPerTradePct = 2 ∧
      (e.counterpart.leverage : ℚ) * e.counterpart.maxPositionPct = 10 := by
    constructor
    · rfl
    · norm_num [counterpart, Engine.rebuilt, Engine.default, Backtester.default]
  have hsized (times : ℚ) (htimes : 0 < times) :
      e.fillPrice ⟨.long, 10002 / 10000 - 10002 / 10000 / times, 0⟩ 1 = 10002 / 10000 ∧
        times * e.riskPerTradePct ⊓ e.leverage * e.maxPositionPct = times * 2 ⊓ 10 := by
    have hscale : 0 < e.initialBalance / 100 / (10002 / 10000) := by positivity
    have hquantity : e.counterpart.quantityAt ⟨.long, 10002 / 10000 - 10002 / 10000 / times, 0⟩ (10002 / 10000)
        e.initialBalance = e.initialBalance / 100 / (10002 / 10000) * (times * 2 ⊓ 10) := by
      rw [Backtester.quantityAt_part hfill htimes hbalance.le, hlimits.1, hlimits.2]
    have hsame := (h.quantities ⟨.long, 10002 / 10000 - 10002 / 10000 / times, 0⟩ rfl).2
    rw [fillPrice_counterpart, hquantity] at hsame
    obtain ⟨hprice, hamount⟩ := hsame (mul_pos hscale (lt_inf_iff.mpr ⟨by positivity, by norm_num⟩))
    rw [hprice, Backtester.quantityAt_part hfill htimes hbalance.le] at hamount
    exact ⟨hprice, mul_left_cancel₀ hscale.ne' hamount⟩
  obtain ⟨hprice, hone⟩ := hsized 1 one_pos
  obtain ⟨-, hten⟩ := hsized 10 (by norm_num)
  have hslippage : 1 * (1 + e.slippageBps / 10000) = (10002 / 10000 : ℚ) := hprice
  rw [one_mul, one_mul, inf_eq_left.mpr (by norm_num : (2 : ℚ) ≤ 10)] at hone
  rw [inf_eq_right.mpr (by norm_num : (10 : ℚ) ≤ 10 * 2)] at hten
  have hposition : 10 ≤ e.leverage * e.maxPositionPct := hten.symm.le.trans inf_le_right
  -- At a tenth of the price the greatest position limits the quantity, so at the price the risk does.
  have hrisk : e.riskPerTradePct = 2 := by
    rcases le_total e.riskPerTradePct (e.leverage * e.maxPositionPct) with hle | hle
    · rwa [inf_eq_left.mpr hle] at hone
    · rw [inf_eq_right.mpr hle] at hone
      linarith
  refine ⟨by linarith, hrisk, ?_⟩
  rw [hrisk] at hten
  rcases le_total (10 * 2 : ℚ) (e.leverage * e.maxPositionPct) with hle | hle
  · rw [inf_eq_left.mpr hle] at hten
    norm_num at hten
  · rwa [inf_eq_right.mpr hle] at hten

/-- A balance that is not positive tells whether a position can be opened. -/
theorem RunsAlike.idle (h : RunsAlike e root) (hbalance : e.initialBalance ≤ 0) :
    e.initialBalance * e.riskPerTradePct ≤ 0 ∨ e.initialBalance * (e.leverage * e.maxPositionPct) ≤ 0 := by
  by_contra hboth
  obtain ⟨hrisk, hposition⟩ := not_or.mp hboth
  rw [not_le] at hrisk hposition
  -- With any slippage one of the two sides is filled at a positive price.
  obtain ⟨direction, hactionable, hfill⟩ : ∃ direction : SignalDirection,
      (⟨direction, 0, 0⟩ : Signal ℚ).isActionable = true ∧ 0 < e.fillPrice ⟨direction, 0, 0⟩ 1 := by
    rcases lt_or_ge (-10000) e.slippageBps with hslippage | hslippage
    · refine ⟨.long, rfl, ?_⟩
      change 0 < 1 * (1 + e.slippageBps / 10000)
      linarith
    · refine ⟨.short, rfl, ?_⟩
      change 0 < 1 * (1 - e.slippageBps / 10000)
      linarith
  have hquantity : 0 < e.quantityAt ⟨direction, 0, 0⟩ (e.fillPrice ⟨direction, 0, 0⟩ 1) e.initialBalance := by
    rw [Backtester.quantityAt, if_pos hfill, sub_zero, abs_of_pos hfill]
    exact lt_inf_iff.mpr ⟨by positivity, by positivity⟩
  have hrebuilt := (h.quantities ⟨direction, 0, 0⟩ hactionable).1 hquantity
  exact absurd hrebuilt (not_lt.mpr (Backtester.quantityAt_nonpos _ _
    (.inl (mul_nonpos_of_nonpos_of_nonneg hbalance zero_le_two))))

end Engine

namespace Backtester

/-! ### A second bar -/

section Second

variable {b : Backtester ℚ} {signal : Signal ℚ} {symbol : String} {window : List (Candle ℚ)}
  {candle : Candle ℚ} {s : Replay ℚ (Except BacktestError Unit)} {pos : Position ℚ}

/-- A run on a bar on which its position is kept. -/
def held (s : Replay ℚ (Except BacktestError Unit)) (signal : Signal ℚ) (candle : Candle ℚ) :
    Replay ℚ (Except BacktestError Unit) :=
  { s with
    signalsGenerated := s.signalsGenerated + 1
    signalsValid := if signal.isActionable then s.signalsValid + 1 else s.signalsValid
    : Replay ℚ (Except BacktestError Unit) }.trackEquityAndDrawdown candle.close

/-- The same signal again and a bar that meets neither the stop nor the target keep a position. -/
theorem turn_held (hstate : (b.stopMoved candle s).strategyState = .ok ())
    (hpos : (b.stopMoved candle s).currentPosition = some pos) (hmiss : checkSlTp pos candle = none)
    (hside : pos.side = signal.direction) :
    b.turn (always signal).kept symbol window candle s = held (b.stopMoved candle s) signal candle := by
  have hreverses : ¬ (pos.side = .long ∧ signal.direction = .short ∨
      pos.side = .short ∧ signal.direction = .long) := by
    rw [hside]
    cases signal.direction <;> simp
  rw [turn, managePositionOrEntry, hpos]
  dsimp only
  rw [hmiss]
  simp only [handleSignalReversal, asked_always hstate, if_neg hreverses]
  rfl

/-- A stop that is met closes the position. -/
theorem turn_hit (hpos : (b.stopMoved candle s).currentPosition = some pos) {exitPrice : ℚ}
    (hhit : checkSlTp pos candle = some (.stopLoss, exitPrice)) (htrades : s.trades = []) :
    (b.turn (always signal).kept symbol window candle s).currentPosition = none ∧
      (b.turn (always signal).kept symbol window candle s).trades.map (·.exitReason) = [.stopLoss] := by
  have hmoved : (b.stopMoved candle s).trades = [] := by
    rw [stopMoved]
    cases b.riskUpdate candle s <;> exact htrades
  have hturn : b.turn (always signal).kept symbol window candle s =
      (b.closed (b.stopMoved candle s) pos exitPrice .stopLoss candle).trackEquityAndDrawdown candle.close := by
    rw [turn, managePositionOrEntry, hpos]
    dsimp only
    rw [hhit]
  rw [hturn]
  refine ⟨rfl, ?_⟩
  change ((b.stopMoved candle s).trades ++ _).map _ = _
  rw [hmoved]
  rfl

end Second

section TwoBars

variable {b : Backtester ℚ} {signal : Signal ℚ} {symbol : String} {first second : Candle ℚ}

theorem before_two (hactionable : signal.isActionable = true)
    (hclose : b.closeAsked second (b.afterFirst signal symbol first) = none) :
    b.before (always signal).kept (.ok ()) symbol 0 [first, second] 2 =
      (b.turn (always signal).kept symbol (window 0 [first, second] 1) second
        (b.afterFirst signal symbol first), .ok ()) := by
  have hcomes : ComesTo b (always signal).kept (.ok ()) symbol 0 [first, second] 1 second
      (b.afterFirst signal symbol first) :=
    ⟨Nat.zero_le 1, rfl, before_one hactionable⟩
  exact hcomes.before_succ_of_none hclose

theorem before_two_of_closeAsked (hactionable : signal.isActionable = true) {reason : ExitReason}
    (hclose : b.closeAsked second (b.afterFirst signal symbol first) = some reason) :
    (b.before (always signal).kept (.ok ()) symbol 0 [first, second] 2).2 = .error .attributeError := by
  have hcomes : ComesTo b (always signal).kept (.ok ()) symbol 0 [first, second] 1 second
      (b.afterFirst signal symbol first) :=
    ⟨Nat.zero_le 1, rfl, before_one hactionable⟩
  exact hcomes.before_succ_of_some hclose

/-- Without a risk manager the second bar keeps a position whose stop and target it does not meet. -/
theorem before_two_held (hconfig : b.riskConfig = none) (hactionable : signal.isActionable = true)
    {pos : Position ℚ}
    (hopen : b.openPosition signal first.close b.initialBalance (first.timestamp.getD 0) symbol = some pos)
    (hmiss : checkSlTp pos second = none) (hside : pos.side = signal.direction) :
    b.before (always signal).kept (.ok ()) symbol 0 [first, second] 2 =
      (held (b.afterFirst signal symbol first) signal second, .ok ()) := by
  have hmoved : b.stopMoved second (b.afterFirst signal symbol first) = b.afterFirst signal symbol first :=
    stopMoved_of_config_none hconfig
  rw [before_two hactionable (closeAsked_of_config_none hconfig)]
  rw [turn_held (by rw [hmoved]; rfl) (by rw [hmoved]; exact hopen) hmiss hside, hmoved]

end TwoBars

/-- A position without a stop and a target is not closed by them. -/
theorem checkSlTp_off {pos : Position ℚ} (hstop : pos.stopLoss = 0) (htarget : pos.takeProfit = 0)
    (candle : Candle ℚ) : checkSlTp pos candle = none := by
  simp [checkSlTp, hstop, htarget]

/-- A position is the one that a signal opens at a price. -/
structure Opened (b : Backtester ℚ) (signal : Signal ℚ) (price : ℚ) (pos : Position ℚ) : Prop where
  side : pos.side = signal.direction
  entryPrice : pos.entryPrice = b.fillPrice signal price
  quantity : 0 < pos.quantity
  stopLoss : pos.stopLoss = signal.stopLoss
  takeProfit : pos.takeProfit = signal.takeProfit
  fee : pos.fee = pos.entryPrice * pos.quantity * b.feePct / 100

/-- With a positive balance and positive limits a signal away from its stop opens a position. -/
theorem exists_opened {b : Backtester ℚ} {signal : Signal ℚ} {price balance : ℚ}
    (hfill : 0 < b.fillPrice signal price) (hrisk : b.fillPrice signal price ≠ signal.stopLoss)
    (hbalance : 0 < balance) (hrate : 0 < b.riskPerTradePct) (hposition : 0 < b.leverage * b.maxPositionPct)
    (timestamp : ℤ) (symbol : String) :
    ∃ pos, b.openPosition signal price balance timestamp symbol = some pos ∧ Opened b signal price pos := by
  have hquantity : 0 < b.quantityAt signal (b.fillPrice signal price) balance := by
    rw [quantityAt, if_pos hfill]
    exact lt_inf_iff.mpr ⟨by positivity, by positivity⟩
  rw [openPosition_eq, if_pos hquantity]
  exact ⟨_, rfl, rfl, rfl, hquantity, rfl, rfl, rfl⟩

section Opened

variable {b : Backtester ℚ} {candles : List (Candle ℚ)} {last : Candle ℚ} {pos : Position ℚ}
  {s : Replay ℚ (Except BacktestError Unit)}

theorem maxDrawdownPct_finalizeBacktest : (b.finalizeBacktest candles s).maxDrawdownPct = s.maxDrawdownPct := by
  rw [finalizeBacktest]
  cases s.currentPosition <;> cases candles.getLast? <;> rfl

theorem totalReturnPct_finalizeBacktest (hpos : s.currentPosition = some pos)
    (hlast : candles.getLast? = some last) (hbalance : 0 < b.initialBalance) :
    (b.finalizeBacktest candles s).totalReturnPct =
      ((b.closePosition pos last.close .end s.balance (last.timestamp.getD 0)).2 - b.initialBalance) /
        b.initialBalance * 100 := by
  have hpositive : lt (lit 0) b.initialBalance = true := lt_rat.mpr hbalance
  rw [finalizeBacktest, hpos, hlast]
  exact if_pos hpositive

theorem maxDrawdownPct_afterFirst {signal : Signal ℚ} {symbol : String} {first : Candle ℚ}
    (hopen : b.openPosition signal first.close b.initialBalance (first.timestamp.getD 0) symbol = some pos)
    (hside : pos.side = .long) (hprice : first.close < pos.entryPrice) (hquantity : 0 < pos.quantity)
    (hbalance : 0 < b.initialBalance) : 0 < (b.afterFirst signal symbol first).maxDrawdownPct := by
  have hequity : trackEquity (some pos) b.initialBalance first.close < b.initialBalance := by
    rw [trackEquity, if_pos hside]
    exact add_lt_of_neg_right _ (mul_neg_of_neg_of_pos (sub_neg.mpr hprice) hquantity)
  have hpeak : FloatOps.max b.initialBalance (trackEquity (some pos) b.initialBalance first.close) =
      b.initialBalance := by
    rw [max_rat]
    exact sup_eq_left.mpr hequity.le
  have hpositive : lt (lit 0) b.initialBalance = true := lt_rat.mpr hbalance
  have hfields : (b.afterFirst signal symbol first).maxDrawdownPct =
      FloatOps.max (lit 0) ((b.initialBalance - trackEquity (some pos) b.initialBalance first.close) /
        b.initialBalance * lit 100) := by
    simp only [afterFirst, Replay.trackEquityAndDrawdown, Replay.updateDrawdown, opened, start, hopen, hpeak,
      hpositive, ↓reduceIte]
  rw [hfields, max_rat, lt_sup_iff]
  right
  rw [lit_rat]
  positivity

end Opened

end Backtester

namespace Engine

variable {e : Engine ℚ} {root : ℚ → ℚ}

theorem exists_opened_counterpart {signal : Signal ℚ} (hbalance : 0 < e.initialBalance)
    (hfill : 0 < e.counterpart.fillPrice signal 1) (hrisk : e.counterpart.fillPrice signal 1 ≠ signal.stopLoss) :
    ∃ pos, e.counterpart.openPosition signal 1 e.initialBalance 0 "" = some pos ∧
      Backtester.Opened e.counterpart.toBacktester signal 1 pos := by
  refine Backtester.exists_opened hfill hrisk hbalance two_pos ?_ 0 ""
  norm_num [counterpart, Engine.rebuilt, Engine.default, Backtester.default]

/-- A long position without a stop and a target is kept over any second bar, and one of two closes ends it with
a profit or a loss. -/
theorem RunsAlike.interval (h : RunsAlike e root) (hbalance : 0 < e.initialBalance) :
    e.candleIntervalMinutes = 5 := by
  have hfill := @fillPrice_counterpart e 0 0
  obtain ⟨pos, hopen, hopened⟩ : ∃ pos, e.counterpart.openPosition ⟨.long, 0, 0⟩ 1 e.initialBalance 0 "" = some pos ∧
      Backtester.Opened e.counterpart.toBacktester ⟨.long, 0, 0⟩ 1 pos :=
    exists_opened_counterpart hbalance (by rw [hfill]; norm_num) (by rw [hfill]; norm_num)
  have hentry : pos.entryPrice = 10002 / 10000 := hopened.entryPrice.trans hfill
  have hquantity := hopened.quantity
  have hfee := hopened.fee
  obtain ⟨close, hprofit⟩ : ∃ close,
      (e.counterpart.closePosition pos close .end e.initialBalance 0).2 - e.initialBalance ≠ 0 := by
    have hvalue (close : ℚ) : (e.counterpart.closePosition pos close .end e.initialBalance 0).2 - e.initialBalance =
        pos.quantity * (close * (9998 / 10000) * (1 - e.feePct / 100) -
          10002 / 10000 * (1 + e.feePct / 100)) := by
      have hsettings : e.counterpart.slippageBps = 2 ∧ e.counterpart.feePct = e.feePct := ⟨rfl, rfl⟩
      simp only [Backtester.closePosition, hopened.side, hentry, hfee, hsettings, lit_rat, ↓reduceIte]
      ring
    by_contra hnone
    have hzero (close : ℚ) : close * (9998 / 10000) * (1 - e.feePct / 100) -
        10002 / 10000 * (1 + e.feePct / 100) = 0 := by
      by_contra hne
      exact hnone ⟨close, by rw [hvalue]; exact mul_ne_zero hquantity.ne' hne⟩
    have hone := hzero 1
    have htwo := hzero 2
    linarith
  have hfirst : 0 < (e.counterpart.afterFirst ⟨.long, 0, 0⟩ "" (flatCandle 1)).maxDrawdownPct :=
    Backtester.maxDrawdownPct_afterFirst hopen hopened.side (by rw [hentry]; norm_num [flatCandle]) hquantity
      hbalance
  have hmiss := Backtester.checkSlTp_off hopened.stopLoss hopened.takeProfit (flatCandle close)
  obtain ⟨s, result, -, -, hmeasured, hmeasured'⟩ := h.results ⟨.long, 0, 0⟩ "" [flatCandle 1, flatCandle close]
    (Backtester.before_two_held rfl rfl hopen hmiss hopened.side)
  refine interval_eq_of_measured hmeasured hmeasured' ?_ ?_ ?_
  · rw [(Backtester.finalizeBacktest_appends _ _ _).1]
    exact Nat.lt_of_lt_of_eq (by decide : 1 < 3) rfl
  · rw [Backtester.maxDrawdownPct_finalizeBacktest]
    refine hfirst.trans_le ?_
    change _ ≤ FloatOps.max _ _
    rw [max_rat]
    exact le_sup_left
  · have hlast : (Backtester.held (e.counterpart.afterFirst ⟨.long, 0, 0⟩ "" (flatCandle 1)) ⟨.long, 0, 0⟩
        (flatCandle close)).currentPosition = some pos := hopen
    have hpositive : 0 < e.counterpart.initialBalance := hbalance
    rw [Backtester.totalReturnPct_finalizeBacktest hlast rfl hpositive]
    exact mul_ne_zero (div_ne_zero hprofit hbalance.ne') (by norm_num)

end Engine

end TradingSim.Backtest
