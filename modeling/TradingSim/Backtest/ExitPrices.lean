import TradingSim.Backtest.StopTiming

/-!
# The prices at which a backtest exits

A bar closes a position at the stop or the target that it reaches, or at its own close. A level that it
reaches need not be a price of the bar: only one side of the bar is compared with it, so a bar that lies
wholly beyond a level is filled at the level all the same.
-/

namespace TradingSim.Backtest.Backtester

open Foundations
open FloatOps
open RawOrders (PyException)

variable {F σ : Type} [FloatOps F]

section Trace

/-- How a position is closed: its stop as it is then, the reason, and the price before slippage. -/
structure Exit (F : Type) where
  pos : Position F
  reason : ExitReason
  exitPrice : F

def Exit.trade (b : Backtester F) (exit : Exit F) (balance : F) (candle : Candle F) : Trade F :=
  (b.closePosition exit.pos exit.exitPrice exit.reason balance (candle.timestamp.getD 0)).1

/-- The exit on a bar. -/
def exit (b : Backtester F) (strategy : Strategy F σ) (symbol : String) (window : List (Candle F))
    (candle : Candle F) (s : Replay F σ) : Option (Exit F) :=
  (b.stopMoved candle s).currentPosition.bind fun pos =>
    match b.closeAsked candle s with
    | some reason => some ⟨pos, reason, candle.close⟩
    | none =>
      match checkSlTp pos candle with
      | some (reason, exitPrice) => some ⟨pos, reason, exitPrice⟩
      | none =>
        if Reverses pos (asked strategy symbol window (b.stopMoved candle s)).1 then
          some ⟨pos, .signalExit, candle.close⟩
        else none

variable {b : Backtester F} {strategy : Strategy F σ} {strategyState : σ} {symbol : String} {warmup : ℕ}
  {candles : List (Candle F)} {candle : Candle F} {s : Replay F σ} {i : ℕ}

theorem stopMoved_keeps (candle : Candle F) (s : Replay F σ) :
    (b.stopMoved candle s).trades = s.trades ∧ (b.stopMoved candle s).balance = s.balance := by
  rw [stopMoved]
  split
  · exact ⟨rfl, rfl⟩
  · exact ⟨rfl, rfl⟩

theorem trades_turn (hclose : b.closeAsked candle s = none) (window : List (Candle F)) :
    (b.turn strategy symbol window candle s).trades =
      s.trades ++ ((b.exit strategy symbol window candle s).map
        fun exit => exit.trade b s.balance candle).toList := by
  obtain ⟨htrades, hbalance⟩ := @stopMoved_keeps F σ _ b candle s
  have hmanaged := b.managed strategy symbol window candle (b.stopMoved candle s)
  have hturn : (b.turn strategy symbol window candle s).trades =
      (b.managePositionOrEntry strategy symbol window candle (b.stopMoved candle s)).trades := rfl
  rw [hturn, exit, hclose, ← htrades, ← hbalance]
  generalize b.managePositionOrEntry strategy symbol window candle (b.stopMoved candle s) = managed
    at hmanaged ⊢
  cases hmanaged with
  | hit pos reason exitPrice hpos hhit =>
    simp only [hpos, hhit, Option.bind_some, Option.map_some]
    rfl
  | reversed pos signal s' hpos hhit hasked hreverses =>
    obtain ⟨-, -, hbalance', htrades'⟩ := asked_keeps hasked
    simp only [hpos, hhit, hasked, hreverses, if_true, Option.bind_some, Option.map_some]
    rw [← htrades', ← hbalance']
    rfl
  | kept pos signal s' hpos hhit hasked hkept =>
    simp [hpos, hhit, hasked, hkept, (asked_keeps hasked).2.2.2]
  | entered signal s' hpos hasked _ =>
    simp [hpos, opened, (asked_keeps hasked).2.2.2]
  | idle signal s' hpos hasked =>
    simp [hpos, (asked_keeps hasked).2.2.2]

theorem trades_bar (hcandle : candles[i]? = some candle) (s : Replay F σ) :
    (b.bar strategy symbol warmup candles i s).1.trades =
      s.trades ++ ((b.exit strategy symbol (window warmup candles i) candle s).map
        fun exit => exit.trade b s.balance candle).toList := by
  rw [bar, hcandle]
  cases hclose : b.closeAsked candle s with
  | some reason =>
    obtain ⟨pos, hpos, hupdate⟩ := processRiskUpdate_of_some hclose
    simp only [Action.bind_apply, hupdate, exit, hpos, hclose, Option.bind_some, Option.map_some]
    rfl
  | none =>
    rw [← trades_turn hclose]
    simp only [Action.bind_apply, processRiskUpdate_of_none hclose]
    rfl

/-- A run records a trade on a bar, exited at a price before slippage. -/
inductive RecordedOn (b : Backtester F) (strategy : Strategy F σ) (strategyState : σ) (symbol : String)
    (warmup : ℕ) (candles : List (Candle F)) : Candle F → Trade F → F → Prop
  | bar (i : ℕ) (candle : Candle F) (s : Replay F σ) (exit : Exit F) :
      ComesTo b strategy strategyState symbol warmup candles i candle s →
      b.exit strategy symbol (window warmup candles i) candle s = some exit →
        RecordedOn b strategy strategyState symbol warmup candles candle
          (exit.trade b s.balance candle) exit.exitPrice
  | «end» (s : Replay F σ) (pos : Position F) (last : Candle F) :
      b.before strategy strategyState symbol warmup candles candles.length = (s, .ok ()) →
      s.currentPosition = some pos → candles.getLast? = some last →
        RecordedOn b strategy strategyState symbol warmup candles last
          (Exit.trade b ⟨pos, .end, last.close⟩ s.balance last) last.close

/-- The trades that a run has recorded when it returns or raises. -/
def recorded (b : Backtester F) (strategy : Strategy F σ) (strategyState : σ) (symbol : String)
    (warmup : ℕ) (candles : List (Candle F)) : List (Trade F) :=
  match b.before strategy strategyState symbol warmup candles candles.length with
  | (s, .ok ()) => (b.finalizeBacktest candles s).trades
  | (s, .error _) => s.trades

/-- The trades of a run that comes to a bar are those of the exits on the bars before. -/
theorem mem_trades_before {j : ℕ} (hj : j ≤ candles.length) {trade : Trade F} :
    trade ∈ (b.before strategy strategyState symbol warmup candles j).1.trades ↔
      ∃ i candle s exit, i < j ∧ ComesTo b strategy strategyState symbol warmup candles i candle s ∧
        b.exit strategy symbol (window warmup candles i) candle s = some exit ∧
        trade = exit.trade b s.balance candle := by
  induction j with
  | zero => simp [before, start, Action.pure_apply]
  | succ j ih =>
    have hbefore := ih (Nat.le_of_succ_le hj)
    by_cases hwarm : warmup ≤ j
    · have hcandle := List.getElem?_eq_getElem hj
      have hstep := before_succ b strategy strategyState symbol candles hwarm
      cases hran : b.before strategy strategyState symbol warmup candles j with
      | mk s result =>
        rw [hran] at hstep hbefore
        cases result with
        | error e =>
          rw [hstep, hbefore]
          constructor
          · rintro ⟨i, candle, s', exit, hi, h, hexit⟩
            exact ⟨i, candle, s', exit, hi.trans (Nat.lt_succ_self j), h, hexit⟩
          · rintro ⟨i, candle, s', exit, hi, h, hexit⟩
            obtain hi | rfl := Nat.lt_succ_iff_lt_or_eq.mp hi
            · exact ⟨i, candle, s', exit, hi, h, hexit⟩
            · cases h.state.symm.trans hran
        | ok a =>
          have hcomes : ComesTo b strategy strategyState symbol warmup candles j candles[j] s :=
            ⟨hwarm, hcandle, hran⟩
          rw [hstep, trades_bar hcandle, List.mem_append, hbefore]
          simp only [Option.mem_toList, Option.map_eq_some_iff]
          constructor
          · rintro (⟨i, candle, s', exit, hi, h, hexit⟩ | ⟨exit, hexit, rfl⟩)
            · exact ⟨i, candle, s', exit, hi.trans (Nat.lt_succ_self j), h, hexit⟩
            · exact ⟨j, candles[j], s, exit, Nat.lt_succ_self j, hcomes, hexit, rfl⟩
          · rintro ⟨i, candle, s', exit, hi, h, hexit, rfl⟩
            obtain hi | rfl := Nat.lt_succ_iff_lt_or_eq.mp hi
            · exact Or.inl ⟨i, candle, s', exit, hi, h, hexit, rfl⟩
            · obtain rfl := Option.some.inj (h.candle.symm.trans hcandle)
              obtain ⟨rfl, -⟩ := Prod.mk.inj (h.state.symm.trans hran)
              exact Or.inr ⟨exit, hexit, rfl⟩
    · have hnone : j + 1 - warmup = 0 := by omega
      simp only [before, hnone, List.range'_zero, List.foldlM_nil, Action.pure_apply, start,
        List.not_mem_nil, false_iff, not_exists, not_and]
      intro i candle s exit hi h
      have hwarm' := h.warm
      omega

/-- The end of the data closes a position at the last close. -/
theorem mem_trades_finalizeBacktest {trade : Trade F} : trade ∈ (b.finalizeBacktest candles s).trades ↔
      trade ∈ s.trades ∨ ∃ pos last, s.currentPosition = some pos ∧ candles.getLast? = some last ∧
        trade = Exit.trade b ⟨pos, .end, last.close⟩ s.balance last := by
  unfold finalizeBacktest
  cases hpos : s.currentPosition with
  | none => simp
  | some pos =>
    cases hlast : candles.getLast? with
    | none => simp
    | some last =>
      simp only [closed, List.mem_append, List.mem_singleton, Option.some.injEq, exists_and_left,
        exists_eq_left']
      rfl

theorem mem_recorded_iff {trade : Trade F} :
    trade ∈ b.recorded strategy strategyState symbol warmup candles ↔ ∃ candle exitPrice,
        RecordedOn b strategy strategyState symbol warmup candles candle trade exitPrice := by
  have hbefore := @mem_trades_before F σ _ b strategy strategyState symbol warmup candles
    candles.length le_rfl trade
  rw [recorded]
  constructor
  · intro hmem
    cases hran : b.before strategy strategyState symbol warmup candles candles.length with
    | mk s result =>
      rw [hran] at hmem hbefore
      cases result with
      | error e =>
        obtain ⟨i, candle, s', exit, -, h, hexit, rfl⟩ := hbefore.mp hmem
        exact ⟨candle, exit.exitPrice, .bar i candle s' exit h hexit⟩
      | ok a =>
        obtain hmem | ⟨pos, last, hpos, hlast, rfl⟩ := mem_trades_finalizeBacktest.mp hmem
        · obtain ⟨i, candle, s', exit, -, h, hexit, rfl⟩ := hbefore.mp hmem
          exact ⟨candle, exit.exitPrice, .bar i candle s' exit h hexit⟩
        · exact ⟨last, last.close, .end s pos last hran hpos hlast⟩
  · rintro ⟨candle, exitPrice, hrecorded⟩
    cases hrecorded with
    | bar i candle s' exit h hexit =>
      have hlt : i < candles.length := (List.getElem?_eq_some_iff.mp h.candle).1
      have hmem := hbefore.mpr ⟨i, candle, s', exit, hlt, h, hexit, rfl⟩
      generalize b.before strategy strategyState symbol warmup candles candles.length = ran at hmem ⊢
      obtain ⟨s, e | a⟩ := ran
      · exact hmem
      · exact mem_trades_finalizeBacktest.mpr (Or.inl hmem)
    | «end» s pos last hran hpos hlast =>
      rw [hran]
      exact mem_trades_finalizeBacktest.mpr (Or.inr ⟨pos, _, hpos, hlast, rfl⟩)

end Trace

section Exact

variable {b : Backtester ℚ} {strategy : Strategy ℚ σ} {strategyState : σ} {symbol : String} {warmup : ℕ}
  {candles : List (Candle ℚ)} {candle : Candle ℚ} {s : Replay ℚ σ} {pos : Position ℚ} {stop : ℚ}

/-- A bar reaches a stop: at its low for a long position, at its high for a short one. -/
def ReachesStop (candle : Candle ℚ) (side : SignalDirection) (stop : ℚ) : Prop :=
  0 < stop ∧ if side = .long then candle.low ≤ stop else stop ≤ candle.high

/-- A bar reaches a target: at its high for a long position, at its low for a short one. -/
def ReachesTarget (candle : Candle ℚ) (side : SignalDirection) (target : ℚ) : Prop :=
  0 < target ∧ if side = .long then target ≤ candle.high else candle.low ≤ target

/-- A bar has gone through a stop: it lies wholly on the far side. -/
def GapsStop (candle : Candle ℚ) (side : SignalDirection) (stop : ℚ) : Prop :=
  0 < stop ∧ if side = .long then candle.high < stop else stop < candle.low

/-- A bar has gone through a target: it lies wholly on the far side. -/
def GapsTarget (candle : Candle ℚ) (side : SignalDirection) (target : ℚ) : Prop :=
  0 < target ∧ if side = .long then target < candle.low else candle.high < target

/-- A bar has gone through the stop, or through the target without reaching the stop. -/
def Gaps (candle : Candle ℚ) (side : SignalDirection) (stop target : ℚ) : Prop :=
  GapsStop candle side stop ∨ ¬ ReachesStop candle side stop ∧ GapsTarget candle side target

instance : Decidable (ReachesStop candle pos.side stop) := inferInstanceAs (Decidable (_ ∧ _))

instance : Decidable (ReachesTarget candle pos.side stop) := inferInstanceAs (Decidable (_ ∧ _))

theorem checkSlTp_eq (pos : Position ℚ) (candle : Candle ℚ) : checkSlTp pos candle =
      if ReachesStop candle pos.side pos.stopLoss then some (.stopLoss, pos.stopLoss)
      else if ReachesTarget candle pos.side pos.takeProfit then some (.takeProfit, pos.takeProfit)
      else none := by
  by_cases hside : pos.side = .long
  · simp [checkSlTp, ReachesStop, ReachesTarget, hside]
  · simp [checkSlTp, ReachesStop, ReachesTarget, hside]

/-- What a bar gaps through it also reaches, and fills outside of its range. -/
theorem within_stop_iff (side : SignalDirection) (hreaches : ReachesStop candle side stop) :
    candle.low ≤ stop ∧ stop ≤ candle.high ↔ ¬ GapsStop candle side stop := by
  obtain ⟨hpos, hside⟩ := hreaches
  rw [GapsStop]
  split_ifs at hside ⊢ with hlong
  · simp [hpos, hside]
  · simp [hpos, hside]

theorem within_target_iff {target : ℚ} (side : SignalDirection)
    (hreaches : ReachesTarget candle side target) :
    candle.low ≤ target ∧ target ≤ candle.high ↔ ¬ GapsTarget candle side target := by
  obtain ⟨hpos, hside⟩ := hreaches
  rw [GapsTarget]
  split_ifs at hside ⊢ with hlong
  · simp [hpos, hside]
  · simp [hpos, hside]

theorem GapsStop.reaches {side : SignalDirection} (hrange : candle.low ≤ candle.high)
    (h : GapsStop candle side stop) : ReachesStop candle side stop := by
  obtain ⟨hpos, hside⟩ := h
  refine ⟨hpos, ?_⟩
  split_ifs at hside ⊢
  · exact hrange.trans hside.le
  · exact hside.le.trans hrange

theorem GapsTarget.reaches {side : SignalDirection} {target : ℚ} (hrange : candle.low ≤ candle.high)
    (h : GapsTarget candle side target) : ReachesTarget candle side target := by
  obtain ⟨hpos, hside⟩ := h
  refine ⟨hpos, ?_⟩
  split_ifs at hside ⊢
  · exact hside.le.trans hrange
  · exact hrange.trans hside.le

/-- The stop and the target are filled within the bar exactly when it does not gap through them. -/
theorem checkSlTp_within_iff (hrange : candle.low ≤ candle.high) :
    (∀ reason exitPrice, checkSlTp pos candle = some (reason, exitPrice) →
        candle.low ≤ exitPrice ∧ exitPrice ≤ candle.high) ↔
      ¬ Gaps candle pos.side pos.stopLoss pos.takeProfit := by
  rw [checkSlTp_eq]
  by_cases hstop : ReachesStop candle pos.side pos.stopLoss
  · simp [hstop, Gaps, within_stop_iff pos.side hstop]
  · have hnogap : ¬ GapsStop candle pos.side pos.stopLoss := fun hgap => hstop (hgap.reaches hrange)
    by_cases htarget : ReachesTarget candle pos.side pos.takeProfit
    · simp [hstop, htarget, Gaps, hnogap, within_target_iff pos.side htarget]
    · have hnogap' : ¬ GapsTarget candle pos.side pos.takeProfit :=
        fun hgap => htarget (hgap.reaches hrange)
      simp [hstop, htarget, Gaps, hnogap, hnogap']

/-- The stop that a bar is tried against: the one that the risk manager moves it to, or the present one. -/
def StopInForce (b : Backtester ℚ) (candle : Candle ℚ) (s : Replay ℚ σ) (pos : Position ℚ) (stop : ℚ) :
    Prop :=
  match b.riskConfig, s.riskState with
  | some config, some state =>
    ¬ RiskManager.HeldTooLong config state ∧
      (RiskManager.MovesTo config state candle stop ∨
        stop = pos.stopLoss ∧
          ∀ level, RiskManager.Offers config state candle level → ¬ RiskManager.Tighter state level)
  | _, _ => stop = pos.stopLoss

theorem withStop_inj {stop' : ℚ} :
    ({ pos with stopLoss := stop } : Position ℚ) = { pos with stopLoss := stop' } ↔ stop = stop' := by
  constructor
  · intro hsame
    exact congrArg Position.stopLoss hsame
  · rintro rfl
    rfl

theorem stopInForce_iff (hpos : s.currentPosition = some pos) : StopInForce b candle s pos stop ↔
      b.closeAsked candle s = none ∧
        (b.stopMoved candle s).currentPosition = some { pos with stopLoss := stop } := by
  have hkept : b.riskUpdate candle s = none →
      (stop = pos.stopLoss ↔ b.closeAsked candle s = none ∧
        (b.stopMoved candle s).currentPosition = some { pos with stopLoss := stop }) := by
    intro hnone
    rw [closeAsked, stopMoved, hnone]
    simp only [Option.bind_none, hpos, Option.some.injEq, true_and]
    rw [eq_comm]
    exact withStop_inj.symm
  cases hconfig : b.riskConfig with
  | none => simpa [StopInForce, hconfig] using hkept (by simp [riskUpdate, hconfig])
  | some config =>
    cases hstate : s.riskState with
    | none => simpa [StopInForce, hconfig, hstate] using hkept (by simp [riskUpdate, hstate])
    | some state =>
      have hanswers := RiskManager.update_answers config state candle
      have hupdate := riskUpdate_of_some hpos hconfig hstate candle
      rw [StopInForce, hconfig, hstate, closeAsked_of_some hpos hconfig hstate, stopMoved, hupdate]
      by_cases hheld : RiskManager.HeldTooLong config state
      · simp [hheld]
      · simp only [hheld, not_false_eq_true, true_and, if_false, ← hanswers.newStopLoss_eq_some_iff,
          ← hanswers.newStopLoss_eq_none_iff, Option.some.injEq, withStop_inj]
        cases hnew : (RiskManager.update config state candle.close candle).2.newStopLoss with
        | none => simp [eq_comm]
        | some level => simp

theorem position_of_stopMoved {pos' : Position ℚ} (h : (b.stopMoved candle s).currentPosition = some pos') :
    ∃ pos, s.currentPosition = some pos ∧ pos' = { pos with stopLoss := pos'.stopLoss } := by
  rw [stopMoved] at h
  cases hupdate : b.riskUpdate candle s with
  | none =>
    rw [hupdate] at h
    exact ⟨pos', h, rfl⟩
  | some answer =>
    obtain ⟨pos, state, actions⟩ := answer
    obtain ⟨-, -, hpos, -⟩ := riskUpdate_eq_some_iff.mp hupdate
    rw [hupdate] at h
    cases h
    exact ⟨pos, hpos, rfl⟩

theorem exit_cases {window : List (Candle ℚ)} {e : Exit ℚ}
    (h : b.exit strategy symbol window candle s = some e) : e.exitPrice = candle.close ∨
      b.closeAsked candle s = none ∧ (b.stopMoved candle s).currentPosition = some e.pos ∧
        checkSlTp e.pos candle = some (e.reason, e.exitPrice) := by
  obtain ⟨pos, hpos, hexit⟩ := Option.bind_eq_some_iff.mp h
  split at hexit
  · cases hexit
    exact Or.inl rfl
  · rename_i hclose
    split at hexit
    · rename_i hhit
      cases hexit
      exact Or.inr ⟨hclose, hpos, hhit⟩
    · split_ifs at hexit
      cases hexit
      exact Or.inl rfl

/-- Every trade that a run records is exited at a price, before slippage, that is within its bar. -/
def ExitsTraded (b : Backtester ℚ) (strategy : Strategy ℚ σ) (strategyState : σ) (symbol : String)
    (warmup : ℕ) (candles : List (Candle ℚ)) : Prop :=
  ∀ candle trade exitPrice,
    RecordedOn b strategy strategyState symbol warmup candles candle trade exitPrice →
      candle.low ≤ exitPrice ∧ exitPrice ≤ candle.high

/-- A run has recorded the trades of its exits, and it exits at traded prices exactly when no bar that it
comes to with a position gaps through the stop that is in force or through the target. -/
theorem exitsTraded_iff (b : Backtester ℚ) (strategy : Strategy ℚ σ) (strategyState : σ)
    (symbol : String) (warmup : ℕ) (candles : List (Candle ℚ))
    (hcandles : ∀ candle ∈ candles, candle.low ≤ candle.open ∧ candle.open ≤ candle.high ∧
      candle.low ≤ candle.close ∧ candle.close ≤ candle.high) :
    (∀ trade, trade ∈ b.recorded strategy strategyState symbol warmup candles ↔ ∃ candle exitPrice,
          RecordedOn b strategy strategyState symbol warmup candles candle trade exitPrice) ∧
      (ExitsTraded b strategy strategyState symbol warmup candles ↔
        ∀ i candle s pos stop, ComesTo b strategy strategyState symbol warmup candles i candle s →
          s.currentPosition = some pos → StopInForce b candle s pos stop →
            ¬ Gaps candle pos.side stop pos.takeProfit) := by
  refine ⟨fun trade => mem_recorded_iff, ?_⟩
  constructor
  · intro htraded i candle s pos stop h hpos hforce
    obtain ⟨hclose, hmoved⟩ := (stopInForce_iff hpos).mp hforce
    obtain ⟨-, -, hlow, hhigh⟩ := hcandles candle (List.mem_of_getElem? h.candle)
    have hwithin := (@checkSlTp_within_iff candle { pos with stopLoss := stop } (hlow.trans hhigh)).mp
    apply hwithin
    intro reason exitPrice hhit
    have hexit : b.exit strategy symbol (window warmup candles i) candle s =
        some ⟨{ pos with stopLoss := stop }, reason, exitPrice⟩ := by
      rw [exit, hmoved, Option.bind_some, hclose]
      simp only [hhit]
    exact htraded candle _ exitPrice (.bar i candle s _ h hexit)
  · intro hgaps candle trade exitPrice hrecorded
    cases hrecorded with
    | bar i candle s exit h hexit =>
      obtain ⟨-, -, hlow, hhigh⟩ := hcandles candle (List.mem_of_getElem? h.candle)
      obtain hprice | ⟨hclose, hmoved, hhit⟩ := exit_cases hexit
      · rw [hprice]
        exact ⟨hlow, hhigh⟩
      · obtain ⟨pos, hpos, hsame⟩ := position_of_stopMoved hmoved
        have hforce : StopInForce b candle s pos exit.pos.stopLoss := by
          rw [stopInForce_iff hpos, ← hsame]
          exact ⟨hclose, hmoved⟩
        have hgap := hgaps i candle s pos exit.pos.stopLoss h hpos hforce
        have hfields := congrArg (fun pos => (pos.side, pos.takeProfit)) hsame
        obtain ⟨hside, htarget⟩ := Prod.mk.inj hfields
        rw [← hside, ← htarget] at hgap
        exact (checkSlTp_within_iff (hlow.trans hhigh)).mpr hgap exit.reason exit.exitPrice hhit
    | «end» s pos last hran hpos hlast =>
      exact (hcandles _ (List.mem_of_getLast? hlast)).2.2

/-- A position that is still open at the last of three bars, within its stop and its target. -/
theorem exitsTraded_threeBars :
    ExitsTraded .default alternating false "BTC/USDT" 1 [flatCandle 100, flatCandle 101, flatCandle 102] := by
  have hcandles : ∀ candle ∈ [flatCandle 100, flatCandle 101, flatCandle 102],
      candle.low ≤ candle.open ∧ candle.open ≤ candle.high ∧
        candle.low ≤ candle.close ∧ candle.close ≤ candle.high := by
    decide
  apply (exitsTraded_iff .default alternating false "BTC/USDT" 1 _ hcandles).2.mpr
  intro i candle s pos stop h hpos hforce
  have hlt : i < 3 := (List.getElem?_eq_some_iff.mp h.candle).1
  have hwarm : 1 ≤ i := h.warm
  obtain rfl | rfl : i = 1 ∨ i = 2 := by omega
  · have hflat : (Backtester.default.before alternating false "BTC/USDT" 1
        [flatCandle 100, flatCandle 101, flatCandle 102] 1).1.currentPosition.isSome = false := by
      decide +kernel
    rw [h.state, hpos] at hflat
    cases hflat
  · have hlong : ((Backtester.default.before alternating false "BTC/USDT" 1
        [flatCandle 100, flatCandle 101, flatCandle 102] 2).1.currentPosition.map
          fun pos => (pos.side, pos.stopLoss, pos.takeProfit)) = some (.long, 90, 200) := by
      decide +kernel
    rw [h.state, hpos] at hlong
    obtain ⟨hside, hstop, htarget⟩ : pos.side = .long ∧ pos.stopLoss = 90 ∧ pos.takeProfit = 200 := by
      simpa using hlong
    obtain rfl : flatCandle 102 = candle := Option.some.inj h.candle
    obtain rfl : stop = pos.stopLoss := hforce
    rw [hside, hstop, htarget]
    simp only [Gaps, GapsStop, GapsTarget, ReachesStop, flatCandle]
    norm_num

/-- A bar below the stop of a long position is sold at the stop. -/
theorem not_exitsTraded_gap :
    ¬ ExitsTraded .default alternating false "BTC/USDT" 1 [flatCandle 100, flatCandle 100, flatCandle 80] := by
  intro h
  have hok : (Backtester.default.before alternating false "BTC/USDT" 1
      [flatCandle 100, flatCandle 100, flatCandle 80] 2).2 = .ok () := by
    rfl
  have hcomes : ComesTo .default alternating false "BTC/USDT" 1
      [flatCandle 100, flatCandle 100, flatCandle 80] 2 (flatCandle 80) _ :=
    ⟨by decide, rfl, Prod.ext rfl hok⟩
  have hprice : ((Backtester.default.exit alternating "BTC/USDT"
      (window 1 [flatCandle 100, flatCandle 100, flatCandle 80] 2) (flatCandle 80)
      (Backtester.default.before alternating false "BTC/USDT" 1
        [flatCandle 100, flatCandle 100, flatCandle 80] 2).1).map (·.exitPrice)) = some 90 := by
    decide +kernel
  obtain ⟨exit, hexit, hninety⟩ := Option.map_eq_some_iff.mp hprice
  have hwithin := (h (flatCandle 80) _ exit.exitPrice (.bar 2 _ _ exit hcomes hexit)).2
  rw [hninety] at hwithin
  exact absurd hwithin (by decide)

end Exact

end TradingSim.Backtest.Backtester
