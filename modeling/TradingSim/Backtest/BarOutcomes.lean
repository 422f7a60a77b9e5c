import TradingSim.Backtest.Lookahead

/-!
# What a bar of a backtest does

The risk manager is asked first. If it asks for a close, the bar raises; otherwise the position has the
stop that the manager asks for when it is tried on the bar. A run is through when no bar that it comes to
has raised.
-/

namespace TradingSim.Backtest.Backtester

open Foundations
open FloatOps
open RawOrders (PyException)

variable {F σ : Type} [FloatOps F]

section Bar

variable (b : Backtester F)

/-- The position that the risk manager is asked about, with its answer. -/
def riskUpdate (candle : Candle F) (s : Replay F σ) : Option (Position F × RiskManager.Updated F) :=
  match s.currentPosition, b.riskConfig, s.riskState with
  | some pos, some config, some state =>
    some (pos, RiskManager.update config state candle.close candle)
  | _, _, _ => none

/-- The run with the stop that the risk manager asks for. -/
def stopMoved (candle : Candle F) (s : Replay F σ) : Replay F σ :=
  match b.riskUpdate candle s with
  | none => s
  | some (pos, state, actions) =>
    { s with
      currentPosition := some { pos with stopLoss := actions.newStopLoss.getD pos.stopLoss }
      riskState := some state }

/-- The reason for which the risk manager asks to close the position. -/
def closeAsked (candle : Candle F) (s : Replay F σ) : Option ExitReason :=
  (b.riskUpdate candle s).bind fun answer => answer.2.2.closePosition

/-- A bar on which the risk manager asks for no close. -/
def turn (strategy : Strategy F σ) (symbol : String) (window : List (Candle F)) (candle : Candle F)
    (s : Replay F σ) : Replay F σ :=
  (b.managePositionOrEntry strategy symbol window candle
    (b.stopMoved candle s)).trackEquityAndDrawdown candle.close

/-- The signal is against the position. -/
def Reverses (pos : Position F) (signal : Signal F) : Prop :=
  pos.side = .long ∧ signal.direction = .short ∨ pos.side = .short ∧ signal.direction = .long

instance (pos : Position F) (signal : Signal F) : Decidable (Reverses pos signal) :=
  inferInstanceAs (Decidable (_ ∨ _))

/-- What managing a position or an entry can come to. -/
inductive Managed (strategy : Strategy F σ) (symbol : String) (window : List (Candle F))
    (candle : Candle F) (s : Replay F σ) : Replay F σ → Prop
  | hit (pos : Position F) (reason : ExitReason) (exitPrice : F) : s.currentPosition = some pos →
      checkSlTp pos candle = some (reason, exitPrice) →
        Managed strategy symbol window candle s (b.closed s pos exitPrice reason candle)
  | reversed (pos : Position F) (signal : Signal F) (s' : Replay F σ) : s.currentPosition = some pos →
      checkSlTp pos candle = none → asked strategy symbol window s = (signal, s') → Reverses pos signal →
        Managed strategy symbol window candle s
          (b.opened (b.closed s' pos candle.close .signalExit candle) signal symbol candle)
  | kept (pos : Position F) (signal : Signal F) (s' : Replay F σ) : s.currentPosition = some pos →
      checkSlTp pos candle = none → asked strategy symbol window s = (signal, s') → ¬ Reverses pos signal →
        Managed strategy symbol window candle s s'
  | entered (signal : Signal F) (s' : Replay F σ) : s.currentPosition = none →
      asked strategy symbol window s = (signal, s') → signal.isActionable = true →
        Managed strategy symbol window candle s (b.opened s' signal symbol candle)
  | idle (signal : Signal F) (s' : Replay F σ) : s.currentPosition = none →
      asked strategy symbol window s = (signal, s') →
        Managed strategy symbol window candle s { s' with currentPosition := none, riskState := none }

variable {b} {candle : Candle F} {s : Replay F σ}

theorem managed (b : Backtester F) (strategy : Strategy F σ) (symbol : String)
    (window : List (Candle F)) (candle : Candle F) (s : Replay F σ) :
    Managed b strategy symbol window candle s
      (b.managePositionOrEntry strategy symbol window candle s) := by
  cases hasked : asked strategy symbol window s with
  | mk signal s' =>
    rw [managePositionOrEntry]
    cases hpos : s.currentPosition with
    | none =>
      simp only [checkEntry, hasked]
      split_ifs with hactionable
      · exact .entered signal s' hpos hasked hactionable
      · exact .idle signal s' hpos hasked
    | some pos =>
      dsimp only
      cases hhit : checkSlTp pos candle with
      | some exit => exact .hit pos exit.1 exit.2 hpos hhit
      | none =>
        simp only [handleSignalReversal, hasked]
        split_ifs with hreverses
        · exact .reversed pos signal s' hpos hhit hasked hreverses
        · exact .kept pos signal s' hpos hhit hasked hreverses

theorem riskUpdate_of_some {pos : Position F} {config : RiskConfig F} {state : PositionRiskState F}
    (hpos : s.currentPosition = some pos) (hconfig : b.riskConfig = some config)
    (hstate : s.riskState = some state) (candle : Candle F) :
    b.riskUpdate candle s = some (pos, RiskManager.update config state candle.close candle) := by
  rw [riskUpdate, hpos, hconfig, hstate]

/-- The risk manager is asked about a position that it has a state for. -/
theorem riskUpdate_eq_some_iff {pos : Position F} {u : RiskManager.Updated F} :
    b.riskUpdate candle s = some (pos, u) ↔
      ∃ config state, s.currentPosition = some pos ∧ b.riskConfig = some config ∧
        s.riskState = some state ∧ u = RiskManager.update config state candle.close candle := by
  constructor
  · intro hupdate
    rw [riskUpdate] at hupdate
    split at hupdate
    · rename_i config state hpos hconfig hstate
      obtain ⟨rfl, rfl⟩ := Prod.mk.inj (Option.some.inj hupdate)
      exact ⟨config, state, hpos, hconfig, hstate, rfl⟩
    · cases hupdate
  · rintro ⟨config, state, hpos, hconfig, hstate, rfl⟩
    exact riskUpdate_of_some hpos hconfig hstate candle

omit [FloatOps F] in
/-- Asking the strategy leaves the position and the money alone. -/
theorem asked_keeps {strategy : Strategy F σ} {symbol : String} {window : List (Candle F)}
    {signal : Signal F} {s' : Replay F σ} (h : asked strategy symbol window s = (signal, s')) :
    s'.currentPosition = s.currentPosition ∧ s'.riskState = s.riskState ∧ s'.balance = s.balance ∧
      s'.trades = s.trades := by
  obtain ⟨-, rfl⟩ := Prod.mk.inj h
  exact ⟨rfl, rfl, rfl, rfl⟩

theorem processRiskUpdate_eq (candle : Candle F) (s : Replay F σ) : b.processRiskUpdate candle s =
      match b.riskUpdate candle s with
      | none => (s, .ok false)
      | some (pos, state, actions) =>
        let pos := { pos with stopLoss := actions.newStopLoss.getD pos.stopLoss }
        let s' := { s with currentPosition := some pos, riskState := some state }
        match actions.closePosition with
        | none => (s', .ok false)
        | some reason =>
          let (trade, balance) :=
            b.closePosition pos candle.close reason s.balance (candle.timestamp.getD 0)
          ({ s' with trades := s.trades ++ [trade], equityCurve := s.equityCurve ++ [balance] },
            .error .attributeError) := by
  obtain ⟨balance, equityCurve, currentPosition, riskState, peakEquity, trades, generated, valid,
    maxDrawdownPct, strategyState⟩ := s
  rw [processRiskUpdate, Action.bind_apply, riskUpdate]
  simp only [Action.get]
  cases currentPosition with
  | none => rfl
  | some pos =>
    cases b.riskConfig with
    | none => rfl
    | some config =>
      cases riskState with
      | none => rfl
      | some state =>
        simp only [Action.bind_apply, Action.modify]
        cases (RiskManager.update config state candle.close candle).2.closePosition with
        | none => rfl
        | some reason => rfl

theorem processRiskUpdate_of_none (h : b.closeAsked candle s = none) :
    b.processRiskUpdate candle s = (b.stopMoved candle s, .ok false) := by
  rw [closeAsked] at h
  rw [processRiskUpdate_eq, stopMoved]
  cases hupdate : b.riskUpdate candle s with
  | none => rfl
  | some answer =>
    rw [hupdate, Option.bind_some] at h
    simp only [h]

theorem processRiskUpdate_of_some {reason : ExitReason} (h : b.closeAsked candle s = some reason) :
    ∃ pos : Position F, (b.stopMoved candle s).currentPosition = some pos ∧ b.processRiskUpdate candle s =
        ({ b.stopMoved candle s with
            trades := s.trades ++
              [(b.closePosition pos candle.close reason s.balance (candle.timestamp.getD 0)).1]
            equityCurve := s.equityCurve ++
              [(b.closePosition pos candle.close reason s.balance (candle.timestamp.getD 0)).2] },
          .error .attributeError) := by
  rw [closeAsked] at h
  rw [processRiskUpdate_eq, stopMoved]
  cases hupdate : b.riskUpdate candle s with
  | none =>
    rw [hupdate] at h
    cases h
  | some answer =>
    rw [hupdate, Option.bind_some] at h
    simp only [h]
    exact ⟨_, rfl, rfl⟩

end Bar

section Run

variable {b : Backtester F} {strategy : Strategy F σ} {strategyState : σ} {symbol : String} {warmup : ℕ}
  {candles : List (Candle F)} {candle : Candle F} {s : Replay F σ} {i : ℕ}

/-- A run comes to a bar in a state. -/
structure ComesTo (b : Backtester F) (strategy : Strategy F σ) (strategyState : σ) (symbol : String)
    (warmup : ℕ) (candles : List (Candle F)) (i : ℕ) (candle : Candle F) (s : Replay F σ) : Prop where
  warm : warmup ≤ i
  candle : candles[i]? = some candle
  state : b.before strategy strategyState symbol warmup candles i = (s, .ok ())

/-- From a bar on which the risk manager asks for no close a run goes on with the turn. -/
theorem ComesTo.before_succ_of_none (h : ComesTo b strategy strategyState symbol warmup candles i candle s)
    (hclose : b.closeAsked candle s = none) :
    b.before strategy strategyState symbol warmup candles (i + 1) =
      (b.turn strategy symbol (window warmup candles i) candle s, .ok ()) := by
  rw [before_succ _ _ _ _ _ h.warm, h.state, bar, h.candle]
  simp only [Action.bind_apply, processRiskUpdate_of_none hclose]
  rfl

/-- On a bar on which the risk manager asks to close the run raises. -/
theorem ComesTo.before_succ_of_some
    (h : ComesTo b strategy strategyState symbol warmup candles i candle s) {reason : ExitReason}
    (hclose : b.closeAsked candle s = some reason) :
    (b.before strategy strategyState symbol warmup candles (i + 1)).2 = .error .attributeError := by
  obtain ⟨pos, -, hupdate⟩ := processRiskUpdate_of_some hclose
  rw [before_succ _ _ _ _ _ h.warm, h.state, bar, h.candle]
  simp only [Action.bind_apply, hupdate]

theorem comesTo_of_ok {j : ℕ} (hj : j ≤ candles.length)
    (hok : (b.before strategy strategyState symbol warmup candles j).2 = .ok ()) (hij : i < j)
    (hi : warmup ≤ i) (hcandle : candles[i]? = some candle) :
    ComesTo b strategy strategyState symbol warmup candles i candle
        (b.before strategy strategyState symbol warmup candles i).1 ∧
      b.closeAsked candle (b.before strategy strategyState symbol warmup candles i).1 = none := by
  have hcomes : ComesTo b strategy strategyState symbol warmup candles i candle
      (b.before strategy strategyState symbol warmup candles i).1 :=
    ⟨hi, hcandle, Prod.ext rfl (before_mono b strategy strategyState symbol warmup hij.le hj hok).1⟩
  refine ⟨hcomes, ?_⟩
  cases hclose : b.closeAsked candle (b.before strategy strategyState symbol warmup candles i).1 with
  | none => rfl
  | some reason =>
    have hnext := (before_mono b strategy strategyState symbol warmup hij hj hok).1
    rw [hcomes.before_succ_of_some hclose] at hnext
    cases hnext

/-- **The run rule.** What holds at the start and is kept by every turn holds of a run as long as no close is
asked for. -/
theorem before_spec (P : ℕ → Replay F σ → Prop) (hstart : ∀ i ≤ warmup, P i (b.start strategyState))
    (hturn : ∀ i candle s, ComesTo b strategy strategyState symbol warmup candles i candle s → P i s →
      b.closeAsked candle s = none ∧ P (i + 1) (b.turn strategy symbol (window warmup candles i) candle s))
    {j : ℕ} (hj : j ≤ candles.length) :
    ∃ s, b.before strategy strategyState symbol warmup candles j = (s, .ok ()) ∧ P j s := by
  induction j with
  | zero => exact ⟨b.start strategyState, by simp [before, Action.pure_apply], hstart 0 (Nat.zero_le _)⟩
  | succ j ih =>
    by_cases hwarm : warmup ≤ j
    · obtain ⟨s, hs, hP⟩ := ih (Nat.le_of_succ_le hj)
      have hcomes : ComesTo b strategy strategyState symbol warmup candles j candles[j] s :=
        ⟨hwarm, List.getElem?_eq_getElem hj, hs⟩
      obtain ⟨hclose, hnext⟩ := hturn j _ s hcomes hP
      exact ⟨_, hcomes.before_succ_of_none hclose, hnext⟩
    · have hnone : j + 1 - warmup = 0 := by omega
      exact ⟨b.start strategyState, by simp [before, hnone, Action.pure_apply], hstart _ (by omega)⟩

theorem ComesTo.invariant {P : Replay F σ → Prop} (hstart : P (b.start strategyState))
    (hturn : ∀ i candle s, ComesTo b strategy strategyState symbol warmup candles i candle s → P s →
      b.closeAsked candle s = none → P (b.turn strategy symbol (window warmup candles i) candle s))
    (h : ComesTo b strategy strategyState symbol warmup candles i candle s) : P s := by
  have hlt : i < candles.length := (List.getElem?_eq_some_iff.mp h.candle).1
  have hkept : ∀ j ≤ i, P (b.before strategy strategyState symbol warmup candles j).1 := by
    intro j hj
    induction j with
    | zero => simpa [before, Action.pure_apply] using hstart
    | succ j ih =>
      by_cases hwarm : warmup ≤ j
      · have hok := (before_mono b strategy strategyState symbol warmup hj hlt.le
          (congrArg Prod.snd h.state)).1
        obtain ⟨hcomes, hclose⟩ := comesTo_of_ok (hj.trans hlt.le) hok (Nat.lt_succ_self j) hwarm
          (List.getElem?_eq_getElem (hj.trans hlt.le))
        rw [hcomes.before_succ_of_none hclose]
        exact hturn _ _ _ hcomes (ih (Nat.le_of_succ_le hj)) hclose
      · have hnone : j + 1 - warmup = 0 := by omega
        simpa [before, hnone, Action.pure_apply] using hstart
  have hlast := hkept i le_rfl
  rwa [h.state] at hlast

/-- A run completes exactly when no bar that it comes to asks for a close. -/
theorem run_isOk_iff : (∃ result, b.run strategy strategyState symbol warmup candles = .ok result) ↔
      ∀ i candle s, ComesTo b strategy strategyState symbol warmup candles i candle s →
        b.closeAsked candle s = none := by
  constructor
  · rintro ⟨result, hrun⟩ i candle s h
    have hok : (b.before strategy strategyState symbol warmup candles candles.length).2 = .ok () := by
      unfold run at hrun
      generalize b.before strategy strategyState symbol warmup candles candles.length = ran at hrun ⊢
      obtain ⟨s, e | a⟩ := ran
      · cases hrun
      · rfl
    have hlt : i < candles.length := (List.getElem?_eq_some_iff.mp h.candle).1
    have hnone := (comesTo_of_ok le_rfl hok hlt h.warm h.candle).2
    rwa [h.state] at hnone
  · intro hquiet
    have hthrough : ∃ s, b.before strategy strategyState symbol warmup candles candles.length =
        (s, .ok ()) ∧ True :=
      before_spec (fun _ _ => True) (fun _ _ => trivial)
        (fun i candle s h _ => ⟨hquiet i candle s h, trivial⟩) le_rfl
    obtain ⟨s, hs, -⟩ := hthrough
    exact ⟨_, by rw [run, hs]⟩

end Run

end TradingSim.Backtest.Backtester
