import TradingSim.Backtest.RiskActions
import Mathlib.Tactic.Linarith

/-!
# When the stop of a bar is decided

The stop that a bar is tried against has been moved by the close of the same bar. A bar may offer a stop at
the entry and one behind its close, and the tightest of the present stop and these is in force on it. So a
run decides its stops before their bars exactly when the closes within a bar agree on the stop.
-/

namespace TradingSim.Backtest

open Foundations
open FloatOps

namespace RiskManager

variable {config : RiskConfig ℚ} {state : PositionRiskState ℚ} {candle : Candle ℚ} {level : ℚ}

/-- How tight a stop is. -/
def tightness (side : SignalDirection) (stop : ℚ) : ℚ := if side = .long then stop else -stop

theorem tightness_injective (side : SignalDirection) : Function.Injective (tightness side) := by
  intro stop stop' h
  rw [tightness, tightness] at h
  split_ifs at h
  · exact h
  · exact neg_injective h

/-- The stop at the entry, with its buffer. -/
def breakevenStop (config : RiskConfig ℚ) (state : PositionRiskState ℚ) : ℚ :=
  if state.side = .long then state.entryPrice * (1 + config.breakevenBufferPct / 100)
  else state.entryPrice * (1 - config.breakevenBufferPct / 100)

/-- How far behind the close the trailing stop is. -/
def trailingDistance (config : RiskConfig ℚ) (candle : Candle ℚ) : ℚ :=
  if 0 < config.trailingAtrMultiplier ∧ 0 < calcAtrFromCandle candle then
    calcAtrFromCandle candle * config.trailingAtrMultiplier
  else candle.close * config.trailingDistancePct / 100

def trailingStop (config : RiskConfig ℚ) (state : PositionRiskState ℚ) (candle : Candle ℚ) : ℚ :=
  if state.side = .long then candle.close - trailingDistance config candle
  else candle.close + trailingDistance config candle

/-- The stops that a candle offers to a position. -/
inductive Offers (config : RiskConfig ℚ) (state : PositionRiskState ℚ) (candle : Candle ℚ) : ℚ → Prop
  | breakeven : config.breakevenEnabled = true → state.breakevenMoved = false → 0 < state.entryPrice →
      config.breakevenTriggerPct ≤ priceMovePct state candle.close →
        Offers config state candle (breakevenStop config state)
  | trailing : config.trailingStopEnabled = true →
      Offers config state candle (trailingStop config state candle)

/-- A stop is tighter than the present one. -/
def Tighter (state : PositionRiskState ℚ) (level : ℚ) : Prop :=
  tightness state.side state.currentStopLoss < tightness state.side level

instance : Decidable (Tighter state level) := inferInstanceAs (Decidable (_ < _))

/-- A candle moves the stop to a level, the tightest that it offers. -/
structure MovesTo (config : RiskConfig ℚ) (state : PositionRiskState ℚ) (candle : Candle ℚ) (level : ℚ) :
    Prop where
  offered : Offers config state candle level
  tighter : Tighter state level
  tightest : ∀ other, Offers config state candle other →
    tightness state.side other ≤ tightness state.side level

/-- An update has answered offers with the tightest of them and the present stop. -/
structure Answers (config : RiskConfig ℚ) (state : PositionRiskState ℚ) (candle : Candle ℚ)
    (offers : ℚ → Prop) (u : Updated ℚ) : Prop where
  side : u.1.side = state.side
  entryPrice : u.1.entryPrice = state.entryPrice
  atr : 0 < config.trailingAtrMultiplier → u.1.atr = calcAtrFromCandle candle
  currentStopLoss : u.1.currentStopLoss = u.2.newStopLoss.getD state.currentStopLoss
  newStopLoss : ∀ level, u.2.newStopLoss = some level → offers level ∧ Tighter state level
  tightest : ∀ other, offers other →
    tightness state.side other ≤ tightness state.side u.1.currentStopLoss

namespace Answers

variable {offers offers' : ℚ → Prop} {u u' : Updated ℚ}

theorem congr (h : Answers config state candle offers u) (hiff : ∀ level, offers level ↔ offers' level) :
    Answers config state candle offers' u where
  side := h.side
  entryPrice := h.entryPrice
  atr := h.atr
  currentStopLoss := h.currentStopLoss
  newStopLoss level hlevel := ⟨(hiff level).mp (h.newStopLoss level hlevel).1, (h.newStopLoss level hlevel).2⟩
  tightest other hother := h.tightest other ((hiff other).mpr hother)

theorem present_le (h : Answers config state candle offers u) :
    tightness state.side state.currentStopLoss ≤ tightness state.side u.1.currentStopLoss := by
  rw [h.currentStopLoss]
  cases hnew : u.2.newStopLoss with
  | none => exact le_rfl
  | some level => exact (h.newStopLoss level hnew).2.le

/-- One more offer that is no tighter changes nothing. -/
theorem ignore (h : Answers config state candle offers u) {new : ℚ}
    (hnew : tightness state.side new ≤ tightness state.side u.1.currentStopLoss) :
    Answers config state candle (fun level => offers level ∨ level = new) u where
  side := h.side
  entryPrice := h.entryPrice
  atr := h.atr
  currentStopLoss := h.currentStopLoss
  newStopLoss level hlevel := ⟨Or.inl (h.newStopLoss level hlevel).1, (h.newStopLoss level hlevel).2⟩
  tightest other hother := by
    obtain hother | rfl := hother
    · exact h.tightest other hother
    · exact hnew

/-- One more offer that is tighter takes the place of the stop. -/
theorem accept (h : Answers config state candle offers u) {new : ℚ}
    (hnew : tightness state.side u.1.currentStopLoss < tightness state.side new)
    (hside : u'.1.side = u.1.side) (hentry : u'.1.entryPrice = u.1.entryPrice) (hatr : u'.1.atr = u.1.atr)
    (hstop : u'.1.currentStopLoss = new) (hasked : u'.2.newStopLoss = some new) :
    Answers config state candle (fun level => offers level ∨ level = new) u' where
  side := hside.trans h.side
  entryPrice := hentry.trans h.entryPrice
  atr hpos := hatr.trans (h.atr hpos)
  currentStopLoss := by rw [hstop, hasked, Option.getD_some]
  newStopLoss level hlevel := by
    obtain rfl : new = level := Option.some.inj (hasked.symm.trans hlevel)
    exact ⟨Or.inr rfl, h.present_le.trans_lt hnew⟩
  tightest other hother := by
    rw [hstop]
    obtain hother | rfl := hother
    · exact (h.tightest other hother).trans hnew.le
    · exact le_rfl

/-- An update asks for a stop exactly when it is the tightest of those offered, and tighter than the present
one. -/
theorem newStopLoss_eq_some_iff (h : Answers config state candle (Offers config state candle) u) :
    u.2.newStopLoss = some level ↔ MovesTo config state candle level := by
  constructor
  · intro hlevel
    obtain ⟨hoffered, htighter⟩ := h.newStopLoss level hlevel
    refine ⟨hoffered, htighter, ?_⟩
    simpa [h.currentStopLoss, hlevel] using h.tightest
  · intro hmoves
    have hbest := h.tightest level hmoves.offered
    have hpresent := h.currentStopLoss
    cases hnew : u.2.newStopLoss with
    | none =>
      rw [hpresent, hnew, Option.getD_none] at hbest
      exact absurd hmoves.tighter (not_lt.mpr hbest)
    | some other =>
      rw [hpresent, hnew, Option.getD_some] at hbest
      have hother := hmoves.tightest other (h.newStopLoss other hnew).1
      rw [tightness_injective state.side (le_antisymm hother hbest)]

theorem newStopLoss_eq_of_getD_eq {candle' : Candle ℚ} {offers' : ℚ → Prop}
    (h : Answers config state candle offers u) (h' : Answers config state candle' offers' u')
    (hsame : u.2.newStopLoss.getD state.currentStopLoss = u'.2.newStopLoss.getD state.currentStopLoss) :
    u.2.newStopLoss = u'.2.newStopLoss := by
  cases hnew : u.2.newStopLoss with
  | none =>
    cases hnew' : u'.2.newStopLoss with
    | none => rfl
    | some level =>
      rw [hnew, hnew', Option.getD_none, Option.getD_some] at hsame
      exact absurd (hsame ▸ (h'.newStopLoss level hnew').2) (lt_irrefl _)
  | some level =>
    cases hnew' : u'.2.newStopLoss with
    | none =>
      rw [hnew, hnew', Option.getD_none, Option.getD_some] at hsame
      exact absurd (hsame ▸ (h.newStopLoss level hnew).2) (lt_irrefl _)
    | some level' =>
      rw [hnew, hnew', Option.getD_some, Option.getD_some] at hsame
      rw [hsame]

theorem newStopLoss_eq_none_iff (h : Answers config state candle (Offers config state candle) u) :
    u.2.newStopLoss = none ↔ ∀ level, Offers config state candle level → ¬ Tighter state level := by
  constructor
  · intro hnone level hoffered
    have hbest := h.tightest level hoffered
    rw [h.currentStopLoss, hnone, Option.getD_none] at hbest
    exact not_lt.mpr hbest
  · intro hloose
    cases hnew : u.2.newStopLoss with
    | none => rfl
    | some level =>
      obtain ⟨hoffered, htighter⟩ := h.newStopLoss level hnew
      exact absurd htighter (hloose level hoffered)

end Answers

theorem checkBreakeven_eq (state : PositionRiskState ℚ) (price : ℚ) : checkBreakeven config state price =
      if 0 < state.entryPrice ∧ config.breakevenTriggerPct ≤ priceMovePct state price ∧
          Tighter state (breakevenStop config state) then some (breakevenStop config state) else none := by
  by_cases hentry : state.entryPrice ≤ 0
  · simp [checkBreakeven, hentry, not_lt.mpr hentry]
  · by_cases hmove : config.breakevenTriggerPct ≤ priceMovePct state price
    · by_cases hside : state.side = .long
      · simp [checkBreakeven, hentry, not_le.mp hentry, hmove, hside, Tighter, tightness, breakevenStop]
      · simp [checkBreakeven, hentry, not_le.mp hentry, hmove, hside, Tighter, tightness, breakevenStop]
    · simp [checkBreakeven, hentry, hmove]

theorem checkTrailing_eq (hatr : 0 < config.trailingAtrMultiplier → state.atr = calcAtrFromCandle candle) :
    checkTrailing config state candle.close =
      if Tighter state (trailingStop config state candle) then some (trailingStop config state candle)
      else none := by
  have hdistance : (if lt (lit 0) config.trailingAtrMultiplier && lt (lit 0) state.atr then
        state.atr * config.trailingAtrMultiplier
      else candle.close * config.trailingDistancePct / lit 100) = trailingDistance config candle := by
    by_cases hpos : 0 < config.trailingAtrMultiplier
    · simp [trailingDistance, hpos, hatr hpos]
    · simp [trailingDistance, hpos]
  rw [checkTrailing, hdistance]
  by_cases hside : state.side = .long
  · simp [hside, Tighter, tightness, trailingStop]
  · simp [hside, Tighter, tightness, trailingStop]

/-- The candle has the stop at the entry to offer. -/
def OffersBreakeven (config : RiskConfig ℚ) (state : PositionRiskState ℚ) (candle : Candle ℚ) : Prop :=
  config.breakevenEnabled = true ∧ state.breakevenMoved = false ∧ 0 < state.entryPrice ∧
    config.breakevenTriggerPct ≤ priceMovePct state candle.close

theorem offers_iff : Offers config state candle level ↔
    (False ∨ OffersBreakeven config state candle ∧ level = breakevenStop config state) ∨
      config.trailingStopEnabled = true ∧ level = trailingStop config state candle := by
  constructor
  · intro h
    cases h with
    | breakeven henabled hmoved hentry hmove => exact Or.inl (Or.inr ⟨⟨henabled, hmoved, hentry, hmove⟩, rfl⟩)
    | trailing henabled => exact Or.inr ⟨henabled, rfl⟩
  · rintro ((hfalse | ⟨⟨henabled, hmoved, hentry, hmove⟩, rfl⟩) | ⟨henabled, rfl⟩)
    · exact hfalse.elim
    · exact .breakeven henabled hmoved hentry hmove
    · exact .trailing henabled

namespace Answers

variable {offers : ℚ → Prop} {u : Updated ℚ}

/-- An offer that is not made changes nothing. -/
theorem withhold (h : Answers config state candle offers u) {made : Prop} {new : ℚ} (hmade : ¬ made) :
    Answers config state candle (fun level => offers level ∨ made ∧ level = new) u := by
  apply h.congr
  intro level
  simp only [hmade, false_and, or_false]

theorem made {made : Prop} {new : ℚ} (hmade : made)
    (h : Answers config state candle (fun level => offers level ∨ level = new) u) :
    Answers config state candle (fun level => offers level ∨ made ∧ level = new) u := by
  apply h.congr
  intro level
  simp only [hmade, true_and]

theorem checkBreakevenAction (h : Answers config state candle offers u)
    (hmoved : u.1.breakevenMoved = state.breakevenMoved) : Answers config state candle
      (fun level => offers level ∨ OffersBreakeven config state candle ∧ level = breakevenStop config state)
      (checkBreakevenAction config candle.close u) := by
  have hstop : breakevenStop config u.1 = breakevenStop config state := by
    rw [breakevenStop, breakevenStop, h.side, h.entryPrice]
  have hpct : priceMovePct u.1 candle.close = priceMovePct state candle.close := by
    rw [priceMovePct, priceMovePct, h.side, h.entryPrice]
  rw [RiskManager.checkBreakevenAction, checkBreakeven_eq, hstop, hpct, h.entryPrice, hmoved]
  by_cases hskip : (!config.breakevenEnabled || state.breakevenMoved) = true
  · rw [if_pos hskip]
    apply h.withhold
    rintro ⟨henabled, hfresh, -⟩
    simp [henabled, hfresh] at hskip
  · rw [if_neg hskip]
    simp only [Bool.or_eq_true, Bool.not_eq_true', not_or, Bool.not_eq_false, Bool.not_eq_true] at hskip
    obtain ⟨henabled, hfresh⟩ := hskip
    by_cases hasked : 0 < state.entryPrice ∧
        config.breakevenTriggerPct ≤ priceMovePct state candle.close ∧
          Tighter u.1 (breakevenStop config state)
    · rw [if_pos hasked]
      obtain ⟨hentry, hmove, htighter⟩ := hasked
      rw [Tighter, h.side] at htighter
      exact made ⟨henabled, hfresh, hentry, hmove⟩ (h.accept htighter rfl rfl rfl rfl rfl)
    · rw [if_neg hasked]
      by_cases hoffers : OffersBreakeven config state candle
      · have hloose : ¬ Tighter u.1 (breakevenStop config state) :=
          fun htighter => hasked ⟨hoffers.2.2.1, hoffers.2.2.2, htighter⟩
        rw [Tighter, h.side, not_lt] at hloose
        exact made hoffers (h.ignore hloose)
      · exact h.withhold hoffers

theorem checkTrailingAction (h : Answers config state candle offers u) : Answers config state candle
      (fun level => offers level ∨ config.trailingStopEnabled = true ∧ level = trailingStop config state candle)
      (checkTrailingAction config candle.close u) := by
  have hstop : trailingStop config u.1 candle = trailingStop config state candle := by
    rw [trailingStop, trailingStop, h.side]
  rw [RiskManager.checkTrailingAction, checkTrailing_eq h.atr, hstop]
  by_cases henabled : config.trailingStopEnabled = true
  · rw [if_neg (by simp [henabled])]
    apply made henabled
    by_cases htighter : Tighter u.1 (trailingStop config state candle)
    · rw [if_pos htighter]
      rw [Tighter, h.side] at htighter
      exact h.accept htighter rfl rfl rfl rfl rfl
    · rw [if_neg htighter]
      rw [Tighter, h.side, not_lt] at htighter
      exact h.ignore htighter
  · rw [if_pos (by simpa using henabled)]
    exact h.withhold henabled

/-- The checks that follow leave the stop alone. -/
theorem rest (h : Answers config state candle offers u) (price : ℚ) :
    Answers config state candle offers (checkMaxHold config (checkPartialTpAction config price u)) := by
  have hpart : Answers config state candle offers (checkPartialTpAction config price u) := by
    rw [checkPartialTpAction]
    split
    · exact h
    · dsimp only
      split
      · exact ⟨h.1, h.2, h.3, h.4, h.5, h.6⟩
      · exact h
  rw [checkMaxHold]
  split
  · exact ⟨hpart.1, hpart.2, hpart.3, hpart.4, hpart.5, hpart.6⟩
  · exact hpart

end Answers

/-- A position before any check. -/
theorem answers_start {tracked : PositionRiskState ℚ} (hside : tracked.side = state.side)
    (hentry : tracked.entryPrice = state.entryPrice) (hstop : tracked.currentStopLoss = state.currentStopLoss)
    (hatr : 0 < config.trailingAtrMultiplier → tracked.atr = calcAtrFromCandle candle) :
    Answers config state candle (fun _ => False) (tracked, {}) where
  side := hside
  entryPrice := hentry
  atr := hatr
  currentStopLoss := hstop
  newStopLoss level hnone := by cases hnone
  tightest other hother := hother.elim

/-- Tracking the extremes of the price leaves the entry and the stop alone. -/
theorem trackPeakTrough_keeps (price : ℚ) : (trackPeakTrough state price).side = state.side ∧
      (trackPeakTrough state price).entryPrice = state.entryPrice ∧
      (trackPeakTrough state price).currentStopLoss = state.currentStopLoss ∧
      (trackPeakTrough state price).breakevenMoved = state.breakevenMoved := by
  rw [trackPeakTrough]
  split
  · exact ⟨rfl, rfl, rfl, rfl⟩
  · exact ⟨rfl, rfl, rfl, rfl⟩

theorem update_answers (config : RiskConfig ℚ) (state : PositionRiskState ℚ) (candle : Candle ℚ) :
    Answers config state candle (Offers config state candle)
      (update config state candle.close candle) := by
  obtain ⟨hside, hentry, hstop, hmoved⟩ :=
    @trackPeakTrough_keeps { state with candlesHeld := state.candlesHeld + 1 } candle.close
  rw [funext fun level => propext (@offers_iff config state candle level), update, updateWith]
  apply Answers.rest
  apply Answers.checkTrailingAction
  by_cases hpos : 0 < config.trailingAtrMultiplier
  · have hlt : lt (lit 0) config.trailingAtrMultiplier = true := lt_rat.mpr hpos
    rw [if_pos hlt]
    have hstart : Answers config state candle (fun _ => False)
        ({ trackPeakTrough { state with candlesHeld := state.candlesHeld + 1 } candle.close with
            atr := calcAtrFromCandle candle }, {}) :=
      answers_start hside hentry hstop fun _ => rfl
    exact hstart.checkBreakevenAction hmoved
  · have hlt : ¬ lt (lit 0) config.trailingAtrMultiplier = true := mt lt_rat.mp hpos
    rw [if_neg hlt]
    have hstart : Answers config state candle (fun _ => False)
        (trackPeakTrough { state with candlesHeld := state.candlesHeld + 1 } candle.close, {}) :=
      answers_start hside hentry hstop fun h => absurd h hpos
    exact hstart.checkBreakevenAction hmoved

/-- The closes that a bar could have: its own and those within its range. -/
def closes (candle : Candle ℚ) : Set ℚ := insert candle.close (Set.Icc candle.low candle.high)

/-- The stop of a position does not depend on the close of a bar: no close offers a tighter one, or every
close moves it to the same level. -/
def StopSettled (config : RiskConfig ℚ) (state : PositionRiskState ℚ) (candle : Candle ℚ) : Prop :=
  (∀ close ∈ closes candle, ∀ level,
      Offers config state { candle with close := close } level → ¬ Tighter state level) ∨
    ∃ level, ∀ close ∈ closes candle, MovesTo config state { candle with close := close } level

theorem stopSettled_iff : StopSettled config state candle ↔
    ∀ close ∈ closes candle, (update config state close { candle with close := close }).2.newStopLoss =
      (update config state candle.close candle).2.newStopLoss := by
  have hanswers (close : ℚ) := update_answers config state { candle with close := close }
  have hown : candle.close ∈ closes candle := Set.mem_insert _ _
  constructor
  · rintro (hloose | ⟨level, hmoves⟩) close hclose
    · rw [(hanswers close).newStopLoss_eq_none_iff.mpr (hloose close hclose),
        (hanswers candle.close).newStopLoss_eq_none_iff.mpr (hloose candle.close hown)]
    · rw [(hanswers close).newStopLoss_eq_some_iff.mpr (hmoves close hclose),
        (hanswers candle.close).newStopLoss_eq_some_iff.mpr (hmoves candle.close hown)]
  · intro hsame
    cases hnew : (update config state candle.close candle).2.newStopLoss with
    | none =>
      left
      intro close hclose
      exact (hanswers close).newStopLoss_eq_none_iff.mp ((hsame close hclose).trans hnew)
    | some level =>
      right
      use level
      intro close hclose
      exact (hanswers close).newStopLoss_eq_some_iff.mp ((hsame close hclose).trans hnew)

end RiskManager

namespace Backtester

variable {σ : Type} (b : Backtester ℚ)

/-- The position whose stop and target are tried on a bar. -/
def tried (candle : Candle ℚ) (s : Replay ℚ σ) : Option (Position ℚ) :=
  match b.processRiskUpdate candle s with
  | (s', .ok false) => s'.currentPosition
  | _ => none

/-- The stop that is compared with the high or the low of a bar. -/
def stopTried (candle : Candle ℚ) (s : Replay ℚ σ) : Option ℚ := (b.tried candle s).map (·.stopLoss)

/-- The price at which the stop is hit on a bar. -/
def stopHit (candle : Candle ℚ) (s : Replay ℚ σ) : Option ℚ :=
  (b.tried candle s).bind fun pos =>
    match checkSlTp pos candle with
    | some (.stopLoss, exitPrice) => some exitPrice
    | _ => none

/-- What a bar has when the run comes to it. -/
def atBar (strategy : Strategy ℚ σ) (strategyState : σ) (symbol : String) (warmup : ℕ)
    (candles : List (Candle ℚ)) (i : ℕ) (read : Candle ℚ → Replay ℚ σ → Option ℚ) : Option ℚ :=
  match candles[i]?, b.before strategy strategyState symbol warmup candles i with
  | some candle, (s, .ok ()) => if warmup ≤ i then read candle s else none
  | _, _ => none

/-- The stop of every bar is decided before it: with any other close within its range, the same stop is
tried and hit, or not, at the same price. -/
structure StopsDecidedBefore (strategy : Strategy ℚ σ) (strategyState : σ) (symbol : String)
    (warmup : ℕ) (candles : List (Candle ℚ)) : Prop where
  stopTried : ∀ i candle close, candles[i]? = some candle → candle.low ≤ close → close ≤ candle.high →
    b.atBar strategy strategyState symbol warmup (candles.set i { candle with close := close }) i
        b.stopTried =
      b.atBar strategy strategyState symbol warmup candles i b.stopTried
  stopHit : ∀ i candle close, candles[i]? = some candle → candle.low ≤ close → close ≤ candle.high →
    b.atBar strategy strategyState symbol warmup (candles.set i { candle with close := close }) i
        b.stopHit =
      b.atBar strategy strategyState symbol warmup candles i b.stopHit

variable {b} {candle : Candle ℚ} {s : Replay ℚ σ} {strategy : Strategy ℚ σ} {strategyState : σ}
  {symbol : String} {warmup i : ℕ} {candles : List (Candle ℚ)}

theorem tried_eq (candle : Candle ℚ) (s : Replay ℚ σ) : b.tried candle s =
      if b.closeAsked candle s = none then (b.stopMoved candle s).currentPosition else none := by
  cases hclose : b.closeAsked candle s with
  | none => simp [tried, processRiskUpdate_of_none hclose]
  | some reason =>
    obtain ⟨pos, -, hupdate⟩ := processRiskUpdate_of_some hclose
    simp [tried, hupdate]

theorem ComesTo.set (h : ComesTo b strategy strategyState symbol warmup candles i candle s)
    (candle' : Candle ℚ) :
    ComesTo b strategy strategyState symbol warmup (candles.set i candle') i candle' s where
  warm := h.warm
  candle := by
    have hlt : i < candles.length := (List.getElem?_eq_some_iff.mp h.candle).1
    rw [List.getElem?_set_self hlt]
  state := by
    have hsame : (candles.set i candle').take i = candles.take i := List.take_set_of_le le_rfl
    rw [before_agree hsame le_rfl, h.state]

theorem ComesTo.atBar_eq (h : ComesTo b strategy strategyState symbol warmup candles i candle s)
    (read : Candle ℚ → Replay ℚ σ → Option ℚ) :
    b.atBar strategy strategyState symbol warmup candles i read = read candle s := by
  rw [atBar, h.candle, h.state]
  exact if_pos h.warm

theorem atBar_set_eq_iff {candle' : Candle ℚ} (hcandle : candles[i]? = some candle)
    (read : Candle ℚ → Replay ℚ σ → Option ℚ) :
    b.atBar strategy strategyState symbol warmup (candles.set i candle') i read =
        b.atBar strategy strategyState symbol warmup candles i read ↔
      ∀ s, ComesTo b strategy strategyState symbol warmup candles i candle s →
        read candle' s = read candle s := by
  constructor
  · intro hsame s h
    rwa [(h.set candle').atBar_eq, h.atBar_eq] at hsame
  · intro hsame
    by_cases hcomes : ∃ s, ComesTo b strategy strategyState symbol warmup candles i candle s
    · obtain ⟨s, h⟩ := hcomes
      rw [(h.set candle').atBar_eq, h.atBar_eq, hsame s h]
    · have hagree : (candles.set i candle').take i = candles.take i := List.take_set_of_le le_rfl
      have hlt : i < candles.length := (List.getElem?_eq_some_iff.mp hcandle).1
      rw [atBar, atBar, List.getElem?_set_self hlt, hcandle, before_agree hagree le_rfl]
      cases hran : b.before strategy strategyState symbol warmup candles i with
      | mk s result =>
        cases result with
        | error e => rfl
        | ok a =>
          have hcold : ¬ warmup ≤ i := fun hwarm => hcomes ⟨s, hwarm, hcandle, hran⟩
          simp [hcold]

/-- The risk manager keeps the stop of the position. -/
def StopsAgree (s : Replay ℚ σ) : Prop :=
  ∀ pos state, s.currentPosition = some pos → s.riskState = some state → state.currentStopLoss = pos.stopLoss

theorem stopsAgree_opened (s : Replay ℚ σ) (signal : Signal ℚ) : StopsAgree (b.opened s signal symbol candle) := by
  intro pos state hpos hstate
  simp only [opened] at hpos hstate
  rw [hpos] at hstate
  unfold initRiskState at hstate
  split at hstate
  · rename_i held _ hheld _
    cases hheld
    rw [← Option.some.inj hstate, RiskManager.initPosition]
  · cases hstate

theorem StopsAgree.stopMoved (h : StopsAgree s) : StopsAgree (b.stopMoved candle s) := by
  rw [Backtester.stopMoved]
  cases hupdate : b.riskUpdate candle s with
  | none => exact h
  | some answer =>
    obtain ⟨pos, u⟩ := answer
    obtain ⟨config, state, hpos, hconfig, hstate, rfl⟩ := riskUpdate_eq_some_iff.mp hupdate
    intro pos' state' hpos' hstate'
    obtain rfl := Option.some.inj hpos'
    obtain rfl := Option.some.inj hstate'
    rw [(RiskManager.update_answers config state candle).currentStopLoss, h pos state hpos hstate]

theorem StopsAgree.turn (h : StopsAgree s) (window : List (Candle ℚ)) :
    StopsAgree (b.turn strategy symbol window candle s) := by
  have hkept : StopsAgree (b.managePositionOrEntry strategy symbol window candle (b.stopMoved candle s)) := by
    have hmanaged := b.managed strategy symbol window candle (b.stopMoved candle s)
    generalize b.managePositionOrEntry strategy symbol window candle (b.stopMoved candle s) = managed
      at hmanaged ⊢
    cases hmanaged with
    | hit pos reason exitPrice _ _ =>
      intro _ _ hnone
      cases hnone
    | reversed pos signal s' _ _ _ _ => exact stopsAgree_opened _ _
    | kept pos signal s' _ _ hasked _ =>
      obtain ⟨hpos', hstate', -⟩ := asked_keeps hasked
      have hmoved : StopsAgree (b.stopMoved candle s) := h.stopMoved
      intro pos state hpos hstate
      exact hmoved pos state (hpos'.symm.trans hpos) (hstate'.symm.trans hstate)
    | entered signal s' _ _ _ => exact stopsAgree_opened _ _
    | idle signal s' _ _ =>
      intro _ _ hnone
      cases hnone
  exact hkept

/-- A position that is not closed for its holding time is tried with the stop that the risk manager asks for. -/
theorem tried_of_some {config : RiskConfig ℚ} {state : PositionRiskState ℚ} {pos : Position ℚ}
    (hconfig : b.riskConfig = some config) (hpos : s.currentPosition = some pos)
    (hstate : s.riskState = some state) : b.tried candle s =
      if RiskManager.HeldTooLong config state then none else some { pos with stopLoss :=
          (RiskManager.update config state candle.close candle).2.newStopLoss.getD pos.stopLoss } := by
  have hupdate := riskUpdate_of_some hpos hconfig hstate candle
  rw [tried_eq, closeAsked_of_some hpos hconfig hstate, stopMoved, hupdate]
  by_cases hheld : RiskManager.HeldTooLong config state
  · simp [hheld]
  · simp [hheld]

/-- On a bar that the run comes to, the stop of an open position does not depend on the close. -/
def Settled (b : Backtester ℚ) (candle : Candle ℚ) (s : Replay ℚ σ) : Prop :=
  ∀ config state, b.riskConfig = some config → s.currentPosition.isSome → s.riskState = some state →
    ¬ RiskManager.HeldTooLong config state → RiskManager.StopSettled config state candle

theorem Settled.tried_eq (h : Settled b candle s) {close : ℚ} (hlow : candle.low ≤ close)
    (hhigh : close ≤ candle.high) : b.tried { candle with close := close } s = b.tried candle s := by
  cases hpos : s.currentPosition with
  | none => simp [Backtester.tried_eq, closeAsked, stopMoved, riskUpdate, hpos]
  | some pos =>
    cases hconfig : b.riskConfig with
    | none => simp [Backtester.tried_eq, closeAsked, stopMoved, riskUpdate, hconfig]
    | some config =>
      cases hstate : s.riskState with
      | none => simp [Backtester.tried_eq, closeAsked, stopMoved, riskUpdate, hstate]
      | some state =>
        rw [tried_of_some hconfig hpos hstate, tried_of_some hconfig hpos hstate]
        by_cases hheld : RiskManager.HeldTooLong config state
        · rw [if_pos hheld, if_pos hheld]
        · have hsettled := h config state hconfig (by simp [hpos]) hstate hheld
          have hsame := RiskManager.stopSettled_iff.mp hsettled close (Or.inr ⟨hlow, hhigh⟩)
          rw [if_neg hheld, if_neg hheld, hsame]

theorem settled_of_stopTried_eq (hagree : StopsAgree s)
    (hsame : ∀ close, candle.low ≤ close → close ≤ candle.high →
      b.stopTried { candle with close := close } s = b.stopTried candle s) :
    Settled b candle s := by
  intro config state hconfig hopen hstate hheld
  obtain ⟨pos, hpos⟩ := Option.isSome_iff_exists.mp hopen
  rw [RiskManager.stopSettled_iff]
  rintro close (rfl | ⟨hlow, hhigh⟩)
  · rfl
  · have hstop := hsame close hlow hhigh
    rw [stopTried, stopTried, tried_of_some hconfig hpos hstate, tried_of_some hconfig hpos hstate,
      if_neg hheld, if_neg hheld, Option.map_some, Option.map_some, Option.some.injEq] at hstop
    have hanswers := RiskManager.update_answers config state { candle with close := close }
    rw [← hagree pos state hpos hstate] at hstop
    exact hanswers.newStopLoss_eq_of_getD_eq (RiskManager.update_answers config state candle) hstop

/-- A run decides its stops before their bars exactly when the stop is settled on every bar that it comes
to. -/
theorem stopsDecidedBefore_iff (b : Backtester ℚ) (strategy : Strategy ℚ σ) (strategyState : σ)
    (symbol : String) (warmup : ℕ) (candles : List (Candle ℚ)) :
    StopsDecidedBefore b strategy strategyState symbol warmup candles ↔
      ∀ i candle s, ComesTo b strategy strategyState symbol warmup candles i candle s →
        Settled b candle s := by
  constructor
  · intro hdecided i candle s h
    have hagree : StopsAgree s := by
      apply h.invariant (P := StopsAgree)
      · intro _ _ hnone
        cases hnone
      · intro i candle s _ hs _
        exact hs.turn _
    apply settled_of_stopTried_eq hagree
    intro close hlow hhigh
    exact (atBar_set_eq_iff h.candle _).mp (hdecided.stopTried i candle close h.candle hlow hhigh) s h
  · intro hsettled
    constructor
    · intro i candle close hcandle hlow hhigh
      apply (atBar_set_eq_iff hcandle _).mpr
      intro s h
      rw [stopTried, stopTried, (hsettled i candle s h).tried_eq hlow hhigh]
    · intro i candle close hcandle hlow hhigh
      apply (atBar_set_eq_iff hcandle _).mpr
      intro s h
      rw [stopHit, stopHit, (hsettled i candle s h).tried_eq hlow hhigh]
      rfl

/-- A backtester with the default trailing stop and no stop at the entry. -/
def trailingOnly : Backtester ℚ :=
  { Backtester.default with riskConfig := some { RiskConfig.default with breakevenEnabled := false } }

/-- A bar that has gone up and closes at its high, or anywhere else within its range. -/
def rising (close : ℚ) : Candle ℚ where
  «open» := 100
  high := 110
  low := 100
  close := close
  volume := 1

/-- A bar that closes at its high moves the stop above its own low, and is stopped out by it. -/
theorem not_stopsDecidedBefore_rising : ¬ StopsDecidedBefore trailingOnly alternating false "BTC/USDT" 1
      [flatCandle 100, flatCandle 100, rising 110] := by
  intro h
  have hsame := h.stopHit 2 (rising 110) 101 rfl (by decide) (by decide)
  have hcandle : { rising 110 with close := 101 } = rising 101 := rfl
  have hmoved : trailingOnly.atBar alternating false "BTC/USDT" 1
      [flatCandle 100, flatCandle 100, rising 110] 2 trailingOnly.stopHit = some (539 / 5) := by
    decide +kernel
  have hleft : trailingOnly.atBar alternating false "BTC/USDT" 1
      ([flatCandle 100, flatCandle 100, rising 110].set 2 (rising 101)) 2 trailingOnly.stopHit = none := by
    decide +kernel
  rw [hcandle, hleft, hmoved] at hsame
  cases hsame

end Backtester

end TradingSim.Backtest
