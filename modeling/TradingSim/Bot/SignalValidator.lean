import Mathlib.Algebra.Order.AbsoluteValue.Basic
import TradingSim.Foundations.DictDelta
import TradingSim.Foundations.Run
import TradingSim.Bot.PositionManager

/-!
# The signal validator

The validator keeps a summary of what happened: the profit of one day, the number of open positions
and the last time that a signal of each symbol passed. The summary decides as the journal does, but
for one gap: recording a profit notices that the day has changed, validating a signal does not.
-/

namespace TradingSim.Bot

open Foundations
open Exchange (Numerics)

/-- What the validator reads of a strategy's signal. -/
structure CandidateSignal where
  symbol : String
  direction : Direction
  confidence : ℚ
  entryPrice : ℚ
  stopLoss : ℚ
  takeProfit : ℚ
  deriving DecidableEq

namespace CandidateSignal

def isActionable (signal : CandidateSignal) : Bool := signal.direction ≠ .neutral

def rrRatio (signal : CandidateSignal) : ℚ :=
  let (risk, reward) := match signal.direction with
    | .long => (signal.entryPrice - signal.stopLoss, signal.takeProfit - signal.entryPrice)
    | .short => (signal.stopLoss - signal.entryPrice, signal.entryPrice - signal.takeProfit)
    | .neutral => (0, 0)
  if 0 < risk ∧ 0 < reward then reward / risk else 0

end CandidateSignal

/-- The day of a time in microseconds. -/
def utcDate (time : ℤ) : ℤ := time / 86400000000

/-- A number of minutes in microseconds. -/
def minutes (n : ℤ) : ℤ := n * 60000000

structure ValidationResult where
  passed : Bool
  reason : String
  signal : CandidateSignal

structure ValidatorLimits where
  minConfidence : ℚ := 65
  minRrRatio : ℚ := 3 / 2
  maxDrawdownPct : ℚ := 8
  maxOpenPositions : ℤ := 3

structure SignalValidator where
  dailyPnl : ℚ := 0
  dailyReset : ℤ
  openPositions : ℤ := 0
  recentSignals : Dict String ℤ := Dict.empty
  validateCount : ℕ := 0

namespace SignalValidator

variable (N : Numerics) (limits : ValidatorLimits)

def resetDaily (v : SignalValidator) (now : ℤ) : SignalValidator :=
  { v with dailyPnl := 0, dailyReset := now }

/-- Recording a profit starts a new sum on a new day. -/
def updatePnl (v : SignalValidator) (now : ℤ) (pnl : ℚ) : SignalValidator :=
  let v := if utcDate now ≠ utcDate v.dailyReset then v.resetDaily now else v
  { v with dailyPnl := v.dailyPnl + pnl }

def updatePositionCount (v : SignalValidator) (count : ℤ) : SignalValidator :=
  { v with openPositions := count }

def checkConfidence (signal : CandidateSignal) : Option ValidationResult :=
  if signal.confidence < limits.minConfidence then
    some ⟨false, "Confidence " ++ N.fixed signal.confidence 1 ++ " < min " ++
      N.str limits.minConfidence, signal⟩
  else none

def checkRrRatio (signal : CandidateSignal) : Option ValidationResult :=
  if signal.rrRatio < limits.minRrRatio then
    some ⟨false, "R:R ratio " ++ N.fixed signal.rrRatio 2 ++ " < min " ++
      N.str limits.minRrRatio, signal⟩
  else none

/-- The loss as a percentage of the balance; none if there is no balance. -/
def drawdownPct (v : SignalValidator) (balance : ℚ) : ℚ :=
  if 0 < balance then |v.dailyPnl| / balance * 100 else 0

/-- Whether the recorded profit is a loss over the limit. -/
def overDrawdown (v : SignalValidator) (balance : ℚ) : Bool :=
  v.dailyPnl < 0 ∧ limits.maxDrawdownPct ≤ v.drawdownPct balance

def checkDrawdown (v : SignalValidator) (signal : CandidateSignal) (balance : ℚ) :
    Option ValidationResult :=
  if v.overDrawdown limits balance then
    some ⟨false, "Daily drawdown " ++ N.fixed (v.drawdownPct balance) 1 ++ "% >= max " ++
      N.str limits.maxDrawdownPct ++ "%", signal⟩
  else none

def checkMaxPositions (v : SignalValidator) (signal : CandidateSignal) : Option ValidationResult :=
  if limits.maxOpenPositions ≤ v.openPositions then
    some ⟨false, "Max positions reached (" ++ toString v.openPositions ++ "/" ++
      toString limits.maxOpenPositions ++ ")", signal⟩
  else none

/-- Count a validation; every tenth one forgets signals that passed long ago. -/
def countValidation (v : SignalValidator) (now : ℤ) : SignalValidator :=
  { v with
    validateCount := v.validateCount + 1
    recentSignals :=
      if (v.validateCount + 1) % 10 = 0 then
        v.recentSignals.filter fun _ time => now - time ≤ minutes 10
      else v.recentSignals }

def checkDuplicate (v : SignalValidator) (now : ℤ) (signal : CandidateSignal) :
    Option ValidationResult × SignalValidator :=
  let v := v.countValidation now
  match v.recentSignals.find? signal.symbol with
  | some lastTime =>
    if now - lastTime < minutes 5 then
      (some ⟨false, "Duplicate signal for " ++ signal.symbol ++ " (cooldown)", signal⟩, v)
    else (none, v)
  | none => (none, v)

/-- Validate a signal: all checks run, the first one that fails decides. -/
def validate (v : SignalValidator) (now : ℤ) (signal : CandidateSignal) (balance : ℚ) :
    ValidationResult × SignalValidator :=
  if signal.isActionable then
    let (duplicate, counted) := v.checkDuplicate now signal
    let checks :=
      [checkConfidence N limits signal, checkRrRatio N limits signal,
        v.checkDrawdown N limits signal balance, v.checkMaxPositions limits signal, duplicate]
    match checks.findSome? id with
    | some result => (result, counted)
    | none =>
      (⟨true, "Signal validated", signal⟩,
        { counted with recentSignals := counted.recentSignals.insert signal.symbol now })
  else (⟨false, "Signal is neutral", signal⟩, v)

/-- The signal passes every check but the one for the drawdown. -/
def PassesOtherChecks (v : SignalValidator) (now : ℤ) (signal : CandidateSignal) : Prop :=
  signal.isActionable = true ∧ checkConfidence N limits signal = none ∧
    checkRrRatio N limits signal = none ∧ v.checkMaxPositions limits signal = none ∧
      (v.checkDuplicate now signal).1 = none

/-- A recorded loss over the limit is a loss of the current day, and there is a balance. -/
def DrawdownCurrent (v : SignalValidator) (now : ℤ) (balance : ℚ) : Prop :=
  v.overDrawdown limits balance = true → utcDate v.dailyReset = utcDate now ∧ 0 < balance

end SignalValidator

/-- A call of the validator. -/
inductive ValidatorCall where
  | updatePnl (pnl : ℚ)
  | updatePositionCount (count : ℤ)
  | validate (signal : CandidateSignal) (balance : ℚ)

/-- Everything that happened: the recorded profits and the passed signals with their times, and
the last position count. -/
structure Journal where
  pnls : List (ℤ × ℚ) := []
  positionCount : ℤ := 0
  passes : List (ℤ × String) := []

namespace Journal

/-- The profits recorded on a day. -/
def dayPnl (j : Journal) (day : ℤ) : ℚ :=
  ((j.pnls.filter fun entry => utcDate entry.1 = day).map Prod.snd).sum

/-- The losses of a day are over the limit. -/
def OverDrawdown (limits : ValidatorLimits) (j : Journal) (day : ℤ) (balance : ℚ) : Prop :=
  j.dayPnl day < 0 ∧ 0 < balance ∧ limits.maxDrawdownPct ≤ -j.dayPnl day / balance * 100

/-- The signals that are to pass. -/
structure Admits (limits : ValidatorLimits) (j : Journal) (now : ℤ) (signal : CandidateSignal)
    (balance : ℚ) : Prop where
  actionable : signal.isActionable = true
  confidence : limits.minConfidence ≤ signal.confidence
  rrRatio : limits.minRrRatio ≤ signal.rrRatio
  positions : j.positionCount < limits.maxOpenPositions
  cooldown : ∀ pass ∈ j.passes, pass.2 = signal.symbol → minutes 5 ≤ now - pass.1
  drawdown : ¬ j.OverDrawdown limits (utcDate now) balance

end Journal

/-- The validator beside the journal of its calls. -/
structure ValidatorRun where
  validator : SignalValidator
  journal : Journal := {}

namespace ValidatorRun

variable (N : Numerics) (limits : ValidatorLimits)

/-- One call at a time. -/
def step (x : ValidatorRun) (call : ℤ × ValidatorCall) : ValidatorRun :=
  match call.2 with
  | .updatePnl pnl =>
    { validator := x.validator.updatePnl call.1 pnl
      journal := { x.journal with pnls := x.journal.pnls ++ [(call.1, pnl)] } }
  | .updatePositionCount count =>
    { validator := x.validator.updatePositionCount count
      journal := { x.journal with positionCount := count } }
  | .validate signal balance =>
    let (result, validator) := x.validator.validate N limits call.1 signal balance
    { validator := validator
      journal :=
        if result.passed then
          { x.journal with passes := x.journal.passes ++ [(call.1, signal.symbol)] }
        else x.journal }

/-- A validator that is set up at some time. -/
def init (start : ℤ) : ValidatorRun := { validator := { dailyReset := start } }

end ValidatorRun

/-- The validator's state summarises the journal up to a time. -/
structure Summarises (v : SignalValidator) (j : Journal) (clock : ℤ) : Prop where
  day : utcDate v.dailyReset ≤ utcDate clock
  recorded : ∀ entry ∈ j.pnls, utcDate entry.1 ≤ utcDate v.dailyReset
  pnl : v.dailyPnl = j.dayPnl (utcDate v.dailyReset)
  positions : v.openPositions = j.positionCount
  passed : ∀ pass ∈ j.passes, pass.1 ≤ clock
  remembered : ∀ symbol lastTime, v.recentSignals.find? symbol = some lastTime →
    (lastTime, symbol) ∈ j.passes ∧ ∀ pass ∈ j.passes, pass.2 = symbol → pass.1 ≤ lastTime
  forgotten : ∀ symbol, v.recentSignals.find? symbol = none →
    ∀ pass ∈ j.passes, pass.2 = symbol → minutes 10 < clock - pass.1

namespace SignalValidator

variable {N : Numerics} {limits : ValidatorLimits}

theorem checkDrawdown_eq_none_iff (v : SignalValidator) (signal : CandidateSignal) (balance : ℚ) :
    v.checkDrawdown N limits signal balance = none ↔ v.overDrawdown limits balance = false := by
  unfold checkDrawdown
  split_ifs with h <;> simp [h]

theorem rejects_of_findSome? {v : SignalValidator} {now : ℤ} {signal : CandidateSignal} {balance : ℚ}
    {result : ValidationResult} (hfind : [checkConfidence N limits signal, checkRrRatio N limits signal,
      v.checkDrawdown N limits signal balance, v.checkMaxPositions limits signal,
      (v.checkDuplicate now signal).1].findSome? id = some result) : result.passed = false := by
  obtain ⟨check, hmem, hcheck⟩ := List.exists_of_findSome?_eq_some hfind
  rw [show check = some result from hcheck] at hmem
  simp only [List.mem_cons, List.not_mem_nil, or_false] at hmem
  obtain h | h | h | h | h := hmem
  · unfold checkConfidence at h
    split_ifs at h
    cases h
    rfl
  · unfold checkRrRatio at h
    split_ifs at h
    cases h
    rfl
  · unfold checkDrawdown at h
    split_ifs at h
    cases h
    rfl
  · unfold checkMaxPositions at h
    split_ifs at h
    cases h
    rfl
  · unfold checkDuplicate at h
    simp only at h
    split at h
    · split_ifs at h
      cases h
      rfl
    · cases h

theorem passed_validate (v : SignalValidator) (now : ℤ) (signal : CandidateSignal) (balance : ℚ) :
    (v.validate N limits now signal balance).1.passed = true ↔
      v.PassesOtherChecks N limits now signal ∧ v.overDrawdown limits balance = false := by
  rw [← checkDrawdown_eq_none_iff (N := N) v signal balance]
  unfold validate PassesOtherChecks
  by_cases hactionable : signal.isActionable = true
  · rw [if_pos hactionable]
    simp only
    split
    · rename_i result hfind
      apply iff_of_false
      · simp [rejects_of_findSome? hfind]
      · rintro ⟨⟨-, hconfidence, hrr, hpositions, hduplicate⟩, hdrawdown⟩
        rw [hconfidence, hrr, hpositions, hduplicate, hdrawdown] at hfind
        cases hfind
    · rename_i hfind
      have hnone := List.findSome?_eq_none_iff.mp hfind
      simp only [List.mem_cons, List.not_mem_nil, or_false, forall_eq_or_imp, forall_eq, id] at hnone
      obtain ⟨hconfidence, hrr, hdrawdown, hpositions, hduplicate⟩ := hnone
      apply iff_of_true rfl
      exact ⟨⟨hactionable, hconfidence, hrr, hpositions, hduplicate⟩, hdrawdown⟩
  · rw [if_neg hactionable]
    apply iff_of_false
    · exact Bool.false_ne_true
    · exact fun h => hactionable h.1.1

/-- What a validation makes of the state: it counts, and remembers a signal that passes. -/
theorem validate_snd (v : SignalValidator) (now : ℤ) (signal : CandidateSignal) (balance : ℚ) :
    (v.validate N limits now signal balance).2 = if signal.isActionable then
        if (v.validate N limits now signal balance).1.passed then { v.countValidation now with
            recentSignals := (v.countValidation now).recentSignals.insert signal.symbol now }
        else v.countValidation now
      else v := by
  have hcounted : (v.checkDuplicate now signal).2 = v.countValidation now := by
    unfold checkDuplicate
    simp only
    split
    · split_ifs <;> rfl
    · rfl
  unfold validate
  by_cases hactionable : signal.isActionable = true
  · simp only [if_pos hactionable, hcounted]
    split
    · rename_i result hfind
      rw [if_neg (by simp [rejects_of_findSome? hfind])]
    · rfl
  · simp only [if_neg hactionable]

theorem find?_countValidation (v : SignalValidator) (now : ℤ) (symbol : String) :
    (v.countValidation now).recentSignals.find? symbol = v.recentSignals.find? symbol ∨
      ∃ lastTime, v.recentSignals.find? symbol = some lastTime ∧ minutes 10 < now - lastTime ∧
        (v.countValidation now).recentSignals.find? symbol = none := by
  unfold countValidation
  split_ifs
  · simp only [Dict.find?_filter]
    cases hlast : v.recentSignals.find? symbol with
    | none => exact Or.inl rfl
    | some lastTime =>
      by_cases hkept : now - lastTime ≤ minutes 10
      · exact Or.inl (by simp [Option.filter, hkept])
      · exact Or.inr ⟨lastTime, rfl, not_le.mp hkept, by simp [Option.filter, hkept]⟩
  · exact Or.inl rfl

/-- A signal is no duplicate if the last one of its symbol passed at least five minutes ago. -/
theorem checkDuplicate_eq_none_iff (v : SignalValidator) (now : ℤ) (signal : CandidateSignal) :
    (v.checkDuplicate now signal).1 = none ↔
      ∀ lastTime, v.recentSignals.find? signal.symbol = some lastTime → minutes 5 ≤ now - lastTime := by
  unfold checkDuplicate
  simp only
  rcases find?_countValidation v now signal.symbol with hsame | ⟨lastTime, hlast, hold, hnone⟩
  · rw [hsame]
    cases v.recentSignals.find? signal.symbol with
    | none => exact iff_of_true rfl fun _ h => by cases h
    | some lastTime =>
      simp only [Option.some.injEq, forall_eq']
      split_ifs with hcooldown
      · exact iff_of_false (by simp) (not_le.mpr hcooldown)
      · exact iff_of_true rfl (not_lt.mp hcooldown)
  · rw [hnone, hlast]
    apply iff_of_true rfl
    intro lastTime' h
    cases h
    unfold minutes at hold ⊢
    omega

end SignalValidator

theorem Summarises.cooldown_iff {v : SignalValidator} {j : Journal} {clock now : ℤ}
    (h : Summarises v j clock) (hclock : clock ≤ now) (symbol : String) :
    (∀ lastTime, v.recentSignals.find? symbol = some lastTime → minutes 5 ≤ now - lastTime) ↔
      ∀ pass ∈ j.passes, pass.2 = symbol → minutes 5 ≤ now - pass.1 := by
  constructor
  · intro hlast pass hpass hsymbol
    cases hfind : v.recentSignals.find? symbol with
    | none =>
      have hforgotten := h.forgotten symbol hfind pass hpass hsymbol
      unfold minutes at hforgotten ⊢
      omega
    | some lastTime =>
      have hcooled := hlast lastTime hfind
      have hle := (h.remembered symbol lastTime hfind).2 pass hpass hsymbol
      omega
  · intro hpasses lastTime hfind
    exact hpasses _ (h.remembered symbol lastTime hfind).1 rfl

theorem Summarises.passesOtherChecks_iff {N : Numerics} {limits : ValidatorLimits}
    {v : SignalValidator} {j : Journal} {clock now : ℤ} (h : Summarises v j clock)
    (hclock : clock ≤ now) (signal : CandidateSignal) : v.PassesOtherChecks N limits now signal ↔
      signal.isActionable = true ∧ limits.minConfidence ≤ signal.confidence ∧
        limits.minRrRatio ≤ signal.rrRatio ∧ j.positionCount < limits.maxOpenPositions ∧
          ∀ pass ∈ j.passes, pass.2 = signal.symbol → minutes 5 ≤ now - pass.1 := by
  unfold SignalValidator.PassesOtherChecks SignalValidator.checkConfidence
    SignalValidator.checkRrRatio SignalValidator.checkMaxPositions
  rw [SignalValidator.checkDuplicate_eq_none_iff, h.cooldown_iff hclock, h.positions]
  simp only [ite_eq_right_iff, reduceCtorEq, imp_false, not_lt, not_le]

theorem Summarises.dayPnl_eq_zero {v : SignalValidator} {j : Journal} {clock : ℤ}
    (h : Summarises v j clock) {day : ℤ} (hday : utcDate v.dailyReset < day) : j.dayPnl day = 0 := by
  have hnone : (j.pnls.filter fun entry => utcDate entry.1 = day) = [] := by
    apply List.filter_eq_nil_iff.mpr
    intro entry hentry
    have hrecorded := h.recorded entry hentry
    simp only [decide_eq_true_eq]
    omega
  rw [Journal.dayPnl, hnone, List.map_nil, List.sum_nil]

/-- A later day starts no earlier. -/
theorem utcDate_mono {clock now : ℤ} (h : clock ≤ now) : utcDate clock ≤ utcDate now :=
  Int.ediv_le_ediv (by decide) h

/-- The recorded loss is over the limit as the losses of the day are, exactly if it is current. -/
theorem Summarises.overDrawdown_iff {limits : ValidatorLimits} {v : SignalValidator} {j : Journal}
    {clock now : ℤ} (h : Summarises v j clock) (hclock : clock ≤ now) (balance : ℚ) :
    (v.overDrawdown limits balance = true ↔ j.OverDrawdown limits (utcDate now) balance) ↔
      v.DrawdownCurrent limits now balance := by
  have hover : v.overDrawdown limits balance = true ↔
      v.dailyPnl < 0 ∧ limits.maxDrawdownPct ≤ v.drawdownPct balance := by
    exact decide_eq_true_iff
  unfold SignalValidator.DrawdownCurrent Journal.OverDrawdown
  rw [hover]
  rcases ((h.day.trans (utcDate_mono hclock)).eq_or_lt) with htoday | hpast
  · rw [← htoday, ← h.pnl]
    unfold SignalValidator.drawdownPct
    constructor
    · intro hiff hrecorded
      exact ⟨rfl, (hiff.mp hrecorded).2.1⟩
    · intro hcurrent
      constructor
      · intro hrecorded
        have hbalance := (hcurrent hrecorded).2
        rw [if_pos hbalance, abs_of_neg hrecorded.1] at hrecorded
        exact ⟨hrecorded.1, hbalance, hrecorded.2⟩
      · rintro ⟨hloss, hbalance, hlimit⟩
        rw [if_pos hbalance, abs_of_neg hloss]
        exact ⟨hloss, hlimit⟩
  · rw [h.dayPnl_eq_zero hpast]
    constructor
    · intro hiff hrecorded
      exact absurd (hiff.mp hrecorded).1 (lt_irrefl 0)
    · intro hcurrent
      constructor
      · intro hrecorded
        exact absurd (hcurrent hrecorded).1 hpast.ne
      · rintro ⟨hloss, -⟩
        exact absurd hloss (lt_irrefl 0)

namespace Summarises

variable {N : Numerics} {limits : ValidatorLimits} {v : SignalValidator} {j : Journal} {clock now : ℤ}

/-- A summary stays one while time passes. -/
theorem mono (h : Summarises v j clock) (hclock : clock ≤ now) : Summarises v j now where
  day := h.day.trans (utcDate_mono hclock)
  recorded := h.recorded
  pnl := h.pnl
  positions := h.positions
  passed := fun pass hpass => (h.passed pass hpass).trans hclock
  remembered := h.remembered
  forgotten := by
    intro symbol hnone pass hpass hsymbol
    have hforgotten := h.forgotten symbol hnone pass hpass hsymbol
    omega

/-- Recording a profit adds it to the day's sum, or starts the sum of a new day. -/
theorem updatePnl (h : Summarises v j now) (pnl : ℚ) :
    Summarises (v.updatePnl now pnl) { j with pnls := j.pnls ++ [(now, pnl)] } now := by
  have hsum : ∀ day, Journal.dayPnl { j with pnls := j.pnls ++ [(now, pnl)] } day =
      j.dayPnl day + if utcDate now = day then pnl else 0 := by
    intro day
    unfold Journal.dayPnl
    by_cases hday : utcDate now = day <;> simp [hday]
  unfold SignalValidator.updatePnl
  split_ifs with hday
  · -- the first profit of a new day
    have hpast : utcDate v.dailyReset < utcDate now := lt_of_le_of_ne h.day (Ne.symm hday)
    refine ⟨le_refl _, ?_, ?_, h.positions, h.passed, h.remembered, h.forgotten⟩
    · intro entry hentry
      rcases List.mem_append.mp hentry with hold | hnew
      · exact (h.recorded entry hold).trans hpast.le
      · rw [List.mem_singleton.mp hnew]
        exact le_refl _
    · change 0 + pnl = Journal.dayPnl _ (utcDate now)
      rw [hsum, h.dayPnl_eq_zero hpast, if_pos rfl]
  · have htoday : utcDate now = utcDate v.dailyReset := not_not.mp hday
    refine ⟨h.day, ?_, ?_, h.positions, h.passed, h.remembered, h.forgotten⟩
    · intro entry hentry
      rcases List.mem_append.mp hentry with hold | hnew
      · exact h.recorded entry hold
      · rw [List.mem_singleton.mp hnew]
        exact htoday.le
    · change v.dailyPnl + pnl = Journal.dayPnl _ (utcDate v.dailyReset)
      rw [hsum, h.pnl, if_pos htoday]

theorem countValidation (h : Summarises v j now) : Summarises (v.countValidation now) j now where
  day := h.day
  recorded := h.recorded
  pnl := h.pnl
  positions := h.positions
  passed := h.passed
  remembered := by
    intro symbol lastTime hfind
    rcases v.find?_countValidation now symbol with hsame | ⟨_, -, -, hnone⟩
    · exact h.remembered symbol lastTime (hsame ▸ hfind)
    · rw [hnone] at hfind
      cases hfind
  forgotten := by
    intro symbol hnone pass hpass hsymbol
    rcases v.find?_countValidation now symbol with hsame | ⟨lastTime, hlast, hold, -⟩
    · exact h.forgotten symbol (hsame ▸ hnone) pass hpass hsymbol
    · have hle := (h.remembered symbol lastTime hlast).2 pass hpass hsymbol
      omega

/-- A signal that passes is the last one of its symbol. -/
theorem insert (h : Summarises v j now) (symbol : String) :
    Summarises { v with recentSignals := v.recentSignals.insert symbol now }
      { j with passes := j.passes ++ [(now, symbol)] } now where
  day := h.day
  recorded := h.recorded
  pnl := h.pnl
  positions := h.positions
  passed := by
    intro pass hpass
    rcases List.mem_append.mp hpass with hold | hnew
    · exact h.passed pass hold
    · rw [List.mem_singleton.mp hnew]
  remembered := by
    intro symbol' lastTime hfind
    rw [Dict.find?_insert] at hfind
    split_ifs at hfind with hsymbol
    · cases hfind
      subst hsymbol
      refine ⟨List.mem_append_right _ (List.mem_singleton.mpr rfl), ?_⟩
      intro pass hpass _
      rcases List.mem_append.mp hpass with hold | hnew
      · exact h.passed pass hold
      · rw [List.mem_singleton.mp hnew]
    · obtain ⟨hmem, hmax⟩ := h.remembered symbol' lastTime hfind
      refine ⟨List.mem_append_left _ hmem, ?_⟩
      intro pass hpass hsymbol'
      rcases List.mem_append.mp hpass with hold | hnew
      · exact hmax pass hold hsymbol'
      · rw [List.mem_singleton.mp hnew] at hsymbol'
        exact absurd hsymbol'.symm hsymbol
  forgotten := by
    intro symbol' hnone pass hpass hsymbol'
    rw [Dict.find?_insert] at hnone
    split_ifs at hnone with hsymbol
    rcases List.mem_append.mp hpass with hold | hnew
    · exact h.forgotten symbol' hnone pass hold hsymbol'
    · rw [List.mem_singleton.mp hnew] at hsymbol'
      exact absurd hsymbol'.symm hsymbol

/-- Every call keeps the summary. -/
theorem step {x : ValidatorRun} (h : Summarises x.validator x.journal clock)
    {call : ℤ × ValidatorCall} (hclock : clock ≤ call.1) :
    Summarises (x.step N limits call).validator (x.step N limits call).journal call.1 := by
  obtain ⟨now, call⟩ := call
  have hnow := h.mono hclock
  cases call with
  | updatePnl pnl => exact hnow.updatePnl pnl
  | updatePositionCount count =>
    exact { hnow with positions := rfl }
  | validate signal balance =>
    simp only [ValidatorRun.step, SignalValidator.validate_snd]
    by_cases hpassed : (x.validator.validate N limits now signal balance).1.passed = true
    · have hactionable : signal.isActionable = true :=
        ((SignalValidator.passed_validate _ _ _ _).mp hpassed).1.1
      rw [if_pos hactionable, if_pos hpassed, if_pos hpassed]
      exact hnow.countValidation.insert signal.symbol
    · split_ifs
      · exact hnow.countValidation
      · exact hnow

/-- After calls at times that do not decrease the state is still a summary. -/
theorem run {x : ValidatorRun} (h : Summarises x.validator x.journal clock)
    {calls : List (ℤ × ValidatorCall)} (htimes : (clock :: calls.map Prod.fst ++ [now]).Pairwise (· ≤ ·)) :
    Summarises (Foundations.run (ValidatorRun.step N limits) x calls).validator
      (Foundations.run (ValidatorRun.step N limits) x calls).journal now := by
  induction calls generalizing x clock with
  | nil => exact h.mono ((List.pairwise_pair).mp htimes)
  | cons call rest ih =>
    obtain ⟨hfirst, hrest⟩ := List.pairwise_cons.mp htimes
    exact ih (h.step (hfirst call.1 List.mem_cons_self)) hrest

end Summarises

namespace ValidatorRun

theorem summarises_init (start : ℤ) : Summarises (init start).validator (init start).journal start where
  day := le_refl _
  recorded := List.forall_mem_nil _
  pnl := rfl
  positions := rfl
  passed := List.forall_mem_nil _
  remembered := fun _ _ h => by cases h
  forgotten := fun _ _ _ h => by cases h

/-- After any calls, the validator passes the signals that it is to pass, exactly if the loss that it
checks is current or another check rejects the signal. -/
theorem passed_iff_admits_iff (N : Numerics) (limits : ValidatorLimits) (start : ℤ)
    (calls : List (ℤ × ValidatorCall)) (now : ℤ)
    (htimes : (start :: calls.map Prod.fst ++ [now]).Pairwise (· ≤ ·)) (signal : CandidateSignal)
    (balance : ℚ) : (((run (step N limits) (init start) calls).validator.validate N limits now signal
          balance).1.passed = true ↔
        (run (step N limits) (init start) calls).journal.Admits limits now signal balance) ↔
      ((run (step N limits) (init start) calls).validator.PassesOtherChecks N limits now signal →
        (run (step N limits) (init start) calls).validator.DrawdownCurrent limits now balance) := by
  have hsummary : Summarises (run (step N limits) (init start) calls).validator
      (run (step N limits) (init start) calls).journal now := (summarises_init start).run htimes
  generalize run (step N limits) (init start) calls = x at hsummary
  have hadmits : x.journal.Admits limits now signal balance ↔
      x.validator.PassesOtherChecks N limits now signal ∧
        ¬ x.journal.OverDrawdown limits (utcDate now) balance := by
    rw [hsummary.passesOtherChecks_iff (le_refl now)]
    constructor
    · rintro ⟨hactionable, hconfidence, hrr, hpositions, hcooldown, hdrawdown⟩
      exact ⟨⟨hactionable, hconfidence, hrr, hpositions, hcooldown⟩, hdrawdown⟩
    · rintro ⟨⟨hactionable, hconfidence, hrr, hpositions, hcooldown⟩, hdrawdown⟩
      exact ⟨hactionable, hconfidence, hrr, hpositions, hcooldown, hdrawdown⟩
  rw [SignalValidator.passed_validate, hadmits, ← hsummary.overDrawdown_iff (le_refl now),
    ← Bool.not_eq_true]
  tauto

/-- A loss of ten percent, recorded one hour after midnight. -/
def lossRecorded : List (ℤ × ValidatorCall) := [(3600000000, .updatePnl (-1000))]

def soundSignal : CandidateSignal where
  symbol := "BTC/USDT"
  direction := .long
  confidence := 80
  entryPrice := 100
  stopLoss := 98
  takeProfit := 106

/-- The equivalence at the next midnight. -/
theorem passed_iff_admits_iff_lossRecorded :
    ((((run (step Numerics.decimal {}) (init 0) lossRecorded).validator.validate Numerics.decimal {}
          86400000000 soundSignal 10000).1.passed = true ↔
        (run (step Numerics.decimal {}) (init 0) lossRecorded).journal.Admits {} 86400000000
          soundSignal 10000) ↔
      ((run (step Numerics.decimal {}) (init 0) lossRecorded).validator.PassesOtherChecks
          Numerics.decimal {} 86400000000 soundSignal →
        (run (step Numerics.decimal {}) (init 0) lossRecorded).validator.DrawdownCurrent {}
          86400000000 10000)) :=
  passed_iff_admits_iff Numerics.decimal {} 0 lossRecorded 86400000000 (by decide) soundSignal 10000

/-- At the next midnight the validator still rejects for the loss of the day before. -/
theorem not_passed_iff_admits_lossRecorded :
    ¬ ((((run (step Numerics.decimal {}) (init 0) lossRecorded).validator.validate Numerics.decimal {}
          86400000000 soundSignal 10000).1.passed = true ↔
        (run (step Numerics.decimal {}) (init 0) lossRecorded).journal.Admits {} 86400000000
          soundSignal 10000)) := by
  intro h
  have hrejected : ((run (step Numerics.decimal {}) (init 0) lossRecorded).validator.validate
      Numerics.decimal {} 86400000000 soundSignal 10000).1.passed = false := by decide +kernel
  have hadmits : (run (step Numerics.decimal {}) (init 0) lossRecorded).journal.Admits {} 86400000000
      soundSignal 10000 := by
    refine ⟨rfl, by decide +kernel, by decide +kernel, by decide +kernel, List.forall_mem_nil _, ?_⟩
    rintro ⟨hloss, -⟩
    revert hloss
    decide +kernel
  rw [h.mpr hadmits] at hrejected
  cases hrejected

end ValidatorRun

end TradingSim.Bot
