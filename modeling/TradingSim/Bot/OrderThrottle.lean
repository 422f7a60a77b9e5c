import Mathlib.Data.Fintype.Basic
import TradingSim.Bot.RiskManager
import TradingSim.Foundations.MachineIntegers
import TradingSim.Foundations.Run

/-!
# The order rate throttle under concurrent checks

`check_order` runs on several threads at once. Past its other checks it reads the clock, loads the
start of the window, moves the start with a compare-exchange if a second has passed, stores a zero in
the counter if the exchange succeeded, and adds one to the counter. Each of these is an atomic step,
and the steps of the threads interleave in any order.

Moving the window and storing the zero are two steps.
-/

namespace TradingSim.Bot

open Foundations
open Exchange (Side)

/-- The arguments of `check_order`. -/
structure OrderCheck where
  symbol : String
  side : Side
  quantity : ℚ
  price : ℚ
  leverage : ℤ
  currentEquity : ℚ
  availableMargin : ℚ
  currentPositionQty : ℚ

namespace RiskParams

variable (p : RiskParams)

/-- The checks before the throttle: the first one that fails. -/
def precheck (r : RiskManager) (peakEquity : ℚ) (o : OrderCheck) : Option CheckResult :=
  let newPositionQty := match o.side with
    | .buy => o.currentPositionQty + o.quantity
    | .sell => o.currentPositionQty - o.quantity
  if o.symbol ∈ p.blacklistedSymbols then some ⟨false, "Symbol blacklisted", 6⟩
  else if p.maxLeverage < o.leverage then some ⟨false, "Leverage exceeds max", 7⟩
  else if p.maxQty o.symbol < |newPositionQty| then some ⟨false, "Position size exceeds limit", 1⟩
  else if p.maxTotalExposure < r.totalExposure + o.quantity * o.price then
    some ⟨false, "Total exposure exceeds limit", 2⟩
  else if r.dailyPnl < -p.dailyLossLimit then some ⟨false, "Daily loss limit reached", 3⟩
  else if 0 < peakEquity ∧ p.maxDrawdownPct < 1 - o.currentEquity / peakEquity then
    some ⟨false, "Max drawdown exceeded", 3⟩
  else none

/-- The throttle and the check after it, at the value that the counter had. -/
def countedCheck (counted : ℤ) (o : OrderCheck) : CheckResult :=
  if p.maxOrdersPerSecond ≤ counted then ⟨false, "Order rate limit exceeded", 4⟩
  else if o.availableMargin < o.quantity * o.price / max 1 o.leverage then
    ⟨false, "Insufficient margin", 5⟩
  else ⟨true, "OK", 0⟩

end RiskParams

/-- Where a thread stands in the throttle. -/
inductive ThrottleStage
  | idle
  /-- Past the other checks, about to read the clock. -/
  | checked (o : OrderCheck)
  /-- About to load the start of the window. -/
  | clocked (o : OrderCheck) (now : ℤ)
  /-- About to move the start of the window. -/
  | expired (o : OrderCheck) (now start : ℤ)
  /-- Has moved the start of the window and is about to clear the counter. -/
  | moved (o : OrderCheck)
  /-- About to count its order. -/
  | counting (o : OrderCheck)

/-- The thread has moved the window and not yet cleared the counter. -/
def ThrottleStage.clears : ThrottleStage → Bool
  | .moved _ => true
  | _ => false

/-- The next step of the thread counts its order. -/
def ThrottleStage.counts : ThrottleStage → Bool
  | .counting _ => true
  | _ => false

/-- What is seen of the throttle: a window that was reset at a reading of the clock, or an order that
passed. -/
inductive ThrottleMark
  | reset (now : ℤ)
  | pass
  deriving DecidableEq

/-- The reading of a reset. -/
def ThrottleMark.resetTime : ThrottleMark → Option ℤ
  | .reset now => some now
  | .pass => none

/-- The throttle with its threads, the results that calls have returned and the marks, the last one
first. -/
structure OrderThrottle (T : Type) where
  rateWindowStart : ℤ
  ordersThisSecond : ℤ := 0
  clock : ℤ
  stage : T → ThrottleStage := fun _ => .idle
  results : List (T × CheckResult) := []
  marks : List ThrottleMark := []

/-- What happens: time passes, an idle thread calls `check_order`, or a thread takes its next step in the
throttle. -/
inductive ThrottleEvent (T : Type)
  | tick (elapsed : ℕ)
  | call (t : T) (r : RiskManager) (peakEquity : ℚ) (o : OrderCheck)
  | step (t : T)

namespace OrderThrottle

variable {T : Type}

/-- How many orders have passed since the last reset of the window. -/
def passes (x : OrderThrottle T) : ℕ := (x.marks.takeWhile (· = .pass)).length

/-- The readings at which the window was reset, the last one first. -/
def resetTimes (x : OrderThrottle T) : List ℤ := x.marks.filterMap ThrottleMark.resetTime

/-- The throttle does what it is for: no more orders than the limit have passed since the last reset,
and from each reset to the next one a second has passed. -/
structure Throttles (p : RiskParams) (x : OrderThrottle T) : Prop where
  bounded : (x.passes : ℤ) ≤ max 0 p.maxOrdersPerSecond
  spaced : x.resetTimes.IsChain fun later earlier => earlier + 1000000000 ≤ later

/-- Some thread has moved the window and not yet cleared the counter. -/
def Clearing (x : OrderThrottle T) : Prop := ∃ t, (x.stage t).clears

instance [Fintype T] (x : OrderThrottle T) : Decidable x.Clearing :=
  inferInstanceAs (Decidable (∃ t, (x.stage t).clears))

/-- The event counts no order on a counter that has wrapped, and lets none pass between the move of a
window and the clearing of the counter. -/
def Orderly (p : RiskParams) (x : OrderThrottle T) : ThrottleEvent T → Prop
  | .step t => (x.stage t).counts →
      0 ≤ x.ordersThisSecond ∧ (x.Clearing → p.maxOrdersPerSecond ≤ x.ordersThisSecond)
  | _ => True

instance [Fintype T] (p : RiskParams) (x : OrderThrottle T) :
    (e : ThrottleEvent T) → Decidable (x.Orderly p e)
  | .step t => inferInstanceAs (Decidable ((x.stage t).counts → _ ∧ (_ → _)))
  | .tick _ => isTrue trivial
  | .call .. => isTrue trivial

theorem passes_congr {x y : OrderThrottle T} (h : y.marks = x.marks) : y.passes = x.passes := by
  rw [passes, passes, h]

theorem passes_pass {x : OrderThrottle T} {ms : List ThrottleMark} (h : x.marks = .pass :: ms) :
    x.passes = (ms.takeWhile (· = .pass)).length + 1 := by
  rw [passes, h, List.takeWhile_cons_of_pos (by decide), List.length_cons]

theorem passes_reset {x : OrderThrottle T} {now : ℤ} {ms : List ThrottleMark}
    (h : x.marks = .reset now :: ms) : x.passes = 0 := by
  rw [passes, h, List.takeWhile_cons_of_neg (by simp), List.length_nil]

/-- The risk manager is constructed at a reading of the clock. -/
def init (now : ℤ) : OrderThrottle T where
  rateWindowStart := now
  clock := now

/-- The start of the window is the reading of the last reset, and a thread about to move it has read the
clock a second after the start that it loaded. -/
structure Spaced (x : OrderThrottle T) : Prop where
  spaced : x.resetTimes.IsChain fun later earlier => earlier + 1000000000 ≤ later
  latest : ∀ now ∈ x.resetTimes.head?, x.rateWindowStart = now
  expired : ∀ t o now start, x.stage t = .expired o now start → start + 1000000000 ≤ now

theorem spaced_init (now : ℤ) : (init now : OrderThrottle T).Spaced where
  spaced := List.isChain_nil
  latest _ h := nomatch h
  expired _ _ _ _ h := nomatch h

/-- A state with the same window, marks and stages keeps the windows as far apart. -/
theorem Spaced.congr {x y : OrderThrottle T} (h : x.Spaced) (hstart : y.rateWindowStart = x.rateWindowStart)
    (hmarks : y.resetTimes = x.resetTimes) (hstage : y.stage = x.stage) : y.Spaced := by
  refine ⟨?_, ?_, ?_⟩
  · rw [hmarks]
    exact h.spaced
  · rw [hmarks, hstart]
    exact h.latest
  · rw [hstage]
    exact h.expired

/-- After a reset nothing has passed until the counter is cleared, and from then on no more than the
counter says. -/
structure Bounded (p : RiskParams) (x : OrderThrottle T) : Prop where
  bounded : (x.passes : ℤ) ≤ max 0 p.maxOrdersPerSecond
  small : x.ordersThisSecond < 2 ^ 31
  clearing : x.Clearing → x.passes = 0
  counted : ¬ x.Clearing → 0 ≤ x.ordersThisSecond → (x.passes : ℤ) ≤ x.ordersThisSecond

/-- A step that leaves the counter, the marks and the threads that clear the counter alone. -/
theorem Bounded.congr {p : RiskParams} {x y : OrderThrottle T} (h : x.Bounded p)
    (hcounter : y.ordersThisSecond = x.ordersThisSecond) (hmarks : y.marks = x.marks)
    (hclearing : y.Clearing ↔ x.Clearing) : y.Bounded p := by
  have hpasses : y.passes = x.passes := passes_congr hmarks
  refine ⟨?_, ?_, ?_, ?_⟩
  · rw [hpasses]
    exact h.bounded
  · rw [hcounter]
    exact h.small
  · rw [hpasses, hclearing]
    exact h.clearing
  · rw [hpasses, hclearing, hcounter]
    exact h.counted

theorem bounded_init (p : RiskParams) (now : ℤ) : (init now : OrderThrottle T).Bounded p where
  bounded := le_max_left _ _
  small := by norm_num [init]
  clearing := fun ⟨_, h⟩ => nomatch h
  counted _ h := h

variable [DecidableEq T]

/-- A thread is at another stage. -/
def goTo (x : OrderThrottle T) (t : T) (stage : ThrottleStage) : OrderThrottle T :=
  { x with stage := Function.update x.stage t stage }

/-- A call: it returns if one of the other checks fails. -/
def call (p : RiskParams) (x : OrderThrottle T) (t : T) (r : RiskManager) (peakEquity : ℚ)
    (o : OrderCheck) : OrderThrottle T :=
  match p.precheck r peakEquity o with
  | some result => { x with results := (t, result) :: x.results }
  | none => x.goTo t (.checked o)

/-- The addition to the counter, and what the thread returns on the value that it had. -/
def count (p : RiskParams) (x : OrderThrottle T) (t : T) (o : OrderCheck) : OrderThrottle T :=
  { x.goTo t .idle with
    ordersThisSecond := wrap32 (x.ordersThisSecond + 1)
    results := (t, p.countedCheck x.ordersThisSecond o) :: x.results
    marks := if x.ordersThisSecond < p.maxOrdersPerSecond then .pass :: x.marks else x.marks }

/-- The compare-exchange on the start of the window. -/
def moveWindow (x : OrderThrottle T) (t : T) (o : OrderCheck) (now start : ℤ) : OrderThrottle T :=
  if x.rateWindowStart = start then
    { x.goTo t (.moved o) with
      rateWindowStart := now
      marks := .reset now :: x.marks }
  else x.goTo t (.counting o)

/-- The next step of a thread. -/
def advance (p : RiskParams) (x : OrderThrottle T) (t : T) : OrderThrottle T :=
  match x.stage t with
  | .idle => x
  | .checked o => x.goTo t (.clocked o x.clock)
  | .clocked o now =>
    if 1000000000 ≤ now - x.rateWindowStart then x.goTo t (.expired o now x.rateWindowStart)
    else x.goTo t (.counting o)
  | .expired o now start => x.moveWindow t o now start
  | .moved o => { x.goTo t (.counting o) with ordersThisSecond := 0 }
  | .counting o => x.count p t o

def step (p : RiskParams) (x : OrderThrottle T) : ThrottleEvent T → OrderThrottle T
  | .tick elapsed => { x with clock := x.clock + elapsed }
  | .call t r peakEquity o =>
    match x.stage t with
    | .idle => x.call p t r peakEquity o
    | _ => x
  | .step t => x.advance p t

variable {p : RiskParams} {x : OrderThrottle T} {t : T}

/-! ### Stages -/

@[simp] theorem stage_goTo_self (x : OrderThrottle T) (t : T) (stage : ThrottleStage) :
    (x.goTo t stage).stage t = stage := Function.update_self ..

theorem stage_goTo_of_ne {t' : T} (hne : t' ≠ t) (stage : ThrottleStage) :
    (x.goTo t stage).stage t' = x.stage t' := Function.update_of_ne hne ..

/-- A step between stages that are not about to clear the counter changes nothing about who is. -/
theorem clearing_goTo {stage : ThrottleStage} (hold : (x.stage t).clears = false)
    (hnew : stage.clears = false) : (x.goTo t stage).Clearing ↔ x.Clearing := by
  constructor
  · rintro ⟨t', hclears⟩
    by_cases heq : t' = t
    · rw [heq, stage_goTo_self, hnew] at hclears
      cases hclears
    · rw [stage_goTo_of_ne heq] at hclears
      exact ⟨t', hclears⟩
  · rintro ⟨t', hclears⟩
    have hne : t' ≠ t := by
      rintro rfl
      rw [hold] at hclears
      cases hclears
    refine ⟨t', ?_⟩
    rw [stage_goTo_of_ne hne]
    exact hclears

/-! ### Windows -/

/-- Going to a stage keeps the windows apart if that stage has checked the time. -/
theorem Spaced.goTo (h : x.Spaced) (t : T) {stage : ThrottleStage}
    (hstage : ∀ o now start, stage = .expired o now start → start + 1000000000 ≤ now) :
    (x.goTo t stage).Spaced := by
  refine ⟨h.spaced, h.latest, ?_⟩
  intro t' o now start hexpired
  by_cases heq : t' = t
  · subst heq
    rw [stage_goTo_self] at hexpired
    exact hstage o now start hexpired
  · rw [stage_goTo_of_ne heq] at hexpired
    exact h.expired t' o now start hexpired

theorem Spaced.count (h : x.Spaced) (p : RiskParams) (t : T) (o : OrderCheck) :
    (x.count p t o).Spaced := by
  have hgone : (x.goTo t .idle).Spaced := h.goTo t fun _ _ _ hc => nomatch hc
  refine hgone.congr rfl ?_ rfl
  unfold OrderThrottle.count resetTimes
  dsimp only
  split
  · exact List.filterMap_cons_none rfl
  · rfl

variable {o : OrderCheck} {now start : ℤ}

theorem Spaced.moveWindow (h : x.Spaced) (o : OrderCheck)
    (hexpired : start + 1000000000 ≤ now) : (x.moveWindow t o now start).Spaced := by
  unfold OrderThrottle.moveWindow
  split
  · rename_i hstart
    have hgone : (x.goTo t (.moved o)).Spaced := h.goTo t fun _ _ _ hc => nomatch hc
    refine ⟨?_, ?_, hgone.expired⟩
    · change (now :: x.resetTimes).IsChain _
      refine h.spaced.cons fun earlier hearlier => ?_
      rw [← h.latest earlier hearlier, hstart]
      exact hexpired
    · intro now' hnow
      exact Option.some.inj hnow
  · exact h.goTo t fun _ _ _ hc => nomatch hc

/-- The window moves by a second at least. -/
theorem Spaced.step (h : x.Spaced) (e : ThrottleEvent T) : (x.step p e).Spaced := by
  cases e with
  | tick elapsed => exact h.congr rfl rfl rfl
  | call t r peakEquity o =>
    simp only [OrderThrottle.step]
    split
    · unfold OrderThrottle.call
      split
      · exact h.congr rfl rfl rfl
      · exact h.goTo t fun _ _ _ hc => nomatch hc
    · exact h
  | step t =>
    simp only [OrderThrottle.step]
    unfold advance
    split
    · exact h
    · exact h.goTo t fun _ _ _ hc => nomatch hc
    · split
      · rename_i o now _ helapsed
        refine h.goTo t fun o' now' start' heq => ?_
        cases heq
        linarith
      · exact h.goTo t fun _ _ _ hc => nomatch hc
    · rename_i o now start hstage
      exact h.moveWindow o (h.expired t o now start hstage)
    · rename_i o _
      have hgone : (x.goTo t (.counting o)).Spaced := h.goTo t fun _ _ _ hc => nomatch hc
      exact hgone.congr rfl rfl rfl
    · exact h.count p t _

/-! ### Passes -/

theorem Bounded.count (h : x.Bounded p) (hstage : x.stage t = .counting o) (hcounter : 0 ≤ x.ordersThisSecond)
    (hfull : x.Clearing → p.maxOrdersPerSecond ≤ x.ordersThisSecond) : (x.count p t o).Bounded p := by
  have hclearing : (x.count p t o).Clearing ↔ x.Clearing := by
    refine clearing_goTo ?_ rfl
    rw [hstage]
    rfl
  have hsmall : (x.count p t o).ordersThisSecond < 2 ^ 31 := wrap32_lt _
  by_cases hpass : x.ordersThisSecond < p.maxOrdersPerSecond
  · have hclear : ¬ x.Clearing := fun hc => absurd (hfull hc) (not_le.mpr hpass)
    have hpasses : (x.count p t o).passes = x.passes + 1 := passes_pass (if_pos hpass)
    have hcounted := h.counted hclear hcounter
    refine ⟨?_, hsmall, fun hc => absurd (hclearing.mp hc) hclear, fun _ hpositive => ?_⟩
    · rw [hpasses]
      omega
    · have hwrap : (x.count p t o).ordersThisSecond = x.ordersThisSecond + 1 :=
        wrap32_succ hpositive hcounter h.small
      rw [hpasses, hwrap]
      omega
  · have hpasses : (x.count p t o).passes = x.passes := passes_congr (if_neg hpass)
    refine ⟨?_, hsmall, fun hc => ?_, fun hclear hpositive => ?_⟩
    · rw [hpasses]
      exact h.bounded
    · rw [hpasses]
      exact h.clearing (hclearing.mp hc)
    · have hwrap : (x.count p t o).ordersThisSecond = x.ordersThisSecond + 1 :=
        wrap32_succ hpositive hcounter h.small
      have hcounted := h.counted (mt hclearing.mpr hclear) hcounter
      rw [hpasses, hwrap]
      omega

theorem Bounded.moveWindow (h : x.Bounded p)
    (hstage : x.stage t = .expired o now start) : (x.moveWindow t o now start).Bounded p := by
  unfold OrderThrottle.moveWindow
  split
  · refine ⟨?_, h.small, fun _ => passes_reset rfl, fun hclear _ => ?_⟩
    · rw [passes_reset rfl]
      exact le_max_left _ _
    · exact absurd ⟨t, congrArg ThrottleStage.clears (stage_goTo_self x t _)⟩ hclear
  · refine h.congr rfl rfl (clearing_goTo ?_ rfl)
    rw [hstage]
    rfl

theorem Bounded.clear (h : x.Bounded p) (hstage : x.stage t = .moved o) :
    ({ x.goTo t (.counting o) with ordersThisSecond := 0 } : OrderThrottle T).Bounded p := by
  have hnone : x.passes = 0 := h.clearing ⟨t, congrArg ThrottleStage.clears hstage⟩
  refine ⟨h.bounded, by norm_num, fun _ => hnone, fun _ _ => ?_⟩
  change (x.passes : ℤ) ≤ 0
  rw [hnone]
  exact le_refl _

/-- An orderly step lets no more orders pass in a window than it may. -/
theorem Bounded.step (h : x.Bounded p) {e : ThrottleEvent T} (horderly : x.Orderly p e) :
    (x.step p e).Bounded p := by
  cases e with
  | tick elapsed => exact h.congr rfl rfl Iff.rfl
  | call t r peakEquity o =>
    simp only [OrderThrottle.step]
    cases hstage : x.stage t with
    | idle =>
      dsimp only
      unfold OrderThrottle.call
      cases p.precheck r peakEquity o with
      | some result => exact h.congr rfl rfl Iff.rfl
      | none =>
        refine h.congr rfl rfl (clearing_goTo ?_ rfl)
        rw [hstage]
        rfl
    | _ => exact h
  | step t =>
    simp only [OrderThrottle.step]
    unfold advance
    cases hstage : x.stage t with
    | idle => exact h
    | checked o =>
      refine h.congr rfl rfl (clearing_goTo ?_ rfl)
      rw [hstage]
      rfl
    | clocked o now =>
      have hold : (x.stage t).clears = false := by
        rw [hstage]
        rfl
      dsimp only
      split
      · exact h.congr rfl rfl (clearing_goTo hold rfl)
      · exact h.congr rfl rfl (clearing_goTo hold rfl)
    | expired o now start => exact h.moveWindow hstage
    | moved o => exact h.clear hstage
    | counting o =>
      obtain ⟨hcounter, hfull⟩ := horderly (congrArg ThrottleStage.counts hstage)
      exact h.count hstage hcounter hfull

/-! ### A thread alone -/

/-- What the sequential check reads and writes. -/
def gauges (x : OrderThrottle T) (peakEquity : ℚ) : RiskGauges where
  peakEquity := peakEquity
  ordersThisSecond := x.ordersThisSecond
  rateWindowStart := x.rateWindowStart

theorem checkOrder_eq (p : RiskParams) (r : RiskManager) (g : RiskGauges) (o : OrderCheck) (now : ℤ) :
    p.checkOrder r g o.symbol o.side o.quantity o.price o.leverage o.currentEquity o.availableMargin
        o.currentPositionQty now = match p.precheck r g.peakEquity o with
      | some result => (result, g)
      | none => (p.countedCheck ((RiskParams.countOrder g now).ordersThisSecond - 1) o,
          RiskParams.countOrder g now) := by
  have hcount : ∀ n : ℤ, p.maxOrdersPerSecond < n ↔ p.maxOrdersPerSecond ≤ n - 1 := fun n => by omega
  unfold RiskParams.checkOrder RiskParams.precheck RiskParams.countedCheck
  simp only [hcount]
  cases o.side <;> split_ifs <;> rfl

theorem advance_checked (h : x.stage t = .checked o) : x.advance p t = x.goTo t (.clocked o x.clock) := by
  rw [advance, h]

theorem advance_clocked_expired {now : ℤ} (h : x.stage t = .clocked o now)
    (hexpired : 1000000000 ≤ now - x.rateWindowStart) :
    x.advance p t = x.goTo t (.expired o now x.rateWindowStart) := by
  rw [advance, h]
  exact if_pos hexpired

theorem advance_clocked_counting {now : ℤ} (h : x.stage t = .clocked o now)
    (hopen : ¬ 1000000000 ≤ now - x.rateWindowStart) : x.advance p t = x.goTo t (.counting o) := by
  rw [advance, h]
  exact if_neg hopen

theorem advance_expired (h : x.stage t = .expired o now start) :
    x.advance p t = x.moveWindow t o now start := by
  rw [advance, h]

theorem advance_moved (h : x.stage t = .moved o) :
    x.advance p t = { x.goTo t (.counting o) with ordersThisSecond := 0 } := by
  rw [advance, h]

theorem advance_counting (h : x.stage t = .counting o) : x.advance p t = x.count p t o := by
  rw [advance, h]

/-- The throttle without the marks, which no caller sees. -/
def unmarked (x : OrderThrottle T) : OrderThrottle T := { x with marks := [] }

/-- The throttle once an order was counted, with the verdict on it. -/
def counted (x : OrderThrottle T) (t : T) (g : RiskGauges) (result : CheckResult) : OrderThrottle T :=
  { x with
    rateWindowStart := g.rateWindowStart
    ordersThisSecond := g.ordersThisSecond
    results := (t, result) :: x.results }

theorem goTo_goTo (x : OrderThrottle T) (t : T) (stage stage' : ThrottleStage) :
    (x.goTo t stage).goTo t stage' = x.goTo t stage' := by
  unfold goTo
  rw [Function.update_idem]

theorem run_idle (p : RiskParams) (h : x.stage t = .idle) (n : ℕ) :
    run (step p) x (List.replicate n (.step t)) = x := by
  induction n with
  | zero => rfl
  | succ n ih =>
    have hstep : step p x (.step t) = x := by rw [step, advance, h]
    rw [List.replicate_succ, run_cons, hstep, ih]

theorem count_alone (p : RiskParams) (x : OrderThrottle T) (t : T) (o : OrderCheck) (n : ℕ)
    (hstage : x.stage t = .counting o) (hcounter : 0 ≤ x.ordersThisSecond)
    (hsmall : x.ordersThisSecond + 1 < 2 ^ 31) :
    (run (step p) x (List.replicate (n + 1) (.step t))).unmarked = ((x.goTo t .idle).counted t
      ⟨0, x.ordersThisSecond + 1, x.rateWindowStart⟩ (p.countedCheck x.ordersThisSecond o)).unmarked := by
  have hwrap : wrap32 (x.ordersThisSecond + 1) = x.ordersThisSecond + 1 :=
    wrap32_of_lt (by omega) hsmall
  have hcount : step p x (.step t) = x.count p t o := advance_counting hstage
  have hgone : (x.count p t o).stage t = .idle := stage_goTo_self x t _
  rw [List.replicate_succ, run_cons, hcount, run_idle p hgone]
  unfold count
  rw [hwrap]
  rfl

/-- The steps of a thread that is past the other checks and that no other one interrupts. -/
theorem advance_alone (p : RiskParams) (x : OrderThrottle T) (t : T) (o : OrderCheck)
    (peakEquity : ℚ) (hstage : x.stage t = .checked o) (hcounter : 0 ≤ x.ordersThisSecond)
    (hsmall : x.ordersThisSecond + 1 < 2 ^ 31) :
    let g := RiskParams.countOrder (x.gauges peakEquity) x.clock
    (run (step p) x (List.replicate 5 (.step t))).unmarked =
      ((x.goTo t .idle).counted t g (p.countedCheck (g.ordersThisSecond - 1) o)).unmarked := by
  have hclocked : x.advance p t = x.goTo t (.clocked o x.clock) := advance_checked hstage
  dsimp only
  by_cases hexpired : 1000000000 ≤ x.clock - x.rateWindowStart
  · -- the thread moves the window, clears the counter and counts its order on the cleared counter
    have hcount : RiskParams.countOrder (x.gauges peakEquity) x.clock =
        { x.gauges peakEquity with rateWindowStart := x.clock, ordersThisSecond := 1 } := if_pos hexpired
    let seen := (x.goTo t (.clocked o x.clock)).goTo t (.expired o x.clock x.rateWindowStart)
    have hseen : (x.goTo t (.clocked o x.clock)).advance p t = seen :=
      advance_clocked_expired (stage_goTo_self x t _) hexpired
    let moved : OrderThrottle T := { seen.goTo t (.moved o) with
      rateWindowStart := x.clock
      marks := .reset x.clock :: x.marks }
    have hmoved : seen.advance p t = moved :=
      (advance_expired (stage_goTo_self _ t _)).trans (if_pos rfl)
    let cleared : OrderThrottle T := { moved.goTo t (.counting o) with ordersThisSecond := 0 }
    have hcleared : moved.advance p t = cleared := advance_moved (stage_goTo_self _ t _)
    have hrun : run (step p) x (List.replicate 5 (.step t)) =
        run (step p) cleared (List.replicate (0 + 1) (.step t)) := by
      change ((((x.advance p t).advance p t).advance p t).advance p t).advance p t = _
      rw [hclocked, hseen, hmoved, hcleared]
      rfl
    rw [hrun, hcount, count_alone p cleared t o 0 (stage_goTo_self _ t _) le_rfl (by norm_num)]
    have hgone : cleared.stage = (x.goTo t (.counting o)).stage := by
      simp only [cleared, moved, seen, goTo, Function.update_idem]
    unfold counted unmarked
    simp only [goTo, hgone, Function.update_idem]
    rfl
  · have hcount : RiskParams.countOrder (x.gauges peakEquity) x.clock =
        { x.gauges peakEquity with ordersThisSecond := x.ordersThisSecond + 1 } := if_neg hexpired
    have hcounting : (x.goTo t (.clocked o x.clock)).advance p t = x.goTo t (.counting o) :=
      (advance_clocked_counting (stage_goTo_self x t _) hexpired).trans (goTo_goTo x t _ _)
    have hrun : run (step p) x (List.replicate 5 (.step t)) =
        run (step p) (x.goTo t (.counting o)) (List.replicate (2 + 1) (.step t)) := by
      change ((((x.advance p t).advance p t).advance p t).advance p t).advance p t = _
      rw [hclocked, hcounting]
      rfl
    rw [hrun, hcount, count_alone p _ t o 2 (stage_goTo_self x t _) hcounter hsmall, goTo_goTo]
    dsimp only
    rw [add_sub_cancel_right]
    rfl

/-- A call of `check_order` some time after the call before. -/
structure SerialCall (T : Type) where
  elapsed : ℕ
  thread : T
  riskManager : RiskManager
  peakEquity : ℚ
  order : OrderCheck

/-- The call and all of its steps, before anything else happens. A thread takes five steps in the
throttle at most. -/
def SerialCall.events (c : SerialCall T) : List (ThrottleEvent T) :=
  .tick c.elapsed :: .call c.thread c.riskManager c.peakEquity c.order ::
    List.replicate 5 (.step c.thread)

/-- The sequential check, made at once. -/
def checkNext (p : RiskParams) (x : OrderThrottle T) (c : SerialCall T) : OrderThrottle T :=
  let now := x.clock + c.elapsed
  let checked := p.checkOrder c.riskManager (x.gauges c.peakEquity) c.order.symbol c.order.side
    c.order.quantity c.order.price c.order.leverage c.order.currentEquity c.order.availableMargin
    c.order.currentPositionQty now
  { x with clock := now }.counted c.thread checked.2 checked.1

/-- A call that no other one interrupts does what the sequential check does. -/
theorem unmarked_events (p : RiskParams) (x : OrderThrottle T) (c : SerialCall T)
    (hidle : x.stage c.thread = .idle) (hcounter : 0 ≤ x.ordersThisSecond)
    (hsmall : x.ordersThisSecond + 1 < 2 ^ 31) :
    (run (step p) x c.events).unmarked = (checkNext p x c).unmarked := by
  set y : OrderThrottle T := { x with clock := x.clock + c.elapsed } with hy
  have hcall : step p y (.call c.thread c.riskManager c.peakEquity c.order) =
      y.call p c.thread c.riskManager c.peakEquity c.order := by
    rw [step, show y.stage c.thread = .idle from hidle]
  have hpeak : (x.gauges c.peakEquity).peakEquity = c.peakEquity := rfl
  have hevents : run (step p) x c.events = run (step p)
      (y.call p c.thread c.riskManager c.peakEquity c.order) (List.replicate 5 (.step c.thread)) := by
    rw [← hcall]
    rfl
  rw [hevents, checkNext, checkOrder_eq, call, hpeak]
  cases p.precheck c.riskManager c.peakEquity c.order with
  | some result =>
    have hgone : ({ y with results := (c.thread, result) :: y.results } : OrderThrottle T).stage c.thread =
      .idle := hidle
    exact congrArg unmarked (run_idle p hgone 5)
  | none =>
    dsimp only
    rw [advance_alone p (y.goTo c.thread (.checked c.order)) c.thread c.order c.peakEquity
      (stage_goTo_self y _ _) hcounter hsmall, goTo_goTo]
    have hstage : y.goTo c.thread .idle = y := by
      unfold goTo
      rw [← hidle]
      exact congrArg (fun stage => { y with stage := stage }) (Function.update_eq_self _ _)
    rw [hstage]
    rfl

theorem countOrder_bounds (g : RiskGauges) (now : ℤ) (hcounter : 0 ≤ g.ordersThisSecond) :
    0 ≤ (RiskParams.countOrder g now).ordersThisSecond ∧
      (RiskParams.countOrder g now).ordersThisSecond ≤ g.ordersThisSecond + 1 := by
  unfold RiskParams.countOrder
  split_ifs
  · exact ⟨zero_le_one, by dsimp only; omega⟩
  · exact ⟨by dsimp only; omega, le_rfl⟩

omit [DecidableEq T] in
theorem ordersThisSecond_checkNext (p : RiskParams) (c : SerialCall T) (hcounter : 0 ≤ x.ordersThisSecond) :
    0 ≤ (checkNext p x c).ordersThisSecond ∧
      (checkNext p x c).ordersThisSecond ≤ x.ordersThisSecond + 1 := by
  rw [checkNext, checkOrder_eq]
  cases p.precheck c.riskManager (x.gauges c.peakEquity).peakEquity c.order with
  | some _ => exact ⟨hcounter, by change x.ordersThisSecond ≤ _; omega⟩
  | none => exact countOrder_bounds (x.gauges c.peakEquity) _ hcounter

omit [DecidableEq T] in
theorem unmarked_run_checkNext (p : RiskParams) (x : OrderThrottle T) (calls : List (SerialCall T)) :
    (run (checkNext p) x calls).unmarked = run (checkNext p) x.unmarked calls := by
  induction calls generalizing x with
  | nil => rfl
  | cons c rest ih => exact ih (checkNext p x c)

/-! ### Runs -/

/-- In every run in which no order is counted on a wrapped counter and none passes between the move of a
window and the clearing of the counter, the throttle does what it is for in every state reached. -/
theorem throttles_of_orderly (p : RiskParams) (now : ℤ) (events : List (ThrottleEvent T))
    (h : Along (step p) (Orderly p) (init now) events) : (run (step p) (init now) events).Throttles p where
  bounded := (run_invariant_of_along (Bounded p) (fun _ _ hx he => hx.step he) (bounded_init p now) h).bounded
  spaced := (run_invariant (fun _ e hx => hx.step e) events (spaced_init now)).spaced

/-- Checks that follow one another do what the sequential checks do. -/
theorem unmarked_flatMap_events (p : RiskParams) (x : OrderThrottle T) (calls : List (SerialCall T))
    (hidle : ∀ t, x.stage t = .idle) (hcounter : 0 ≤ x.ordersThisSecond)
    (hsmall : x.ordersThisSecond + calls.length < 2 ^ 31) :
    (run (step p) x (calls.flatMap SerialCall.events)).unmarked =
      (run (checkNext p) x calls).unmarked := by
  induction calls generalizing x with
  | nil => rfl
  | cons c rest ih =>
    rw [List.length_cons, Nat.cast_add, Nat.cast_one] at hsmall
    have hnext := unmarked_events p x c (hidle c.thread) hcounter (by omega)
    obtain ⟨hcounter', hle⟩ := ordersThisSecond_checkNext p c hcounter
    rw [List.flatMap_cons, run_append, run_cons]
    generalize run (step p) x c.events = y at hnext ⊢
    have hstage : y.unmarked.stage = x.stage := by rw [hnext]; rfl
    have hcounted : y.unmarked.ordersThisSecond = (checkNext p x c).ordersThisSecond := by rw [hnext]; rfl
    change y.stage = _ at hstage
    change y.ordersThisSecond = _ at hcounted
    rw [ih y (hstage ▸ hidle) (hcounted ▸ hcounter') (by omega), unmarked_run_checkNext, hnext,
      ← unmarked_run_checkNext]

/-- Calls that do not overlap return what the sequential check returns to them one after another, whatever
threads make them, and leave the window and the counter as it does. -/
theorem serial_checks (p : RiskParams) (now : ℤ) (calls : List (SerialCall T))
    (hsmall : calls.length < 2 ^ 31) :
    let x := run (step p) (init now) (calls.flatMap SerialCall.events)
    let y := run (checkNext p) (init now) calls
    x.results = y.results ∧ x.rateWindowStart = y.rateWindowStart ∧
      x.ordersThisSecond = y.ordersThisSecond ∧ ∀ t, x.stage t = .idle := by
  have hrun := unmarked_flatMap_events p (init now) calls (fun _ => rfl) le_rfl (by
    change 0 + (calls.length : ℤ) < 2 ^ 31
    omega)
  have hstage : (run (checkNext p) (init now) calls).stage = (init now).stage :=
    run_unchanged stage (fun x c => show (x.checkNext p c).stage = x.stage from rfl) (init now) calls
  have hread {α : Type} (read : OrderThrottle T → α) (h : ∀ x, read x.unmarked = read x) :
      read (run (step p) (init now) (calls.flatMap SerialCall.events)) =
        read (run (checkNext p) (init now) calls) := by rw [← h, hrun, h]
  refine ⟨hread _ fun _ => rfl, hread _ fun _ => rfl, hread _ fun _ => rfl, fun t => ?_⟩
  exact congrFun ((hread stage fun _ => rfl).trans hstage) t

/-- A limit of one order a second. -/
def onePerSecond : RiskParams where
  maxOrdersPerSecond := 1

/-- An order that passes the other checks. -/
def smallOrder : OrderCheck where
  symbol := "BTC/USDT"
  side := .buy
  quantity := 1
  price := 100
  leverage := 1
  currentEquity := 10000
  availableMargin := 10000
  currentPositionQty := 0

/-- Two threads that check one after the other. -/
theorem throttles_of_orderly_inTurn :
    let events : List (ThrottleEvent (Fin 2)) :=
      .tick 1000000000 :: .call 0 {} 0 smallOrder :: List.replicate 5 (.step 0) ++
        .call 1 {} 0 smallOrder :: List.replicate 3 (.step 1)
    (run (step onePerSecond) (init 0) events).passes = 1 ∧
      (run (step onePerSecond) (init 0) events).results.length = 2 ∧
      (run (step onePerSecond) (init 0) events).Throttles onePerSecond := by
  intro events
  exact ⟨by decide +kernel, by decide +kernel,
    throttles_of_orderly onePerSecond 0 events (by decide +kernel)⟩

/-- Two calls of two threads within a second. -/
theorem serial_checks_inTurn :
    let calls : List (SerialCall (Fin 2)) := [⟨1000000000, 0, {}, 0, smallOrder⟩, ⟨5, 1, {}, 0, smallOrder⟩]
    let x := run (step onePerSecond) (init 0) (calls.flatMap SerialCall.events)
    let y := run (checkNext onePerSecond) (init 0) calls
    x.results = y.results ∧ x.rateWindowStart = y.rateWindowStart ∧
      x.ordersThisSecond = y.ordersThisSecond ∧ ∀ t, x.stage t = .idle :=
  serial_checks onePerSecond 0 _ (by decide)

/-- A thread passes between the move of the window and the clearing of the counter, and the thread that
has moved the window passes as well. -/
theorem not_throttles_interrupted :
    let events : List (ThrottleEvent (Fin 2)) :=
      [.tick 1000000000, .call 0 {} 0 smallOrder, .step 0, .step 0, .step 0, .call 1 {} 0 smallOrder,
        .step 1, .step 1, .step 1, .step 0, .step 0]
    (run (step onePerSecond) (init 0) events).passes = 2 ∧
      ¬ (run (step onePerSecond) (init 0) events).Throttles onePerSecond := by
  intro events
  have hpasses : (run (step onePerSecond) (init 0) events).passes = 2 := by decide +kernel
  refine ⟨hpasses, fun h => ?_⟩
  have hbounded := h.bounded
  rw [hpasses] at hbounded
  exact absurd hbounded (by decide)

end OrderThrottle

end TradingSim.Bot
