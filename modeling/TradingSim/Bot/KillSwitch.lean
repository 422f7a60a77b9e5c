import TradingSim.Bot.MainLoop

/-!
# The kill switch and the iteration under way

The main loop reads the flag once at the top of an iteration. An activation during the iteration
runs its callbacks, but what is left of the iteration still sends orders.
-/

namespace TradingSim.Bot

open Foundations

/-- The equity the drawdown is still to be taken of. -/
def Phase.equity? : Phase → Option ℚ
  | .drawdown equity => some equity
  | _ => none

namespace TradingLoop

variable {c : LoopConfig}

/-- The loop is in an iteration that may trade. -/
def UnderWay (x : TradingLoop c) : Prop := x.phase ≠ .top ∧ x.canTrade = true

instance (x : TradingLoop c) : Decidable x.UnderWay := inferInstanceAs (Decidable (_ ∧ _))

/-- While the flag is set no message of type `order` is handed over. -/
def StopsTrading (x : TradingLoop c) (e : LoopAction) : Prop :=
  x.active = true → ∀ frame ∈ x.handed e, frame.isOrder = false

instance (x : TradingLoop c) (e : LoopAction) : Decidable (x.StopsTrading e) :=
  inferInstanceAs (Decidable (_ → _))

/-- Every activation has run and has left the three callbacks once each. -/
def WellRun (x : TradingLoop c) : Prop :=
  ∀ a ∈ x.activations, a.ran ++ a.remaining = Callback.all

/-- Setting the flag begins one activation; nothing else begins one. -/
def Counted (x y : TradingLoop c) : Prop :=
  y.activations.length =
    x.activations.length + if x.active = false ∧ y.active = true then 1 else 0

instance (x : TradingLoop c) : Decidable x.WellRun := inferInstanceAs (Decidable (∀ a ∈ _, _))

instance (x y : TradingLoop c) : Decidable (x.Counted y) := inferInstanceAs (Decidable (_ = _))

/-- A step that sets the flag begins one activation, other steps none, and every activation runs
every callback once. -/
def RunsCallbacksOnce (x : TradingLoop c) (e : LoopAction) : Prop :=
  (x.step e).WellRun ∧ x.Counted (x.step e)

instance (x : TradingLoop c) (e : LoopAction) : Decidable (x.RunsCallbacksOnce e) :=
  inferInstanceAs (Decidable (_ ∧ _))

/-- The flag is not set during an iteration that may trade. -/
def ActivatesBetween (x : TradingLoop c) : LoopAction → Prop
  | .activate _ => ¬ x.UnderWay
  | .main (.updateRisk u) => x.phase = .risk → x.canTrade = true → x.breachesLoss u = false
  | .main .checkDrawdown => ∀ equity ∈ x.phase.equity?, x.canTrade = true →
      x.breachesDrawdown equity = false
  | _ => True

instance (x : TradingLoop c) (e : LoopAction) : Decidable (x.ActivatesBetween e) :=
  match e with
  | .activate _ => inferInstanceAs (Decidable (¬ x.UnderWay))
  | .main (.updateRisk u) =>
    inferInstanceAs (Decidable (x.phase = .risk → x.canTrade = true → x.breachesLoss u = false))
  | .main .checkDrawdown =>
    inferInstanceAs (Decidable (∀ equity ∈ x.phase.equity?, x.canTrade = true →
      x.breachesDrawdown equity = false))
  | .main .readFlags | .main (.closeStops _ _) | .main (.arbitrage _) | .main (.secondLeg _ _)
  | .main (.checkSignal _ _ _) | .main (.submit _) | .main .register | .main .nextLoop
  | .deactivate | .callback _ _ | .fill _ _ | .ended _ _ | .receive _ | .connection _ | .trading _
  | .opportunity _ => isTrue trivial

/-- The flag is not set in an iteration that may trade, and only such an iteration works on an order
or on a second leg. -/
def Halted (x : TradingLoop c) : Prop :=
  (x.active = true → ¬ x.UnderWay) ∧ (x.stage ≠ .idle → x.UnderWay) ∧
    ∀ arb quantity, x.phase = .secondLeg arb quantity → x.canTrade = true

theorem halted_init (bot : TradingBot) : Halted ({ bot := bot } : TradingLoop c) := by
  refine ⟨fun h => ?_, fun h => absurd rfl h, fun arb quantity h => ?_⟩
  · cases h
  · cases h

variable {x : TradingLoop c}

theorem halted_activate (h : x.Halted) (hbetween : ¬ x.UnderWay)
    (onMain : Bool) (reason : Reason) : (x.activate onMain reason).Halted := by
  unfold activate
  split_ifs
  · exact h
  · exact ⟨fun _ => hbetween, h.2.1, h.2.2⟩

/-- Moving on within an iteration. -/
theorem halted_phase (h : x.Halted) (hidle : x.stage = .idle) (hphase : x.phase ≠ .top) {phase : Phase}
    (hleg : ∀ arb quantity, phase = .secondLeg arb quantity → x.canTrade = true) :
    Halted { x with phase := phase } := by
  refine ⟨fun hactive hunderWay => ?_, fun hstage => absurd hidle hstage, hleg⟩
  exact h.1 hactive ⟨hphase, hunderWay.2⟩

theorem halted_of_control {x y : TradingLoop c} (h : x.Halted) (hsame : y.control = x.control) :
    y.Halted := by
  simp only [control, Prod.mk.injEq] at hsame
  obtain ⟨hactive, hphase, hcan, hstage, -, -⟩ := hsame
  unfold Halted UnderWay
  rw [hactive, hphase, hcan, hstage]
  exact h

theorem halted_checkSignal (h : x.Halted) (hunderWay : x.UnderWay)
    (path : OrderPath) (signal : RatedSignal) (now : ℤ) : (x.checkSignal path signal now).Halted := by
  simp only [checkSignal]
  split_ifs
  · exact ⟨h.1, fun _ => hunderWay, h.2.2⟩
  · exact h
  · exact h

variable {action : MainAction}

/-- What the main loop does while it works on no order keeps the flag out of iterations that may
trade. -/
theorem halted_proceeds {x y : TradingLoop c} (h : x.Halted) (hidle : x.stage = .idle)
    (hproceeds : x.Proceeds action y) (hbetween : x.ActivatesBetween (.main action)) : y.Halted := by
  cases hproceeds with
  | stays => exact h
  | readFlags hphase =>
    refine ⟨fun hactive hunderWay => ?_, fun hstage => absurd hidle hstage, fun _ _ hleg => ?_⟩
    · have hcan : (x.tradingActive && !x.active) = true := hunderWay.2
      rw [show x.active = true from hactive] at hcan
      simp at hcan
    · cases hleg
  | updateRisk u hphase =>
    exact halted_phase (x := { x with bot := x.updatedBot u }) h hidle (by rw [hphase]; simp)
      (fun _ _ => by simp)
  | dailyLoss u hphase hbreaches =>
    have hmoved : Halted { x with bot := x.updatedBot u, phase := .drawdown (x.equity u) } :=
      halted_phase (x := { x with bot := x.updatedBot u }) h hidle (by rw [hphase]; simp)
        (fun _ _ => by simp)
    refine halted_activate hmoved (fun hunderWay => ?_) true .dailyLoss
    rw [hbetween hphase hunderWay.2] at hbreaches
    cases hbreaches
  | checkDrawdown equity hphase =>
    exact halted_phase h hidle (by rw [hphase]; simp) (fun _ _ => by simp)
  | maxDrawdown equity hphase hbreaches =>
    have hmoved : Halted { x with phase := .stops } :=
      halted_phase h hidle (by rw [hphase]; simp) (fun _ _ => by simp)
    refine halted_activate hmoved (fun hunderWay => ?_) true .maxDrawdown
    rw [hbetween equity (by rw [hphase]; rfl) hunderWay.2] at hbreaches
    cases hbreaches
  | closeStops prices now hphase symbols =>
    have hmoved : Halted { x.receive (.updateAllPnl prices) with phase := .arbitrage } :=
      halted_phase (x := x.receive (.updateAllPnl prices)) h hidle
        (by rw [show (x.receive _).phase = .stops from hphase]; simp) (fun _ _ => by simp)
    exact halted_of_control hmoved (control_closePositions _ symbols now)
  | passArbitrage handed hphase arb =>
    exact halted_phase (x := { x with arb := arb }) h hidle (by rw [hphase]; simp)
      (fun _ _ => by simp)
  | firstLeg hphase arb harb hcan =>
    exact halted_phase (x := { x with arb := none }) h hidle (by rw [hphase]; simp)
      (fun _ _ _ => hcan)
  | secondLeg handed unwound arb quantity hphase =>
    exact halted_phase h hidle (by rw [hphase]; simp) (fun _ _ => by simp)
  | checkSignal path signal now hcan hruns =>
    have hunderWay : x.UnderWay := by
      refine ⟨fun htop => ?_, hcan⟩
      rw [htop] at hruns
      cases path <;> cases hruns
    exact halted_checkSignal h hunderWay path signal now
  | nextSignals hphase =>
    exact halted_phase h hidle (by rw [hphase]; simp) (fun _ _ => by simp)
  | endIteration =>
    exact ⟨fun _ hunderWay => hunderWay.1 rfl, fun hstage => absurd hidle hstage,
      fun _ _ hleg => by cases hleg⟩

/-- A step outside an iteration that may trade, or one that sets no flag, keeps the flag out of
iterations that may trade. -/
theorem halted_step (x : TradingLoop c) (e : LoopAction) (h : x.Halted)
    (hbetween : x.ActivatesBetween e) : (x.step e).Halted := by
  have hsteps := x.steps e
  generalize x.step e = y at hsteps ⊢
  cases hsteps with
  | proceed action _ hidle hproceeds => exact halted_proceeds h hidle hproceeds hbetween
  | submit a handed hstage =>
    have hunderWay : x.UnderWay := h.2.1 (by rw [hstage]; simp)
    simp only [submit]
    split_ifs
    · exact ⟨h.1, fun _ => hunderWay, h.2.2⟩
    · exact ⟨h.1, fun hidle => absurd rfl hidle, h.2.2⟩
  | register => exact ⟨h.1, fun hidle => absurd rfl hidle, h.2.2⟩
  | activate reason => exact halted_activate h hbetween false reason
  | deactivate => exact ⟨fun hactive => (by cases hactive), h.2⟩
  | callback index now a next =>
    have hkept : (x.runCallback now next).2.Halted :=
      halted_of_control h (x.control_runCallback now next)
    exact hkept
  | _ => exact h

/-- While the main loop works on no order, it hands over a message of type `order` only for an
arbitrage of an iteration that may trade. -/
theorem underWay_of_proceed (h : x.Halted) {frame : Frame}
    (hmem : frame ∈ (x.proceed action).1) (horder : frame.isOrder = true) : x.UnderWay := by
  cases action with
  | closeStops prices now =>
    simp only [proceed] at hmem
    split_ifs at hmem
    · rw [isOrder_closePositions hmem] at horder
      cases horder
    · cases hmem
  | arbitrage handed =>
    simp only [proceed] at hmem
    split_ifs at hmem with hphase
    · refine ⟨by rw [hphase]; simp, ?_⟩
      unfold arbitrage at hmem
      cases harb : x.arb with
      | none =>
        simp only [harb] at hmem
        cases hmem
      | some arb =>
        by_contra hcan
        simp only [harb, hcan, if_false] at hmem
        cases hmem
    · cases hmem
  | secondLeg handed unwound =>
    simp only [proceed] at hmem
    cases hphase : x.phase with
    | secondLeg arb quantity => exact ⟨by rw [hphase]; simp, h.2.2 arb quantity hphase⟩
    | _ =>
      simp only [hphase] at hmem
      cases hmem
  | checkDrawdown =>
    simp only [proceed] at hmem
    split at hmem <;> cases hmem
  | nextLoop =>
    simp only [proceed] at hmem
    split at hmem <;> cases hmem
  | _ => cases hmem

/-- A message of type `order` leaves only during an iteration that may trade. -/
theorem underWay_of_handed (h : x.Halted) {e : LoopAction} {frame : Frame}
    (hmem : frame ∈ x.handed e) (horder : frame.isOrder = true) : x.UnderWay := by
  unfold handed at hmem
  cases e with
  | main action =>
    simp only [perform] at hmem
    split_ifs at hmem
    · unfold act at hmem
      cases hstage : x.stage with
      | idle =>
        rw [hstage] at hmem
        exact underWay_of_proceed h hmem horder
      | approved a => exact h.2.1 (by rw [hstage]; simp)
      | sent a => exact h.2.1 (by rw [hstage]; simp)
    · cases hmem
  | callback index now =>
    obtain hnone | ⟨a, next, rest, -, -, hcallback⟩ := x.callback_cases index now
    · simp only [perform, hnone] at hmem
      cases hmem
    · simp only [perform, hcallback] at hmem
      rw [isOrder_runCallback hmem] at horder
      cases horder
  | fill index fee =>
    simp only [perform] at hmem
    split at hmem <;> cases hmem
  | ended index status =>
    simp only [perform] at hmem
    split at hmem <;> cases hmem
  | _ => cases hmem

/-- With the flag out of iterations that may trade, no order leaves while it is set. -/
theorem stopsTrading_of_halted (h : x.Halted) (e : LoopAction) : x.StopsTrading e := by
  intro hactive frame hmem
  by_contra horder
  rw [Bool.not_eq_false] at horder
  exact h.1 hactive (underWay_of_handed h hmem horder)

/-- A step that leaves the flag and the activations alone. -/
theorem runs_of_same {x y : TradingLoop c} (h : x.WellRun) (hactive : y.active = x.active)
    (hactivations : y.activations = x.activations) : y.WellRun ∧ x.Counted y := by
  constructor
  · rw [WellRun, hactivations]
    exact h
  · rw [Counted, hactivations, hactive]
    simp

theorem runs_activate {x y : TradingLoop c} (h : x.WellRun) (hactive : y.active = x.active)
    (hactivations : y.activations = x.activations) (onMain : Bool) (reason : Reason) :
    (y.activate onMain reason).WellRun ∧ x.Counted (y.activate onMain reason) := by
  unfold activate
  split_ifs with hset
  · exact runs_of_same h hactive hactivations
  · constructor
    · intro a ha
      rw [hactivations] at ha
      rcases List.mem_append.mp ha with hold | hnew
      · exact h a hold
      · rw [List.mem_singleton.mp hnew]
        rfl
    · rw [hactive, Bool.not_eq_true] at hset
      simp [Counted, hactivations, hset]

theorem runs_closePositions {x y : TradingLoop c} (h : x.WellRun) (hactive : y.active = x.active)
    (hactivations : y.activations = x.activations) (symbols : List String) (now : ℤ) :
    (y.closePositions symbols now).2.WellRun ∧ x.Counted (y.closePositions symbols now).2 := by
  have hsame := y.control_closePositions symbols now
  simp only [control, Prod.mk.injEq] at hsame
  exact runs_of_same h (hsame.1.trans hactive) (hsame.2.2.2.2.1.trans hactivations)

theorem runs_proceeds {x y : TradingLoop c} (h : x.WellRun)
    (hproceeds : x.Proceeds action y) : y.WellRun ∧ x.Counted y := by
  cases hproceeds with
  | dailyLoss u =>
    exact runs_activate (y := { x with bot := x.updatedBot u, phase := .drawdown (x.equity u) }) h
      rfl rfl true .dailyLoss
  | maxDrawdown => exact runs_activate (y := { x with phase := .stops }) h rfl rfl true .maxDrawdown
  | closeStops prices now _ symbols =>
    exact runs_closePositions
      (y := { x.receive (.updateAllPnl prices) with phase := .arbitrage }) h rfl rfl symbols now
  | checkSignal path signal now =>
    simp only [checkSignal]
    split_ifs <;> exact runs_of_same h rfl rfl
  | _ => exact runs_of_same h rfl rfl

theorem runsCallbacksOnce_of_wellRun (h : x.WellRun) (e : LoopAction) : x.RunsCallbacksOnce e := by
  have hsteps := x.steps e
  unfold RunsCallbacksOnce
  generalize x.step e = y at hsteps ⊢
  cases hsteps with
  | proceed action _ hidle hproceeds => exact runs_proceeds h hproceeds
  | submit a handed =>
    simp only [submit]
    split_ifs <;> exact runs_of_same h rfl rfl
  | activate reason => exact runs_activate h rfl rfl false reason
  | deactivate => exact ⟨h, by simp [Counted]⟩
  | callback index now a next rest ha hremaining =>
    have hkept := x.control_runCallback now next
    simp only [control, Prod.mk.injEq] at hkept
    obtain ⟨hactive, -, -, -, hactivations, -⟩ := hkept
    constructor
    · intro b hb
      rw [hactivations] at hb
      rcases List.mem_or_eq_of_mem_set hb with hold | rfl
      · exact h b hold
      · rw [List.append_assoc, List.singleton_append, ← hremaining]
        exact h a (List.mem_of_getElem? ha)
    · simp [Counted, hactive, hactivations]
  | _ => exact runs_of_same h rfl rfl

/-- In every run whose activations fall outside the iterations that may trade, no order leaves while
the kill switch is active, and every activation runs its callbacks once. -/
theorem stopsTrading_of_activatesBetween (c : LoopConfig) (bot : TradingBot) (events : List LoopAction)
    (hbetween : Along step ActivatesBetween ({ bot := bot } : TradingLoop c) events) :
    Along step (fun x e => x.StopsTrading e ∧ x.RunsCallbacksOnce e) ({ bot := bot } : TradingLoop c)
      events := by
  refine along_imp (fun x => x.Halted ∧ x.WellRun) (fun x e h hb => ?_) (fun x e h _ => ?_)
    ⟨halted_init bot, fun a ha => by cases ha⟩ hbetween
  · exact ⟨halted_step x e h.1 hb, (runsCallbacksOnce_of_wellRun h.2 e).1⟩
  · exact ⟨stopsTrading_of_halted h.1 e, runsCallbacksOnce_of_wellRun h.2 e⟩

/-- The default configuration. -/
def defaultLoop : LoopConfig := {}

/-- The trigger file is found after the iteration has read the flag: its order still leaves. -/
theorem not_stopsTrading_underWay : ¬ Along step (fun x e => x.StopsTrading e ∧ x.RunsCallbacksOnce e)
      ({ bot := { balance := 10000 } } : TradingLoop defaultLoop)
      ([.main .readFlags, .activate .fileTrigger] ++ upToSignals ++ tradeOn "BTC") := by
  decide +kernel

/-- An activation between two iterations: the first one trades, the second one does not. -/
theorem stopsTrading_betweenIterations : Along step (fun x e => x.StopsTrading e ∧ x.RunsCallbacksOnce e)
      ({ bot := { balance := 10000 } } : TradingLoop defaultLoop)
      ([.main .readFlags] ++ upToSignals ++ tradeOn "BTC" ++ [.main .nextLoop, .main .nextLoop,
        .activate .fileTrigger, .callback 0 0, .callback 0 0, .callback 0 0, .main .readFlags] ++
        upToSignals ++ tradeOn "ETH") :=
  stopsTrading_of_activatesBetween defaultLoop _ _ (by decide +kernel)

end TradingLoop

end TradingSim.Bot
