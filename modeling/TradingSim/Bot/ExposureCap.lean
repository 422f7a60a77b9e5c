import TradingSim.Bot.Exposure
import TradingSim.Bot.MainLoop

/-!
# The exposure cap and the orders in flight

An order is checked against the exposure of what has filled. Orders that were sent and have not
filled are not counted, so several orders that each fit beside the exposure can fit only one by one.
An arbitrage is not checked at all.
-/

namespace TradingSim.Bot

open Foundations

namespace BotContext

variable {x : BotContext} {o : OrderUpdate}

/-- The order update opens or increases a position of the book. -/
def OpensOrIncreases (x : BotContext) (o : OrderUpdate) : Prop :=
  let effect := (x.posMgr.applyFill o.symbol o.side o.filledQuantity o.filledPrice o.fee
    o.status).1.effect
  effect = .opened ∨ effect = .increased

instance (x : BotContext) (o : OrderUpdate) : Decidable (x.OpensOrIncreases o) :=
  inferInstanceAs (Decidable (_ ∨ _))

theorem riskMgr_onFill_of_ne (hstatus : o.status ≠ .filled) : (x.onFill o).riskMgr = x.riskMgr := by
  unfold onFill
  dsimp only
  rw [if_neg hstatus, riskMgr_countUpdate]

/-- An order update does nothing to the book, or executes for its notional. -/
theorem applyFill_result (m : PositionManager) (o : OrderUpdate) :
    let result := (m.applyFill o.symbol o.side o.filledQuantity o.filledPrice o.fee o.status).1
    result.effect = .none ∨ o.Executes ∧ result.notional = o.filledQuantity * o.filledPrice := by
  by_cases hexecutes : o.Executes
  · rw [m.applyFill_of_executes hexecutes, PositionManager.applyExecution]
    cases m.position? o.symbol with
    | some pos =>
      right
      refine ⟨hexecutes, ?_⟩
      simp only [PositionManager.fillPosition]
      split_ifs <;> rfl
    | none =>
      cases m.pendingOrders.find? o.symbol with
      | some order => exact Or.inr ⟨hexecutes, rfl⟩
      | none => exact Or.inl rfl
  · left
    cases hstatus : o.status with
    | filled => rw [← hstatus, m.applyFill_of_not_executes hstatus hexecutes]
    | pending => rfl
    | rejected => rfl
    | cancelled => rfl

/-- An order update that opens and increases nothing does not raise the exposure. -/
theorem totalExposure_onFill_le_self (hopens : ¬ x.OpensOrIncreases o) :
    (x.onFill o).riskMgr.totalExposure ≤ x.riskMgr.totalExposure := by
  by_cases hfilled : o.status = .filled
  · rw [riskMgr_onFill x hfilled]
    obtain ⟨hopened, hincreased⟩ := not_or.mp hopens
    have hresult := applyFill_result x.posMgr o
    generalize (x.posMgr.applyFill o.symbol o.side o.filledQuantity o.filledPrice o.fee o.status).1 =
      result at hopened hincreased hresult ⊢
    obtain hnone | ⟨⟨-, hquantity, hprice⟩, hnotional⟩ := hresult
    · simp only [trackFill, hnone, le_refl]
    · have hpositive := mul_pos hquantity hprice
      unfold trackFill
      cases heffect : result.effect with
      | opened => exact absurd heffect hopened
      | increased => exact absurd heffect hincreased
      | none => exact le_refl _
      | _ =>
        simp only [RiskManager.reduceExposure, hnotional]
        linarith
  · rw [riskMgr_onFill_of_ne hfilled]

theorem totalExposure_onFill_le (hquantity : 0 < o.filledQuantity) (hprice : 0 < o.filledPrice) :
    (x.onFill o).riskMgr.totalExposure ≤ x.riskMgr.totalExposure + o.filledQuantity * o.filledPrice := by
  have hpositive := mul_pos hquantity hprice
  by_cases hopens : x.OpensOrIncreases o
  · by_cases hfilled : o.status = .filled
    · rw [riskMgr_onFill x hfilled]
      obtain heffect | heffect := hopens
      · simp only [trackFill, heffect, RiskManager.onFill, le_refl]
      · simp only [trackFill, heffect, RiskManager.onFill, le_refl]
    · rw [riskMgr_onFill_of_ne hfilled]
      linarith
  · linarith [totalExposure_onFill_le_self hopens]

/-- Only order updates change the exposure. -/
theorem riskMgr_step_of_not_fill (defaultExchange : String) (x : BotContext) {e : BotEvent}
    (hfill : ∀ o, e ≠ .fill o) : (x.step defaultExchange e).riskMgr = x.riskMgr := by
  cases e with
  | fill o => exact absurd rfl (hfill o)
  | submitOrder signal quantity =>
    simp only [step]
    split <;> rfl
  | _ => rfl

theorem riskMgr_run_of_no_fill (defaultExchange : String) (x : BotContext) {events : List BotEvent}
    (hevents : ∀ e ∈ events, ∀ o, e ≠ .fill o) :
    (run (step defaultExchange) x events).riskMgr = x.riskMgr := by
  induction events generalizing x with
  | nil => rfl
  | cons e rest ih =>
    rw [List.forall_mem_cons] at hevents
    rw [run_cons, ih _ hevents.2, x.riskMgr_step_of_not_fill defaultExchange hevents.1]

end BotContext

theorem TradingBot.totalExposure_updateRiskState (defaultExchange : String) (x : TradingBot)
    {u : RiskUpdate} (hunrealized : u.beforeUnrealized = []) (hrealized : u.beforeRealized = [])
    (hstore : u.beforeStore = []) :
    (x.updateRiskState defaultExchange u).riskMgr.totalExposure = x.riskMgr.totalExposure := by
  have hrolled : (x.rollOver u).riskMgr.totalExposure = x.riskMgr.totalExposure := by
    unfold rollOver
    split <;> split <;> rfl
  rw [← hrolled]
  simp only [updateRiskState, hunrealized, hrealized, hstore, elapse, run_nil, updatePnl]

/-- The message of an order that was checked and not sent. -/
def Stage.frame? {p : RiskParams} : Stage p → Option Frame
  | .approved a => some a.frame
  | _ => none

namespace TradingLoop

variable {c : LoopConfig}

/-- The notional of the orders in flight. -/
def inFlightNotional (x : TradingLoop c) : ℚ := (x.inFlight.map Approval.notional).sum

/-- The notional of an order that was checked and not sent. -/
def approvedNotional (x : TradingLoop c) : ℚ :=
  match x.stage with
  | .approved a => a.notional
  | _ => 0

/-- The exposure that the risk manager counts. -/
def exposure (x : TradingLoop c) : ℚ := x.bot.riskMgr.totalExposure

/-- The risk manager's exposure is the notional of the open positions. -/
def TracksExposure (x : TradingLoop c) : Prop :=
  x.exposure = entryNotional x.bot.posMgr.positions

/-- Positions are opened and increased by orders of the strategies only, which fill as they were
checked. What other threads do during a risk update is a step of its own. -/
def FillsAsChecked (x : TradingLoop c) : LoopAction → Prop
  | .receive (.fill o) => ¬ x.bot.OpensOrIncreases o
  | .main (.updateRisk u) => u.beforeUnrealized = [] ∧ u.beforeRealized = [] ∧ u.beforeStore = []
  | _ => True

/-- An order that fits under the cap beside the exposure fits there beside the orders in flight, too,
and has a price; and no arbitrage is executed. -/
def FitsInFlight (x : TradingLoop c) : LoopAction → Prop
  | .main (.checkSignal path signal _) =>
    let quantity := c.params.calculatePositionSize signal x.currentBalance
    let notional := quantity * path.price signal
    0 < quantity → 0 < path.price signal ∧
      (x.exposure + notional ≤ c.params.maxTotalExposure →
        x.exposure + x.inFlightNotional + notional ≤ c.params.maxTotalExposure)
  | .main (.arbitrage handed) => handed = true → x.canTrade = true → x.connected = true →
      ∀ arb ∈ x.arb, arb.maxQuantity ≤ 1 / 1000
  | _ => True

/-- The open positions stay under the cap, and a message of type `order` is the one of an order that
`check_order` has passed and that was not sent since. -/
def CapsExposure (x : TradingLoop c) (e : LoopAction) : Prop :=
  entryNotional (x.step e).bot.posMgr.positions ≤ c.params.maxTotalExposure ∧
    ∀ frame ∈ x.handed e, frame.isOrder = true → x.stage.frame? = some frame

instance (x : TradingLoop c) : Decidable x.TracksExposure := inferInstanceAs (Decidable (_ = _))

instance (x : TradingLoop c) (e : LoopAction) : Decidable (x.FillsAsChecked e) := by
  unfold FillsAsChecked
  split <;> infer_instance

instance (x : TradingLoop c) (e : LoopAction) : Decidable (x.FitsInFlight e) := by
  unfold FitsInFlight
  split <;> infer_instance

instance (x : TradingLoop c) (e : LoopAction) : Decidable (x.CapsExposure e) :=
  inferInstanceAs (Decidable (_ ∧ _))

/-- An order for something at a price. -/
def Priced (a : Approval c.params) : Prop := 0 < a.quantity ∧ 0 < a.price

/-- Exposure, orders in flight and the order that was checked fit under the cap together; every
order has a price; and no arbitrage waits for its second leg. -/
def Capped (x : TradingLoop c) : Prop :=
  x.exposure + x.inFlightNotional + x.approvedNotional ≤ c.params.maxTotalExposure ∧
    (∀ a ∈ x.inFlight, Priced a) ∧ (∀ a, x.stage = .approved a → Priced a) ∧
    ∀ arb quantity, x.phase ≠ .secondLeg arb quantity

theorem capped_init (hcap : 0 ≤ c.params.maxTotalExposure) (balance : ℚ) :
    Capped ({ bot := { balance := balance } } : TradingLoop c) := by
  refine ⟨?_, fun a ha => (by cases ha), fun a ha => (by cases ha), fun arb quantity h => ?_⟩
  · simpa [exposure, inFlightNotional, approvedNotional] using hcap
  · cases h

/-- A step that does not raise the exposure and works on no order. -/
theorem capped_of_le {x y : TradingLoop c} (h : x.Capped) (hexposure : y.exposure ≤ x.exposure)
    (hflight : y.inFlight = x.inFlight) (hstage : y.stage = x.stage)
    (hphase : ∀ arb quantity, y.phase ≠ .secondLeg arb quantity) : y.Capped := by
  obtain ⟨hfits, hpriced, happroved, -⟩ := h
  unfold Capped inFlightNotional approvedNotional
  rw [hflight, hstage]
  refine ⟨?_, hpriced, happroved, hphase⟩
  rw [inFlightNotional, approvedNotional] at hfits
  linarith

theorem inFlightNotional_erase {x : TradingLoop c} {index : ℕ} {a : Approval c.params}
    (ha : x.inFlight[index]? = some a) :
    x.inFlightNotional = a.notional + ((x.inFlight.eraseIdx index).map Approval.notional).sum := by
  obtain ⟨hindex, rfl⟩ := List.getElem?_eq_some_iff.mp ha
  rw [inFlightNotional, ← (List.getElem_cons_eraseIdx_perm hindex).map Approval.notional |>.sum_eq,
    List.map_cons, List.sum_cons]

theorem exposure_closePositions (x : TradingLoop c) (symbols : List String) (now : ℤ) :
    (x.closePositions symbols now).2.exposure = x.exposure := by
  unfold closePositions
  split_ifs
  · refine congrArg RiskManager.totalExposure (x.bot.riskMgr_run_of_no_fill c.defaultExchange ?_)
    intro e he o hfill
    obtain ⟨symbol, -, rfl⟩ := List.mem_map.mp he
    cases hfill
  · rfl

theorem capped_closePositions {x y : TradingLoop c} (h : x.Capped) (hexposure : y.exposure = x.exposure)
    (hflight : y.inFlight = x.inFlight) (hstage : y.stage = x.stage)
    (hphase : ∀ arb quantity, y.phase ≠ .secondLeg arb quantity) (symbols : List String) (now : ℤ) :
    (y.closePositions symbols now).2.Capped := by
  have hsame := y.control_closePositions symbols now
  simp only [control, Prod.mk.injEq] at hsame
  obtain ⟨-, hphase', -, hstage', -, hflight'⟩ := hsame
  refine capped_of_le h ?_ (hflight'.trans hflight) (hstage'.trans hstage) (hphase' ▸ hphase)
  rw [exposure_closePositions, hexposure]

theorem capped_activate {x : TradingLoop c} (h : x.Capped) (onMain : Bool) (reason : Reason) :
    (x.activate onMain reason).Capped := by
  unfold activate
  split_ifs
  · exact h
  · exact h

theorem capped_checkSignal {x : TradingLoop c} (h : x.Capped) (hidle : x.stage = .idle)
    {path : OrderPath} {signal : RatedSignal} {now : ℤ}
    (hfits : x.FitsInFlight (.main (.checkSignal path signal now))) :
    (x.checkSignal path signal now).Capped := by
  simp only [checkSignal]
  split_ifs with hverdict hchecked
  · obtain ⟨hprice, hbeside⟩ := hfits hchecked.1
    obtain ⟨hcap, hpriced, -, hphase⟩ := h
    simp only [precheckOrder]
    split_ifs with hpassed
    · have hfit := hbeside (RiskParams.fits_of_checkOrder _ hpassed)
      refine ⟨?_, hpriced, ?_, hphase⟩
      · exact hfit
      · intro a ha
        obtain rfl := Stage.approved.inj ha
        exact ⟨hchecked.1, hprice⟩
    · refine capped_of_le ⟨hcap, hpriced, ?_, hphase⟩ (le_refl _) rfl hidle.symm hphase
      intro a ha
      rw [hidle] at ha
      cases ha
  · exact h
  · exact h

/-- What the main loop does while it works on no order keeps everything under the cap. -/
theorem capped_proceeds {x y : TradingLoop c} (h : x.Capped) (hidle : x.stage = .idle)
    {action : MainAction} (hproceeds : x.Proceeds action y)
    (hfills : x.FillsAsChecked (.main action)) (hfits : x.FitsInFlight (.main action)) : y.Capped := by
  have hupdated (u : RiskUpdate) (hquiet : x.FillsAsChecked (.main (.updateRisk u))) :
      Capped { x with bot := x.updatedBot u, phase := .drawdown (x.equity u) } := by
    obtain ⟨hunrealized, hrealized, hstore⟩ := hquiet
    refine capped_of_le h (le_of_eq ?_) rfl rfl (fun _ _ => by simp)
    exact x.bot.totalExposure_updateRiskState c.defaultExchange (u := x.riskUpdate u) hunrealized
      hrealized hstore
  cases hproceeds with
  | stays => exact h
  | updateRisk u => exact hupdated u hfills
  | dailyLoss u => exact capped_activate (hupdated u hfills) true .dailyLoss
  | maxDrawdown =>
    have hmoved : Capped { x with phase := .stops } :=
      capped_of_le h (le_refl _) rfl rfl (fun _ _ => by simp)
    exact capped_activate hmoved true .maxDrawdown
  | closeStops prices now _ symbols =>
    exact capped_closePositions (y := { x.receive (.updateAllPnl prices) with phase := .arbitrage })
      h rfl rfl rfl (fun _ _ => by simp) symbols now
  | firstLeg _ arb harb hcan hconnected hsize =>
    exact absurd hsize (not_lt.mpr (hfits rfl hcan hconnected arb harb))
  | checkSignal path signal now => exact capped_checkSignal h hidle hfits
  | readFlags => exact capped_of_le h (le_refl _) rfl rfl (fun _ _ => by simp [readFlags])
  | checkDrawdown | passArbitrage | secondLeg | nextSignals | endIteration =>
    exact capped_of_le h (le_refl _) rfl rfl (fun _ _ => by simp)

theorem capped_fill {x : TradingLoop c} (h : x.Capped) {index : ℕ} {a : Approval c.params}
    (ha : x.inFlight[index]? = some a) (fee : ℚ) :
    Capped { x.receive (.fill (a.fill c.defaultExchange fee)) with
      inFlight := x.inFlight.eraseIdx index } := by
  obtain ⟨hcap, hpriced, happroved, hphase⟩ := h
  obtain ⟨hquantity, hprice⟩ := hpriced a (List.mem_of_getElem? ha)
  refine ⟨?_, fun b hb => hpriced b (List.mem_of_mem_eraseIdx hb), happroved, hphase⟩
  have hraised : (x.receive (.fill (a.fill c.defaultExchange fee))).exposure ≤
      x.exposure + a.notional :=
    BotContext.totalExposure_onFill_le (x := x.bot.toBotContext)
      (o := a.fill c.defaultExchange fee) hquantity hprice
  have herased := inFlightNotional_erase ha
  change (x.receive (.fill (a.fill c.defaultExchange fee))).exposure +
    ((x.inFlight.eraseIdx index).map Approval.notional).sum + x.approvedNotional ≤ _
  linarith

/-- An order that ends without a fill leaves the exposure alone. -/
theorem capped_ended {x : TradingLoop c} (h : x.Capped) {index : ℕ} {a : Approval c.params}
    (ha : x.inFlight[index]? = some a) (status : Exchange.OrderStatus) :
    Capped { x.receive (.fill (a.ending c.defaultExchange status)) with
      inFlight := x.inFlight.eraseIdx index } := by
  obtain ⟨hcap, hpriced, happroved, hphase⟩ := h
  obtain ⟨hquantity, hprice⟩ := hpriced a (List.mem_of_getElem? ha)
  refine ⟨?_, fun b hb => hpriced b (List.mem_of_mem_eraseIdx hb), happroved, hphase⟩
  have hopens : ¬ x.bot.OpensOrIncreases (a.ending c.defaultExchange status) := by
    intro hopens
    obtain hnone | ⟨⟨-, hempty, -⟩, -⟩ :=
      BotContext.applyFill_result x.bot.posMgr (a.ending c.defaultExchange status)
    · rw [BotContext.OpensOrIncreases, hnone] at hopens
      simp at hopens
    · exact lt_irrefl _ hempty
  have hkept : (x.receive (.fill (a.ending c.defaultExchange status))).exposure ≤ x.exposure :=
    BotContext.totalExposure_onFill_le_self hopens
  have herased := inFlightNotional_erase ha
  have hnotional : 0 < a.notional := mul_pos hquantity hprice
  change (x.receive (.fill (a.ending c.defaultExchange status))).exposure +
    ((x.inFlight.eraseIdx index).map Approval.notional).sum + x.approvedNotional ≤ _
  linarith

/-- Sending an order moves its notional from the check to the flight; an order that is not sent is
dropped. -/
theorem capped_submit {x : TradingLoop c} (h : x.Capped) {a : Approval c.params}
    (hstage : x.stage = .approved a) (handed : Bool) : (x.submit a handed).2.Capped := by
  obtain ⟨hcap, hpriced, happroved, hphase⟩ := h
  obtain ⟨hquantity, hprice⟩ := happroved a hstage
  have hnotional : 0 < a.notional := mul_pos hquantity hprice
  simp only [approvedNotional, hstage] at hcap
  unfold submit
  split_ifs
  · refine ⟨?_, ?_, fun b hb => (by cases hb), hphase⟩
    · change x.exposure + ((x.inFlight ++ [a]).map Approval.notional).sum + 0 ≤ _
      rw [List.map_append, List.sum_append, List.map_singleton, List.sum_singleton, add_zero,
        ← add_assoc]
      exact hcap
    · intro b hb
      rcases List.mem_append.mp hb with hold | hnew
      · exact hpriced b hold
      · rw [List.mem_singleton.mp hnew]
        exact ⟨hquantity, hprice⟩
  · refine ⟨?_, hpriced, fun b hb => (by cases hb), hphase⟩
    change x.exposure + x.inFlightNotional + 0 ≤ _
    linarith

theorem capped_receive {x : TradingLoop c} (h : x.Capped) {e : BotEvent}
    (hfills : x.FillsAsChecked (.receive e)) : (x.receive e).Capped := by
  refine capped_of_le h ?_ rfl rfl h.2.2.2
  by_cases hfill : ∃ o, e = .fill o
  · obtain ⟨o, rfl⟩ := hfill
    exact BotContext.totalExposure_onFill_le_self hfills
  · have hkept := BotContext.riskMgr_step_of_not_fill c.defaultExchange x.bot.toBotContext
      (e := e) (fun o ho => hfill ⟨o, ho⟩)
    exact le_of_eq (congrArg RiskManager.totalExposure hkept)

theorem capped_step (x : TradingLoop c) (e : LoopAction) (h : x.Capped)
    (hfills : x.FillsAsChecked e) (hfits : x.FitsInFlight e) : (x.step e).Capped := by
  have hsteps := x.steps e
  generalize x.step e = y at hsteps ⊢
  cases hsteps with
  | proceed action _ hidle hproceeds => exact capped_proceeds h hidle hproceeds hfills hfits
  | submit a handed hstage => exact capped_submit h hstage handed
  | register a hstage =>
    obtain ⟨hcap, hpriced, -, hphase⟩ := h
    simp only [approvedNotional, hstage] at hcap
    exact ⟨hcap, hpriced, fun b hb => (by cases hb), hphase⟩
  | activate reason => exact capped_activate h false reason
  | callback index now a next =>
    have hran : (x.runCallback now next).2.Capped := by
      cases next with
      | cancelAll => exact h
      | closeAll => exact capped_closePositions h rfl rfl rfl h.2.2.2 _ now
      | notify => exact h
    exact hran
  | fill index fee a ha => exact capped_fill h ha fee
  | ended index status a ha => exact capped_ended h ha status
  | receive e => exact capped_receive h hfills
  | _ => exact h

theorem isOrder_proceed {x : TradingLoop c} (h : x.Capped) {action : MainAction}
    (hfits : x.FitsInFlight (.main action)) {frame : Frame} (hmem : frame ∈ (x.proceed action).1) :
    frame.isOrder = false := by
  cases action with
  | closeStops prices now =>
    simp only [proceed] at hmem
    split_ifs at hmem
    · exact isOrder_closePositions hmem
    · cases hmem
  | arbitrage handed =>
    simp only [proceed] at hmem
    split at hmem
    · unfold arbitrage at hmem
      cases harb : x.arb with
      | none =>
        simp only [harb] at hmem
        cases hmem
      | some arb =>
        simp only [harb] at hmem
        split_ifs at hmem with hcan hhanded
        · exact absurd hhanded.2.1 (not_lt.mpr (hfits hhanded.2.2 hcan hhanded.1 arb harb))
        · cases hmem
        · cases hmem
    · cases hmem
  | secondLeg handed unwound =>
    simp only [proceed] at hmem
    split at hmem
    · rename_i arb quantity hphase
      exact absurd hphase (h.2.2.2 arb quantity)
    · cases hmem
  | checkDrawdown =>
    simp only [proceed] at hmem
    split at hmem <;> cases hmem
  | nextLoop =>
    simp only [proceed] at hmem
    split at hmem <;> cases hmem
  | _ => cases hmem

/-- A message of type `order` is that of the order that was checked last. -/
theorem approved_of_handed {x : TradingLoop c} (h : x.Capped) {e : LoopAction}
    (hfits : x.FitsInFlight e) {frame : Frame} (hmem : frame ∈ x.handed e)
    (horder : frame.isOrder = true) : x.stage.frame? = some frame := by
  unfold handed at hmem
  cases e with
  | main action =>
    simp only [perform] at hmem
    split_ifs at hmem
    · unfold act at hmem
      cases hstage : x.stage with
      | idle =>
        rw [hstage] at hmem
        rw [isOrder_proceed h hfits hmem] at horder
        cases horder
      | approved a =>
        rw [hstage] at hmem
        cases action with
        | submit handed =>
          simp only [submit] at hmem
          split_ifs at hmem
          · exact congrArg some (List.mem_singleton.mp hmem).symm
          · cases hmem
        | _ => cases hmem
      | sent a =>
        rw [hstage] at hmem
        cases action <;> cases hmem
    · cases hmem
  | callback index now =>
    obtain hnone | ⟨a, next, rest, -, -, hcallback⟩ := x.callback_cases index now
    · simp only [perform, hnone] at hmem
      cases hmem
    · simp only [perform, hcallback] at hmem
      rw [isOrder_runCallback hmem] at horder
      cases horder
  | fill index fee =>
    simp only [perform] at hmem
    split at hmem <;> cases hmem
  | ended index status =>
    simp only [perform] at hmem
    split at hmem <;> cases hmem
  | _ => cases hmem

/-- With everything under the cap, the open positions are, for all that is counted as exposure. -/
theorem entryNotional_le_of_capped {x : TradingLoop c} (h : x.Capped) (htracks : x.TracksExposure) :
    entryNotional x.bot.posMgr.positions ≤ c.params.maxTotalExposure := by
  obtain ⟨hcap, hpriced, happroved, -⟩ := h
  have hflight : 0 ≤ x.inFlightNotional := by
    apply List.sum_nonneg
    intro notional hmem
    obtain ⟨a, ha, rfl⟩ := List.mem_map.mp hmem
    exact (mul_pos (hpriced a ha).1 (hpriced a ha).2).le
  have hchecked : 0 ≤ x.approvedNotional := by
    unfold approvedNotional
    split
    · rename_i a ha
      exact (mul_pos (happroved a ha).1 (happroved a ha).2).le
    · exact le_refl _
  rw [← htracks]
  linarith

/-- In every run in which the exposure is tracked and orders fill as they were checked, if each order
fits under the cap beside the orders in flight and no arbitrage is executed, the open positions stay
under the cap and only checked orders are sent. -/
theorem capsExposure_of_fitsInFlight (c : LoopConfig) (hcap : 0 ≤ c.params.maxTotalExposure)
    (balance : ℚ) (events : List LoopAction) (htracks : Along step (fun x e => (x.step e).TracksExposure)
      ({ bot := { balance := balance } } : TradingLoop c) events)
    (hfills : Along step FillsAsChecked ({ bot := { balance := balance } } : TradingLoop c) events)
    (hfits : Along step FitsInFlight ({ bot := { balance := balance } } : TradingLoop c) events) :
    Along step CapsExposure ({ bot := { balance := balance } } : TradingLoop c) events := by
  have hall := (along_and ..).mpr ⟨htracks, (along_and ..).mpr ⟨hfills, hfits⟩⟩
  refine along_imp Capped (fun x e h hstep => capped_step x e h hstep.2.1 hstep.2.2)
    (fun x e h hstep => ⟨?_, fun frame hmem horder => ?_⟩) (capped_init hcap balance) hall
  · exact entryNotional_le_of_capped (capped_step x e h hstep.2.1 hstep.2.2) hstep.1
  · exact approved_of_handed h hstep.2.2 hmem horder

/-- A cap that one order of the strong signal fits under, and two do not. -/
def cappedLoop : LoopConfig := { params := { maxTotalExposure := 1500 } }

/-- Two orders are checked in one sweep before the first one has filled; both fill. -/
theorem not_capsExposure_twoInFlight :
    let start : TradingLoop cappedLoop := { bot := { balance := 10000 } }
    let events := [.main .readFlags] ++ upToSignals ++ tradeOn "BTC" ++ tradeOn "ETH" ++
      [.fill 0 0, .fill 0 0]
    Along step (fun x e => (x.step e).TracksExposure) start events ∧
      Along step FillsAsChecked start events ∧ ¬ Along step CapsExposure start events := by
  decide +kernel

/-- The second order is checked after the first one has filled, and is turned down. -/
theorem capsExposure_filledBetween :
    Along step CapsExposure ({ bot := { balance := 10000 } } : TradingLoop cappedLoop)
      ([.main .readFlags] ++ upToSignals ++ tradeOn "BTC" ++ [.fill 0 0] ++ tradeOn "ETH") :=
  capsExposure_of_fitsInFlight cappedLoop (by decide +kernel) 10000 _ (by decide +kernel)
    (by decide +kernel) (by decide +kernel)

end TradingLoop

end TradingSim.Bot
