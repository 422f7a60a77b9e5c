import Mathlib.Algebra.Order.BigOperators.Group.List
import Mathlib.Tactic.FieldSimp
import Mathlib.Tactic.Ring
import TradingSim.Foundations.Run
import TradingSim.Bot.BookSteps

/-!
# The exposure tracker

The risk manager adds the notional of every fill that opens a position or scales it in, and
subtracts the notional of every fill that reduces or closes one. The book values a position at
its entry price. The two agree as long as what a fill takes off the tracker is what it takes
off the book: a reduction at the entry price, a close of the position's whole entry value.
-/

namespace TradingSim.Bot

open Foundations

/-- What positions were entered for: quantity times entry price, summed. -/
def entryNotional (positions : List Position) : ℚ :=
  (positions.map fun pos => pos.quantity * pos.entryPrice).sum

/-- Every position has a quantity and an entry price above zero. -/
def Funded (positions : List Position) : Prop :=
  ∀ pos ∈ positions, 0 < pos.quantity ∧ 0 < pos.entryPrice

theorem entryNotional_append (positions : List Position) (pos : Position) :
    entryNotional (positions ++ [pos]) = entryNotional positions + pos.quantity * pos.entryPrice := by
  simp [entryNotional]

theorem entryNotional_perm {positions positions' : List Position} (h : positions.Perm positions') :
    entryNotional positions = entryNotional positions' :=
  (h.map _).sum_eq

/-- Positions with quantities and prices above zero were entered for something or are none. -/
theorem entryNotional_nonneg {positions : List Position} (h : Funded positions) :
    0 ≤ entryNotional positions := by
  apply List.sum_nonneg
  intro notional hmem
  obtain ⟨pos, hpos, rfl⟩ := List.mem_map.mp hmem
  exact (mul_pos (h pos hpos).1 (h pos hpos).2).le

theorem Funded.append {positions : List Position} (h : Funded positions) {pos : Position}
    (hquantity : 0 < pos.quantity) (hprice : 0 < pos.entryPrice) : Funded (positions ++ [pos]) := by
  intro pos' hmem
  rcases List.mem_append.mp hmem with hold | hnew
  · exact h pos' hold
  · rw [List.mem_singleton.mp hnew]
    exact ⟨hquantity, hprice⟩

namespace PositionManager

variable {m : PositionManager} {pos : Position}

/-- Closing a position takes its entry value off the book. -/
theorem entryNotional_remove {symbol : String} (hpos : m.position? symbol = some pos) :
    entryNotional (KeyedList.remove Position.symbol m.positions symbol) =
      entryNotional m.positions - pos.quantity * pos.entryPrice := by
  rw [position?_eq] at hpos
  rw [entryNotional_perm (KeyedList.perm_cons_remove hpos), entryNotional, entryNotional,
    List.map_cons, List.sum_cons]
  ring

theorem entryNotional_setPosition {pos' : Position} (hpos : m.position? pos'.symbol = some pos) :
    entryNotional (m.setPosition pos').positions =
      entryNotional m.positions - pos.quantity * pos.entryPrice + pos'.quantity * pos'.entryPrice := by
  rw [← entryNotional_remove hpos]
  rw [position?_eq] at hpos
  rw [setPosition, entryNotional_perm (KeyedList.put_perm_cons_remove hpos), entryNotional,
    List.map_cons, List.sum_cons, entryNotional]
  ring

theorem funded_setPosition (h : Funded m.positions) (hquantity : 0 < pos.quantity)
    (hprice : 0 < pos.entryPrice) : Funded (m.setPosition pos).positions := by
  intro pos' hmem
  rcases KeyedList.mem_put_push hmem with rfl | hold
  · exact ⟨hquantity, hprice⟩
  · exact h pos' hold

/-- A position that is found has a quantity and a price above zero. -/
theorem Funded.position? (h : Funded m.positions) {symbol : String}
    (hpos : m.position? symbol = some pos) : 0 < pos.quantity ∧ 0 < pos.entryPrice :=
  h pos (List.mem_of_find?_eq_some hpos)

/-- Executions at a price above zero keep quantities and prices above zero. -/
theorem funded_applyExecution (h : Funded m.positions) (symbol : String) (side : Exchange.Side)
    {filledQty price : ℚ} (hfilled : 0 < filledQty) (hprice : 0 < price) (fee : ℚ) :
    Funded (m.applyExecution symbol side filledQty price fee).2.positions := by
  unfold applyExecution
  cases hpos : m.position? symbol with
  | some pos =>
    obtain ⟨hquantity, hentry⟩ := Funded.position? h hpos
    obtain ⟨-, -, pos', hpositions, -, -, hquantity', hentry'⟩ |
      ⟨-, hpartial, -, -, pos', hpositions, -, -, hquantity', hentry'⟩ |
      ⟨-, -, -, -, hpositions⟩ := m.fillPosition_cases pos side filledQty price fee
    · rw [hpositions]
      apply funded_setPosition h
      · rw [hquantity']
        positivity
      · rw [hentry']
        positivity
    · rw [hpositions]
      apply funded_setPosition h
      · linarith
      · rw [hentry']
        exact hentry
    · rw [hpositions]
      exact fun pos' hmem => h pos' (KeyedList.mem_of_mem_remove hmem)
  | none =>
    cases m.pendingOrders.find? symbol with
    | none => exact h
    | some order => exact Funded.append h hfilled hprice

end PositionManager

/-- A fill on the other side of a position is worth the entry value of what it takes off: it
reduces at the entry price, or closes for the whole entry value. -/
def OrderUpdate.WorthEntry (o : OrderUpdate) (pos : Position) : Prop :=
  pos.side ≠ o.side →
    if o.filledQuantity + 1 / 10 ^ 12 < pos.quantity then o.filledPrice = pos.entryPrice
    else o.filledQuantity * o.filledPrice = pos.quantity * pos.entryPrice

/-- What the exposure of the bot hangs on: orders that are registered and orders that fill. -/
inductive Trade where
  | register (signal : Signal) (quantity : ℚ)
  | filled (o : OrderUpdate) (hfilled : o.status = .filled)

def Trade.event : Trade → BotEvent
  | .register signal quantity => .addPendingOrder signal quantity
  | .filled o _ => .fill o

namespace BotContext

variable {defaultExchange : String}

def trade (defaultExchange : String) (x : BotContext) (t : Trade) : BotContext :=
  x.step defaultExchange t.event

/-- The tracker holds what the open positions were entered for: nothing when there are none,
and never less than nothing. -/
def ExposureTracked (x : BotContext) : Prop :=
  x.riskMgr.totalExposure = entryNotional x.posMgr.positions ∧
    (x.posMgr.positions = [] → x.riskMgr.totalExposure = 0) ∧ 0 ≤ x.riskMgr.totalExposure

/-- Executions against positions are worth the entry value of what they take off. -/
def ClosesAtEntry (x : BotContext) : Trade → Prop
  | .register _ _ => True
  | .filled o _ => o.Executes → ∀ pos ∈ x.posMgr.position? o.symbol, o.WorthEntry pos

/-- On positions with quantities and prices above zero the tracker is right when its total is. -/
theorem exposureTracked_iff {x : BotContext} (h : Funded x.posMgr.positions) :
    x.ExposureTracked ↔ x.riskMgr.totalExposure = entryNotional x.posMgr.positions := by
  constructor
  · intro htracked
    exact htracked.1
  · intro htotal
    refine ⟨htotal, fun hnone => ?_, ?_⟩
    · rw [htotal, hnone]
      rfl
    · rw [htotal]
      exact entryNotional_nonneg h

/-- Registering an order changes neither the positions nor the risk trackers. -/
theorem trade_register (x : BotContext) (signal : Signal) (quantity : ℚ) :
    (x.trade defaultExchange (.register signal quantity)).posMgr.positions = x.posMgr.positions ∧
      (x.trade defaultExchange (.register signal quantity)).riskMgr = x.riskMgr := by
  constructor
  · simp only [trade, Trade.event, step, PositionManager.addPendingOrder]
    split
    · rfl
    · rfl
  · rfl

/-- Every trade keeps quantities and prices above zero. -/
theorem funded_trade {x : BotContext} (h : Funded x.posMgr.positions) (t : Trade) :
    Funded (x.trade defaultExchange t).posMgr.positions := by
  cases t with
  | register signal quantity =>
    rw [(trade_register x signal quantity).1]
    exact h
  | filled o hfilled =>
    change Funded (x.onFill o).posMgr.positions
    by_cases hexecutes : o.Executes
    · rw [posMgr_onFill_of_executes hexecutes]
      exact PositionManager.funded_applyExecution h _ _ hexecutes.2.1 hexecutes.2.2 _
    · rw [posMgr_onFill_of_not_executes hfilled hexecutes]
      exact h

theorem trackFill_iff {x : BotContext} (h : Funded x.posMgr.positions)
    (htracked : x.riskMgr.totalExposure = entryNotional x.posMgr.positions) {o : OrderUpdate}
    (hexecutes : o.Executes) :
    (trackFill x.riskMgr o (x.posMgr.applyExecution o.symbol o.side o.filledQuantity o.filledPrice
        o.fee).1).totalExposure =
      entryNotional (x.posMgr.applyExecution o.symbol o.side o.filledQuantity o.filledPrice
        o.fee).2.positions ↔ ∀ pos ∈ x.posMgr.position? o.symbol, o.WorthEntry pos := by
  obtain ⟨-, hquantity, hprice⟩ := hexecutes
  unfold PositionManager.applyExecution
  cases hpos : x.posMgr.position? o.symbol with
  | none =>
    refine iff_of_true ?_ (by simp)
    cases x.posMgr.pendingOrders.find? o.symbol with
    | none => exact htracked
    | some order =>
      change x.riskMgr.totalExposure + o.filledQuantity * o.filledPrice =
        entryNotional (x.posMgr.positions ++ [_])
      rw [entryNotional_append, htracked]
      rfl
  | some pos =>
    obtain ⟨hheld, hentry⟩ := PositionManager.Funded.position? h hpos
    have hsymbol := PositionManager.symbol_of_position? hpos
    simp only [Option.mem_def, Option.some_inj, forall_eq', OrderUpdate.WorthEntry]
    obtain ⟨hside, heffect, pos', hpositions, hsymbol', -, hquantity', hentry'⟩ |
      ⟨hside, hpartial, heffect, hnotional, pos', hpositions, hsymbol', -, hquantity', hentry'⟩ |
      ⟨hside, hfull, heffect, hnotional, hpositions⟩ :=
      x.posMgr.fillPosition_cases pos o.side o.filledQuantity o.filledPrice o.fee
    · -- scaling in adds the fill's notional on both sides
      refine iff_of_true ?_ fun hne => absurd hside hne
      have hpos' : x.posMgr.position? pos'.symbol = some pos := by rw [hsymbol', hsymbol, hpos]
      rw [hpositions, PositionManager.entryNotional_setPosition hpos', hquantity', hentry']
      simp only [trackFill, heffect, RiskManager.onFill, htracked]
      field_simp
      ring
    · -- a reduction takes off the slice at the fill's price here, at the entry price there
      have hpos' : x.posMgr.position? pos'.symbol = some pos := by rw [hsymbol', hsymbol, hpos]
      rw [hpositions, PositionManager.entryNotional_setPosition hpos', hquantity', hentry']
      simp only [trackFill, heffect, RiskManager.reduceExposure, htracked, hnotional, hside, hpartial,
        ne_eq, not_false_eq_true, forall_true_left, if_true]
      constructor
      · intro heq
        have hslice : o.filledQuantity * (o.filledPrice - pos.entryPrice) = 0 := by linarith
        rcases mul_eq_zero.mp hslice with hzero | hzero
        · linarith
        · linarith
      · intro heq
        rw [heq]
        ring
    · -- a close takes off the fill's notional here, the whole entry value there
      rw [hpositions, hsymbol, PositionManager.entryNotional_remove hpos]
      simp only [trackFill, heffect, RiskManager.reduceExposure, htracked, hnotional, hside,
        not_lt.mpr hfull, ne_eq, not_false_eq_true, forall_true_left, if_false]
      constructor
      · intro heq
        linarith
      · intro heq
        linarith

theorem exposureTracked_trade_iff {x : BotContext} (h : Funded x.posMgr.positions)
    (htracked : x.ExposureTracked) (t : Trade) :
    (x.trade defaultExchange t).ExposureTracked ↔ x.ClosesAtEntry t := by
  rw [exposureTracked_iff (funded_trade h t)]
  rw [exposureTracked_iff h] at htracked
  cases t with
  | register signal quantity =>
    rw [(trade_register x signal quantity).1, (trade_register x signal quantity).2]
    exact iff_of_true htracked trivial
  | filled o hfilled =>
    change (x.onFill o).riskMgr.totalExposure = entryNotional (x.onFill o).posMgr.positions ↔ _
    rw [posMgr_onFill, riskMgr_onFill x hfilled]
    by_cases hexecutes : o.Executes
    · rw [x.posMgr.applyFill_of_executes hexecutes, trackFill_iff h htracked hexecutes]
      simp only [ClosesAtEntry, hexecutes, forall_true_left]
    · rw [x.posMgr.applyFill_of_not_executes hfilled hexecutes]
      exact iff_of_true htracked fun h => absurd h hexecutes

/-- Along every run of registered and filled orders from an empty book, the tracker is right
after every trade exactly when every fill against a position is worth the entry value of what
it takes off. -/
theorem exposureTracked_iff_closesAtEntry (defaultExchange : String) (trades : List Trade) :
    Along (trade defaultExchange) (fun x t => (x.trade defaultExchange t).ExposureTracked) {} trades ↔
      Along (trade defaultExchange) ClosesAtEntry {} trades := by
  refine along_congr (fun x => Funded x.posMgr.positions ∧ x.ExposureTracked) ?_ ?_ trades ?_
  · intro x t h hafter
    exact ⟨funded_trade h.1 t, hafter⟩
  · intro x t h
    exact exposureTracked_trade_iff h.1 h.2 t
  · exact ⟨fun pos hpos => absurd hpos List.not_mem_nil, rfl, fun _ => rfl, le_refl _⟩

def unitFill (side : Exchange.Side) (price : ℚ) : OrderUpdate :=
  { symbol := "BTC/USDT", exchange := "binance", side := side, status := .filled
    filledQuantity := 1, filledPrice := price }

/-- A round trip: one unit is bought at 100 and sold at 110. -/
def roundTrip : List Trade :=
  [.register { symbol := "BTC/USDT", direction := .long } 1, .filled (unitFill .buy 100) rfl,
    .filled (unitFill .sell 110) rfl]

/-- After the round trip nothing is held, and the tracker is below zero by the profit. -/
theorem not_exposureTracked_roundTrip : ¬ (run (trade "binance") {} roundTrip).ExposureTracked ∧
      (run (trade "binance") {} roundTrip).posMgr.positions = [] ∧
      (run (trade "binance") {} roundTrip).riskMgr.totalExposure = -10 := by
  have hnone : (run (trade "binance") {} roundTrip).posMgr.positions = [] := by decide +kernel
  have htotal : (run (trade "binance") {} roundTrip).riskMgr.totalExposure = -10 := by decide +kernel
  refine ⟨fun htracked => ?_, hnone, htotal⟩
  have := htracked.2.2
  rw [htotal] at this
  norm_num at this

end BotContext

end TradingSim.Bot
