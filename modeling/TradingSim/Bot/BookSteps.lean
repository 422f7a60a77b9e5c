import TradingSim.Bot.Callbacks

/-!
# What the book's operations do

One lemma an operation for the pending orders and for the position of a symbol. Executed
fills, rejections and cancellations take the pending order of their symbol out; account
broadcasts never touch a pending order, and leave the positions they list with the quantity
they list them with.
-/

namespace TradingSim.Bot

open Foundations
open Exchange (Side OrderStatus)

namespace PositionManager

variable {m : PositionManager}

theorem position?_eq (m : PositionManager) (symbol : String) :
    m.position? symbol = (KeyedList.under Position.symbol symbol m.positions).head? :=
  (List.head?_filter ..).symm

variable {symbol : String}

theorem symbol_of_position? {pos : Position} (h : m.position? symbol = some pos) : pos.symbol = symbol := by
  simpa using List.find?_some h

/-- Replacing a position replaces the one found under its symbol. -/
theorem position?_setPosition (m : PositionManager) (pos : Position) (symbol : String) :
    (m.setPosition pos).position? symbol =
      if pos.symbol = symbol then some pos else m.position? symbol := by
  simp only [position?_eq, setPosition, KeyedList.under_put KeyedList.joins_push]
  split
  · rfl
  · rfl

@[simp] theorem pendingOrders_syncPosition (m : PositionManager) (exchange : String)
    (report : PositionReport) : (m.syncPosition exchange report).pendingOrders = m.pendingOrders := by
  unfold syncPosition
  split
  · rfl
  · split
    · rfl
    · split <;> rfl

theorem pendingOrders_reconcile (exchangeSymbols : List String) (exchange : String)
    (positions : List Position) (acc : List String × PositionManager) :
    (positions.foldl (reconcileOne exchangeSymbols exchange) acc).2.pendingOrders =
      acc.2.pendingOrders := by
  induction positions generalizing acc with
  | nil => rfl
  | cons pos rest ih =>
    rw [List.foldl_cons, ih]
    simp only [reconcileOne]
    split_ifs <;> rfl

@[simp] theorem pendingOrders_reconcilePositions (m : PositionManager)
    (exchangeSymbols : List String) (exchange : String) :
    (m.reconcilePositions exchangeSymbols exchange).2.pendingOrders = m.pendingOrders :=
  pendingOrders_reconcile ..

theorem reconcile_sublist (exchangeSymbols : List String) (exchange : String)
    (positions : List Position) (acc : List String × PositionManager) :
    (positions.foldl (reconcileOne exchangeSymbols exchange) acc).2.positions.Sublist
      (acc.2.positions ++ positions) := by
  induction positions generalizing acc with
  | nil => simp
  | cons pos rest ih =>
    apply (ih _).trans
    rw [← List.singleton_append, ← List.append_assoc]
    apply List.Sublist.append_right
    simp only [reconcileOne]
    split_ifs
    · exact List.Sublist.refl _
    · exact List.Sublist.refl _
    · exact List.sublist_append_left _ _

theorem reconcilePositions_sublist (m : PositionManager) (exchangeSymbols : List String)
    (exchange : String) :
    (m.reconcilePositions exchangeSymbols exchange).2.positions.Sublist m.positions :=
  reconcile_sublist exchangeSymbols exchange m.positions _

/-- The positions of a listed symbol are all kept. -/
theorem under_reconcile {exchangeSymbols : List String}
    (hlisted : symbol ∈ exchangeSymbols) (exchange : String) (positions : List Position)
    (acc : List String × PositionManager) : KeyedList.under Position.symbol symbol
        (positions.foldl (reconcileOne exchangeSymbols exchange) acc).2.positions =
      KeyedList.under Position.symbol symbol acc.2.positions ++
        KeyedList.under Position.symbol symbol positions := by
  induction positions generalizing acc with
  | nil => simp
  | cons pos rest ih =>
    rw [List.foldl_cons, ih]
    have hpush : KeyedList.under Position.symbol symbol (acc.2.positions ++ [pos]) ++
          KeyedList.under Position.symbol symbol rest =
        KeyedList.under Position.symbol symbol acc.2.positions ++
          KeyedList.under Position.symbol symbol (pos :: rest) := by
      rw [← KeyedList.under_append, ← KeyedList.under_append, List.append_assoc,
        List.singleton_append]
    simp only [reconcileOne]
    split_ifs with hkept hmissed
    · exact hpush
    · exact hpush
    · have hne : pos.symbol ≠ symbol := by
        rintro rfl
        exact hkept (Or.inr hlisted)
      rw [KeyedList.under_cons_of_ne hne]

theorem position?_reconcilePositions (m : PositionManager) {exchangeSymbols : List String}
    (hlisted : symbol ∈ exchangeSymbols) (exchange : String) :
    (m.reconcilePositions exchangeSymbols exchange).2.position? symbol = m.position? symbol := by
  rw [position?_eq, position?_eq, reconcilePositions, under_reconcile hlisted]
  rfl

theorem position?_syncPosition_of_ne (m : PositionManager) (exchange : String)
    {report : PositionReport} (h : report.symbol ≠ symbol) :
    (m.syncPosition exchange report).position? symbol = m.position? symbol := by
  unfold syncPosition
  split
  · rfl
  · split
    · rename_i pos hpos
      rw [position?_setPosition, if_neg]
      rwa [← symbol_of_position? hpos] at h
    · split
      · rfl
      · simp [position?, List.find?_append, h]

theorem quantity_syncPosition (m : PositionManager) (exchange : String) {report : PositionReport}
    (hquantity : 0 < report.quantity) (hsymbol : report.symbol ≠ "")
    (hpending : m.pendingOrders.find? report.symbol = none) :
    ((m.syncPosition exchange report).position? report.symbol).map Position.quantity =
      some report.quantity := by
  have hvalid : ¬ (report.quantity ≤ 0 ∨ report.symbol = "") :=
    not_or.mpr ⟨not_le.mpr hquantity, hsymbol⟩
  unfold syncPosition
  rw [if_neg hvalid]
  cases hpos : m.position? report.symbol with
  | some pos =>
    simp only [position?_setPosition, symbol_of_position? hpos, if_true, Option.map_some]
  | none =>
    rw [position?] at hpos
    simp [hpending, position?, List.find?_append, hpos]

theorem find?_pendingOrders_addPendingOrder (m : PositionManager) (signal : Signal) (quantity : ℚ)
    (exchange : String) (s : String) : (m.addPendingOrder signal quantity exchange).pendingOrders.find? s =
      if signal.isActionable ∧ s = signal.symbol then
        some
          { symbol := signal.symbol
            side := signal.side
            quantity := quantity
            stopLoss := signal.stopLoss
            takeProfit := signal.takeProfit
            exchange := exchange }
      else m.pendingOrders.find? s := by
  unfold addPendingOrder
  split
  · rename_i hactionable
    simp only [hactionable, true_and, Dict.find?_insert]
  · rename_i hneutral
    simp only [hneutral, false_and, Bool.false_eq_true, if_false]

theorem pendingOrders_fillPosition (m : PositionManager) (pos : Position) (side : Side)
    (filledQty price fee : ℚ) : (m.fillPosition pos side filledQty price fee).2.pendingOrders =
      m.pendingOrders.erase pos.symbol := by
  unfold fillPosition
  split_ifs <;> rfl

theorem fillPosition_cases (m : PositionManager) (pos : Position) (side : Side) (filledQty price fee : ℚ) :
    let filled := m.fillPosition pos side filledQty price fee
    (pos.side = side ∧ filled.1.effect = .increased ∧
      ∃ pos', filled.2.positions = (m.setPosition pos').positions ∧ pos'.symbol = pos.symbol ∧
        pos'.exchange = pos.exchange ∧ pos'.quantity = pos.quantity + filledQty ∧
        pos'.entryPrice =
          (pos.entryPrice * pos.quantity + price * filledQty) / (pos.quantity + filledQty)) ∨
    (pos.side ≠ side ∧ filledQty + 1 / 10 ^ 12 < pos.quantity ∧ filled.1.effect = .reduced ∧
      filled.1.notional = filledQty * price ∧
      ∃ pos', filled.2.positions = (m.setPosition pos').positions ∧ pos'.symbol = pos.symbol ∧
        pos'.exchange = pos.exchange ∧ pos'.quantity = pos.quantity - filledQty ∧
        pos'.entryPrice = pos.entryPrice) ∨
    (pos.side ≠ side ∧ pos.quantity ≤ filledQty + 1 / 10 ^ 12 ∧ filled.1.effect = .closed ∧
      filled.1.notional = filledQty * price ∧
      filled.2.positions = KeyedList.remove Position.symbol m.positions pos.symbol) := by
  unfold fillPosition
  split_ifs with hsame hpartial
  · exact Or.inl ⟨hsame, rfl, _, rfl, rfl, rfl, rfl, rfl⟩
  · exact Or.inr (Or.inl ⟨hsame, hpartial, rfl, rfl, _, rfl, rfl, rfl, rfl, rfl⟩)
  · exact Or.inr (Or.inr ⟨hsame, not_lt.mp hpartial, rfl, rfl, rfl⟩)

theorem find?_pendingOrders_applyExecution (m : PositionManager) (symbol : String) (side : Side)
    (filledQty price fee : ℚ) (s : String) :
    (m.applyExecution symbol side filledQty price fee).2.pendingOrders.find? s =
      if s = symbol then none else m.pendingOrders.find? s := by
  unfold applyExecution
  cases hpos : m.position? symbol with
  | some pos =>
    rw [pendingOrders_fillPosition, Dict.find?_erase, symbol_of_position? hpos]
  | none =>
    cases hpending : m.pendingOrders.find? symbol with
    | some order => exact Dict.find?_erase ..
    | none =>
      dsimp only
      split
      · rename_i hs
        rw [hs, hpending]
      · rfl

end PositionManager

/-- The update reports an execution that the book takes up. -/
def OrderUpdate.Executes (o : OrderUpdate) : Prop :=
  o.status = .filled ∧ 0 < o.filledQuantity ∧ 0 < o.filledPrice

instance (o : OrderUpdate) : Decidable o.Executes :=
  inferInstanceAs (Decidable (_ ∧ _ ∧ _))

/-- The update takes the pending order of its symbol out of the book. -/
def OrderUpdate.Settles (o : OrderUpdate) : Prop :=
  o.Executes ∨ o.status = .rejected ∨ o.status = .cancelled

instance (o : OrderUpdate) : Decidable o.Settles :=
  inferInstanceAs (Decidable (_ ∨ _ ∨ _))

namespace BotContext

variable (x : BotContext) (o : OrderUpdate)

@[simp] theorem posMgr_countUpdate : (x.countUpdate o).posMgr = x.posMgr := by
  unfold countUpdate
  split
  · split <;> rfl
  · rfl

@[simp] theorem riskMgr_countUpdate : (x.countUpdate o).riskMgr = x.riskMgr := by
  unfold countUpdate
  split
  · split <;> rfl
  · rfl

/-- The local book after an order update. -/
theorem posMgr_onFill :
    (x.onFill o).posMgr = (x.posMgr.applyFill o.symbol o.side o.filledQuantity o.filledPrice o.fee
      o.status).2 := by
  unfold onFill
  dsimp only
  split
  · exact posMgr_countUpdate ..
  · exact posMgr_countUpdate ..

theorem riskMgr_onFill {o : OrderUpdate} (hfilled : o.status = .filled) :
    (x.onFill o).riskMgr = trackFill x.riskMgr o (x.posMgr.applyFill o.symbol o.side
      o.filledQuantity o.filledPrice o.fee o.status).1 := by
  unfold onFill
  dsimp only
  rw [if_pos hfilled, riskMgr_countUpdate]

end BotContext

theorem PositionManager.applyFill_of_executes (m : PositionManager) {o : OrderUpdate} (h : o.Executes) :
    m.applyFill o.symbol o.side o.filledQuantity o.filledPrice o.fee o.status =
      m.applyExecution o.symbol o.side o.filledQuantity o.filledPrice o.fee := by
  obtain ⟨hfilled, hquantity, hprice⟩ := h
  have hpositive : ¬ (o.filledQuantity ≤ 0 ∨ o.filledPrice ≤ 0) :=
    not_or.mpr ⟨not_le.mpr hquantity, not_le.mpr hprice⟩
  rw [hfilled, applyFill]
  simp only [hpositive, if_false]

theorem PositionManager.applyFill_of_not_executes (m : PositionManager) {o : OrderUpdate}
    (hfilled : o.status = .filled) (h : ¬ o.Executes) :
    m.applyFill o.symbol o.side o.filledQuantity o.filledPrice o.fee o.status = ({}, m) := by
  have hempty : o.filledQuantity ≤ 0 ∨ o.filledPrice ≤ 0 := by
    by_contra hpositive
    rw [not_or, not_le, not_le] at hpositive
    exact h ⟨hfilled, hpositive⟩
  rw [hfilled, applyFill]
  simp only [hempty, if_true]

namespace BotContext

theorem posMgr_onFill_of_executes {x : BotContext} {o : OrderUpdate} (h : o.Executes) :
    (x.onFill o).posMgr =
      (x.posMgr.applyExecution o.symbol o.side o.filledQuantity o.filledPrice o.fee).2 := by
  rw [posMgr_onFill, x.posMgr.applyFill_of_executes h]

theorem posMgr_onFill_of_not_executes {x : BotContext} {o : OrderUpdate}
    (hfilled : o.status = .filled) (h : ¬ o.Executes) : (x.onFill o).posMgr = x.posMgr := by
  rw [posMgr_onFill, x.posMgr.applyFill_of_not_executes hfilled h]

/-- An order update leaves the book alone, executes, or releases its symbol. -/
theorem posMgr_onFill_cases (x : BotContext) (o : OrderUpdate) : (x.onFill o).posMgr = x.posMgr ∨
    (o.Executes ∧ (x.onFill o).posMgr =
      (x.posMgr.applyExecution o.symbol o.side o.filledQuantity o.filledPrice o.fee).2) ∨
    (x.onFill o).posMgr = { x.posMgr.cancelPending o.symbol with
        closingSince := x.posMgr.closingSince.erase o.symbol } := by
  by_cases hexecutes : o.Executes
  · exact Or.inr (Or.inl ⟨hexecutes, posMgr_onFill_of_executes hexecutes⟩)
  · cases hstatus : o.status with
    | filled => exact Or.inl (posMgr_onFill_of_not_executes hstatus hexecutes)
    | pending =>
      rw [posMgr_onFill, hstatus]
      exact Or.inl rfl
    | rejected =>
      rw [posMgr_onFill, hstatus]
      exact Or.inr (Or.inr rfl)
    | cancelled =>
      rw [posMgr_onFill, hstatus]
      exact Or.inr (Or.inr rfl)

theorem find?_pendingOrders_onFill (x : BotContext) (o : OrderUpdate) (s : String) :
    (x.onFill o).posMgr.pendingOrders.find? s =
      if o.Settles ∧ s = o.symbol then none else x.posMgr.pendingOrders.find? s := by
  by_cases hexecutes : o.Executes
  · have hsettles : o.Settles := Or.inl hexecutes
    simp only [posMgr_onFill_of_executes hexecutes, hsettles, true_and,
      PositionManager.find?_pendingOrders_applyExecution]
  · cases hstatus : o.status with
    | filled =>
      have hsettles : ¬ o.Settles := by simp [OrderUpdate.Settles, hexecutes, hstatus]
      simp only [posMgr_onFill_of_not_executes hstatus hexecutes, hsettles, false_and, if_false]
    | pending =>
      have hsettles : ¬ o.Settles := by simp [OrderUpdate.Settles, hexecutes, hstatus]
      rw [posMgr_onFill, hstatus]
      simp only [PositionManager.applyFill, hsettles, false_and, if_false]
    | rejected =>
      have hsettles : o.Settles := Or.inr (Or.inl hstatus)
      rw [posMgr_onFill, hstatus]
      simp only [PositionManager.applyFill, PositionManager.cancelPending, hsettles, true_and,
        Dict.find?_erase]
    | cancelled =>
      have hsettles : o.Settles := Or.inr (Or.inr hstatus)
      rw [posMgr_onFill, hstatus]
      simp only [PositionManager.applyFill, PositionManager.cancelPending, hsettles, true_and,
        Dict.find?_erase]

end BotContext

/-- A long order of one unit. -/
def btcLong : Signal := { symbol := "BTC/USDT", direction := .long, timestamp := 1 }

end TradingSim.Bot
