import Mathlib.Tactic.FieldSimp
import Mathlib.Tactic.Ring
import TradingSim.Bot.EngagedSymbols

/-!
# Profit and fills

What the bot has realized, together with what its open position of a symbol would win at a price, is
what the fills of the symbol brought in and paid, with the open quantity valued at that price.
-/

namespace TradingSim.Bot

open Foundations
open Exchange (Side)

/-- A fill of one symbol. -/
structure Fill where
  side : Side
  filledQty : ℚ
  price : ℚ
  fee : ℚ

/-- What a fill brings in, negative for a purchase. -/
def Fill.cash (f : Fill) : ℚ := if f.side = .sell then f.filledQty * f.price else -(f.filledQty * f.price)

/-- The unrealized profit at a price. -/
def Position.pnlAt (pos : Position) (price : ℚ) : ℚ := (pos.updatePnl price).unrealizedPnl

/-- The quantity, negative for a short position. -/
def Position.signedQty (pos : Position) : ℚ := if pos.isLong then pos.quantity else -pos.quantity

theorem Position.pnlAt_eq (pos : Position) (price : ℚ) :
    pos.pnlAt price = pos.signedQty * (price - pos.entryPrice) - (pos.feesPaid + pos.fundingPaid) := by
  simp only [pnlAt, updatePnl, signedQty]
  split
  · ring
  · ring

/-- A purchase pays and a sale brings in. -/
theorem Fill.cash_eq (f : Fill) :
    f.cash = -(if f.side = .buy then f.filledQty * f.price else -(f.filledQty * f.price)) := by
  rw [cash]
  cases f.side with
  | buy => simp
  | sell => simp

/-- A fill against a position brings in what it takes off a long and pays for what it takes off a
short. -/
theorem Fill.cash_of_ne {f : Fill} {pos : Position} (h : pos.side ≠ f.side) :
    f.cash = if pos.side = .buy then f.filledQty * f.price else -(f.filledQty * f.price) := by
  rw [cash]
  generalize pos.side = side at h
  cases side with
  | buy =>
    cases hside : f.side with
    | buy => exact absurd hside.symm h
    | sell => simp
  | sell =>
    cases hside : f.side with
    | buy => simp
    | sell => exact absurd hside.symm h

namespace PositionManager

/-- A `FILLED` report of the symbol. -/
def fill (m : PositionManager) (symbol : String) (f : Fill) : PositionManager :=
  m.step (.applyFill symbol f.side f.filledQty f.price f.fee .filled)

/-- The fill as the book takes it, if it does: a close takes the open quantity. -/
def booked? (m : PositionManager) (symbol : String) (f : Fill) : Option Fill :=
  if f.filledQty ≤ 0 ∨ f.price ≤ 0 then none
  else
    match m.position? symbol with
    | some pos =>
      some (if pos.ClosedBy f.side f.filledQty then { f with filledQty := pos.quantity } else f)
    | none => if (m.pendingOrders.find? symbol).isSome then some f else none

/-- The fills of a run as the book takes them. -/
def booked (m : PositionManager) (symbol : String) : List Fill → List Fill
  | [] => []
  | f :: rest => (m.booked? symbol f).toList ++ (m.fill symbol f).booked symbol rest

/-- The unrealized profit of the open position of a symbol at a price. -/
def unrealizedAt (m : PositionManager) (symbol : String) (price : ℚ) : ℚ :=
  match m.position? symbol with
  | some pos => pos.pnlAt price
  | none => 0

/-- What is left of the profit when the open quantity is sold or bought back at the price. -/
def proceeds (m : PositionManager) (symbol : String) (price : ℚ) : ℚ :=
  m.realizedPnlTotal + m.unrealizedAt symbol price - m.positionQty symbol * price

variable {m : PositionManager} {symbol : String}

variable {pos : Position}

theorem proceeds_of_position (hpos : m.position? symbol = some pos) (price : ℚ) : m.proceeds symbol price =
      m.realizedPnlTotal - pos.signedQty * pos.entryPrice - (pos.feesPaid + pos.fundingPaid) := by
  have hqty : m.positionQty symbol = pos.signedQty := by
    rw [positionQty, hpos]
    rfl
  rw [proceeds, hqty, unrealizedAt, hpos]
  change m.realizedPnlTotal + pos.pnlAt price - pos.signedQty * price = _
  rw [pos.pnlAt_eq]
  ring

theorem proceeds_of_flat (hflat : m.position? symbol = none) (price : ℚ) :
    m.proceeds symbol price = m.realizedPnlTotal := by
  rw [proceeds, positionQty, unrealizedAt, hflat]
  ring

/-- An opened position was paid for. -/
theorem proceeds_bookPending (hflat : m.position? symbol = none) (order : PendingOrder) (f : Fill)
    (price : ℚ) : (m.bookPending order symbol f.side f.filledQty f.price f.fee).2.proceeds symbol price =
      m.proceeds symbol price + f.cash - f.fee := by
  have hopened : (m.bookPending order symbol f.side f.filledQty f.price f.fee).2.position? symbol =
      some _ := (position?_push rfl hflat symbol).trans (if_pos rfl)
  rw [proceeds_of_position hopened, proceeds_of_flat hflat, f.cash_eq]
  simp only [bookPending, Position.updatePnl, Position.signedQty, Position.isLong]
  by_cases hlong : f.side = .buy
  · simp only [hlong, decide_true, if_true]
    ring
  · simp only [hlong, decide_false, Bool.false_eq_true, if_false]
    ring

variable {m' : PositionManager}

/-- Scaling a position in pays for what is added. -/
theorem proceeds_increase (hquantity : 0 < pos.quantity)
    (hpos : m.position? pos.symbol = some pos) {f : Fill} (hside : pos.side = f.side)
    (hfilled : 0 < f.filledQty)
    (hpositions : m'.positions = (m.increase pos f.filledQty f.price f.fee).2.positions)
    (hrealized : m'.realizedPnlTotal = m.realizedPnlTotal) (price : ℚ) :
    m'.proceeds pos.symbol price = m.proceeds pos.symbol price + f.cash - f.fee := by
  have hposition : m'.position? pos.symbol =
      (m.increase pos f.filledQty f.price f.fee).2.position? pos.symbol := by
    rw [position?, position?, hpositions]
  have hscaled := hposition.trans ((m.position?_setPosition _ _).trans (if_pos rfl))
  rw [proceeds_of_position hscaled, proceeds_of_position hpos, hrealized]
  rw [f.cash_eq, ← hside]
  simp only [Position.updatePnl, Position.signedQty, Position.isLong]
  by_cases hlong : pos.side = .buy
  · simp only [hlong, decide_true, if_true]
    field_simp
    ring
  · simp only [hlong, decide_false, Bool.false_eq_true, if_false]
    field_simp
    ring

/-- A partial close brings in the closed slice. -/
theorem proceeds_reduce (hpos : m.position? pos.symbol = some pos) {f : Fill} (hside : pos.side ≠ f.side)
    (hpositions : m'.positions = (m.reduce pos f.filledQty f.price f.fee).2.positions)
    (hrealized : m'.realizedPnlTotal =
      (m.reduce pos f.filledQty f.price f.fee).2.realizedPnlTotal) (price : ℚ) :
    m'.proceeds pos.symbol price = m.proceeds pos.symbol price + f.cash - f.fee := by
  have hposition : m'.position? pos.symbol =
      (m.reduce pos f.filledQty f.price f.fee).2.position? pos.symbol := by
    rw [position?, position?, hpositions]
  have hreduced := hposition.trans ((m.position?_setPosition _ _).trans (if_pos rfl))
  rw [proceeds_of_position hreduced, proceeds_of_position hpos, hrealized]
  rw [Fill.cash_of_ne hside]
  simp only [reduce, Position.updatePnl, Position.signedQty, Position.isLong]
  by_cases hlong : pos.side = .buy
  · simp only [hlong, decide_true, if_true]
    ring
  · simp only [hlong, decide_false, Bool.false_eq_true, if_false]
    ring

theorem proceeds_close (hsingle : m.Single) (hpos : m.position? pos.symbol = some pos) {f : Fill}
    (hside : pos.side ≠ f.side)
    (hpositions : m'.positions = (m.close pos f.filledQty f.price f.fee).2.positions)
    (hrealized : m'.realizedPnlTotal =
      (m.close pos f.filledQty f.price f.fee).2.realizedPnlTotal) (price : ℚ) :
    m'.proceeds pos.symbol price =
      m.proceeds pos.symbol price + ({ f with filledQty := pos.quantity } : Fill).cash - f.fee := by
  have hflat : m'.position? pos.symbol = none :=
    (position?_remove hsingle hpositions pos.symbol).trans (if_pos rfl)
  have hclosing : pos.side ≠ ({ f with filledQty := pos.quantity } : Fill).side := hside
  rw [proceeds_of_flat hflat, proceeds_of_position hpos, hrealized, Fill.cash_of_ne hclosing]
  simp only [close, Position.updatePnl, Position.signedQty, Position.isLong]
  by_cases hlong : pos.side = .buy
  · simp only [hlong, decide_true, if_true]
    ring
  · simp only [hlong, decide_false, Bool.false_eq_true, if_false]
    ring

theorem proceeds_fillPosition (hsingle : m.Single) (hquantity : 0 < pos.quantity)
    (hpos : m.position? pos.symbol = some pos) (f : Fill) (hfilled : 0 < f.filledQty) (price : ℚ) :
    (m.fillPosition pos f.side f.filledQty f.price f.fee).2.proceeds pos.symbol price =
      m.proceeds pos.symbol price +
        (if pos.ClosedBy f.side f.filledQty then { f with filledQty := pos.quantity } else f).cash -
        f.fee := by
  unfold fillPosition
  split_ifs with hsame hclosed hpartial hclosed hclosed
  · exact absurd hsame hclosed.1
  · exact proceeds_increase hquantity hpos hsame hfilled rfl rfl price
  · exact absurd hclosed.2 (not_le.mpr hpartial)
  · exact proceeds_reduce hpos hsame rfl rfl price
  · exact proceeds_close hsingle hpos hsame rfl rfl price
  · exact absurd ⟨hsame, not_lt.mp hpartial⟩ hclosed

theorem proceeds_fill (symbol : String) (hsingle : m.Single) (hstocked : m.Stocked) (f : Fill) (price : ℚ) :
    (m.fill symbol f).proceeds symbol price =
      m.proceeds symbol price + ((m.booked? symbol f).toList.map Fill.cash).sum -
        ((m.booked? symbol f).toList.map Fill.fee).sum := by
  change (m.applyFill symbol f.side f.filledQty f.price f.fee .filled).2.proceeds symbol price = _
  unfold applyFill booked?
  by_cases hinvalid : f.filledQty ≤ 0 ∨ f.price ≤ 0
  · rw [if_pos hinvalid, if_pos hinvalid]
    simp
  · rw [if_neg hinvalid, if_neg hinvalid]
    rw [not_or, not_le, not_le] at hinvalid
    unfold applyExecution
    cases hpos : m.position? symbol with
    | some pos =>
      have hown := symbol_of_position? hpos
      subst hown
      have hquantity : 0 < pos.quantity := hstocked pos (List.mem_of_find?_eq_some hpos)
      have hfill := proceeds_fillPosition hsingle hquantity hpos f hinvalid.1 price
      dsimp only
      rw [hfill]
      split
      · simp
      · simp
    | none =>
      cases hpending : m.pendingOrders.find? symbol with
      | some order =>
        rw [proceeds_bookPending hpos]
        simp
      | none => simp

theorem proceeds_fills (symbol : String) (hsingle : m.Single) (hstocked : m.Stocked) (fills : List Fill) (price : ℚ) :
    (run (fun m f => m.fill symbol f) m fills).proceeds symbol price =
      m.proceeds symbol price + ((m.booked symbol fills).map Fill.cash).sum -
        ((m.booked symbol fills).map Fill.fee).sum := by
  induction fills generalizing m with
  | nil => simp [booked]
  | cons f rest ih =>
    have hsingleAfter : (m.fill symbol f).Single := single_step hsingle _
    have hstockedAfter : (m.fill symbol f).Stocked := stocked_step hstocked _
    have hfirst := proceeds_fill symbol hsingle hstocked f price
    rw [run_cons, ih hsingleAfter hstockedAfter, hfirst, booked, List.map_append, List.map_append,
      List.sum_append, List.sum_append]
    ring

/-- **Realized and unrealized profit account for every fill that the book takes.** -/
theorem pnl_eq_booked_cash (before : List BookOperation) (symbol : String)
    (hflat : (run step {} before).position? symbol = none) (fills : List Fill) (price : ℚ) :
    let m := run step {} before
    let after := run (fun m f => m.fill symbol f) m fills
    after.realizedPnlTotal + after.unrealizedAt symbol price =
      m.realizedPnlTotal + (((m.booked symbol fills).map Fill.cash).sum +
        after.positionQty symbol * price - ((m.booked symbol fills).map Fill.fee).sum) := by
  intro m after
  have hproceeds := proceeds_fills symbol (single_run before) (stocked_run before) fills price
  rw [proceeds_of_flat hflat] at hproceeds
  have hafter : after.proceeds symbol price = after.realizedPnlTotal +
    after.unrealizedAt symbol price - after.positionQty symbol * price := rfl
  linarith

/-- A long order for the symbol. -/
def longOrder : List BookOperation :=
  [.addPendingOrder { symbol := "BTC/USDT", direction := .long } 2 "binance"]

/-- A purchase of two, of which one is sold at a higher price. -/
def partialClose : List Fill := [⟨.buy, 2, 100, 1⟩, ⟨.sell, 1, 110, 1⟩]

theorem pnl_eq_booked_cash_partialClose :
    let m := run step {} longOrder
    let after := run (fun m f => m.fill "BTC/USDT" f) m partialClose
    after.realizedPnlTotal + after.unrealizedAt "BTC/USDT" 120 =
      m.realizedPnlTotal + (((m.booked "BTC/USDT" partialClose).map Fill.cash).sum +
        after.positionQty "BTC/USDT" * 120 -
          ((m.booked "BTC/USDT" partialClose).map Fill.fee).sum) :=
  pnl_eq_booked_cash longOrder "BTC/USDT" (by decide +kernel) partialClose 120

/-- A fill against the position is not above its quantity. -/
def Within (m : PositionManager) (symbol : String) (f : Fill) : Prop :=
  ∀ pos ∈ m.position? symbol, pos.side ≠ f.side → f.filledQty ≤ pos.quantity

/-- The profit of a new book after fills of an order is the cash of all of them. -/
def CountsAll (fills : List Fill) (price : ℚ) : Prop :=
  let after := run (fun m f => m.fill "BTC/USDT" f) (run step {} longOrder) fills
  after.realizedPnlTotal + after.unrealizedAt "BTC/USDT" price =
    (fills.map Fill.cash).sum + after.positionQty "BTC/USDT" * price - (fills.map Fill.fee).sum

/-- A sale within the tolerance below the open quantity. -/
def shortClose : List Fill := [⟨.buy, 1, 100, 0⟩, ⟨.sell, 1 - 1 / 10 ^ 13, 100, 0⟩]

/-- A sale after the position was closed. -/
def strayFill : List Fill := [⟨.buy, 1, 100, 0⟩, ⟨.sell, 1, 100, 0⟩, ⟨.sell, 1, 100, 0⟩]

instance (m : PositionManager) (symbol : String) : DecidablePred (m.Within symbol) := fun f =>
  inferInstanceAs (Decidable (∀ pos ∈ m.position? symbol, pos.side ≠ f.side → f.filledQty ≤ pos.quantity))

instance (fills : List Fill) (price : ℚ) : Decidable (CountsAll fills price) :=
  inferInstanceAs (Decidable (_ = _))

/-- Neither the residue of the short close nor the stray fill is accounted for. -/
theorem not_countsAll :
    (Along (fun m f => m.fill "BTC/USDT" f) (fun m f => m.Within "BTC/USDT" f) (run step {} longOrder)
        shortClose ∧ ¬ CountsAll shortClose 100) ∧
      Along (fun m f => m.fill "BTC/USDT" f) (fun m f => m.Within "BTC/USDT" f) (run step {} longOrder)
        strayFill ∧ ¬ CountsAll strayFill 100 := by
  refine ⟨⟨⟨?_, ?_, trivial⟩, ?_⟩, ⟨?_, ?_, ?_, trivial⟩, ?_⟩
  · decide +kernel
  · decide +kernel
  · decide +kernel
  · decide +kernel
  · decide +kernel
  · decide +kernel
  · decide +kernel

end PositionManager

end TradingSim.Bot
