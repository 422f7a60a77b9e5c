import TradingSim.Exchange.OrderFrames
import TradingSim.Exchange.Rounding
import TradingSim.Exchange.Runs

/-!
# What an order takes from the balance

An order that is executed pays its fee and locks its margin, which were checked against the balance
before. A resting order is charged the rounded fee and is checked for the exact one, so the balance may
end half a rounding unit below zero. An order against the position of its symbol closes it, whole or in
part: the realised loss is booked on top and was never checked.
-/

namespace TradingSim.Exchange

open Foundations

namespace Ledger

/-- The position that an order of a symbol and a side closes first, if there is one. -/
def opposite (l : Ledger) (symbol : String) (side : Side) : Option Ref :=
  (l.positionsBySymbol.find? symbol).filter fun r => (l.objects.get r).side ≠ side

/-- What closing a position with an order returns to the balance: the margin of the closed part, that
of the order's part, and the profit or loss. -/
def closeProceeds (l : Ledger) (existing : Ref) (order : Order) (orderMargin : ℚ) : ℚ :=
  let position := l.objects.get existing
  let closeQty := min order.filledQuantity position.quantity
  position.margin * (closeQty / position.quantity) +
    orderMargin * (closeQty / order.filledQuantity) + computeClosePnl position order closeQty

/-- What updating the position with an order returns to the balance. -/
def proceeds (l : Ledger) (order : Order) (orderMargin : ℚ) : ℚ :=
  match l.opposite order.symbol order.side with
  | none => 0
  | some existing => l.closeProceeds existing order orderMargin

variable (N : Numerics) (m : MarketView) (l : Ledger) (order : Order)

theorem account_closePosition (existing : Ref) (orderMargin : ℚ) :
    (l.closePosition N m existing order orderMargin).account.balance =
        l.account.balance + l.closeProceeds existing order orderMargin ∧
      (l.closePosition N m existing order orderMargin).account.totalFees = l.account.totalFees := by
  unfold closePosition
  dsimp only
  split
  · split
    · exact ⟨rfl, rfl⟩
    · split
      · exact ⟨rfl, rfl⟩
      · exact ⟨rfl, rfl⟩
  · exact ⟨rfl, rfl⟩

theorem account_updatePosition (stopLoss takeProfit : Option ℚ) (orderMargin : ℚ) :
    (l.updatePosition N m order stopLoss takeProfit orderMargin).account.balance =
        l.account.balance + l.proceeds order orderMargin ∧
      (l.updatePosition N m order stopLoss takeProfit orderMargin).account.totalFees =
        l.account.totalFees := by
  unfold updatePosition proceeds opposite
  cases hfound : l.positionsBySymbol.find? order.symbol with
  | none => exact ⟨(add_zero _).symm, rfl⟩
  | some existing =>
    by_cases hside : (l.objects.get existing).side ≠ order.side
    · rw [Option.filter_some, if_pos (decide_eq_true hside)]
      dsimp only
      rw [if_pos hside]
      exact account_closePosition N m l order existing orderMargin
    · rw [Option.filter_some, if_neg (by simpa using hside)]
      dsimp only
      rw [if_neg hside]
      exact ⟨(add_zero _).symm, rfl⟩

theorem account_bookFill (fee notional : ℚ) (stopLoss takeProfit : Option ℚ) (fill : Fill) :
    let booked := l.bookFill N m order fee notional false stopLoss takeProfit fill
    booked.account.balance = l.account.balance - fee - l.marginFor notional +
        l.proceeds order (l.marginFor notional) ∧
      booked.account.totalFees = l.account.totalFees + fee := by
  intro booked
  obtain ⟨hbalance, hfees⟩ := account_updatePosition N m ((l.chargeFee fee).lockMargin notional) order
    stopLoss takeProfit ((l.chargeFee fee).marginFor notional)
  exact ⟨hbalance, hfees⟩

/-- The order took its fee and its margin from a balance that covered them but for half a rounding
unit, and its position was updated. -/
def Covered (l l' : Ledger) (order : Order) : Prop :=
  ∃ fee margin, -(1 / 20000) ≤ l.account.balance - fee - margin ∧
    l'.account.totalFees = l.account.totalFees + fee ∧
    l'.account.balance = l.account.balance - fee - margin + l.proceeds order margin

/-- An order that closes nothing leaves what fee and margin have left. -/
theorem Covered.balance {l l' : Ledger} {order : Order} (h : l.Covered l' order)
    (hopposite : l.opposite order.symbol order.side = none) : -(1 / 20000) ≤ l'.account.balance := by
  obtain ⟨fee, margin, hcovered, -, hbalance⟩ := h
  rw [hbalance, proceeds, hopposite, add_zero]
  exact hcovered

theorem covered_bookFill {N : Numerics} {m : MarketView} {l : Ledger} {order : Order}
    {fee exact notional : ℚ} {stopLoss takeProfit : Option ℚ} {fill : Fill}
    (hcovers : l.marginFor notional + exact ≤ l.account.balance) (hfee : fee ≤ exact + 1 / 20000) :
    l.Covered (l.bookFill N m order fee notional false stopLoss takeProfit fill) order := by
  obtain ⟨hbalance, hfees⟩ := account_bookFill N m l order fee notional stopLoss takeProfit fill
  exact ⟨fee, l.marginFor notional, by linarith, hfees, hbalance⟩

end Ledger

/-- The places in which orders are executed: at a submission, a resting limit or stop-limit order, a
trailing stop, and a slice of an iceberg. -/
inductive Attempt
  | submitted (r : Ref) (req : OrderRequest) (marketFillPrice midPrice : ℚ)
  | resting (r : Ref) (price : ℚ)
  | trailing (r : Ref) (price : ℚ)
  | slice (r : Ref) (fields : IcebergFields) (price : ℚ)

namespace Attempt

/-- The order that is executed, or of which a slice is. -/
def ref : Attempt → Ref
  | submitted r _ _ _ => r
  | resting r _ => r
  | trailing r _ => r
  | slice r _ _ => r

/-- The close is not forced. -/
def Unforced : Attempt → Prop
  | submitted _ req _ _ => req.forceClose = false
  | _ => True

/-- Try to execute the order; the second component is the order that was filled or refused. -/
def execute (N : Numerics) (m : MarketView) (x : SimulatedExchange) : Attempt → SimulatedExchange × Ref
  | submitted r req marketFillPrice midPrice =>
    (x.fillMarketOrder N m r req marketFillPrice midPrice, r)
  | resting r price => (x.executeLimitOrder N m r price, r)
  | trailing r price => (x.executeMarketOrder N m r price, r)
  | slice r fields price => x.executeIcebergSlice N m r fields price

end Attempt

namespace SimulatedExchange

variable {N : Numerics} {m : MarketView} {x x' : SimulatedExchange} {r : Ref}

/-- The order was refused and the ledger left alone, or it was booked and the balance covered it. -/
def Decided (x x' : SimulatedExchange) (r : Ref) : Prop :=
  ((x'.orders.get r).status = .rejected ∧ x'.ledger = x.ledger) ∨
    ((x'.orders.get r).status ≠ .rejected ∧ x.ledger.Covered x'.ledger (x'.orders.get r))

/-- An order that is refused. -/
theorem decided_conclude {t : OrderTable} (hlive : t.objects.Live r) (reason : String) :
    x.Decided (x.withOrders (t.conclude r .rejected reason)) r :=
  Or.inl ⟨OrderTable.status_conclude hlive _ _, rfl⟩

/-- What an order takes does not depend on its status. -/
theorem covered_cancelled {l l' : Ledger} {o : Order} (h : l.Covered l' o) :
    l.Covered l' { o with status := .cancelled } := h

/-- An order that is booked, and its group resolved. -/
theorem decided_fill {t : OrderTable} {o : Order} (hlive : t.objects.Live r) (hget : t.get r = o)
    (hstatus : o.status = .filled) (horders : x'.orders = t.resolveOco r)
    (hcovered : x.ledger.Covered x'.ledger o) : x.Decided x' r := by
  have hkept := (OrderTable.writes_resolveOco (W := OrderTable.Nobody) (E := OrderTable.Nobody) t
    r).kept hlive id
  rw [← horders, hget] at hkept
  refine Or.inr ?_
  rcases hkept with hsame | hcancelled
  · rw [hsame, hstatus]
    exact ⟨(fun hc => nomatch hc), hcovered⟩
  · rw [hcancelled]
    exact ⟨(fun hc => nomatch hc), covered_cancelled hcovered⟩

theorem covers_of_checkMargin {order : Order} {price : ℚ} (h : x.checkMargin N order price = none) :
    x.ledger.marginFor (price * order.quantity) + price * order.quantity * x.feePct / 100 ≤
      x.ledger.account.balance := by
  unfold checkMargin at h
  dsimp only at h
  split at h
  · cases h
  · rename_i hcovers
    exact not_lt.mp hcovers

theorem covers_of_checkMarginAndSize {quantity notional fee midPrice : ℚ}
    (h : x.checkMarginAndSize N quantity notional fee midPrice false = none) :
    x.ledger.marginFor notional + fee ≤ x.ledger.account.balance := by
  unfold checkMarginAndSize at h
  rw [if_neg Bool.false_ne_true] at h
  split at h
  · cases h
  · rename_i hcovers
    exact not_lt.mp hcovers

/-- A submission that fills at once is charged the exact fee. -/
theorem decided_fillMarketOrder (hlive : x.orders.objects.Live r) {req : OrderRequest}
    (hforced : req.forceClose = false) (marketFillPrice midPrice : ℚ) :
    x.Decided (x.fillMarketOrder N m r req marketFillPrice midPrice) r := by
  unfold fillMarketOrder
  dsimp only
  rw [hforced]
  split
  · exact decided_conclude hlive _
  · rename_i hmargin
    have hcovers := covers_of_checkMarginAndSize hmargin
    refine decided_fill (t := OrderTable.record _ r) ?_ rfl ?_ rfl
      (Ledger.covered_bookFill hcovers (by linarith))
    · exact (Heap.live_modify _ _ _ _).mpr ((Heap.live_modify _ _ _ _).mpr hlive)
    · rw [OrderTable.get_record, OrderTable.get_update_setStatus hlive, status_applyPartialFill]

theorem decided_finalizeOrderExecution (hround : ∀ q, N.round q 4 ≤ q + 1 / 20000)
    (hlive : x.orders.objects.Live r) {fillPrice : ℚ}
    (hmargin : x.checkMargin N (x.orders.get r) fillPrice = none) {f : Order → Order}
    (hf : ∀ o, (f o).status = o.status ∧ (f o).filledQuantity = o.quantity ∧
      (f o).fee = N.round (fillPrice * o.quantity * x.feePct / 100) 4) :
    x.Decided (finalizeOrderExecution N m (x.withOrders ((x.orders.setStatus r .filled).update r f)) r
      fillPrice) r := by
  have hfilled : ((x.orders.setStatus r .filled).update r f).get r =
      f { x.orders.get r with status := .filled } :=
    OrderTable.get_update_setStatus hlive .filled f
  obtain ⟨hstatus, hquantity, hfee⟩ := hf { x.orders.get r with status := .filled }
  refine decided_fill (t := OrderTable.update _ r _) ?_ hfilled hstatus rfl ?_
  · exact (Heap.live_modify _ _ _ _).mpr ((Heap.live_modify _ _ _ _).mpr hlive)
  · unfold finalizeOrderExecution
    dsimp only [withOrders]
    rw [hfilled, hquantity, hfee]
    exact Ledger.covered_bookFill (covers_of_checkMargin hmargin) (hround _)

theorem decided_executeLimitOrder (hround : ∀ q, N.round q 4 ≤ q + 1 / 20000)
    (hlive : x.orders.objects.Live r) (price : ℚ) : x.Decided (x.executeLimitOrder N m r price) r := by
  unfold executeLimitOrder
  split
  · exact decided_conclude hlive _
  · rename_i hmargin
    exact decided_finalizeOrderExecution hround hlive hmargin fun _ => ⟨rfl, rfl, rfl⟩

theorem decided_executeMarketOrder (hround : ∀ q, N.round q 4 ≤ q + 1 / 20000)
    (hlive : x.orders.objects.Live r) (price : ℚ) : x.Decided (x.executeMarketOrder N m r price) r := by
  unfold executeMarketOrder
  dsimp only
  split
  · exact decided_conclude hlive _
  · rename_i hmargin
    exact decided_finalizeOrderExecution hround hlive hmargin fun _ => ⟨rfl, rfl, rfl⟩

theorem decided_executeIcebergSlice (hround : ∀ q, N.round q 4 ≤ q + 1 / 20000)
    (hlive : x.orders.objects.Live r) (fields : IcebergFields) (price : ℚ) :
    x.Decided (x.executeIcebergSlice N m r fields price).1
      (x.executeIcebergSlice N m r fields price).2 := by
  have hne : x.orders.objects.next ≠ r := hlive.ne_next.symm
  unfold executeIcebergSlice
  dsimp only
  generalize hslice : x.createIcebergSliceOrder N (x.orders.get r) fields price = sliceOrder
  split
  · exact decided_conclude ((Heap.live_alloc _ _ _).mpr (Or.inr rfl)) _
  · rename_i hmargin
    have hshown : ∀ f g, ((((x.orders.create sliceOrder).update r f).setStatus x.orders.objects.next
        .filled).update x.orders.objects.next g).get x.orders.objects.next =
          g { sliceOrder with status := .filled } := by
      intro f g
      have hnew : ((x.orders.create sliceOrder).update r f).objects.Live x.orders.objects.next :=
        (Heap.live_modify _ _ _ _).mpr ((Heap.live_alloc _ _ _).mpr (Or.inr rfl))
      rw [OrderTable.get_update_setStatus hnew, OrderTable.get, OrderTable.update,
        Heap.get_modify_of_ne _ hne, OrderTable.create, Heap.get_alloc_next]
    unfold finalizeIcebergExecution
    dsimp only [withOrders]
    refine Or.inr ?_
    rw [hshown]
    refine ⟨by simp, ?_⟩
    have hquantity : sliceOrder.quantity = fields.sliceQuantity := by rw [← hslice]; rfl
    have hfee : sliceOrder.fee = N.round (price * fields.sliceQuantity * x.feePct / 100) 4 := by
      rw [← hslice]
      rfl
    have hcovers := covers_of_checkMargin hmargin
    rw [hquantity] at hcovers
    rw [hfee]
    exact Ledger.covered_bookFill hcovers (hround _)

/-- An attempt to execute an order is refused, or is booked from a balance that covers it. -/
theorem decided_execute (hround : ∀ q, N.round q 4 ≤ q + 1 / 20000) (a : Attempt)
    (hlive : x.orders.objects.Live a.ref) (hforced : a.Unforced) :
    x.Decided (a.execute N m x).1 (a.execute N m x).2 := by
  cases a with
  | submitted r req marketFillPrice midPrice =>
    exact decided_fillMarketOrder hlive hforced marketFillPrice midPrice
  | resting r price => exact decided_executeLimitOrder hround hlive price
  | trailing r price => exact decided_executeMarketOrder hround hlive price
  | slice r fields price => exact decided_executeIcebergSlice hround hlive fields price

/-! ### Where orders are executed -/

theorem round_fee_le (fee : ℚ) : Numerics.decimal.round fee 4 ≤ fee + 1 / 20000 := by
  have hnear := (abs_le.mp (abs_nearestEven_sub_le (fee * 10 ^ 4))).2
  change (nearestEven (fee * 10 ^ 4) : ℚ) / 10 ^ 4 ≤ fee + 1 / 20000
  linarith

/-- Whenever an order that is not forced is executed, its fee and its margin leave the balance no more
than half a rounding unit below zero, and so does the order unless it closes a position. An order that is
refused leaves the ledger alone. -/
theorem balance_covers_opening (x : SimulatedExchange) (m : MarketView) (a : Attempt)
    (hlive : x.orders.objects.Live a.ref) (hforced : a.Unforced) :
    let x' := (a.execute Numerics.decimal m x).1
    let o := x'.orders.get (a.execute Numerics.decimal m x).2
    (o.status = .rejected → x'.ledger = x.ledger) ∧
    (o.status ≠ .rejected → x.ledger.Covered x'.ledger o ∧
      (x.ledger.opposite o.symbol o.side = none → -(1 / 20000) ≤ x'.ledger.account.balance)) := by
  intro x' o
  rcases decided_execute (m := m) round_fee_le a hlive hforced with
    ⟨hrejected, hledger⟩ | ⟨hbooked, hcovered⟩
  · exact ⟨fun _ => hledger, fun hne => absurd hrejected hne⟩
  · exact ⟨fun hrejected => absurd hrejected hbooked, fun _ => ⟨hcovered, hcovered.balance⟩⟩

def marketOrderOf (side : Side) (quantity : ℚ) : OrderRequest where
  symbol := "BTC"
  side := side
  quantity := quantity

/-- A purchase at the market that rests no longer than its submission. -/
theorem balance_covers_opening_purchase :
    let x := (init "binance" (1 / 10) 5 10000 10 "USDT").withOrders
      (({} : OrderTable).issue ((marketOrderOf .buy 450).plainOrder (orderId 0) "binance"))
    let a := Attempt.submitted 0 (marketOrderOf .buy 450) (10014 / 100) 100
    let x' := (a.execute Numerics.decimal (flatMarket 100) x).1
    let o := x'.orders.get (a.execute Numerics.decimal (flatMarket 100) x).2
    o.status = .filled ∧ x'.ledger.account.balance < 10000 ∧
    (o.status = .rejected → x'.ledger = x.ledger) ∧
    (o.status ≠ .rejected → x.ledger.Covered x'.ledger o ∧
      (x.ledger.opposite o.symbol o.side = none → -(1 / 20000) ≤ x'.ledger.account.balance)) := by
  intro x a x' o
  have hlive : x.orders.objects.Live 0 := (Heap.live_alloc _ _ _).mpr (Or.inr rfl)
  exact ⟨by decide +kernel, by decide +kernel,
    balance_covers_opening x (flatMarket 100) a hlive rfl⟩

/-- The market has halved: a sale of more than is held closes the position at a loss, opens a short
position with the rest, and leaves a balance below zero. -/
theorem not_balance_covers_reversal :
    let x := after Numerics.decimal "binance" "USDT" (1 / 10) 5 10000 10
      [(flatMarket 100, .submitOrder (marketOrderOf .buy 450))]
    let y := (x.submitOrder Numerics.decimal (flatMarket 50) (marketOrderOf .sell 460)).1
    0 ≤ x.ledger.account.balance ∧ (y.orders.get 1).status = .filled ∧
      0 < (y.orders.get 1).filledPrice ∧
      y.ledger.openPositions.map (fun position => (position.side, position.quantity)) =
        [(.sell, 10)] ∧
      ¬ -(1 / 20000) ≤ y.ledger.account.balance := by
  decide +kernel

end SimulatedExchange

end TradingSim.Exchange
