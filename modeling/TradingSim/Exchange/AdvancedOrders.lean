import TradingSim.Exchange.OrderSubmission

/-!
# Resting orders

`check_advanced_orders` sweeps the four pending books in a fixed order. A sweep visits a snapshot of
its book, executes, cancels or skips each entry, and deletes the visited ids it has collected only
when it is through. Executing an order may cancel other orders of its OCO group on the way, in this
book or in another.
-/

namespace TradingSim.Exchange

open Foundations

/-- The price a sweep uses for a symbol; zero for a symbol the market does not list. -/
def MarketView.currentPrice (m : MarketView) (symbol : String) : ℚ :=
  if symbol ∈ m.symbols then m.price symbol else 0

/-- The limit or stop level has been reached by a trailing stop's price. -/
def TrailingStopFields.reached (fields : TrailingStopFields) (side : Side) (currentPrice : ℚ) : Bool :=
  match side with
  | .sell => currentPrice ≤ fields.stopPrice
  | .buy => fields.stopPrice ≤ currentPrice

/-- The price at which an iceberg's next slice fills: the market price, or the limit price
once the market has reached it. -/
def icebergPrice (order : Order) (currentPrice : ℚ) : Option ℚ :=
  match order.price with
  | none => some currentPrice
  | some limit => if marketable order.side limit currentPrice then some limit else none

/-- The next slice of an iceberg. -/
def IcebergFields.sliceQuantity (fields : IcebergFields) : ℚ :=
  min fields.visibleQuantity fields.hiddenQuantity

/-- The effect of an executed slice on the iceberg. -/
def IcebergFields.afterSlice (fields : IcebergFields) : IcebergFields :=
  (IcebergFields.onFill { fields with
    hiddenQuantity := fields.hiddenQuantity - fields.sliceQuantity
    replenished := fields.replenished + 1 } fields.sliceQuantity).1

namespace SimulatedExchange

/-- `_check_margin`: the reason for which the order is refused, if it is. -/
def checkMargin (N : Numerics) (x : SimulatedExchange) (order : Order) (fillPrice : ℚ) : Option String :=
  let account := x.ledger.account
  let notional := fillPrice * order.quantity
  let fee := notional * x.feePct / 100
  let marginRequired := notional / account.effectiveLeverage
  let maxNotional := account.balance * account.leverage * (1 / 2)
  if account.balance < marginRequired + fee then
    some (insufficientMarginReason N marginRequired account.balance)
  else if maxNotional < notional then
    some (maxPositionSizeReason N notional maxNotional)
  else none

def finalizeOrderExecution (N : Numerics) (m : MarketView) (x : SimulatedExchange) (r : Ref)
    (fillPrice : ℚ) : SimulatedExchange :=
  let order := x.orders.get r
  { x with
    ledger := x.ledger.bookFill N m order order.fee (fillPrice * order.filledQuantity) false
      none none {
        orderId := order.id
        symbol := order.symbol
        side := order.side
        quantity := order.quantity }
    orders := x.orders.resolveOco r }

def executeLimitOrder (N : Numerics) (m : MarketView) (x : SimulatedExchange) (r : Ref)
    (price : ℚ) : SimulatedExchange :=
  match x.checkMargin N (x.orders.get r) price with
  | some reason => x.withOrders (x.orders.conclude r .rejected reason)
  | none =>
    let filled := (x.orders.setStatus r .filled).update r fun o => { o with
      filledPrice := N.roundPrice price
      filledQuantity := o.quantity
      fee := N.round (price * o.quantity * x.feePct / 100) 4 }
    (x.withOrders filled).finalizeOrderExecution N m r price

def executeMarketOrder (N : Numerics) (m : MarketView) (x : SimulatedExchange) (r : Ref)
    (price : ℚ) : SimulatedExchange :=
  let slippageAmount := price * x.slippageBps / 10000
  let fillPrice := match (x.orders.get r).side with
    | .buy => price + slippageAmount
    | .sell => price - slippageAmount
  match x.checkMargin N (x.orders.get r) fillPrice with
  | some reason => x.withOrders (x.orders.conclude r .rejected reason)
  | none =>
    let filled := (x.orders.setStatus r .filled).update r fun o => { o with
      filledPrice := N.roundPrice fillPrice
      filledQuantity := o.quantity
      slippage := N.round slippageAmount 4
      fee := N.round (fillPrice * o.quantity * x.feePct / 100) 4 }
    (x.withOrders filled).finalizeOrderExecution N m r fillPrice

def createIcebergSliceOrder (N : Numerics) (x : SimulatedExchange) (parent : Order)
    (fields : IcebergFields) (price : ℚ) : Order where
  id := parent.id ++ "_slice_" ++ toString (fields.replenished + 1)
  symbol := parent.symbol
  exchange := x.exchangeId
  side := parent.side
  orderType := .market
  quantity := fields.sliceQuantity
  price := some price
  fee := N.round (price * fields.sliceQuantity * x.feePct / 100) 4

def finalizeIcebergExecution (N : Numerics) (m : MarketView) (x : SimulatedExchange)
    (slice parent : Ref) (price : ℚ) : SimulatedExchange :=
  let sliceOrder := x.orders.get slice
  { x with
    ledger := x.ledger.bookFill N m sliceOrder sliceOrder.fee
      (price * sliceOrder.filledQuantity) false none none {
        orderId := sliceOrder.id
        parentOrder := some (x.orders.get parent).id
        symbol := (x.orders.get parent).symbol
        side := sliceOrder.side
        quantity := sliceOrder.filledQuantity } }

/-- `_execute_iceberg_slice`: the slice is an order object of its own, which is returned. -/
def executeIcebergSlice (N : Numerics) (m : MarketView) (x : SimulatedExchange) (r : Ref)
    (fields : IcebergFields) (price : ℚ) : SimulatedExchange × Ref :=
  let slice := x.orders.objects.next
  let sliceOrder := x.createIcebergSliceOrder N (x.orders.get r) fields price
  let created := x.orders.create sliceOrder
  match x.checkMargin N sliceOrder price with
  | some reason => (x.withOrders (created.conclude slice .rejected reason), slice)
  | none =>
    let shown := created.update r fun o => { o with kind := .iceberg fields.afterSlice }
    let filled := (shown.setStatus slice .filled).update slice fun o => { o with
      filledPrice := N.roundPrice price
      filledQuantity := fields.sliceQuantity }
    ((x.withOrders filled).finalizeIcebergExecution N m slice r price, slice)

end SimulatedExchange

/-- What a sweep carries: the exchange, `filled_orders` and `to_remove`. -/
structure Sweep where
  exchange : SimulatedExchange
  filledOrders : List Ref := []
  toRemove : List String := []

namespace Sweep

/-- Mark an id for removal from the swept book. -/
def remove (s : Sweep) (id : String) : Sweep := { s with toRemove := s.toRemove ++ [id] }

/-- An entry is done with: report its order and mark its id for removal. -/
def report (s : Sweep) (x : SimulatedExchange) (r : Ref) (id : String) : Sweep where
  exchange := x
  filledOrders := s.filledOrders ++ [r]
  toRemove := s.toRemove ++ [id]

/-- Fill a resting limit order that the market has reached; an expired one is cancelled
before its price is looked at. -/
def checkLimit (N : Numerics) (m : MarketView) (s : Sweep) (r : Ref) (id : String) : Sweep :=
  let x := s.exchange
  let order := x.orders.get r
  if order.expireTs.any (· ≤ m.now) then
    s.report (x.withOrders ((x.orders.setStatus r .cancelled).update r fun o =>
      { o with rejectionReason := some "GTD_EXPIRED" })) r id
  else
    let currentPrice := m.currentPrice order.symbol
    if currentPrice = 0 then s
    else match order.price with
      | none => s
      | some price =>
        if marketable order.side price currentPrice then
          s.report (x.executeLimitOrder N m r price) r id
        else s

/-- Trigger a stop-limit order, and fill it once its limit price is reached as well. -/
def checkStopLimit (N : Numerics) (m : MarketView) (s : Sweep) (r : Ref) (id : String) : Sweep :=
  let x := s.exchange
  let order := x.orders.get r
  let currentPrice := m.currentPrice order.symbol
  if currentPrice = 0 then s
  else match order.kind with
    | .stopLimit fields =>
      let checked := fields.checkTrigger order.side currentPrice
      let triggered := x.withOrders (x.orders.update r fun o => { o with kind := .stopLimit checked })
      if checked.triggered && marketable order.side fields.limitPrice currentPrice then
        s.report (triggered.executeLimitOrder N m r fields.limitPrice) r id
      else { s with exchange := triggered }
    | _ => s

/-- Move a trailing stop with the price, and fill it at the market once it is reached. -/
def checkTrailingStop (N : Numerics) (m : MarketView) (s : Sweep) (r : Ref) (id : String) : Sweep :=
  let x := s.exchange
  let order := x.orders.get r
  let currentPrice := m.currentPrice order.symbol
  if currentPrice = 0 then s
  else match order.kind with
    | .trailingStop fields =>
      let moved := fields.updateStopPrice order.side currentPrice
      let trailed := x.withOrders (x.orders.update r fun o => { o with kind := .trailingStop moved })
      if moved.reached order.side currentPrice then
        s.report (trailed.executeMarketOrder N m r currentPrice) r id
      else { s with exchange := trailed }
    | _ => s

/-- Finish an iceberg whose hidden quantity is used up. -/
def finishIceberg (s : Sweep) (r : Ref) (id : String) : Sweep :=
  match (s.exchange.orders.get r).kind with
  | .iceberg fields =>
    if fields.hiddenQuantity ≤ 0 then
      let filled := (s.exchange.orders.setStatus r .filled).update r fun o =>
        { o with filledQuantity := o.quantity }
      Sweep.remove { s with exchange := s.exchange.withOrders (filled.resolveOco r) } id
    else s
  | _ => s

/-- Execute the next slice of an iceberg. -/
def checkIceberg (N : Numerics) (m : MarketView) (s : Sweep) (r : Ref) (id : String) : Sweep :=
  let x := s.exchange
  let order := x.orders.get r
  let currentPrice := m.currentPrice order.symbol
  if currentPrice = 0 then s
  else match order.kind with
    | .iceberg fields =>
      if 0 < fields.hiddenQuantity then
        match icebergPrice order currentPrice with
        | none => s
        | some fillPrice =>
          let sliced := x.executeIcebergSlice N m r fields fillPrice
          finishIceberg { s with
            exchange := sliced.1
            filledOrders := s.filledOrders ++ [sliced.2] } r id
      else s
    | _ => s

/-- What the sweep of a book does with an order that is still pending. -/
def checkPending (N : Numerics) (m : MarketView) : PendingBook → Sweep → Ref → String → Sweep
  | .limits => checkLimit N m
  | .stopLimits => checkStopLimit N m
  | .trailingStops => checkTrailingStop N m
  | .icebergs => checkIceberg N m

/-- One entry of a sweep. An entry whose order is no longer pending is only removed. -/
def checkEntry (N : Numerics) (m : MarketView) (book : PendingBook) (s : Sweep)
    (entry : String × Ref) : Sweep :=
  if (s.exchange.orders.get entry.2).status ≠ .pending then s.remove entry.1
  else checkPending N m book s entry.2 entry.1

/-- Sweep one book: `_check_limit_orders`, `_check_stop_limit_orders`,
`_check_trailing_stop_orders` and `_check_iceberg_orders`. -/
def checkBook (N : Numerics) (m : MarketView) (s : Sweep) (book : PendingBook) : Sweep :=
  let swept := (s.exchange.orders.pending book).entries.foldl (checkEntry N m book)
    { s with toRemove := [] }
  let orders := swept.toRemove.foldl (fun t id => t.popPending book id) swept.exchange.orders
  { swept with exchange := swept.exchange.withOrders orders }

end Sweep

namespace SimulatedExchange

def checkAdvancedOrders (N : Numerics) (m : MarketView) (x : SimulatedExchange) :
    SimulatedExchange × List Ref :=
  let swept := PendingBook.all.foldl (Sweep.checkBook N m) { exchange := x }
  (swept.exchange, swept.filledOrders)

/-- `cancel_order`: the first book that holds the id gives up its order. -/
def cancelOrder (x : SimulatedExchange) (id : String) : SimulatedExchange × Option Ref :=
  match PendingBook.all.findSome? fun book =>
    ((x.orders.pending book).find? id).map fun r => (book, r) with
  | none => (x, none)
  | some (book, r) =>
    (x.withOrders ((x.orders.popPending book id).setStatus r .cancelled), some r)

/-- A cancel finds the entry of a book under the id, or does nothing. -/
theorem cancelOrder_cases (x : SimulatedExchange) (id : String) : x.cancelOrder id = (x, none) ∨
      ∃ book r, (x.orders.pending book).find? id = some r ∧ x.cancelOrder id =
          (x.withOrders ((x.orders.popPending book id).setStatus r .cancelled), some r) := by
  unfold cancelOrder
  cases hfound : PendingBook.all.findSome? fun book =>
      ((x.orders.pending book).find? id).map fun r => (book, r) with
  | none => exact Or.inl rfl
  | some entry =>
    obtain ⟨book, r⟩ := entry
    obtain ⟨book', -, hentry⟩ := List.exists_of_findSome?_eq_some hfound
    obtain ⟨r', hfind, heq⟩ := Option.map_eq_some_iff.mp hentry
    obtain ⟨rfl, rfl⟩ := Prod.mk.inj heq
    exact Or.inr ⟨book', r', hfind, rfl⟩

/-- The part of `cancel_all_orders` for one book. -/
def cancelBook (symbol : Option String) (acc : OrderTable × List Ref) (book : PendingBook) :
    OrderTable × List Ref :=
  let chosen := (acc.1.pending book).entries.filter fun e =>
    symbol.all fun s => (acc.1.get e.2).symbol = s
  chosen.foldl (fun acc e => ((acc.1.popPending book e.1).setStatus e.2 .cancelled, acc.2 ++ [e.2]))
    acc

def cancelAllOrders (x : SimulatedExchange) (symbol : Option String) : SimulatedExchange × List Ref :=
  let cancelled := PendingBook.all.foldl (cancelBook symbol) (x.orders, [])
  (x.withOrders cancelled.1, cancelled.2)

end SimulatedExchange

end TradingSim.Exchange
