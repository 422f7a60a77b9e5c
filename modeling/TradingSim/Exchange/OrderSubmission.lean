import TradingSim.Exchange.PositionLifecycle
import TradingSim.Foundations.Numerals

/-!
# Order submission

`submit_order`: a request is screened, its order enters its OCO group, and the order then rests in a
pending book, is filled at once, or is turned away with a reason.

The fill-or-kill check unpacks each level of the book as a pair, which a level is not, so the call
raises whenever the side it looks at has a level.
-/

namespace TradingSim.Exchange

open Foundations

/-- The id of the order with a given number. -/
def orderId (n : ℕ) : String := paddedHex 8 n

/-- The arguments of `submit_order`. -/
structure OrderRequest where
  symbol : String
  side : Side
  quantity : ℚ
  orderType : OrderType := .market
  price : Option ℚ := none
  stopLoss : Option ℚ := none
  takeProfit : Option ℚ := none
  forceClose : Bool := false
  stopPrice : Option ℚ := none
  limitPrice : Option ℚ := none
  trailAmount : Option ℚ := none
  trailPercentage : Bool := true
  icebergVisibleQty : Option ℚ := none
  ocoGroupId : Option String := none
  timeInForce : String := "GTC"
  postOnly : Bool := false
  expireTs : Option ℚ := none
  deriving DecidableEq

namespace OrderRequest

def maxQuantity : ℚ := 10 ^ 9

/-- The plain order with the arguments of a request. -/
def plainOrder (req : OrderRequest) (id exchange : String) : Order where
  id := id
  symbol := req.symbol
  exchange := exchange
  side := req.side
  orderType := req.orderType
  quantity := req.quantity
  price := req.price

/-- The kind of order that `_create_order` builds for the type of the request. -/
def createKind (req : OrderRequest) : Option OrderKind :=
  match req.orderType with
  | .stopLimit =>
    match req.stopPrice, req.limitPrice with
    | some stopPrice, some limitPrice =>
      some (.stopLimit { stopPrice := stopPrice, limitPrice := limitPrice })
    | _, _ => none
  | .trailingStop =>
    match req.trailAmount with
    | none => none
    | some trailAmount =>
      if trailAmount ≤ 0 then none
      else some (.trailingStop
        { trailAmount := trailAmount, trailPercentage := req.trailPercentage })
  | .iceberg =>
    match req.icebergVisibleQty with
    | none => none
    | some visible =>
      if visible ≤ 0 ∨ req.quantity ≤ visible then none
      else some (.iceberg (IcebergFields.postInit {
        visibleQuantity := visible
        hiddenQuantity := req.quantity - visible
        sliceSize := visible }))
  | .market => some .plain
  | .limit => some .plain
  | .oco => some .plain

def createOrder (req : OrderRequest) (id exchange : String) : Option Order :=
  req.createKind.map fun kind => { req.plainOrder id exchange with kind := kind }

/-- The OCO group that a request names; an empty name is none. -/
def group (req : OrderRequest) : Option String := req.ocoGroupId.filter (· ≠ "")

/-- The checks of `submit_order` that come before any effect: the order to place, or the
order to reject and the reason. -/
def screen (N : Numerics) (req : OrderRequest) (id exchange : String) : Except (Order × String) Order :=
  if req.quantity ≤ 0 then
    .error (req.plainOrder id exchange, "INVALID_QUANTITY (qty=" ++ N.str req.quantity ++ ")")
  else if maxQuantity < req.quantity then
    .error (req.plainOrder id exchange,
      "QUANTITY_TOO_LARGE (qty=" ++ N.str req.quantity ++ ", max=" ++ N.str maxQuantity ++ ")")
  else match req.createOrder id exchange with
  | none => .error (req.plainOrder id exchange, "INVALID_ORDER_PARAMETERS")
  | some order =>
    if req.timeInForce ∉ ["GTC", "IOC", "FOK", "GTD"] then
      .error (order, "INVALID_TIME_IN_FORCE (" ++ req.timeInForce ++ ")")
    else if req.orderType ≠ .limit ∧
        (req.timeInForce ≠ "GTC" ∨ req.postOnly = true ∨ req.expireTs.isSome) then
      .error (order, "TIME_IN_FORCE_LIMIT_ONLY")
    else if req.expireTs.isSome ∧ req.timeInForce ≠ "GTD" then
      .error (order, "EXPIRE_REQUIRES_GTD")
    else
      let instructed :=
        { order with timeInForce := req.timeInForce, postOnly := req.postOnly }
      if req.timeInForce = "GTD" ∧ req.expireTs.isNone then
        .error (instructed, "GTD_MISSING_EXPIRY")
      else .ok { instructed with expireTs := req.expireTs, ocoGroupId := req.group }

end OrderRequest

namespace OrderTable

/-- Take the next order number and create the order of a submission. -/
def issue (t : OrderTable) (o : Order) : OrderTable :=
  { t.create o with orderCounter := t.orderCounter + 1 }

/-- Give an order its final status with a reason and enter it into the history. -/
def conclude (t : OrderTable) (r : Ref) (status : OrderStatus) (reason : String) : OrderTable :=
  ((t.setStatus r status).update r fun o => { o with rejectionReason := some reason }).record r

/-- Register an order as pending in a book under its id. -/
def rest (t : OrderTable) (r : Ref) (book : PendingBook) : OrderTable :=
  ((t.setStatus r .pending).addPending book (t.get r).id r).record r

/-- Enter an order into the OCO group it names, creating the group at its first order. -/
def joinGroup (t : OrderTable) (r : Ref) : OrderTable :=
  match (t.get r).ocoGroupId with
  | none => t
  | some groupId =>
    let group := (t.ocoGroups.find? groupId).getD { id := groupId }
    { t with ocoGroups := t.ocoGroups.insert groupId (group.addOrder r) }

/-- The order that filled first in a group. -/
def filledOrderOf (t : OrderTable) (groupId : String) : Option String :=
  (t.ocoGroups.find? groupId).bind (·.filledOrderId)

/-- The group that an order names has had a fill. -/
def resolved (t : OrderTable) (r : Ref) : Bool :=
  ((t.get r).ocoGroupId.bind t.filledOrderOf).isSome

/-- One order of the loop in `OCOGroup.on_fill`: cancel it if it is pending and not the
filled one. The second component collects the cancelled orders. -/
def cancelSibling (filledOrderId : String) (acc : OrderTable × List Ref) (r : Ref) :
    OrderTable × List Ref :=
  if (acc.1.get r).id ≠ filledOrderId ∧ (acc.1.get r).status = .pending then
    (acc.1.setStatus r .cancelled, acc.2 ++ [r])
  else acc

/-- `OCOGroup.on_fill` on the group under a name, with the orders it cancelled. -/
def onFill (t : OrderTable) (groupId : String) (group : OCOGroup) (filledOrderId : String) :
    OrderTable × List Ref :=
  let swept := group.orders.foldl (cancelSibling filledOrderId) (t, [])
  ({ swept.1 with
      ocoGroups := swept.1.ocoGroups.insert groupId { group with
        filledOrderId := some filledOrderId
        cancelledOrderIds :=
          group.cancelledOrderIds ++ swept.2.map fun r => (t.get r).id } },
    swept.2)

/-- Remove an order from whichever pending book holds its id. -/
def popEverywhere (t : OrderTable) (r : Ref) : OrderTable :=
  PendingBook.all.foldl (fun t' book => t'.popPending book (t.get r).id) t

/-- `_resolve_oco`: the first fill of a group cancels its other pending orders. -/
def resolveOco (t : OrderTable) (r : Ref) : OrderTable :=
  match (t.get r).ocoGroupId with
  | none => t
  | some groupId =>
    match t.ocoGroups.find? groupId with
    | none => t
    | some group =>
      if group.filledOrderId.isSome then t
      else
        let filled := t.onFill groupId group (t.get r).id
        filled.2.foldl popEverywhere filled.1

end OrderTable

/-- A limit price is reached: at or below it for a buyer, at or above it for a seller. -/
def marketable (side : Side) (limit market : ℚ) : Bool :=
  match side with
  | .buy => market ≤ limit
  | .sell => limit ≤ market

/-- The volume that orders are measured against, `_TYPICAL_VOLUME`. -/
def typicalVolume : ℚ := 500

/-- The reason for refusing an order that needs more margin than the balance. -/
def insufficientMarginReason (N : Numerics) (marginRequired balance : ℚ) : String :=
  "INSUFFICIENT_MARGIN (need $" ++ N.fixed marginRequired 2 ++ ", have $" ++
    N.fixed balance 2 ++ ")"

/-- The reason for refusing an order above the position size limit. -/
def maxPositionSizeReason (N : Numerics) (notional limit : ℚ) : String :=
  "MAX_POSITION_SIZE (notional $" ++ N.fixed notional 2 ++ " > limit $" ++ N.fixed limit 2 ++ ")"

/-- The ledger movements of a fill: the fee, the margin unless a close is forced, the
position, and the entry in the audit log. -/
def Ledger.bookFill (N : Numerics) (m : MarketView) (l : Ledger) (order : Order)
    (fee notional : ℚ) (forceClose : Bool) (stopLoss takeProfit : Option ℚ) (fill : Fill) : Ledger :=
  let charged := l.chargeFee fee
  if forceClose then (charged.updatePosition N m order stopLoss takeProfit 0).logFilled fill
  else
    ((charged.lockMargin notional).updatePosition N m order stopLoss takeProfit
      (charged.marginFor notional)).logFilled fill

theorem OrderStatus.ne_pending_of_done {status : OrderStatus}
    (h : status = .rejected ∨ status = .cancelled) : status ≠ .pending := by
  rcases h with rfl | rfl <;> decide

theorem OrderStatus.ne_filled_of_done {status : OrderStatus}
    (h : status = .rejected ∨ status = .cancelled) : status ≠ .filled := by
  rcases h with rfl | rfl <;> decide

namespace SimulatedExchange

/-- Replace the order side. -/
def withOrders (x : SimulatedExchange) (t : OrderTable) : SimulatedExchange :=
  { x with orders := t }

def calculateFillPrice (x : SimulatedExchange) (midPrice : ℚ) (side : Side) (quantity : ℚ) : ℚ :=
  let slippageAmount := midPrice * x.slippageBps / 10000
  let orderRatio := quantity / typicalVolume
  let impact := if 1 / 10 < orderRatio then midPrice * (1 / 1000) * orderRatio else 0
  match side with
  | .buy => midPrice + slippageAmount + impact
  | .sell => midPrice - slippageAmount - impact

/-- `_depth_covers`; `none` stands for a call that raises. Without a book the slippage model
decides, and an empty side has no depth. -/
def depthCovers (m : MarketView) (symbol : String) (side : Side) (quantity : ℚ) : Option Bool :=
  match m.book symbol with
  | none => some true
  | some book =>
    let levels := match side with
      | .buy => book.asks
      | .sell => book.bids
    if levels = [] then some (decide (quantity ≤ 0)) else none

/-- What becomes of a limit order at submission. -/
inductive LimitDecision
  | fill
  | rest
  | conclude (status : OrderStatus) (reason : String)
  | raise
  deriving DecidableEq

/-- The decision of `_try_limit_order_pending` on a limit order with a price. -/
def decideLimit (m : MarketView) (order : Order) (price fillPrice : ℚ) : LimitDecision :=
  if marketable order.side price fillPrice then
    if order.postOnly then .conclude .rejected "POST_ONLY_WOULD_TAKE"
    else if order.timeInForce = "FOK" then
      match depthCovers m order.symbol order.side order.quantity with
      | none => .raise
      | some true => .fill
      | some false => .conclude .cancelled "FOK_INSUFFICIENT_DEPTH"
    else .fill
  else if order.timeInForce = "IOC" ∨ order.timeInForce = "FOK" then
    .conclude .cancelled (order.timeInForce ++ "_UNFILLED")
  else .rest

/-- `_check_margin_and_size`: the reason for which the fill is refused, if it is. -/
def checkMarginAndSize (N : Numerics) (x : SimulatedExchange) (quantity notional fee midPrice : ℚ)
    (forceClose : Bool) : Option String :=
  let account := x.ledger.account
  let marginRequired := notional / account.effectiveLeverage
  let maxNotional := account.balance * account.leverage * (1 / 2)
  if forceClose then none
  else if account.balance < marginRequired + fee then
    some (insufficientMarginReason N marginRequired account.balance)
  else if maxNotional < midPrice * quantity then
    some (maxPositionSizeReason N notional maxNotional)
  else none

/-- `_apply_partial_fill`: an order above half the typical volume fills partly at a worse
price, once it is larger than the typical volume. -/
def applyPartialFill (N : Numerics) (fillPrice midPrice : ℚ) (side : Side) (quantity : ℚ)
    (order : Order) : Order :=
  if quantity ≤ typicalVolume * (1 / 2) then order
  else
    let fillRatio := min 1 (typicalVolume / quantity)
    if 1 ≤ fillRatio then order
    else
      let direction : ℚ := match side with
        | .buy => 1
        | .sell => -1
      let worsePrice := fillPrice * (1 + (1 - fillRatio) * (1 / 1000) * direction)
      let avgFill := fillPrice * fillRatio + worsePrice * (1 - fillRatio)
      { order with
        filledPrice := N.roundPrice avgFill
        slippage := N.round (avgFill - midPrice) 4 }

/-- `_fill_market_order`: fill a market order, or a limit order at its own price. -/
def fillMarketOrder (N : Numerics) (m : MarketView) (x : SimulatedExchange) (r : Ref)
    (req : OrderRequest) (marketFillPrice midPrice : ℚ) : SimulatedExchange :=
  let fillPrice :=
    if req.orderType = .limit then req.price.getD marketFillPrice else marketFillPrice
  let notional := fillPrice * req.quantity
  let fee := notional * x.feePct / 100
  match x.checkMarginAndSize N req.quantity notional fee midPrice req.forceClose with
  | some reason => x.withOrders (x.orders.conclude r .rejected reason)
  | none =>
    let filled := (x.orders.setStatus r .filled).update r fun o =>
      applyPartialFill N fillPrice midPrice req.side req.quantity { o with
        filledPrice := N.roundPrice fillPrice
        filledQuantity := req.quantity
        fee := N.round fee 4
        slippage := N.round (fillPrice - midPrice) 4 }
    let order := filled.get r
    { x with
      ledger := x.ledger.bookFill N m order fee notional req.forceClose req.stopLoss
        req.takeProfit {
          orderId := order.id
          symbol := req.symbol
          side := req.side
          quantity := req.quantity }
      orders := (filled.record r).resolveOco r }

/-- `_register_trailing_stop`: remember the price at which the trail starts. -/
def startTrail (side : Side) (midPrice : ℚ) (order : Order) : Order :=
  match order.kind with
  | .trailingStop fields =>
    { order with kind := .trailingStop { fields with
        highestPrice := if side = .sell then midPrice else 0
        lowestPrice := if side = .buy then midPrice else 0 } }
  | _ => order

/-- The part of `submit_order` after the OCO group; `none` stands for a call that raises. -/
def placeOrder (N : Numerics) (m : MarketView) (x : SimulatedExchange) (r : Ref)
    (req : OrderRequest) : Option SimulatedExchange :=
  let midPrice := m.price req.symbol
  if midPrice = 0 then some (x.withOrders (x.orders.conclude r .rejected "NO_PRICE_DATA"))
  else
    let fillPrice := x.calculateFillPrice midPrice req.side req.quantity
    match req.orderType with
    | .stopLimit => some (x.withOrders (x.orders.rest r .stopLimits))
    | .trailingStop =>
      some (x.withOrders ((x.orders.update r (startTrail req.side midPrice)).rest r .trailingStops))
    | .iceberg => some (x.withOrders (x.orders.rest r .icebergs))
    | .limit =>
      match req.price with
      | none => some (x.fillMarketOrder N m r req fillPrice midPrice)
      | some price =>
        match decideLimit m (x.orders.get r) price fillPrice with
        | .fill => some (x.fillMarketOrder N m r req fillPrice midPrice)
        | .rest => some (x.withOrders (x.orders.rest r .limits))
        | .conclude status reason => some (x.withOrders (x.orders.conclude r status reason))
        | .raise => none
    | .market => some (x.fillMarketOrder N m r req fillPrice midPrice)
    | .oco => some (x.fillMarketOrder N m r req fillPrice midPrice)

/-- What becomes of an order that is placed: it is turned away, filled, or entered into the book of its
type. -/
inductive Placing (N : Numerics) (m : MarketView) (x : SimulatedExchange) (r : Ref) (req : OrderRequest) :
    SimulatedExchange → Prop
  | conclude {status : OrderStatus} (hdone : status = .rejected ∨ status = .cancelled) (reason : String) :
    x.Placing N m r req (x.withOrders (x.orders.conclude r status reason))
  | fill (hquoted : m.price req.symbol ≠ 0) (hbook : req.orderType.book = none ∨ req.orderType = .limit)
    (htaken : req.orderType = .limit → ∀ price ∈ req.price, decideLimit m (x.orders.get r) price
      (x.calculateFillPrice (m.price req.symbol) req.side req.quantity) = .fill) :
    x.Placing N m r req (x.fillMarketOrder N m r req
      (x.calculateFillPrice (m.price req.symbol) req.side req.quantity) (m.price req.symbol))
  | rest {book : PendingBook} (hbook : req.orderType.book = some book)
    (htype : req.orderType ≠ .trailingStop)
    (hwaits : req.orderType = .limit → ∃ price ∈ req.price, decideLimit m (x.orders.get r) price
      (x.calculateFillPrice (m.price req.symbol) req.side req.quantity) = .rest) :
    x.Placing N m r req (x.withOrders (x.orders.rest r book))
  | trail (htype : req.orderType = .trailingStop) :
    x.Placing N m r req (x.withOrders
      ((x.orders.update r (startTrail req.side (m.price req.symbol))).rest r .trailingStops))

/-- A limit order that neither fills nor rests is rejected or cancelled. -/
theorem decideLimit_conclude {m : MarketView} {order : Order} {price fillPrice : ℚ} {status : OrderStatus}
    {reason : String} (h : decideLimit m order price fillPrice = .conclude status reason) :
    status = .rejected ∨ status = .cancelled := by
  unfold decideLimit at h
  split at h
  · split at h
    · exact Or.inl (LimitDecision.conclude.inj h).1.symm
    · split at h
      · split at h
        · cases h
        · cases h
        · exact Or.inr (LimitDecision.conclude.inj h).1.symm
      · cases h
  · split at h
    · exact Or.inr (LimitDecision.conclude.inj h).1.symm
    · cases h

theorem placing_of_placeOrder {N : Numerics} {m : MarketView} {x x' : SimulatedExchange} {r : Ref}
    {req : OrderRequest} (h : x.placeOrder N m r req = some x') : x.Placing N m r req x' := by
  unfold placeOrder at h
  dsimp only at h
  split at h
  · cases h
    exact .conclude (Or.inl rfl) _
  · rename_i hquoted
    split at h <;> rename_i htype
    · cases h
      exact .rest (by rw [htype]; rfl) (by simp [htype]) (by simp [htype])
    · cases h
      exact .trail htype
    · cases h
      exact .rest (by rw [htype]; rfl) (by simp [htype]) (by simp [htype])
    · split at h
      · rename_i hnone
        cases h
        exact .fill hquoted (Or.inr htype) fun _ price hprice => by simp [hnone] at hprice
      · rename_i price hprice
        split at h
        · rename_i hfill
          cases h
          refine .fill hquoted (Or.inr htype) fun _ price' hprice' => ?_
          obtain rfl := Option.some.inj (hprice.symm.trans hprice')
          exact hfill
        · rename_i hrest
          cases h
          exact .rest (by rw [htype]; rfl) (by simp [htype]) fun _ => ⟨price, hprice, hrest⟩
        · rename_i hconclude
          cases h
          exact .conclude (decideLimit_conclude hconclude) _
        · cases h
    · cases h
      exact .fill hquoted (Or.inl (by rw [htype]; rfl)) (by simp [htype])
    · cases h
      exact .fill hquoted (Or.inl (by rw [htype]; rfl)) (by simp [htype])

/-- Note that a call of `submit_order` has returned an order. -/
def accept (x : SimulatedExchange) (r : Ref) : SimulatedExchange :=
  x.withOrders (x.orders.accept r)

/-- `submit_order`: the exchange afterwards and the order it returns, if it does not raise. -/
def submitOrder (N : Numerics) (m : MarketView) (x : SimulatedExchange) (req : OrderRequest) :
    SimulatedExchange × Option Ref :=
  let r := x.orders.objects.next
  match req.screen N (orderId x.orders.orderCounter) x.exchangeId with
  | .error (order, reason) =>
    ((x.withOrders ((x.orders.issue order).conclude r .rejected reason)).accept r, some r)
  | .ok order =>
    let joined := x.withOrders ((x.orders.issue order).joinGroup r)
    if joined.orders.resolved r then
      ((joined.withOrders (joined.orders.conclude r .cancelled "OCO_GROUP_RESOLVED")).accept r,
        some r)
    else match joined.placeOrder N m r req with
      | some placed => (placed.accept r, some r)
      | none => (joined, none)

end SimulatedExchange

end TradingSim.Exchange
