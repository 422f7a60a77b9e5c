import TradingSim.Exchange.OrderSubmission
import TradingSim.RawOrders.Values

/-!
# Submitting orders with raw values

`submit_order` as it runs on values of any type. Of the arguments of a client's order only the
quantity, the side, the type and the instructions are checked by the handler; the prices, the levels
and the name of the group arrive as they were sent.

Left out are the texts of rejections and the order history with its listener: nothing that may raise
reads them.
-/

namespace TradingSim.RawOrders

open Foundations
open Exchange (OrderStatus PendingBook Side orderId)
open Floats (div divide isZero le lit lt roundPrice)

/-- `TrailingStopOrder`, the fields of its own. -/
structure TrailingStop (F : Type) where
  trailAmount : Value F
  trailPercentage : Bool
  stopPrice : F
  highestPrice : F
  lowestPrice : F
  activated : Bool := false

/-- `IcebergOrder`, the fields of its own. -/
structure Iceberg (F : Type) where
  visibleQuantity : F
  hiddenQuantity : F
  sliceSize : F
  slicesRemaining : ℤ := 0
  currentSliceFilled : F
  replenished : ℕ := 0

/-- The class of an order object. -/
inductive OrderKind (F : Type)
  | plain
  | stopLimit (stopPrice limitPrice : Value F) (triggered : Bool)
  | trailingStop (fields : TrailingStop F)
  | iceberg (fields : Iceberg F)

/-- An order object. -/
structure Order (F : Type) where
  id : String
  symbol : Value F
  side : Side
  orderType : Exchange.OrderType
  quantity : F
  price : Value F := .null
  status : OrderStatus := .pending
  filledPrice : F
  filledQuantity : F
  fee : F
  slippage : F
  ocoGroupId : Value F := .null
  timeInForce : String := "GTC"
  expireTs : Option F := none
  postOnly : Bool := false
  kind : OrderKind F := .plain

structure OCOGroup where
  orders : List Ref := []
  filledOrderId : Option String := none
  cancelledOrderIds : List String := []
  deriving DecidableEq

structure Position (F : Type) where
  symbol : Value F
  side : Side
  quantity : F
  entryPrice : F
  stopLoss : Value F
  takeProfit : Value F
  unrealizedPnl : F
  margin : F

/-- `SimulatedExchange`. The positions stand in the order of `account.positions`, each under its
symbol. -/
structure SimulatedExchange (F : Type) where
  feePct : F
  slippageBps : F
  partialLiquidationRatio : F
  maintenanceMarginRate : F
  leverage : F
  balance : F
  totalFees : F
  totalPnl : F
  insuranceFund : F
  positions : Dict String (Position F) := Dict.empty
  orders : Heap (Order F) := Heap.empty
  orderCounter : ℕ := 0
  pending : PendingBook → Dict String Ref := fun _ => Dict.empty
  ocoGroups : Dict String OCOGroup := Dict.empty

/-- What a call sees of the market and of the clock. -/
structure MarketView (F : Type) where
  symbols : List String
  /-- The price of a symbol, zero if it has none. -/
  price : String → F
  /-- How many levels the order book has for orders of a side; `none` stands for a call that
  raises. -/
  levels : String → Side → Option ℕ
  now : F

/-- What the handlers take from the language. -/
structure Runtime (F : Type) where
  /-- `str` of a value that is no string. -/
  str : Value F → String
  /-- `str.upper`. -/
  upper : String → String
  /-- `float` of a string. -/
  floatOfText : String → Except PyException F
  /-- The key of a number in a dictionary; equal numbers have one key. -/
  numberKey : Value F → String

/-- The arguments of `submit_order`. -/
structure OrderRequest (F : Type) where
  symbol : Value F
  side : Side
  quantity : F
  orderType : Exchange.OrderType := .market
  price : Value F := .null
  stopLoss : Value F := .null
  takeProfit : Value F := .null
  forceClose : Bool := false
  stopPrice : Value F := .null
  limitPrice : Value F := .null
  trailAmount : Value F := .null
  trailPercentage : Bool := true
  icebergVisibleQty : Value F := .null
  ocoGroupId : Value F := .null
  timeInForce : String := "GTC"
  postOnly : Bool := false
  expireTs : Option F := none

abbrev Call (F : Type) := Foundations.Action (SimulatedExchange F) PyException

variable {F : Type} [Floats F]

instance : Inhabited (Order F) :=
  ⟨{ id := "", symbol := .null, side := .buy, orderType := .market, quantity := lit 0,
     filledPrice := lit 0, filledQuantity := lit 0, fee := lit 0, slippage := lit 0 }⟩

/-- A value as the key of a dictionary. -/
def Value.key (rt : Runtime F) : Value F → Except PyException String
  | .text s => .ok ("s" ++ s)
  | .container _ _ => .error .typeError
  | v => .ok ("n" ++ rt.numberKey v)

def MarketView.getPrice (m : MarketView F) : Value F → Except PyException F
  | .text s => .ok (m.price s)
  | .container _ _ => .error .typeError
  | _ => .ok (lit 0)

namespace OrderRequest

/-- The plain order with the arguments of a request. -/
def plainOrder (req : OrderRequest F) (id : String) : Order F where
  id := id
  symbol := req.symbol
  side := req.side
  orderType := req.orderType
  quantity := req.quantity
  price := req.price
  filledPrice := lit 0
  filledQuantity := lit 0
  fee := lit 0
  slippage := lit 0

def postInit (fields : Iceberg F) : Except PyException (Iceberg F) :=
  if lt (lit 0) fields.sliceSize then do
    let slices ← divide fields.hiddenQuantity fields.sliceSize
    match Floats.truncate (slices + lit (1 / 2)) with
    | none => .error .overflowError
    | some slicesRemaining => .ok { fields with slicesRemaining := slicesRemaining }
  else .ok fields

/-- The class of the order that `_create_order` builds. -/
def createKind (req : OrderRequest F) : Except PyException (Option (OrderKind F)) :=
  match req.orderType with
  | .stopLimit =>
    if req.stopPrice.isNull || req.limitPrice.isNull then .ok none
    else .ok (some (.stopLimit req.stopPrice req.limitPrice false))
  | .trailingStop =>
    if req.trailAmount.isNull then .ok none
    else do
      let trailAmount ← req.trailAmount.number
      if trailAmount.nonPositive then return none
      else return some (.trailingStop {
        trailAmount := req.trailAmount
        trailPercentage := req.trailPercentage
        stopPrice := lit 0
        highestPrice := lit 0
        lowestPrice := lit 0 })
  | .iceberg =>
    if req.icebergVisibleQty.isNull then .ok none
    else do
      let visibleQty ← req.icebergVisibleQty.number
      if visibleQty.nonPositive || visibleQty.atLeast req.quantity then return none
      else
        let visible ← visibleQty.toFloat
        let fields ← postInit {
          visibleQuantity := visible
          hiddenQuantity := req.quantity - visible
          sliceSize := visible
          currentSliceFilled := lit 0 }
        return some (.iceberg fields)
  | .market => .ok (some .plain)
  | .limit => .ok (some .plain)
  | .oco => .ok (some .plain)

/-- The checks of `submit_order` before the group: the order, and whether it passes. -/
def screen (req : OrderRequest F) (id : String) : Except PyException (Order F × Bool) :=
  let plain := req.plainOrder id
  if le req.quantity (lit 0) || !le req.quantity req.quantity then .ok (plain, false)
  else if lt (lit (10 ^ 9)) req.quantity then .ok (plain, false)
  else do
    match ← req.createKind with
    | none => return (plain, false)
    | some kind =>
      let order := { plain with kind := kind }
      if req.timeInForce ∉ ["GTC", "IOC", "FOK", "GTD"] then return (order, false)
      else if req.orderType ≠ .limit ∧
          (req.timeInForce ≠ "GTC" ∨ req.postOnly = true ∨ req.expireTs.isSome) then
        return (order, false)
      else if req.expireTs.isSome ∧ req.timeInForce ≠ "GTD" then return (order, false)
      else
        let instructed := { order with timeInForce := req.timeInForce, postOnly := req.postOnly }
        if req.timeInForce = "GTD" ∧ req.expireTs.isNone then return (instructed, false)
        else return ({ instructed with expireTs := req.expireTs }, true)

end OrderRequest

/-- The market has reached a limit. -/
def marketable (side : Side) (limit : Number F) (currentPrice : F) : Bool :=
  match side with
  | .buy => limit.atLeast currentPrice
  | .sell => limit.atMost currentPrice

/-- What becomes of an order that is placed. -/
inductive Placement (F : Type)
  | rejected
  | cancelled
  | rests (book : PendingBook)
  | fills (price midPrice : F)

namespace SimulatedExchange

/-- `account.leverage if account.leverage > 0 else 1`. -/
def effectiveLeverage (x : SimulatedExchange F) : F := if lt (lit 0) x.leverage then x.leverage else lit 1

def calculateFillPrice (x : SimulatedExchange F) (midPrice : F) (side : Side) (quantity : F) : F :=
  let slippageAmount := div (midPrice * x.slippageBps) (lit 10000)
  let slipped := match side with
    | .buy => midPrice + slippageAmount
    | .sell => midPrice - slippageAmount
  let orderRatio := div quantity (lit 500)
  if lt (lit (1 / 10)) orderRatio then
    let impact := midPrice * lit (1 / 1000) * orderRatio
    match side with
    | .buy => slipped + impact
    | .sell => slipped - impact
  else slipped

/-- `_depth_covers`: a level of the book is no pair, so that a book with a level raises. -/
def depthCovers (m : MarketView F) (symbol : Value F) (side : Side) (quantity : F) :
    Except PyException Bool :=
  match symbol with
  | .text s =>
    match m.levels s side with
    | none => .ok true
    | some 0 => .ok (le quantity (lit 0))
    | some (_ + 1) => .error .typeError
  | .container _ _ => .ok true
  | _ => .ok (le quantity (lit 0))

/-- The part of `submit_order` after the group, up to its effects. -/
def placement (m : MarketView F) (x : SimulatedExchange F) (req : OrderRequest F) :
    Except PyException (Placement F) := do
  let midPrice ← m.getPrice req.symbol
  if isZero midPrice then return .rejected
  else
    let fillPrice := x.calculateFillPrice midPrice req.side req.quantity
    match req.orderType with
    | .stopLimit => return .rests .stopLimits
    | .trailingStop => return .rests .trailingStops
    | .iceberg => return .rests .icebergs
    | .market => return .fills fillPrice midPrice
    | .oco => return .fills fillPrice midPrice
    | .limit =>
      if req.price.isNull then return .fills fillPrice midPrice
      else
        let price ← req.price.number
        if marketable req.side price fillPrice then
          if req.postOnly then return .rejected
          else
            let covered ← if req.timeInForce = "FOK" then
                depthCovers m req.symbol req.side req.quantity
              else .ok true
            if covered then
              let limit ← price.toFloat
              return .fills limit midPrice
            else return .cancelled
        else if req.timeInForce = "IOC" ∨ req.timeInForce = "FOK" then return .cancelled
        else return .rests .limits

/-- Write fields of an order. -/
def updateOrder (x : SimulatedExchange F) (r : Ref) (f : Order F → Order F) : SimulatedExchange F :=
  { x with orders := x.orders.modify r f }

/-- Write an order's status. -/
def setStatus (x : SimulatedExchange F) (r : Ref) (status : OrderStatus) : SimulatedExchange F :=
  x.updateOrder r fun o => { o with status := status }

/-- Put an order into a pending book. -/
def addPending (x : SimulatedExchange F) (book : PendingBook) (key : String) (r : Ref) : SimulatedExchange F :=
  { x with pending := Function.update x.pending book ((x.pending book).insert key r) }

/-- Remove an id from a pending book. -/
def popPending (x : SimulatedExchange F) (book : PendingBook) (key : String) : SimulatedExchange F :=
  { x with pending := Function.update x.pending book ((x.pending book).erase key) }

/-- One order of the loop in `on_fill`: if it is pending and not the filled one, it is cancelled and
leaves the books. -/
def cancelSibling (filledOrderId : String) (acc : SimulatedExchange F × List String) (r : Ref) :
    SimulatedExchange F × List String :=
  if (acc.1.orders.get r).id ≠ filledOrderId ∧ (acc.1.orders.get r).status = .pending then
    let id := (acc.1.orders.get r).id
    (PendingBook.all.foldl (fun x book => x.popPending book id) (acc.1.setStatus r .cancelled),
      acc.2 ++ [id])
  else acc

/-- `OCOGroup.on_fill`, with the removals of `_resolve_oco`. -/
def onFill (x : SimulatedExchange F) (key : String) (group : OCOGroup) (filledOrderId : String) :
    SimulatedExchange F :=
  let swept := group.orders.foldl (cancelSibling filledOrderId) (x, [])
  { swept.1 with
    ocoGroups := swept.1.ocoGroups.insert key { group with
      filledOrderId := some filledOrderId
      cancelledOrderIds := group.cancelledOrderIds ++ swept.2 } }

end SimulatedExchange

/-! ### Effects -/

open Foundations.Action (get modify lift when)

/-- Create an order object. -/
def create (o : Order F) : Call F Ref := do
  let x ← get
  modify fun x => { x with orders := x.orders.alloc o }
  return x.orders.next

/-- Read an order object. -/
def readOrder (r : Ref) : Call F (Order F) := do
  let x ← get
  return x.orders.get r

def resolveOco (rt : Runtime F) (r : Ref) : Call F Unit := do
  let order ← readOrder r
  if order.ocoGroupId.truthy then
    let key ← lift (order.ocoGroupId.key rt)
    modify fun x =>
      match x.ocoGroups.find? key with
      | none => x
      | some group => if group.filledOrderId.isSome then x else x.onFill key group order.id
  else return ()

def lockMargin (notional : F) : Call F F := do
  let x ← get
  let margin := div notional x.effectiveLeverage
  modify fun x => { x with balance := x.balance - margin }
  return margin

def chargeFee (fee : F) : Call F Unit :=
  modify fun x => { x with balance := x.balance - fee, totalFees := x.totalFees + fee }

/-- Write a position. -/
def putPosition (key : String) (position : Position F) : Call F Unit :=
  modify fun x => { x with positions := x.positions.insert key position }

def openResidualPosition (key : String) (order : Order F) (quantity margin : F) : Call F Unit :=
  let bounds : F × F := match order.side with
    | .buy => (order.filledPrice * lit (98 / 100), order.filledPrice * lit (104 / 100))
    | .sell => (order.filledPrice * lit (102 / 100), order.filledPrice * lit (96 / 100))
  putPosition key {
    symbol := order.symbol
    side := order.side
    quantity := quantity
    entryPrice := order.filledPrice
    stopLoss := .float bounds.1
    takeProfit := .float bounds.2
    unrealizedPnl := lit 0
    margin := margin }

def openNewPosition (key : String) (order : Order F) (stopLoss takeProfit : Value F) (margin : F) :
    Call F Unit :=
  let defaults : F × F := match order.side with
    | .buy => (order.filledPrice * lit (98 / 100), order.filledPrice * lit (104 / 100))
    | .sell => (order.filledPrice * lit (102 / 100), order.filledPrice * lit (96 / 100))
  putPosition key {
    symbol := order.symbol
    side := order.side
    quantity := order.filledQuantity
    entryPrice := order.filledPrice
    stopLoss := if stopLoss.isNull then .float defaults.1 else stopLoss
    takeProfit := if takeProfit.isNull then .float defaults.2 else takeProfit
    unrealizedPnl := lit 0
    margin := margin }

def closePosition (key : String) (existing : Position F) (order : Order F) (orderMargin : F) :
    Call F Unit := do
  let closeQty := Floats.min order.filledQuantity existing.quantity
  let pnl := match existing.side with
    | .buy => (order.filledPrice - existing.entryPrice) * closeQty
    | .sell => (existing.entryPrice - order.filledPrice) * closeQty
  let closedShare ← lift (divide closeQty existing.quantity)
  let releasedMargin := existing.margin * closedShare
  let usedShare ← lift (divide closeQty order.filledQuantity)
  let closeMarginShare := orderMargin * usedShare
  modify fun x => { x with
    balance := x.balance + (releasedMargin + closeMarginShare + pnl)
    totalPnl := x.totalPnl + pnl }
  if le existing.quantity closeQty then
    modify fun x => { x with positions := x.positions.erase key }
    let residualQty := order.filledQuantity - closeQty
    when (lt (lit (1 / 10 ^ 12)) residualQty)
      (openResidualPosition key order residualQty (orderMargin - closeMarginShare))
  else
    putPosition key { existing with
      margin := existing.margin - releasedMargin
      quantity := existing.quantity - closeQty }

def updatePosition (rt : Runtime F) (order : Order F) (stopLoss takeProfit : Value F)
    (orderMargin : F) : Call F Unit := do
  let key ← lift (order.symbol.key rt)
  let x ← get
  match x.positions.find? key with
  | none => openNewPosition key order stopLoss takeProfit orderMargin
  | some existing =>
    if existing.side ≠ order.side then closePosition key existing order orderMargin
    else
      let totalQty := existing.quantity + order.filledQuantity
      let avgPrice ← lift (divide (existing.entryPrice * existing.quantity +
        order.filledPrice * order.filledQuantity) totalQty)
      putPosition key { existing with
        quantity := totalQty
        entryPrice := avgPrice
        margin := existing.margin + orderMargin }

/-- `_check_margin_and_size`: whether the order is refused. -/
def SimulatedExchange.refuses (x : SimulatedExchange F) (req : OrderRequest F) (notional fee midPrice : F) : Bool :=
  !req.forceClose &&
    (lt x.balance (div notional x.effectiveLeverage + fee) ||
      lt (x.balance * x.leverage * lit (1 / 2)) (midPrice * req.quantity))

def applyPartialFill (r : Ref) (fillPrice midPrice : F) (side : Side) (quantity : F) : Call F Unit :=
  if le quantity (lit 250) then pure ()
  else do
    let volumeRatio ← lift (divide (lit 500) quantity)
    let fillRatio := Floats.min (lit 1) volumeRatio
    let shift := (lit 1 - fillRatio) * lit (1 / 1000)
    let worsePrice := match side with
      | .buy => fillPrice * (lit 1 + shift)
      | .sell => fillPrice * (lit 1 - shift)
    let avgFill := fillPrice * fillRatio + worsePrice * (lit 1 - fillRatio)
    when (!le (lit 1) fillRatio) (modify (·.updateOrder r fun o => { o with
      filledPrice := roundPrice avgFill
      slippage := Floats.round (avgFill - midPrice) 4 }))

def fillMarketOrder (rt : Runtime F) (r : Ref) (req : OrderRequest F) (fillPrice midPrice : F) :
    Call F Unit := do
  let x ← get
  let notional := fillPrice * req.quantity
  let fee := div (notional * x.feePct) (lit 100)
  if x.refuses req notional fee midPrice then modify (·.setStatus r .rejected)
  else
    modify (·.updateOrder r fun o => { o with
      status := .filled
      filledPrice := roundPrice fillPrice
      filledQuantity := req.quantity
      fee := Floats.round fee 4
      slippage := Floats.round (fillPrice - midPrice) 4 })
    applyPartialFill r fillPrice midPrice req.side req.quantity
    chargeFee fee
    let orderMargin ← if req.forceClose then pure (lit 0) else lockMargin notional
    let order ← readOrder r
    updatePosition rt order req.stopLoss req.takeProfit orderMargin
    resolveOco rt r

/-- Enter an order into the OCO group it names, and say whether the group has had a fill. -/
def joinGroup (rt : Runtime F) (r : Ref) (ocoGroupId : Value F) : Call F Bool :=
  if ocoGroupId.truthy then do
    let key ← lift (ocoGroupId.key rt)
    let x ← get
    let group := (x.ocoGroups.find? key).getD {}
    modify fun x => { x.updateOrder r fun o => { o with ocoGroupId := ocoGroupId } with
      ocoGroups := x.ocoGroups.insert key { group with orders := group.orders ++ [r] } }
    return group.filledOrderId.isSome
  else pure false

/-- `_register_trailing_stop` starts the trail of an order. -/
def startTrail (midPrice : F) (o : Order F) : Order F :=
  match o.kind with
  | .trailingStop fields => { o with kind := .trailingStop { fields with
      highestPrice := if o.side = .sell then midPrice else lit 0
      lowestPrice := if o.side = .buy then midPrice else lit 0 } }
  | _ => o

/-- The end of `submit_order`, for an order that no group has closed. -/
def placeOrder (rt : Runtime F) (m : MarketView F) (r : Ref) (req : OrderRequest F) : Call F Unit := do
  let x ← get
  match ← lift (x.placement m req) with
  | .rejected => modify (·.setStatus r .rejected)
  | .cancelled => modify (·.setStatus r .cancelled)
  | .rests book =>
    let midPrice ← lift (m.getPrice req.symbol)
    let order ← readOrder r
    modify fun x => ((x.setStatus r .pending).updateOrder r (startTrail midPrice)).addPending book
      order.id r
  | .fills price midPrice => fillMarketOrder rt r req price midPrice

def submitOrder (rt : Runtime F) (m : MarketView F) (req : OrderRequest F) : Call F Ref := do
  let x ← get
  modify fun x => { x with orderCounter := x.orderCounter + 1 }
  let screened ← lift (req.screen (orderId x.orderCounter))
  let r ← create screened.1
  if screened.2 = false then
    modify (·.setStatus r .rejected)
    return r
  else
    let closed ← joinGroup rt r req.ocoGroupId
    if closed then
      modify (·.setStatus r .cancelled)
      return r
    else
      placeOrder rt m r req
      return r

end TradingSim.RawOrders
