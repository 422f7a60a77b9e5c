import TradingSim.Exchange.Numerics
import TradingSim.Foundations.Heap

/-!
# Data model of the simulated exchange

Orders, OCO groups, positions, closed trades and the account, with the methods that the
source attaches to them. The order classes that extend `Order` become an order with the
extra fields of its class attached as its `kind`.

Wall-clock timestamps of orders and trades are left out: no modelled function reads them.
-/

namespace TradingSim.Exchange

open Foundations

/-- The side of an order or of a position. -/
inductive Side
  | buy
  | sell
  deriving DecidableEq, Repr

/-- A quantity with the sign of a side: a sale counts negative. -/
def Side.signed : Side → ℚ → ℚ
  | .buy, quantity => quantity
  | .sell, quantity => -quantity

theorem Side.signed_add (side : Side) (a b : ℚ) : side.signed (a + b) = side.signed a + side.signed b := by
  cases side with
  | buy => rfl
  | sell => exact neg_add a b

@[simp] theorem Side.signed_zero (side : Side) : side.signed 0 = 0 := by
  cases side with
  | buy => rfl
  | sell => exact neg_zero

theorem Side.signed_of_ne {side side' : Side} (hne : side ≠ side') (quantity : ℚ) :
    side.signed quantity = side'.signed (-quantity) := by
  cases side <;> cases side' <;> first | exact absurd rfl hne | simp [signed]

/-- The order types a client may name. -/
inductive OrderType
  | market
  | limit
  | stopLimit
  | trailingStop
  | oco
  | iceberg
  deriving DecidableEq, Repr

/-- The status of an order. Only `pending` is left again. -/
inductive OrderStatus
  | pending
  | filled
  | rejected
  | cancelled
  deriving DecidableEq, Repr

/-- The fields that `StopLimitOrder` adds to an order. -/
structure StopLimitFields where
  stopPrice : ℚ := 0
  limitPrice : ℚ := 0
  triggered : Bool := false
  deriving DecidableEq

/-- The fields that `TrailingStopOrder` adds to an order. -/
structure TrailingStopFields where
  trailAmount : ℚ := 0
  trailPercentage : Bool := true
  stopPrice : ℚ := 0
  highestPrice : ℚ := 0
  lowestPrice : ℚ := 0
  activated : Bool := false
  deriving DecidableEq

/-- The fields that `IcebergOrder` adds to an order. -/
structure IcebergFields where
  visibleQuantity : ℚ := 0
  hiddenQuantity : ℚ := 0
  sliceSize : ℚ := 0
  slicesRemaining : ℤ := 0
  currentSliceFilled : ℚ := 0
  replenished : ℕ := 0
  deriving DecidableEq

/-- The class of an order object, with the fields of that class. -/
inductive OrderKind
  | plain
  | stopLimit (fields : StopLimitFields)
  | trailingStop (fields : TrailingStopFields)
  | iceberg (fields : IcebergFields)
  deriving DecidableEq

/-- An order object. -/
structure Order where
  id : String
  symbol : String
  exchange : String
  side : Side
  orderType : OrderType
  quantity : ℚ
  price : Option ℚ := none
  status : OrderStatus := .pending
  filledPrice : ℚ := 0
  filledQuantity : ℚ := 0
  fee : ℚ := 0
  slippage : ℚ := 0
  rejectionReason : Option String := none
  ocoGroupId : Option String := none
  clientOrderId : Option String := none
  timeInForce : String := "GTC"
  expireTs : Option ℚ := none
  postOnly : Bool := false
  closeReason : String := ""
  kind : OrderKind := .plain
  deriving DecidableEq

instance : Inhabited Order := ⟨⟨"", "", "", .buy, .market, 0, none, .pending, 0, 0, 0, 0, none, none,
  none, "GTC", none, false, "", .plain⟩⟩

/-- `StopLimitOrder.check_trigger`: the stop stays triggered once the price has reached it. -/
def StopLimitFields.checkTrigger (fields : StopLimitFields) (side : Side) (currentPrice : ℚ) :
    StopLimitFields :=
  if fields.triggered then fields
  else match side with
    | .buy => { fields with triggered := decide (fields.stopPrice ≤ currentPrice) }
    | .sell => { fields with triggered := decide (currentPrice ≤ fields.stopPrice) }

/-- `TrailingStopOrder.update_stop_price`: the first price activates the trail, later ones
move the stop only when they set a new extreme on the order's side. -/
def TrailingStopFields.updateStopPrice (fields : TrailingStopFields) (side : Side)
    (currentPrice : ℚ) : TrailingStopFields :=
  if fields.activated then
    match side with
    | .buy =>
      if currentPrice < fields.lowestPrice then
        { fields with
          lowestPrice := currentPrice
          stopPrice :=
            if fields.trailPercentage then currentPrice * (1 + fields.trailAmount / 100)
            else currentPrice + fields.trailAmount }
      else fields
    | .sell =>
      if fields.highestPrice < currentPrice then
        { fields with
          highestPrice := currentPrice
          stopPrice :=
            if fields.trailPercentage then currentPrice * (1 - fields.trailAmount / 100)
            else currentPrice - fields.trailAmount }
      else fields
  else
    { fields with
      activated := true
      highestPrice := currentPrice
      lowestPrice := currentPrice
      stopPrice :=
        match side with
        | .buy => currentPrice * (if fields.trailPercentage then 1 + fields.trailAmount / 100
            else 1 + fields.trailAmount / currentPrice)
        | .sell => currentPrice * (if fields.trailPercentage then 1 - fields.trailAmount / 100
            else 1 - fields.trailAmount / currentPrice) }

/-- `IcebergOrder.__post_init__`: the number of hidden slices, rounded to the nearest. -/
def IcebergFields.postInit (fields : IcebergFields) : IcebergFields :=
  { fields with
    slicesRemaining :=
      if 0 < fields.sliceSize then truncate (fields.hiddenQuantity / fields.sliceSize + 1 / 2)
      else 0 }

/-- `IcebergOrder.on_fill`: count a fill against the current slice. The result says how much
of the slice is left and whether a new slice was shown. -/
def IcebergFields.onFill (fields : IcebergFields) (fillQuantity : ℚ) : IcebergFields × ℚ × Bool :=
  let current := fields.currentSliceFilled + fillQuantity
  let remaining := fields.sliceSize - current
  if fields.sliceSize ≤ current ∧ 0 < fields.slicesRemaining then
    ({ fields with slicesRemaining := fields.slicesRemaining - 1, currentSliceFilled := 0 },
      max 0 remaining, true)
  else ({ fields with currentSliceFilled := current }, max 0 remaining, false)

/-- A one-cancels-the-other group. Its orders are shared with the pending books. -/
structure OCOGroup where
  id : String
  orders : List Ref := []
  filledOrderId : Option String := none
  cancelledOrderIds : List String := []
  deriving DecidableEq

def OCOGroup.addOrder (group : OCOGroup) (order : Ref) : OCOGroup :=
  { group with orders := group.orders ++ [order] }

/-- An open position. -/
structure Position where
  symbol : String
  exchange : String
  side : Side
  quantity : ℚ
  entryPrice : ℚ
  stopLoss : ℚ
  takeProfit : ℚ
  openedAt : ℤ
  unrealizedPnl : ℚ := 0
  margin : ℚ := 0
  deriving DecidableEq

instance : Inhabited Position := ⟨⟨"", "", .buy, 0, 0, 0, 0, 0, 0, 0⟩⟩

def Position.isLong (position : Position) : Bool := position.side = .buy

def Position.updatePnl (position : Position) (currentPrice : ℚ) : Position :=
  { position with
    unrealizedPnl :=
      if position.isLong then (currentPrice - position.entryPrice) * position.quantity
      else (position.entryPrice - currentPrice) * position.quantity }

/-- The signed quantity of a position: positive for a long one. -/
def Position.signedQuantity (position : Position) : ℚ := position.side.signed position.quantity

/-- The record of a closed position or of a closed part of one. -/
structure ClosedTrade where
  symbol : String
  exchange : String
  side : Side
  quantity : ℚ
  entryPrice : ℚ
  exitPrice : ℚ
  pnl : ℚ
  fee : ℚ
  reason : String
  openedAt : ℤ
  orderId : String := ""
  deriving DecidableEq

/-- The trading account. Positions are shared with the exchange's index by symbol. -/
structure Account where
  exchange : String
  balance : ℚ
  currency : String := "USDT"
  leverage : ℚ := 10
  positions : List Ref := []
  tradeHistory : List ClosedTrade := []
  totalPnl : ℚ := 0
  totalFees : ℚ := 0
  totalTrades : ℕ := 0
  winningTrades : ℕ := 0
  deriving DecidableEq

/-- The leverage used for margins: one if the configured leverage is not positive. -/
def Account.effectiveLeverage (account : Account) : ℚ :=
  if 0 < account.leverage then account.leverage else 1

/-- One level of an order book. -/
structure OrderBookLevel where
  price : ℚ
  quantity : ℚ
  deriving DecidableEq

/-- An order book, best levels first. -/
structure OrderBook where
  symbol : String
  exchange : String
  bids : List OrderBookLevel := []
  asks : List OrderBookLevel := []
  timestamp : ℤ := 0
  deriving DecidableEq

end TradingSim.Exchange
