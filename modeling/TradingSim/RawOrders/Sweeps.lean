import TradingSim.Exchange.Liquidation
import TradingSim.RawOrders.Submission

/-!
# The tick on raw values

`check_stop_loss_take_profit` and `check_advanced_orders` as they run on what was stored. A sweep
goes over a snapshot of its book and removes the ids it has collected when it is through, so that an
exception leaves the executed orders in the book and ends everything after it.
-/

namespace TradingSim.RawOrders

open Foundations
open Exchange (CloseTrigger OrderStatus PendingBook Side)
open Floats (div divide isZero le lit lt roundPrice)
open Foundations.Action (get modify lift when)

variable {F : Type} [Floats F]

/-- `current_prices.get(order.symbol, 0)`. -/
def MarketView.currentPrice (m : MarketView F) : Value F → Except PyException F
  | .text s => .ok (if s ∈ m.symbols then m.price s else lit 0)
  | .container _ _ => .error .typeError
  | _ => .ok (lit 0)

/-! ### Executing resting orders -/

/-- `_check_margin`: whether the order is refused. -/
def SimulatedExchange.lacksMargin (x : SimulatedExchange F) (quantity fillPrice : F) : Bool :=
  let notional := fillPrice * quantity
  lt x.balance (div notional x.effectiveLeverage + div (notional * x.feePct) (lit 100)) ||
    lt (x.balance * x.leverage * lit (1 / 2)) notional

def finalizeOrderExecution (rt : Runtime F) (r : Ref) (fillPrice : F) : Call F Unit := do
  let order ← readOrder r
  chargeFee order.fee
  let margin ← lockMargin (fillPrice * order.filledQuantity)
  updatePosition rt order .null .null margin
  resolveOco rt r

def executeLimitOrder (rt : Runtime F) (r : Ref) (price : Number F) : Call F Unit := do
  let fillPrice ← lift price.toFloat
  let x ← get
  let order ← readOrder r
  if x.lacksMargin order.quantity fillPrice then modify (·.setStatus r .rejected)
  else
    modify (·.updateOrder r fun o => { o with
      status := .filled
      filledPrice := roundPrice fillPrice
      filledQuantity := o.quantity
      fee := Floats.round (div (fillPrice * o.quantity * x.feePct) (lit 100)) 4 })
    finalizeOrderExecution rt r fillPrice

def executeMarketOrder (rt : Runtime F) (r : Ref) (price : F) : Call F Unit := do
  let x ← get
  let order ← readOrder r
  let slippageAmount := div (price * x.slippageBps) (lit 10000)
  let fillPrice := match order.side with
    | .buy => price + slippageAmount
    | .sell => price - slippageAmount
  if x.lacksMargin order.quantity fillPrice then modify (·.setStatus r .rejected)
  else
    modify (·.updateOrder r fun o => { o with
      status := .filled
      filledPrice := roundPrice fillPrice
      filledQuantity := o.quantity
      slippage := Floats.round slippageAmount 4
      fee := Floats.round (div (fillPrice * o.quantity * x.feePct) (lit 100)) 4 })
    finalizeOrderExecution rt r fillPrice

def Iceberg.onFill (fields : Iceberg F) (fillQuantity : F) : Iceberg F :=
  let current := fields.currentSliceFilled + fillQuantity
  if le fields.sliceSize current ∧ 0 < fields.slicesRemaining then
    { fields with slicesRemaining := fields.slicesRemaining - 1, currentSliceFilled := lit 0 }
  else { fields with currentSliceFilled := current }

/-- `_execute_iceberg_slice`: the slice, and the iceberg's hidden quantity afterwards. -/
def executeIcebergSlice (rt : Runtime F) (r : Ref) (fields : Iceberg F) (price : Number F) :
    Call F (Ref × F) := do
  let x ← get
  let parent ← readOrder r
  let sliceQty := Floats.min fields.visibleQuantity fields.hiddenQuantity
  let fillPrice ← lift price.toFloat
  let slice ← create {
    id := parent.id ++ "_slice_" ++ toString (fields.replenished + 1)
    symbol := parent.symbol
    side := parent.side
    orderType := .market
    quantity := sliceQty
    price := .float fillPrice
    filledPrice := lit 0
    filledQuantity := lit 0
    fee := Floats.round (div (fillPrice * sliceQty * x.feePct) (lit 100)) 4
    slippage := lit 0 }
  if x.lacksMargin sliceQty fillPrice then
    modify (·.setStatus slice .rejected)
    return (slice, fields.hiddenQuantity)
  else
    let shown := Iceberg.onFill { fields with
      hiddenQuantity := fields.hiddenQuantity - sliceQty
      replenished := fields.replenished + 1 } sliceQty
    modify (·.updateOrder r fun o => { o with kind := .iceberg shown })
    modify (·.updateOrder slice fun o => { o with
      status := .filled
      filledPrice := roundPrice fillPrice
      filledQuantity := sliceQty })
    let sliceOrder ← readOrder slice
    chargeFee sliceOrder.fee
    let margin ← lockMargin (fillPrice * sliceOrder.filledQuantity)
    updatePosition rt sliceOrder .null .null margin
    return (slice, shown.hiddenQuantity)

/-! ### The sweeps -/

/-- What a sweep has collected: the orders to return and the ids to remove. -/
abbrev Sweep := List Ref × List String

/-- Note an order that left its book. -/
def Sweep.executed (acc : Sweep) (id : String) (r : Ref) : Sweep := (acc.1 ++ [r], acc.2 ++ [id])

/-- The check of a resting order at the market's price; one that is no longer pending is removed, and
one without a price is skipped. -/
def checkPending (m : MarketView F) (check : Order F → F → Sweep → Call F Sweep) (acc : Sweep)
    (entry : String × Ref) : Call F Sweep := do
  let order ← readOrder entry.2
  if order.status ≠ .pending then return (acc.1, acc.2 ++ [entry.1])
  else
    let currentPrice ← lift (m.currentPrice order.symbol)
    if isZero currentPrice then return acc
    else check order currentPrice acc

/-- A GTD order is past its time. -/
def expired (now : F) (expireTs : Option F) : Bool := expireTs.any fun expiry => le expiry now

/-- The body of the loop in `_check_limit_orders`. -/
def checkLimitOrder (rt : Runtime F) (m : MarketView F) (acc : Sweep) (entry : String × Ref) :
    Call F Sweep := do
  let order ← readOrder entry.2
  if order.status = .pending ∧ expired m.now order.expireTs = true then
    modify (·.setStatus entry.2 .cancelled)
    return acc.executed entry.1 entry.2
  else checkPending m (fun order currentPrice acc => do
    let price ← lift order.price.number
    if marketable order.side price currentPrice then
      executeLimitOrder rt entry.2 price
      return acc.executed entry.1 entry.2
    else return acc) acc entry

def checkTrigger (r : Ref) (side : Side) (stopPrice limitPrice : Value F) (triggered : Bool)
    (currentPrice : F) : Call F Bool :=
  if triggered then pure true
  else do
    let stop ← lift stopPrice.number
    let reached := match side with
      | .buy => stop.atMost currentPrice
      | .sell => stop.atLeast currentPrice
    modify (·.updateOrder r fun o => { o with kind := .stopLimit stopPrice limitPrice reached })
    return reached

/-- The body of the loop in `_check_stop_limit_orders`. -/
def checkStopLimitOrder (rt : Runtime F) (m : MarketView F) (acc : Sweep) (entry : String × Ref) :
    Call F Sweep :=
  checkPending m (fun order currentPrice acc =>
    match order.kind with
    | .stopLimit stopPrice limitPrice triggered => do
      let reached ← checkTrigger entry.2 order.side stopPrice limitPrice triggered currentPrice
      if reached then
        let limit ← lift limitPrice.number
        if marketable order.side limit currentPrice then
          executeLimitOrder rt entry.2 limit
          return acc.executed entry.1 entry.2
        else return acc
      else return acc
    | _ => lift (.error .attributeError)) acc entry

def TrailingStop.stopAt (fields : TrailingStop F) (side : Side) (currentPrice : F) :
    Except PyException F := do
  let trail ← fields.trailAmount.toFloat
  if fields.trailPercentage then
    match side with
    | .buy => return currentPrice * (lit 1 + div trail (lit 100))
    | .sell => return currentPrice * (lit 1 - div trail (lit 100))
  else
    match side with
    | .buy => return currentPrice + trail
    | .sell => return currentPrice - trail

/-- The stop price at which a trail starts. -/
def TrailingStop.firstStop (fields : TrailingStop F) (side : Side) (currentPrice : F) :
    Except PyException F := do
  if fields.trailPercentage then fields.stopAt side currentPrice
  else
    let trail ← fields.trailAmount.toFloat
    let share ← divide trail currentPrice
    match side with
    | .buy => return currentPrice * (lit 1 + share)
    | .sell => return currentPrice * (lit 1 - share)

/-- Write the fields of a trailing stop. -/
def putTrail (r : Ref) (fields : TrailingStop F) : Call F Unit :=
  modify (·.updateOrder r fun o => { o with kind := .trailingStop fields })

/-- `TrailingStopOrder.update_stop_price`: the stop price afterwards. -/
def updateStopPrice (r : Ref) (side : Side) (fields : TrailingStop F) (currentPrice : F) : Call F F :=
  if fields.activated = false then do
    let started := { fields with
      activated := true, highestPrice := currentPrice, lowestPrice := currentPrice }
    putTrail r started
    let stopPrice ← lift (started.firstStop side currentPrice)
    putTrail r { started with stopPrice := stopPrice }
    return stopPrice
  else
    let moved := match side with
      | .buy => lt currentPrice fields.lowestPrice
      | .sell => lt fields.highestPrice currentPrice
    if moved then do
      let followed := match side with
        | .buy => { fields with lowestPrice := currentPrice }
        | .sell => { fields with highestPrice := currentPrice }
      putTrail r followed
      let stopPrice ← lift (followed.stopAt side currentPrice)
      putTrail r { followed with stopPrice := stopPrice }
      return stopPrice
    else pure fields.stopPrice

/-- The body of the loop in `_check_trailing_stop_orders`. -/
def checkTrailingStopOrder (rt : Runtime F) (m : MarketView F) (acc : Sweep)
    (entry : String × Ref) : Call F Sweep :=
  checkPending m (fun order currentPrice acc =>
    match order.kind with
    | .trailingStop fields => do
      let stopPrice ← updateStopPrice entry.2 order.side fields currentPrice
      let reached := match order.side with
        | .sell => le currentPrice stopPrice
        | .buy => le stopPrice currentPrice
      if reached then
        executeMarketOrder rt entry.2 currentPrice
        return acc.executed entry.1 entry.2
      else return acc
    | _ => lift (.error .attributeError)) acc entry

/-- The price at which a slice fills, if the market has reached it. -/
def icebergPrice (order : Order F) (currentPrice : F) : Except PyException (Option (Number F)) :=
  if order.price.isNull then .ok (some (.float currentPrice))
  else do
    let price ← order.price.number
    return if marketable order.side price currentPrice then some price else none

/-- The body of the loop in `_check_iceberg_orders`. -/
def checkIcebergOrder (rt : Runtime F) (m : MarketView F) (acc : Sweep) (entry : String × Ref) :
    Call F Sweep :=
  checkPending m (fun order currentPrice acc =>
    match order.kind with
    | .iceberg fields =>
      if lt (lit 0) fields.hiddenQuantity then do
        match ← lift (icebergPrice order currentPrice) with
        | none => return acc
        | some price =>
          let slice ← executeIcebergSlice rt entry.2 fields price
          if le slice.2 (lit 0) then
            modify (·.updateOrder entry.2 fun o =>
              { o with status := .filled, filledQuantity := o.quantity })
            resolveOco rt entry.2
            return (acc.1 ++ [slice.1], acc.2 ++ [entry.1])
          else return (acc.1 ++ [slice.1], acc.2)
      else pure acc
    | _ => lift (.error .attributeError)) acc entry

def checkBook (book : PendingBook) (check : Sweep → String × Ref → Call F Sweep)
    (filledOrders : List Ref) : Call F (List Ref) := do
  let x ← get
  let swept ← (x.pending book).entries.foldlM check (filledOrders, [])
  modify fun x => swept.2.foldl (fun x id => x.popPending book id) x
  return swept.1

def checkAdvancedOrders (rt : Runtime F) (m : MarketView F) : Call F (List Ref) := do
  let filled ← checkBook .limits (checkLimitOrder rt m) []
  let filled ← checkBook .stopLimits (checkStopLimitOrder rt m) filled
  let filled ← checkBook .trailingStops (checkTrailingStopOrder rt m) filled
  checkBook .icebergs (checkIcebergOrder rt m) filled

/-! ### Forced closes -/

def Position.updatePnl (position : Position F) (currentPrice : F) : Position F :=
  match position.side with
  | .buy => { position with
      unrealizedPnl := (currentPrice - position.entryPrice) * position.quantity }
  | .sell => { position with
      unrealizedPnl := (position.entryPrice - currentPrice) * position.quantity }

/-- `_compute_liq_prices`: the full and the partial liquidation price. -/
def SimulatedExchange.computeLiqPrices (x : SimulatedExchange F) (position : Position F) : F × F :=
  let share := div (lit 1) x.effectiveLeverage
  let ratio := x.partialLiquidationRatio
  let mmr := x.maintenanceMarginRate
  match position.side with
  | .buy => (Floats.round (position.entryPrice * (lit 1 - share + mmr)) 2,
      Floats.round (position.entryPrice * (lit 1 - share * ratio + mmr)) 2)
  | .sell => (Floats.round (position.entryPrice * (lit 1 + share - mmr)) 2,
      Floats.round (position.entryPrice * (lit 1 + share * ratio - mmr)) 2)

/-- `_is_full_liquidation` and `_is_partial_liquidation`. -/
def reachesLiquidation (side : Side) (currentPrice level : F) : Bool :=
  match side with
  | .buy => le currentPrice level
  | .sell => le level currentPrice

def checkSlTp (position : Position F) (currentPrice : F) :
    Except PyException (Option (CloseTrigger × F)) := do
  let stopLoss ← position.stopLoss.number
  let stopped := match position.side with
    | .buy => stopLoss.atLeast currentPrice
    | .sell => stopLoss.atMost currentPrice
  if stopLoss.positive && stopped then return some (.stopLoss, position.quantity)
  else
    let takeProfit ← position.takeProfit.number
    let taken := match position.side with
      | .buy => takeProfit.atMost currentPrice
      | .sell => takeProfit.atLeast currentPrice
    if takeProfit.positive && taken then return some (.takeProfit, position.quantity)
    else return none

def checkPositionTriggers (x : SimulatedExchange F) (position : Position F) (currentPrice : F) :
    Except PyException (Option (CloseTrigger × F)) :=
  let levels := x.computeLiqPrices position
  if reachesLiquidation position.side currentPrice levels.1 then
    .ok (some (.liquidation, position.quantity))
  else if reachesLiquidation position.side currentPrice levels.2 then
    .ok (some (.partialLiquidation, position.quantity * x.partialLiquidationRatio))
  else checkSlTp position currentPrice

/-- A position to close, why, and how much of it. -/
abbrev Closing (F : Type) := Position F × CloseTrigger × F

/-- One position of the first loop: mark it and note its trigger. -/
def markAndCheck (m : MarketView F) (acc : List (Closing F)) (entry : String × Position F) :
    Call F (List (Closing F)) := do
  let currentPrice ← lift (m.getPrice entry.2.symbol)
  let marked := entry.2.updatePnl currentPrice
  putPosition entry.1 marked
  let x ← get
  match ← lift (checkPositionTriggers x marked currentPrice) with
  | none => return acc
  | some trigger => return acc ++ [(marked, trigger)]

def SimulatedExchange.handleInsuranceFundDeficit (x : SimulatedExchange F) : SimulatedExchange F :=
  if lt x.balance (lit 0) then
    { x with insuranceFund := x.insuranceFund - (lit 0 - x.balance), balance := lit 0 }
  else x

def closeTriggeredPosition (rt : Runtime F) (m : MarketView F) (acc : List Ref)
    (closing : Closing F) : Call F (List Ref) := do
  let r ← submitOrder rt m {
    symbol := closing.1.symbol
    side := if closing.1.side = .buy then .sell else .buy
    quantity := closing.2.2
    forceClose := true }
  when (closing.2.1 = .liquidation) (modify (·.handleInsuranceFundDeficit))
  return acc ++ [r]

def checkStopLossTakeProfit (rt : Runtime F) (m : MarketView F) : Call F (List Ref) := do
  let x ← get
  let positionsToClose ← x.positions.entries.foldlM (markAndCheck m) []
  positionsToClose.foldlM (closeTriggeredPosition rt m) []

/-! ### Cancels -/

def SimulatedExchange.cancelOrder (x : SimulatedExchange F) (id : String) : SimulatedExchange F :=
  match PendingBook.all.findSome? fun book => ((x.pending book).find? id).map fun r => (book, r) with
  | none => x
  | some (book, r) => (x.popPending book id).setStatus r .cancelled

def SimulatedExchange.cancelAllOrders (x : SimulatedExchange F) (cancels : Order F → Bool) : SimulatedExchange F :=
  PendingBook.all.foldl (fun x book =>
    ((x.pending book).entries.filter fun entry => cancels (x.orders.get entry.2)).foldl
      (fun x entry => (x.popPending book entry.1).setStatus entry.2 .cancelled) x) x

end TradingSim.RawOrders
