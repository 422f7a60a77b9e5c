import TradingSim.Exchange.AdvancedOrders

/-!
# Forced closes

`check_stop_loss_take_profit` marks every position, collects the positions whose
liquidation, stop-loss or take-profit condition holds, and closes each with a forced
market order for the quantity it had when the list was made. A deficit left by a full
liquidation is covered by the insurance fund.
-/

namespace TradingSim.Exchange

open Foundations

/-- Why a position is closed by force. -/
inductive CloseTrigger
  | liquidation
  | partialLiquidation
  | stopLoss
  | takeProfit
  deriving DecidableEq, Repr

/-- The text recorded as the reason of a close. -/
def CloseTrigger.reason : CloseTrigger → String
  | .liquidation => "LIQUIDATION"
  | .partialLiquidation => "PARTIAL_LIQUIDATION"
  | .stopLoss => "STOP_LOSS"
  | .takeProfit => "TAKE_PROFIT"

namespace Ledger

/-- `update_pnl` on a position of the account. -/
def markPosition (l : Ledger) (r : Ref) (currentPrice : ℚ) : Ledger :=
  { l with objects := l.objects.modify r fun p => p.updatePnl currentPrice }

def handleInsuranceFundDeficit (l : Ledger) : Ledger :=
  if l.account.balance < 0 then
    { l with
      insuranceFund := l.insuranceFund - |l.account.balance|
      account := { l.account with balance := 0 } }
  else l

/-- Give the first listed trade of an order a reason. -/
def relabelFirst (orderId reason : String) : List ClosedTrade → List ClosedTrade
  | [] => []
  | trade :: rest =>
    if trade.orderId = orderId then { trade with reason := reason } :: rest
    else trade :: relabelFirst orderId reason rest

/-- Give the latest trade of an order the reason of its close. -/
def relabelTrade (l : Ledger) (orderId reason : String) : Ledger :=
  { l with account := { l.account with
      tradeHistory := (relabelFirst orderId reason l.account.tradeHistory.reverse).reverse } }

end Ledger

namespace SimulatedExchange

/-- `_compute_liq_prices`: the full and the partial liquidation price. -/
def computeLiqPrices (N : Numerics) (x : SimulatedExchange) (position : Position) (lev : ℚ) : ℚ × ℚ :=
  let mmr := x.maintenanceMarginRate
  let ratio := x.partialLiquidationRatio
  if position.isLong then
    (N.round (position.entryPrice * (1 - 1 / lev + mmr)) 2,
      N.round (position.entryPrice * (1 - 1 / lev * ratio + mmr)) 2)
  else
    (N.round (position.entryPrice * (1 + 1 / lev - mmr)) 2,
      N.round (position.entryPrice * (1 + 1 / lev * ratio - mmr)) 2)

/-- `_is_full_liquidation` and `_is_partial_liquidation`: the price has reached a level. -/
def reachesLiquidation (position : Position) (currentPrice level : ℚ) : Bool :=
  if position.isLong then currentPrice ≤ level else level ≤ currentPrice

/-- `_check_sl_tp`. A level that is not positive is not set. -/
def checkSlTp (position : Position) (currentPrice : ℚ) : Option (CloseTrigger × ℚ) :=
  if position.isLong then
    if 0 < position.stopLoss ∧ currentPrice ≤ position.stopLoss then
      some (.stopLoss, position.quantity)
    else if 0 < position.takeProfit ∧ position.takeProfit ≤ currentPrice then
      some (.takeProfit, position.quantity)
    else none
  else
    if 0 < position.stopLoss ∧ position.stopLoss ≤ currentPrice then
      some (.stopLoss, position.quantity)
    else if 0 < position.takeProfit ∧ currentPrice ≤ position.takeProfit then
      some (.takeProfit, position.quantity)
    else none

/-- `_check_position_triggers`: the trigger of a position and the quantity to close. -/
def checkPositionTriggers (N : Numerics) (x : SimulatedExchange) (position : Position)
    (currentPrice : ℚ) : Option (CloseTrigger × ℚ) :=
  let levels := x.computeLiqPrices N position x.ledger.account.effectiveLeverage
  if reachesLiquidation position currentPrice levels.1 then some (.liquidation, position.quantity)
  else if reachesLiquidation position currentPrice levels.2 then
    some (.partialLiquidation, position.quantity * x.partialLiquidationRatio)
  else checkSlTp position currentPrice

/-- One position of the first loop: mark it and note its trigger. -/
def markAndCheck (N : Numerics) (m : MarketView)
    (acc : SimulatedExchange × List (Ref × CloseTrigger × ℚ)) (r : Ref) :
    SimulatedExchange × List (Ref × CloseTrigger × ℚ) :=
  let currentPrice := m.price (acc.1.ledger.objects.get r).symbol
  let marked := { acc.1 with ledger := acc.1.ledger.markPosition r currentPrice }
  match marked.checkPositionTriggers N (marked.ledger.objects.get r) currentPrice with
  | none => (marked, acc.2)
  | some trigger => (marked, acc.2 ++ [(r, trigger)])

/-- Record why an order closed its position, on the order and on its trade. -/
def labelClose (x : SimulatedExchange) (r : Ref) (reason : String) : SimulatedExchange :=
  { x with
    orders := x.orders.update r fun o => { o with closeReason := reason }
    ledger := x.ledger.relabelTrade (x.orders.get r).id reason }

/-- `_close_triggered_position`. A market order always returns. -/
def closeTriggeredPosition (N : Numerics) (m : MarketView) (acc : SimulatedExchange × List Ref)
    (entry : Ref × CloseTrigger × ℚ) : SimulatedExchange × List Ref :=
  let position := acc.1.ledger.objects.get entry.1
  let submitted := acc.1.submitOrder N m {
    symbol := position.symbol
    side := if position.isLong then .sell else .buy
    quantity := entry.2.2
    forceClose := true }
  let covered :=
    if entry.2.1 = .liquidation then
      { submitted.1 with ledger := submitted.1.ledger.handleInsuranceFundDeficit }
    else submitted.1
  match submitted.2 with
  | none => (covered, acc.2)
  | some r =>
    if (covered.orders.get r).status = .filled then
      (covered.labelClose r entry.2.1.reason, acc.2 ++ [r])
    else (covered, acc.2 ++ [r])

theorem orders_closeTriggeredPosition (N : Numerics) (m : MarketView)
    (acc : SimulatedExchange × List Ref) (entry : Ref × CloseTrigger × ℚ) :
    ∃ req : OrderRequest, req.orderType = .market ∧
      ((closeTriggeredPosition N m acc entry).1.orders = (acc.1.submitOrder N m req).1.orders ∨
        ∃ r, (acc.1.submitOrder N m req).2 = some r ∧ (closeTriggeredPosition N m acc entry).1.orders =
            (acc.1.submitOrder N m req).1.orders.update r fun o =>
              { o with closeReason := entry.2.1.reason }) := by
  refine ⟨{ symbol := (acc.1.ledger.objects.get entry.1).symbol
            side := if (acc.1.ledger.objects.get entry.1).isLong then .sell else .buy
            quantity := entry.2.2
            forceClose := true }, rfl, ?_⟩
  unfold closeTriggeredPosition
  dsimp only
  generalize acc.1.submitOrder N m _ = submitted
  have hcovered : (if entry.2.1 = .liquidation then
      { submitted.1 with ledger := submitted.1.ledger.handleInsuranceFundDeficit }
    else submitted.1).orders = submitted.1.orders := by
    split
    · rfl
    · rfl
  generalize (if entry.2.1 = .liquidation then
      { submitted.1 with ledger := submitted.1.ledger.handleInsuranceFundDeficit }
    else submitted.1) = covered at hcovered ⊢
  cases submitted.2 with
  | none => exact Or.inl hcovered
  | some r =>
    dsimp only
    split
    · exact Or.inr ⟨r, rfl, congrArg (OrderTable.update · r _) hcovered⟩
    · exact Or.inl hcovered

def checkStopLossTakeProfit (N : Numerics) (m : MarketView) (x : SimulatedExchange) :
    SimulatedExchange × List Ref :=
  let marked := x.ledger.account.positions.foldl (markAndCheck N m) (x, [])
  marked.2.foldl (closeTriggeredPosition N m) (marked.1, [])

end SimulatedExchange

end TradingSim.Exchange
