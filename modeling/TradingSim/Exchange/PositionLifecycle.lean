import TradingSim.Exchange.State

/-!
# Opening, averaging and closing positions

The position lifecycle of the exchange and the ledger movements of a fill: the fee, the
margin lock, and the update of the position with the filled order.
-/

namespace TradingSim.Exchange

open Foundations

namespace Ledger

/-- Residual quantities up to this size open no position. -/
def residualTolerance : ℚ := 1 / 10 ^ 12

def computeClosePnl (existing : Position) (order : Order) (closeQty : ℚ) : ℚ :=
  if existing.isLong then (order.filledPrice - existing.entryPrice) * closeQty
  else (existing.entryPrice - order.filledPrice) * closeQty

/-- Enter a new position object into the account and the index. -/
def addPosition (l : Ledger) (position : Position) : Ledger :=
  { l with
    objects := l.objects.alloc position
    account := { l.account with positions := l.account.positions ++ [l.objects.next] }
    positionsBySymbol := l.positionsBySymbol.insert position.symbol l.objects.next }

def openNewPosition (m : MarketView) (l : Ledger) (order : Order) (stopLoss takeProfit : Option ℚ)
    (margin : ℚ) : Ledger :=
  let stopLoss := stopLoss.getD
    (match order.side with
    | .buy => order.filledPrice * (98 / 100)
    | .sell => order.filledPrice * (102 / 100))
  let takeProfit := takeProfit.getD
    (match order.side with
    | .buy => order.filledPrice * (104 / 100)
    | .sell => order.filledPrice * (96 / 100))
  l.addPosition {
    symbol := order.symbol
    exchange := l.account.exchange
    side := order.side
    quantity := order.filledQuantity
    entryPrice := order.filledPrice
    stopLoss := stopLoss
    takeProfit := takeProfit
    openedAt := truncate m.now
    margin := margin }

def openResidualPosition (m : MarketView) (l : Ledger) (order : Order) (quantity margin : ℚ) : Ledger :=
  l.addPosition {
    symbol := order.symbol
    exchange := l.account.exchange
    side := order.side
    quantity := quantity
    entryPrice := order.filledPrice
    stopLoss :=
      match order.side with
      | .buy => order.filledPrice * (98 / 100)
      | .sell => order.filledPrice * (102 / 100)
    takeProfit :=
      match order.side with
      | .buy => order.filledPrice * (104 / 100)
      | .sell => order.filledPrice * (96 / 100)
    openedAt := truncate m.now
    margin := margin }

/-- Release margin and book profit and trade for the closed part of a position. -/
def settleClose (N : Numerics) (l : Ledger) (existing : Ref) (order : Order)
    (closeQty orderMargin : ℚ) : Ledger :=
  let position := l.objects.get existing
  let pnl := computeClosePnl position order closeQty
  let releasedMargin := position.margin * (closeQty / position.quantity)
  let closeMarginShare := orderMargin * (closeQty / order.filledQuantity)
  { l with
    objects := l.objects.modify existing fun p => { p with margin := p.margin - releasedMargin }
    account := { l.account with
      balance := l.account.balance + (releasedMargin + closeMarginShare + pnl)
      totalPnl := l.account.totalPnl + pnl
      totalTrades := l.account.totalTrades + 1
      winningTrades := l.account.winningTrades + (if 0 < pnl then 1 else 0)
      tradeHistory := l.account.tradeHistory ++ [{
        symbol := position.symbol
        exchange := l.account.exchange
        side := position.side
        quantity := closeQty
        entryPrice := position.entryPrice
        exitPrice := order.filledPrice
        pnl := N.round pnl 2
        fee := order.fee
        reason := "MANUAL"
        openedAt := position.openedAt
        orderId := order.id }] } }

/-- Take a closed position out of the account and the index. The account's list drops the
first position whose fields all equal those of the closed one. -/
def removePosition (l : Ledger) (existing : Ref) (symbol : String) : Ledger :=
  { l with
    account := { l.account with
      positions := l.account.positions.eraseP fun r =>
        l.objects.get r = l.objects.get existing }
    positionsBySymbol := l.positionsBySymbol.erase symbol }

/-- `_close_position`: close the position as far as the order reaches, and open a position
on the other side with what is left of the order. -/
def closePosition (N : Numerics) (m : MarketView) (l : Ledger) (existing : Ref) (order : Order)
    (orderMargin : ℚ) : Ledger :=
  let position := l.objects.get existing
  let closeQty := min order.filledQuantity position.quantity
  let settled := l.settleClose N existing order closeQty orderMargin
  if position.quantity ≤ closeQty then
    let removed := settled.removePosition existing order.symbol
    let residualQty := order.filledQuantity - closeQty
    let residualMargin := orderMargin - orderMargin * (closeQty / order.filledQuantity)
    if residualTolerance < residualQty then
      removed.openResidualPosition m order residualQty residualMargin
    else if 0 < residualQty then
      -- nothing is opened and the margin share of the residual is not returned
      { removed with dropped := removed.dropped ++ [{
          symbol := order.symbol
          side := order.side
          quantity := residualQty
          margin := residualMargin }] }
    else removed
  else
    { settled with
      objects := settled.objects.modify existing fun p => { p with quantity := p.quantity - closeQty } }

/-- Add a fill to a position on the same side at the weighted average entry price. -/
def increasePosition (l : Ledger) (existing : Ref) (order : Order) (orderMargin : ℚ) : Ledger :=
  { l with
    objects := l.objects.modify existing fun p =>
      let totalQty := p.quantity + order.filledQuantity
      { p with
        quantity := totalQty
        entryPrice :=
          (p.entryPrice * p.quantity + order.filledPrice * order.filledQuantity) / totalQty
        margin := p.margin + orderMargin } }

def updatePosition (N : Numerics) (m : MarketView) (l : Ledger) (order : Order)
    (stopLoss takeProfit : Option ℚ) (orderMargin : ℚ) : Ledger :=
  match l.positionsBySymbol.find? order.symbol with
  | some existing =>
    if (l.objects.get existing).side ≠ order.side then
      l.closePosition N m existing order orderMargin
    else l.increasePosition existing order orderMargin
  | none => l.openNewPosition m order stopLoss takeProfit orderMargin

def chargeFee (l : Ledger) (fee : ℚ) : Ledger :=
  { l with account := { l.account with
      balance := l.account.balance - fee
      totalFees := l.account.totalFees + fee } }

/-- The initial margin of a notional. -/
def marginFor (l : Ledger) (notional : ℚ) : ℚ := notional / l.account.effectiveLeverage

/-- `_lock_margin`; the locked amount is `marginFor`. -/
def lockMargin (l : Ledger) (notional : ℚ) : Ledger :=
  { l with account := { l.account with balance := l.account.balance - l.marginFor notional } }

/-- Write an `ORDER_FILLED` entry to the audit log. -/
def logFilled (l : Ledger) (fill : Fill) : Ledger := { l with fills := l.fills ++ [fill] }

/-- One position of the loop in `charge_funding`: it pays or receives its notional times the
rate. -/
def fundPosition (m : MarketView) (fundingRate : ℚ) (l : Ledger) (r : Ref) : Ledger :=
  let position := l.objects.get r
  let notional := m.price position.symbol * position.quantity
  let payment := if position.isLong then -notional * fundingRate else notional * fundingRate
  { l with
    account := { l.account with balance := l.account.balance + payment }
    funding := l.funding ++ [payment] }

end Ledger

def SimulatedExchange.chargeFunding (m : MarketView) (x : SimulatedExchange) (fundingRate : ℚ) :
    SimulatedExchange :=
  { x with ledger := x.ledger.account.positions.foldl (Ledger.fundPosition m fundingRate) x.ledger }

end TradingSim.Exchange
