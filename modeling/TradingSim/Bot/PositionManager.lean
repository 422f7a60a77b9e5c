import Mathlib.Data.Finset.Card
import TradingSim.Foundations.Dict
import TradingSim.Foundations.KeyedList
import TradingSim.Exchange.Models

/-!
# The bot's position manager

The bot keeps a local book of its positions. An order that was sent is registered as
pending under its symbol and becomes a position when the exchange reports it filled; account
broadcasts adopt positions the bot does not know and drop those the exchange no longer lists.
Every operation runs under one mutex, so each is one step here.
-/

namespace TradingSim.Bot

open Foundations
open Exchange (Side OrderStatus)

/-- The direction of a signal. -/
inductive Direction
  | long
  | short
  | neutral
  deriving DecidableEq

/-- A trading signal that the strategy loops act on. -/
structure Signal where
  symbol : String
  direction : Direction
  entryPrice : ℚ := 0
  stopLoss : ℚ := 0
  takeProfit : ℚ := 0
  timestamp : ℤ := 0
  deriving DecidableEq

/-- Whether the signal asks for a trade. -/
def Signal.isActionable (signal : Signal) : Bool := signal.direction ≠ .neutral

/-- The side of an actionable signal. -/
def Signal.side (signal : Signal) : Side :=
  match signal.direction with
  | .long => .buy
  | _ => .sell

/-- The `client_order_id` an order carries on the wire. -/
def Signal.clientOrderId (signal : Signal) : String :=
  "hft_" ++ signal.symbol ++ "_" ++ toString signal.timestamp

/-- An order that was sent and has not come back. -/
structure PendingOrder where
  symbol : String
  side : Side
  quantity : ℚ
  stopLoss : ℚ
  takeProfit : ℚ
  exchange : String
  deriving DecidableEq

/-- An open position of the local book. -/
structure Position where
  symbol : String
  exchange : String
  side : Side
  quantity : ℚ
  entryPrice : ℚ
  stopLoss : ℚ := 0
  takeProfit : ℚ := 0
  unrealizedPnl : ℚ := 0
  feesPaid : ℚ := 0
  fundingPaid : ℚ := 0
  deriving DecidableEq

def Position.isLong (pos : Position) : Bool := pos.side = .buy

/-- Mark a position at a price, net of fees and funding. -/
def Position.updatePnl (pos : Position) (currentPrice : ℚ) : Position :=
  { pos with
    unrealizedPnl :=
      (if pos.isLong then (currentPrice - pos.entryPrice) * pos.quantity
        else (pos.entryPrice - currentPrice) * pos.quantity) - (pos.feesPaid + pos.fundingPaid) }

/-- What a fill did to the local book. -/
inductive FillEffect
  | none
  | opened
  | increased
  | reduced
  | closed
  deriving DecidableEq

/-- The effect of a fill with what it realized and its notional. -/
structure FillResult where
  effect : FillEffect := .none
  realizedPnl : ℚ := 0
  notional : ℚ := 0
  deriving DecidableEq

/-- Why a close was triggered. -/
inductive TriggerReason
  | stopLoss
  | takeProfit
  deriving DecidableEq

/-- A position whose stop or target was hit. -/
structure CloseTrigger where
  symbol : String
  price : ℚ
  reason : TriggerReason
  deriving DecidableEq

/-- The local book. `closingSince` holds when the close order of a symbol was sent, in
nanoseconds; `syncMisses` how many broadcasts in a row did not list it. -/
structure PositionManager where
  realizedPnlTotal : ℚ := 0
  positions : List Position := []
  activeSymbols : Finset String := ∅
  pendingOrders : Dict String PendingOrder := Dict.empty
  closingSince : Dict String ℤ := Dict.empty
  syncMisses : Dict String ℕ := Dict.empty

def closeRetryNs : ℤ := 10 * 1000000000

def syncMissLimit : ℕ := 3

namespace PositionManager

/-- The first position of a symbol. -/
def position? (m : PositionManager) (symbol : String) : Option Position :=
  m.positions.find? fun pos => pos.symbol = symbol

/-- Replace the first position of a symbol. -/
def setPosition (m : PositionManager) (pos : Position) : PositionManager :=
  { m with positions := KeyedList.put Position.symbol (fun l b => l ++ [b]) m.positions pos }

/-- Register an order that was just handed to the exchange. -/
def addPendingOrder (m : PositionManager) (signal : Signal) (quantity : ℚ) (exchange : String) :
    PositionManager :=
  if signal.isActionable then
    { m with
      pendingOrders := m.pendingOrders.insert signal.symbol
        { symbol := signal.symbol
          side := signal.side
          quantity := quantity
          stopLoss := signal.stopLoss
          takeProfit := signal.takeProfit
          exchange := exchange }
      activeSymbols := insert signal.symbol m.activeSymbols }
  else m

/-- An order ended without a fill: release the symbol. -/
def cancelPending (m : PositionManager) (symbol : String) : PositionManager :=
  { m with
    pendingOrders := m.pendingOrders.erase symbol
    activeSymbols :=
      if (m.position? symbol).isSome then m.activeSymbols else m.activeSymbols.erase symbol }

/-- Release every symbol that has only a pending order. -/
def clearPendingOrders (m : PositionManager) : PositionManager :=
  { m with
    activeSymbols := m.activeSymbols.filter fun symbol =>
      ¬ (symbol ∈ m.pendingOrders.keys ∧ (m.position? symbol).isNone)
    pendingOrders := Dict.empty }

/-- The signed quantity of a symbol, zero when flat. -/
def positionQty (m : PositionManager) (symbol : String) : ℚ :=
  match m.position? symbol with
  | some pos => if pos.isLong then pos.quantity else -pos.quantity
  | none => 0

/-- Scale into a position at the weighted average entry. -/
def increase (m : PositionManager) (pos : Position) (filledQty price fee : ℚ) :
    FillResult × PositionManager :=
  let totalQty := pos.quantity + filledQty
  let pos := { pos with
    entryPrice := (pos.entryPrice * pos.quantity + price * filledQty) / totalQty
    quantity := totalQty
    feesPaid := pos.feesPaid + fee }
  ({ effect := .increased, notional := filledQty * price }, m.setPosition (pos.updatePnl price))

/-- Realize the closed slice of a position. -/
def reduce (m : PositionManager) (pos : Position) (filledQty price fee : ℚ) :
    FillResult × PositionManager :=
  let pnl :=
    (if pos.isLong then price - pos.entryPrice else pos.entryPrice - price) * filledQty - fee
  let pos := { pos with quantity := pos.quantity - filledQty }
  ({ effect := .reduced, realizedPnl := pnl, notional := filledQty * price },
    { m.setPosition (pos.updatePnl price) with
      closingSince := m.closingSince.erase pos.symbol
      realizedPnlTotal := m.realizedPnlTotal + pnl })

/-- Close a position in full. -/
def close (m : PositionManager) (pos : Position) (filledQty price fee : ℚ) :
    FillResult × PositionManager :=
  let pnl := (({ pos with feesPaid := pos.feesPaid + fee } : Position).updatePnl price).unrealizedPnl
  ({ effect := .closed, realizedPnl := pnl, notional := filledQty * price },
    { m with
      positions := KeyedList.remove Position.symbol m.positions pos.symbol
      closingSince := m.closingSince.erase pos.symbol
      realizedPnlTotal := m.realizedPnlTotal + pnl
      activeSymbols :=
        if (m.pendingOrders.find? pos.symbol).isNone then m.activeSymbols.erase pos.symbol
        else m.activeSymbols })

/-- Book the fill of a pending order as a new position. -/
def bookPending (m : PositionManager) (order : PendingOrder) (symbol : String) (side : Side)
    (filledQty price fee : ℚ) : FillResult × PositionManager :=
  let pos : Position :=
    { symbol := symbol
      exchange := order.exchange
      side := side
      quantity := filledQty
      entryPrice := price
      stopLoss := order.stopLoss
      takeProfit := order.takeProfit
      feesPaid := fee }
  ({ effect := .opened, notional := filledQty * price },
    { m with
      positions := m.positions ++ [pos.updatePnl price]
      pendingOrders := m.pendingOrders.erase symbol })

/-- Apply a fill to a position that is held. -/
def fillPosition (m : PositionManager) (pos : Position) (side : Side) (filledQty price fee : ℚ) :
    FillResult × PositionManager :=
  let (result, m) :=
    if pos.side = side then m.increase pos filledQty price fee
    else if filledQty + 1 / 10 ^ 12 < pos.quantity then m.reduce pos filledQty price fee
    else m.close pos filledQty price fee
  (result, { m with pendingOrders := m.pendingOrders.erase pos.symbol })

/-- Apply an executed quantity: to the position, to the pending order, or to nothing. -/
def applyExecution (m : PositionManager) (symbol : String) (side : Side) (filledQty price fee : ℚ) :
    FillResult × PositionManager :=
  match m.position? symbol with
  | some pos => m.fillPosition pos side filledQty price fee
  | none =>
    match m.pendingOrders.find? symbol with
    | some order => m.bookPending order symbol side filledQty price fee
    | none => ({}, m)

/-- Apply an exchange fill or acknowledgement to the local book. -/
def applyFill (m : PositionManager) (symbol : String) (side : Side) (filledQty price fee : ℚ)
    (status : OrderStatus) : FillResult × PositionManager :=
  match status with
  | .pending => ({}, m)
  | .filled =>
    if filledQty ≤ 0 ∨ price ≤ 0 then ({}, m) else m.applyExecution symbol side filledQty price fee
  | .rejected | .cancelled =>
    ({}, { m.cancelPending symbol with closingSince := m.closingSince.erase symbol })

/-- A position as an account broadcast lists it. -/
structure PositionReport where
  symbol : String
  side : Side
  quantity : ℚ
  entryPrice : ℚ
  stopLoss : ℚ := 0
  takeProfit : ℚ := 0
  deriving DecidableEq

/-- Adopt a position the exchange reports, or refresh the one that is tracked. -/
def syncPosition (m : PositionManager) (exchange : String) (report : PositionReport) : PositionManager :=
  if report.quantity ≤ 0 ∨ report.symbol = "" then m
  else
    match m.position? report.symbol with
    | some pos =>
      m.setPosition { pos with quantity := report.quantity, entryPrice := report.entryPrice }
    | none =>
      if (m.pendingOrders.find? report.symbol).isSome then m
      else
        { m with
          positions := m.positions ++
            [{ symbol := report.symbol
               exchange := exchange
               side := report.side
               quantity := report.quantity
               entryPrice := report.entryPrice
               stopLoss := report.stopLoss
               takeProfit := report.takeProfit }]
          activeSymbols := insert report.symbol m.activeSymbols }

/-- Keep or drop one position according to a broadcast's symbols. -/
def reconcileOne (exchangeSymbols : List String) (exchange : String)
    (acc : List String × PositionManager) (pos : Position) : List String × PositionManager :=
  let (removed, m) := acc
  if pos.exchange ≠ exchange ∨ pos.symbol ∈ exchangeSymbols then
    (removed, { m with positions := m.positions ++ [pos] })
  else
    let misses := (m.syncMisses.find? pos.symbol).getD 0 + 1
    if misses < syncMissLimit then
      (removed,
        { m with
          positions := m.positions ++ [pos]
          syncMisses := m.syncMisses.insert pos.symbol misses })
    else
      (removed ++ [pos.symbol],
        { m with
          syncMisses := m.syncMisses.erase pos.symbol
          closingSince := m.closingSince.erase pos.symbol
          activeSymbols := m.activeSymbols.erase pos.symbol })

/-- Drop the positions that an exchange has not listed for too many broadcasts in a row. -/
def reconcilePositions (m : PositionManager) (exchangeSymbols : List String) (exchange : String) :
    List String × PositionManager :=
  m.positions.foldl (reconcileOne exchangeSymbols exchange)
    ([], { m with positions := [], syncMisses := m.syncMisses.eraseAll exchangeSymbols })

/-- Close a position locally at a price. -/
def closePosition (m : PositionManager) (symbol : String) (exitPrice : ℚ) :
    Option Position × PositionManager :=
  match m.position? symbol with
  | some pos =>
    let pos := pos.updatePnl exitPrice
    (some pos,
      { m with
        realizedPnlTotal := m.realizedPnlTotal + pos.unrealizedPnl
        positions := KeyedList.remove Position.symbol m.positions symbol
        activeSymbols := m.activeSymbols.erase symbol })
  | none => (none, m)

/-- Mark every position whose symbol has a price. -/
def updateAllPnl (m : PositionManager) (prices : Dict String ℚ) : PositionManager :=
  { m with
    positions := m.positions.map fun pos =>
      match prices.find? pos.symbol with
      | some price => pos.updatePnl price
      | none => pos }

/-- The engaged symbols count against the position limit. -/
def positionCount (m : PositionManager) : ℕ := m.activeSymbols.card

/-- Whether a symbol is engaged by a position or a pending order. -/
def hasPosition (m : PositionManager) (symbol : String) : Bool := symbol ∈ m.activeSymbols

def trigger? (pos : Position) (price : ℚ) : Option CloseTrigger :=
  if pos.isLong then
    if 0 < pos.stopLoss ∧ price ≤ pos.stopLoss then some ⟨pos.symbol, price, .stopLoss⟩
    else if 0 < pos.takeProfit ∧ pos.takeProfit ≤ price then some ⟨pos.symbol, price, .takeProfit⟩
    else none
  else
    if 0 < pos.stopLoss ∧ pos.stopLoss ≤ price then some ⟨pos.symbol, price, .stopLoss⟩
    else if 0 < pos.takeProfit ∧ price ≤ pos.takeProfit then some ⟨pos.symbol, price, .takeProfit⟩
    else none

/-- The positions to close, without those whose close order is still in flight. -/
def checkSlTp (m : PositionManager) (prices : Dict String ℚ) (now : ℤ) : List CloseTrigger :=
  m.positions.filterMap fun pos =>
    match prices.find? pos.symbol, m.closingSince.find? pos.symbol with
    | none, _ => none
    | some price, some since => if now - since < closeRetryNs then none else trigger? pos price
    | some price, none => trigger? pos price

/-- Mark that a close order was sent. -/
def markClosing (m : PositionManager) (symbol : String) (now : ℤ) : PositionManager :=
  { m with closingSince := m.closingSince.insert symbol now }

/-- The unrealized profit over all positions. -/
def totalUnrealizedPnl (m : PositionManager) : ℚ := (m.positions.map Position.unrealizedPnl).sum

end PositionManager

end TradingSim.Bot
