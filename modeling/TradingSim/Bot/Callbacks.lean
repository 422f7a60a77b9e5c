import TradingSim.Bot.PositionManager

/-!
# The bot between its main loop and its receiver

The main loop sends an order and then registers it as pending; the receiver thread delivers order
updates, account broadcasts and cancellations to the callbacks. The two interleave freely, so a run
is any list of such events. Order updates of every exchange and every client reach the bot; the
callbacks see the symbol but neither the exchange nor the order.
-/

namespace TradingSim.Bot

open Foundations
open Exchange (Side OrderStatus)

/-- An order as the exchange reports it. -/
structure OrderUpdate where
  symbol : String
  exchange : String
  side : Side
  status : OrderStatus
  filledQuantity : ℚ := 0
  filledPrice : ℚ := 0
  fee : ℚ := 0
  clientOrderId : String := ""
  deriving DecidableEq

/-- One exchange's account in a broadcast; the positions may be missing. -/
structure AccountStatus where
  balance : ℚ := 0
  positions : Option (List PositionManager.PositionReport) := none

/-- The exposure and profit trackers of the risk manager. -/
structure RiskManager where
  dailyPnl : ℚ := 0
  totalExposure : ℚ := 0
  deriving DecidableEq

/-- Count a fill that opened or increased a position. -/
def RiskManager.onFill (r : RiskManager) (qty price fee : ℚ) : RiskManager :=
  { r with totalExposure := r.totalExposure + qty * price, dailyPnl := r.dailyPnl - fee }

/-- Count a fill that reduced or closed a position. -/
def RiskManager.reduceExposure (r : RiskManager) (notional : ℚ) : RiskManager :=
  { r with totalExposure := r.totalExposure - notional }

/-- The bot's state as far as its callbacks touch it. -/
structure BotContext where
  posMgr : PositionManager := {}
  riskMgr : RiskManager := {}
  balance : ℚ := 0
  ordersSent : ℕ := 0
  ordersFilled : ℕ := 0
  ordersCanceled : ℤ := 0
  ordersRejected : ℕ := 0

/-- What the main loop and the receiver thread do to the bot. -/
inductive BotEvent where
  /-- The main loop hands an order to the socket. -/
  | submitOrder (signal : Signal) (quantity : ℚ)
  /-- The main loop registers the order it has sent. -/
  | addPendingOrder (signal : Signal) (quantity : ℚ)
  /-- The main loop has sent a close order. -/
  | markClosing (symbol : String) (now : ℤ)
  /-- The main loop marks the book at the current prices. -/
  | updateAllPnl (prices : Dict String ℚ)
  /-- An order of a `fill` or `fills_batch` frame. -/
  | fill (o : OrderUpdate)
  /-- The balance of an account broadcast. -/
  | storeBalance (balance : ℚ)
  /-- One position of an account broadcast. -/
  | syncPosition (report : PositionManager.PositionReport)
  /-- The end of an account broadcast, with the symbols it listed. -/
  | reconcilePositions (exchangeSymbols : List String)
  /-- An `order_cancelled` frame. -/
  | orderCancelled (o : OrderUpdate)
  /-- An `orders_cancelled` frame with the orders it names. -/
  | ordersCancelled (orders : List OrderUpdate)

namespace BotContext

/-- Whether an update is for an order this bot sent. -/
def ownOrder (o : OrderUpdate) : Bool := "hft_".toList.isPrefixOf o.clientOrderId.toList

def countUpdate (x : BotContext) (o : OrderUpdate) : BotContext :=
  if ownOrder o then
    match o.status with
    | .filled => { x with ordersFilled := x.ordersFilled + 1 }
    | .cancelled => { x with ordersCanceled := x.ordersCanceled + 1 }
    | .rejected => { x with ordersRejected := x.ordersRejected + 1 }
    | .pending => x
  else x

/-- Feed what a fill did to the risk trackers. -/
def trackFill (r : RiskManager) (o : OrderUpdate) (result : FillResult) : RiskManager :=
  match result.effect with
  | .opened | .increased => r.onFill o.filledQuantity o.filledPrice o.fee
  | .reduced | .closed => r.reduceExposure result.notional
  | .none => r

/-- The `on_fill` callback. -/
def onFill (x : BotContext) (o : OrderUpdate) : BotContext :=
  let (result, posMgr) :=
    x.posMgr.applyFill o.symbol o.side o.filledQuantity o.filledPrice o.fee o.status
  let x := countUpdate { x with posMgr := posMgr } o
  if o.status = .filled then
    { x with
      riskMgr := trackFill x.riskMgr o result
      balance := x.balance + result.realizedPnl }
  else x

/-- The `on_account` callback: what it does to the bot, one locked operation at a time. -/
def onAccount (defaultExchange : String) (accounts : Dict String AccountStatus) : List BotEvent :=
  match accounts.find? defaultExchange with
  | none => []
  | some status =>
    (if 0 < status.balance then [.storeBalance status.balance] else []) ++
      match status.positions with
      | none => []
      | some reports =>
        reports.map .syncPosition ++
          [.reconcilePositions (reports.map PositionManager.PositionReport.symbol)]

/-- The `on_order_cancelled` callback: no symbol means all of them. -/
def onOrderCancelled (x : BotContext) (symbol : String) (count : ℤ) : BotContext :=
  { x with
    ordersCanceled := x.ordersCanceled + (if 0 < count then count else 1)
    posMgr := if symbol = "" then x.posMgr.clearPendingOrders else x.posMgr.cancelPending symbol }

/-- One step of the bot. Positions and pending orders are those of the default exchange; a
signal that asks for no trade is not sent. -/
def step (defaultExchange : String) (x : BotContext) : BotEvent → BotContext
  | .submitOrder signal _ =>
    if signal.isActionable then { x with ordersSent := x.ordersSent + 1 } else x
  | .addPendingOrder signal quantity =>
    { x with posMgr := x.posMgr.addPendingOrder signal quantity defaultExchange }
  | .markClosing symbol now => { x with posMgr := x.posMgr.markClosing symbol now }
  | .updateAllPnl prices => { x with posMgr := x.posMgr.updateAllPnl prices }
  | .fill o => x.onFill o
  | .storeBalance balance => { x with balance := balance }
  | .syncPosition report => { x with posMgr := x.posMgr.syncPosition defaultExchange report }
  | .reconcilePositions exchangeSymbols =>
    { x with posMgr := (x.posMgr.reconcilePositions exchangeSymbols defaultExchange).2 }
  | .orderCancelled o => x.onOrderCancelled o.symbol 1
  | .ordersCancelled orders => x.onOrderCancelled "" orders.length

end BotContext

end TradingSim.Bot
