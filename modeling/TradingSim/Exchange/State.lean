import TradingSim.Exchange.Models
import TradingSim.Foundations.Dict

/-!
# The state of a simulated exchange

The money side (account, insurance fund, position index) and the order side (order objects, pending
books, OCO groups, history) are separate records. Objects that several containers share live on a
heap.

Of the audit log only the `ORDER_FILLED` entries are kept. Three fields are bookkeeping that the
source does not have: the residuals that closing a position leaves unbooked, the funding payments,
and the orders that `submit_order` has returned.
-/

namespace TradingSim.Exchange

open Foundations

/-- An `ORDER_FILLED` entry of the audit log. -/
structure Fill where
  orderId : String
  parentOrder : Option String := none
  symbol : String
  side : Side
  quantity : ℚ
  deriving DecidableEq

/-- The order a fill executes: the iceberg for a slice, the filled order itself otherwise. -/
def Fill.owner (fill : Fill) : String := fill.parentOrder.getD fill.orderId

/-- The executed quantity, negative for a sale. -/
def Fill.signedQuantity (fill : Fill) : ℚ := fill.side.signed fill.quantity

/-- A residual that closing a position found too small to open a position for. -/
structure Residual where
  symbol : String
  side : Side
  quantity : ℚ
  margin : ℚ
  deriving DecidableEq

/-- The quantity left unbooked, negative for a sale. -/
def Residual.signedQuantity (residual : Residual) : ℚ := residual.side.signed residual.quantity

/-- The money side of the exchange. -/
structure Ledger where
  account : Account
  insuranceFund : ℚ := 0
  positionsBySymbol : Dict String Ref := Dict.empty
  objects : Heap Position := Heap.empty
  fills : List Fill := []
  dropped : List Residual := []
  funding : List ℚ := []

/-- The four dictionaries of resting orders. -/
inductive PendingBook
  | limits
  | stopLimits
  | trailingStops
  | icebergs
  deriving DecidableEq, Repr

/-- The books in the order in which clients' cancels search them. -/
def PendingBook.all : List PendingBook := [.limits, .stopLimits, .trailingStops, .icebergs]

/-- The book in which orders of a type rest. -/
def OrderType.book : OrderType → Option PendingBook
  | .limit => some .limits
  | .stopLimit => some .stopLimits
  | .trailingStop => some .trailingStops
  | .iceberg => some .icebergs
  | .market => none
  | .oco => none

/-- `_CountingOrderHistory`: the window of recorded orders and the cumulative counters. -/
structure OrderHistory where
  entries : List Ref := []
  submitted : ℕ := 0
  filled : ℕ := 0
  rejected : ℕ := 0
  cancelled : ℕ := 0
  deriving DecidableEq

/-- The number of orders the history keeps. -/
def historyWindow : ℕ := 10000

def OrderHistory.countStatus (history : OrderHistory) : OrderStatus → OrderHistory
  | .pending => history
  | .filled => { history with filled := history.filled + 1 }
  | .rejected => { history with rejected := history.rejected + 1 }
  | .cancelled => { history with cancelled := history.cancelled + 1 }

/-- The order side of the exchange. -/
structure OrderTable where
  objects : Heap Order := Heap.empty
  /-- The orders whose status the history listens to. -/
  listened : List Ref := []
  orderCounter : ℕ := 0
  pending : PendingBook → Dict String Ref := fun _ => Dict.empty
  ocoGroups : Dict String OCOGroup := Dict.empty
  history : OrderHistory := {}
  accepted : List Ref := []

namespace OrderTable

/-- The order object behind a reference. -/
def get (t : OrderTable) (r : Ref) : Order := t.objects.get r

/-- Write fields of an order other than its status. -/
def update (t : OrderTable) (r : Ref) (f : Order → Order) : OrderTable :=
  { t with objects := t.objects.modify r f }

/-- Write an order's status, reporting a change to the history once it listens. -/
def setStatus (t : OrderTable) (r : Ref) (status : OrderStatus) : OrderTable :=
  { t with
    objects := t.objects.modify r fun o => { o with status := status }
    history :=
      if r ∈ t.listened ∧ (t.get r).status ≠ status then t.history.countStatus status
      else t.history }

/-- `_CountingOrderHistory.append`. -/
def record (t : OrderTable) (r : Ref) : OrderTable :=
  let counted := { t.history with submitted := t.history.submitted + 1 }.countStatus (t.get r).status
  let entries := counted.entries ++ [r]
  { t with
    listened := r :: t.listened
    history := { counted with entries := entries.drop (entries.length - historyWindow) } }

/-- Create an order object; its reference is `t.objects.next`. -/
def create (t : OrderTable) (o : Order) : OrderTable := { t with objects := t.objects.alloc o }

/-- Put an order into a pending book under a key. -/
def addPending (t : OrderTable) (book : PendingBook) (key : String) (r : Ref) : OrderTable :=
  { t with pending := Function.update t.pending book ((t.pending book).insert key r) }

/-- Remove a key from a pending book. -/
def popPending (t : OrderTable) (book : PendingBook) (key : String) : OrderTable :=
  { t with pending := Function.update t.pending book ((t.pending book).erase key) }

/-- Note that `submit_order` has returned the order. -/
def accept (t : OrderTable) (r : Ref) : OrderTable := { t with accepted := t.accepted ++ [r] }

end OrderTable

/-- What a call on the exchange sees of the market and of the clock. -/
structure MarketView where
  symbols : List String
  /-- `get_price`; zero where there is no price. -/
  price : String → ℚ
  /-- `get_order_book`; `none` stands for a call that raises. -/
  book : String → Option OrderBook
  /-- `time.time()`. -/
  now : ℚ

structure SimulatedExchange where
  exchangeId : String
  feePct : ℚ
  slippageBps : ℚ
  partialLiquidationRatio : ℚ := 1 / 2
  maintenanceMarginRate : ℚ := 5 / 1000
  ledger : Ledger
  orders : OrderTable := {}

def SimulatedExchange.init (exchangeId : String) (feePct slippageBps : ℚ)
    (initialBalance : ℚ := 10000) (leverage : ℚ := 10) (currency : String := "USDT") :
    SimulatedExchange where
  exchangeId := exchangeId
  feePct := feePct
  slippageBps := slippageBps
  ledger := {
    account := {
      exchange := exchangeId
      balance := initialBalance
      currency := currency
      leverage := leverage } }

/-- The positions of the account as values, in the account's order. -/
def Ledger.openPositions (l : Ledger) : List Position := l.account.positions.map l.objects.get

end TradingSim.Exchange
