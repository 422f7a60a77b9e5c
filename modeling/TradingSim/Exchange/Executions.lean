import TradingSim.Exchange.Operations

/-!
# Executions

An exchange executes orders in four places: a submission that fills at once, a resting order that is
filled in full, a trailing stop that fills at the market, and a slice of an iceberg. `Execution` is
what each of them books, and `Move` lists all that a call does to the order objects and the ledger.
-/

namespace TradingSim.Exchange

open Foundations

/-- What the price of an execution comes from: the market or the limit at a submission, the limit of a
resting order, or the market at a trailing stop. -/
inductive PriceBasis
  | market (midPrice : ℚ)
  | limit (price : ℚ)
  | resting (price : ℚ)
  | trailing (currentPrice : ℚ)
  deriving DecidableEq

/-- The average price of a fill whose part beyond the typical volume is filled at a worse price. -/
def averagePrice (fillPrice : ℚ) (side : Side) (quantity : ℚ) : ℚ :=
  if quantity ≤ typicalVolume then fillPrice
  else fillPrice * (1 + side.signed ((1 - typicalVolume / quantity) ^ 2 / 1000))

namespace PriceBasis

/-- The price that fee and margin are taken from. -/
def basePrice (slippageBps : ℚ) (side : Side) (quantity : ℚ) : PriceBasis → ℚ
  | market midPrice =>
    midPrice * (1 + side.signed (slippageBps / 10000 + if 50 < quantity then quantity / 500000 else 0))
  | limit price => price
  | resting price => price
  | trailing currentPrice => currentPrice * (1 + side.signed (slippageBps / 10000))

/-- The price that is rounded to be recorded. -/
def exactPrice (slippageBps : ℚ) (side : Side) (quantity : ℚ) (basis : PriceBasis) : ℚ :=
  match basis with
  | market _ => averagePrice (basis.basePrice slippageBps side quantity) side quantity
  | limit _ => averagePrice (basis.basePrice slippageBps side quantity) side quantity
  | resting price => price
  | trailing _ => basis.basePrice slippageBps side quantity

/-- A price that comes from the market is the one that the market quotes for a symbol. -/
def QuotedBy (m : MarketView) (symbol : String) : PriceBasis → Prop
  | market midPrice => midPrice = m.price symbol
  | limit _ => True
  | resting _ => True
  | trailing currentPrice => currentPrice = m.currentPrice symbol

end PriceBasis

/-- What an execution books: the order object it has filled, what its price came from, the fee
charged, the notional and the margin locked. -/
structure Execution where
  order : Order
  basis : PriceBasis
  fee : ℚ
  notional : ℚ
  margin : ℚ
  forceClose : Bool := false
  parentOrder : Option String := none

/-- The entry of an execution in the audit log. -/
def Execution.fill (e : Execution) : Fill where
  orderId := e.order.id
  parentOrder := e.parentOrder
  symbol := e.order.symbol
  side := e.order.side
  quantity := e.order.filledQuantity

/-- The order objects and the ledger of an exchange, with the settings that executions and forced
closes go by. -/
structure Desk where
  feePct : ℚ
  slippageBps : ℚ
  partialLiquidationRatio : ℚ
  objects : Heap Order
  orderCounter : ℕ
  ledger : Ledger

/-- The exchange without its books, groups and history. -/
def SimulatedExchange.desk (x : SimulatedExchange) : Desk where
  feePct := x.feePct
  slippageBps := x.slippageBps
  partialLiquidationRatio := x.partialLiquidationRatio
  objects := x.orders.objects
  orderCounter := x.orders.orderCounter
  ledger := x.ledger

/-- Whether class fields keep what an execution depends on. -/
def OrderKind.Keeps : OrderKind → OrderKind → Prop
  | .plain, .plain => True
  | .stopLimit fields, .stopLimit fields' => fields'.limitPrice = fields.limitPrice
  | .trailingStop _, .trailingStop _ => True
  | .iceberg fields, .iceberg fields' => fields' = fields
  | _, _ => False

theorem OrderKind.Keeps.refl (kind : OrderKind) : kind.Keeps kind := by
  cases kind with
  | plain => trivial
  | stopLimit _ => rfl
  | trailingStop _ => trivial
  | iceberg _ => rfl

/-- The terms of an order, which are written once. -/
structure Order.SameTerms (o o' : Order) : Prop where
  id : o'.id = o.id
  symbol : o'.symbol = o.symbol
  side : o'.side = o.side
  orderType : o'.orderType = o.orderType
  quantity : o'.quantity = o.quantity
  price : o'.price = o.price

/-- An order rewritten without an execution: it may have been turned away or cancelled if it was pending,
and has the same fills. -/
structure Order.Amends (o o' : Order) : Prop where
  terms : o.SameTerms o'
  filledPrice : o'.filledPrice = o.filledPrice
  filledQuantity : o'.filledQuantity = o.filledQuantity
  fee : o'.fee = o.fee
  kind : o.kind.Keeps o'.kind
  status : o'.status = o.status ∨ (o.status = .pending ∧ o'.status ≠ .filled)

/-- An order as a submission leaves it without an execution. An iceberg starts with all of its
quantity hidden but the visible part. -/
structure Order.Entered (o : Order) : Prop where
  status : o.status ≠ .filled
  filledPrice : o.filledPrice = 0
  iceberg : ∀ fields, o.kind = .iceberg fields → o.orderType = .iceberg ∧
    0 < fields.visibleQuantity ∧ fields.visibleQuantity < o.quantity ∧
    fields.hiddenQuantity = o.quantity - fields.visibleQuantity

/-- What the price of a submission that fills at once comes from. -/
def Order.FillsFrom (o : Order) : PriceBasis → Prop
  | .market _ => o.orderType = .limit → o.price = none
  | .limit price => o.orderType = .limit ∧ o.price = some price
  | _ => False

/-- What the price of a resting order comes from. -/
def Order.RestsAt (o : Order) : PriceBasis → Prop
  | .resting price => (o.orderType = .limit ∧ o.price = some price) ∨
    (o.orderType = .stopLimit ∧ ∃ fields, o.kind = .stopLimit fields ∧ fields.limitPrice = price)
  | .trailing _ => o.orderType = .trailingStop
  | _ => False

/-- An execution books what its price and its quantity come to. -/
structure Execution.Charged (N : Numerics) (d : Desk) (e : Execution) : Prop where
  status : e.order.status = .filled
  quantity : 0 < e.order.filledQuantity
  recorded : e.order.filledPrice =
    N.roundPrice (e.basis.exactPrice d.slippageBps e.order.side e.order.filledQuantity)
  notional : e.notional =
    e.basis.basePrice d.slippageBps e.order.side e.order.filledQuantity * e.order.filledQuantity
  fee : e.fee = e.notional * d.feePct / 100 ∨ e.fee = N.round (e.notional * d.feePct / 100) 4
  margin : e.margin = if e.forceClose then 0 else d.ledger.marginFor e.notional

namespace Desk

/-- Rewrite the object of an order. -/
def rewrite (d : Desk) (r : Ref) (o : Order) : Desk :=
  { d with objects := d.objects.modify r fun _ => o }

/-- Allocate the object of a submission and take its number. -/
def enter (d : Desk) (o : Order) : Desk :=
  { d with objects := d.objects.alloc o, orderCounter := d.orderCounter + 1 }

/-- Allocate the object of a slice. -/
def create (d : Desk) (o : Order) : Desk := { d with objects := d.objects.alloc o }

/-- Book an execution in the ledger. -/
def book (N : Numerics) (m : MarketView) (d : Desk) (e : Execution)
    (stopLoss takeProfit : Option ℚ) : Desk :=
  { d with
    ledger := d.ledger.bookFill N m e.order e.fee e.notional e.forceClose stopLoss takeProfit e.fill }

theorem get_rewrite {d : Desk} {r : Ref} (hlive : d.objects.Live r) (o : Order) (r' : Ref) :
    (d.rewrite r o).objects.get r' = if r' = r then o else d.objects.get r' := by
  rw [rewrite, Heap.get_modify _ hlive]

theorem fills_book (N : Numerics) (m : MarketView) (d : Desk) (e : Execution)
    (stopLoss takeProfit : Option ℚ) :
    (d.book N m e stopLoss takeProfit).ledger.fills = d.ledger.fills ++ [e.fill] :=
  Ledger.fills_bookFill _ _ _ _ _ _ _ _ _ _

theorem get_alloc_cases (d : Desk) (o : Order) {r : Ref} (hr : (d.create o).objects.Live r) :
    (r = d.objects.next ∧ (d.create o).objects.get r = o) ∨
      (d.objects.Live r ∧ (d.create o).objects.get r = d.objects.get r) := by
  rcases (Heap.live_alloc _ _ _).mp hr with hold | rfl
  · exact Or.inr ⟨hold, Heap.get_alloc_of_live _ _ hold⟩
  · exact Or.inl ⟨rfl, Heap.get_alloc_next _ _⟩

theorem forall_rewrite {d : Desk} {r : Ref} {o : Order} (P : Ref → Order → Prop)
    (h : ∀ r', d.objects.Live r' → P r' (d.objects.get r')) (hlive : d.objects.Live r) (ho : P r o) :
    ∀ r', (d.rewrite r o).objects.Live r' → P r' ((d.rewrite r o).objects.get r') := by
  intro r' hr'
  rw [get_rewrite hlive]
  by_cases heq : r' = r
  · rw [if_pos heq, heq]
    exact ho
  · rw [if_neg heq]
    exact h r' ((Heap.live_modify _ _ _ _).mp hr')

/-- What holds of every order and of one that is allocated. -/
theorem forall_create {d : Desk} {o : Order} (P : Ref → Order → Prop)
    (h : ∀ r, d.objects.Live r → P r (d.objects.get r)) (ho : ∀ r, P r o) :
    ∀ r, (d.create o).objects.Live r → P r ((d.create o).objects.get r) := by
  intro r hr
  rcases d.get_alloc_cases o hr with ⟨-, hnew⟩ | ⟨hold, hget⟩
  · rw [hnew]
    exact ho r
  · rw [hget]
    exact h r hold

end Desk

/-- Everything a call does to the order objects and the ledger at the market it sees, with what it
executes. -/
inductive Move (N : Numerics) (m : MarketView) : Desk → List Execution → Desk → Prop
  | enter (d : Desk) (o : Order) (hid : o.id = orderId d.orderCounter) (hentered : o.Entered) :
    Move N m d [] (d.enter o)
  | fillEntered (d : Desk) (e : Execution) (stopLoss takeProfit : Option ℚ)
      (hid : e.order.id = orderId d.orderCounter) (hcharged : e.Charged N d)
      (hparent : e.parentOrder = none) (hbook : e.order.orderType.book = none ∨ e.order.orderType = .limit)
      (hkind : e.order.kind = .plain) (hbasis : e.order.FillsFrom e.basis)
      (hquoted : e.basis.QuotedBy m e.order.symbol) :
    Move N m d [e] ((d.enter e.order).book N m e stopLoss takeProfit)
  | amend (d : Desk) (r : Ref) (o : Order) (hlive : d.objects.Live r)
      (hamends : (d.objects.get r).Amends o) :
    Move N m d [] (d.rewrite r o)
  | execute (d : Desk) (r : Ref) (e : Execution) (hlive : d.objects.Live r)
      (hpending : (d.objects.get r).status = .pending)
      (hterms : (d.objects.get r).SameTerms e.order)
      (hkind : e.order.kind = (d.objects.get r).kind) (hcharged : e.Charged N d)
      (hparent : e.parentOrder = none) (hbasis : (d.objects.get r).RestsAt e.basis)
      (hquoted : e.basis.QuotedBy m e.order.symbol) :
    Move N m d [e] ((d.rewrite r e.order).book N m e none none)
  | slice (d : Desk) (r : Ref) (fields : IcebergFields) (e : Execution)
      (hlive : d.objects.Live r) (hpending : (d.objects.get r).status = .pending)
      (htype : (d.objects.get r).orderType = .iceberg)
      (hkind : (d.objects.get r).kind = .iceberg fields) (hhidden : 0 < fields.hiddenQuantity)
      (hid : ∀ n, e.order.id ≠ orderId n) (hplain : e.order.kind = .plain)
      (horderType : e.order.orderType = .market) (hside : e.order.side = (d.objects.get r).side)
      (hcharged : e.Charged N d) (hparent : e.parentOrder = some (d.objects.get r).id)
      (hquantity : e.order.filledQuantity = fields.sliceQuantity) (price : ℚ)
      (hbasis : e.basis = .resting price)
      (hprice : ∀ limit, (d.objects.get r).price = some limit → price = limit) :
    Move N m d [e] (((d.rewrite r { d.objects.get r with
      kind := .iceberg fields.afterSlice }).create e.order).book N m e none none)
  | refuseSlice (d : Desk) (o : Order) (hid : ∀ n, o.id ≠ orderId n) (hentered : o.Entered)
      (hplain : o.kind = .plain) (horderType : o.orderType = .market) :
    Move N m d [] (d.create o)
  | finish (d : Desk) (r : Ref) (fields : IcebergFields) (hlive : d.objects.Live r)
      (hpending : (d.objects.get r).status = .pending)
      (htype : (d.objects.get r).orderType = .iceberg)
      (hkind : (d.objects.get r).kind = .iceberg fields) (hhidden : fields.hiddenQuantity ≤ 0) :
    Move N m d [] (d.rewrite r { d.objects.get r with
      status := .filled
      filledQuantity := (d.objects.get r).quantity })
  | money (d : Desk) (l : Ledger) (hstep : Ledger.LedgerStep N d.ledger l)
      (hfills : l.fills = d.ledger.fills) :
    Move N m d [] { d with ledger := l }

/-- A move in some call. -/
def AnyMove (N : Numerics) (d : Desk) (es : List Execution) (d' : Desk) : Prop := ∃ m, Move N m d es d'

theorem Move.any {N : Numerics} {m : MarketView} {d d' : Desk} {es : List Execution}
    (h : Trace (Move N m) d es d') : Trace (AnyMove N) d es d' := h.mono fun _ _ _ hmove => ⟨m, hmove⟩

namespace SimulatedExchange

/-- The exchange has come from one moment to another in a call, by executing some orders. -/
def Executes (N : Numerics) (m : MarketView) (x : SimulatedExchange) (es : List Execution)
    (x' : SimulatedExchange) : Prop := Trace (Move N m) x.desk es x'.desk

/-- The exchange has come from one moment to another over any calls. -/
def ExecutesOver (N : Numerics) (x : SimulatedExchange) (es : List Execution) (x' : SimulatedExchange) :
    Prop := Trace (AnyMove N) x.desk es x'.desk

end SimulatedExchange

end TradingSim.Exchange
