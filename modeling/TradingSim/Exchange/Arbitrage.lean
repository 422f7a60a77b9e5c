import TradingSim.Exchange.Runs

/-!
# Automatic arbitrage

The server executes an arbitrage opportunity with two market orders, one on each exchange. Each is
checked on its own account, so one leg can fill where the other one is rejected. The server then
marks the opportunity as failed and returns: the leg that filled stays, and no client is told of it.
-/

namespace TradingSim.Exchange

open Foundations

/-- The market order of a client who names nothing but symbol, side and quantity. -/
def marketRequest (symbol : String) (side : Side) (quantity : ℚ) : OrderRequest where
  symbol := symbol
  side := side
  quantity := quantity

/-- An arbitrage opportunity as the detector reports it. -/
structure ArbitrageOpportunity where
  symbol : String
  buyExchange : String
  sellExchange : String
  maxQuantity : ℚ
  deriving DecidableEq

namespace ArbitrageOpportunity

variable (opp : ArbitrageOpportunity)

/-- The quantity of both legs. -/
def execQty : ℚ := min opp.maxQuantity 1

def leg (side : Side) : OrderRequest := marketRequest opp.symbol side opp.execQty

end ArbitrageOpportunity

/-- What executing an opportunity leaves: the exchanges, the orders of the legs, the status of the
opportunity, and the fills broadcast. -/
structure ArbitrageResult where
  exchanges : Dict String SimulatedExchange
  orders : List Order := []
  closedAs : Option String := none
  broadcast : List Order := []

/-- Submit one leg on its exchange: the exchanges afterwards, and the order if there is one. -/
def submitLeg (N : Numerics) (markets : String → MarketView)
    (exchanges : Dict String SimulatedExchange) (id : String) (req : OrderRequest) :
    Dict String SimulatedExchange × Option Order :=
  match exchanges.find? id with
  | none => (exchanges, none)
  | some x =>
    let placed := x.submitOrder N (markets id) req
    (exchanges.insert id placed.1, placed.2.map placed.1.orders.get)

def executeArbitrage (N : Numerics) (markets : String → MarketView)
    (exchanges : Dict String SimulatedExchange) (opp : ArbitrageOpportunity) : ArbitrageResult :=
  if (exchanges.find? opp.buyExchange).isSome ∧ (exchanges.find? opp.sellExchange).isSome then
    let buy := submitLeg N markets exchanges opp.buyExchange (opp.leg .buy)
    let sell := submitLeg N markets buy.1 opp.sellExchange (opp.leg .sell)
    match buy.2, sell.2 with
    | some buyOrder, some sellOrder =>
      if buyOrder.status = .filled ∧ sellOrder.status = .filled then
        { exchanges := sell.1
          orders := [buyOrder, sellOrder]
          closedAs := some "AUTO_EXECUTED"
          broadcast := [buyOrder, sellOrder].filter fun o => o.status = .filled }
      else
        { exchanges := sell.1
          orders := [buyOrder, sellOrder]
          closedAs := some "FAILED" }
    -- a call that raises
    | _, _ => { exchanges := sell.1 }
  else { exchanges := exchanges }

namespace Ledger

/-- What an execution closes a position beyond and is too small to open one for. -/
def leftOver (l : Ledger) (symbol : String) (side : Side) (quantity : ℚ) : ℚ :=
  match l.positionsBySymbol.find? symbol with
  | some existing =>
    let position := l.objects.get existing
    let residual := quantity - position.quantity
    if position.side ≠ side ∧ 0 < residual ∧ residual ≤ residualTolerance then residual else 0
  | none => 0

/-- A fill leaves unbooked what is left over of it. -/
theorem discarded_updatePosition (N : Numerics) (m : MarketView) (l : Ledger) (order : Order)
    (stopLoss takeProfit : Option ℚ) (margin : ℚ) :
    (l.updatePosition N m order stopLoss takeProfit margin).discarded order.symbol =
      l.discarded order.symbol +
        order.side.signed (l.leftOver order.symbol order.side order.filledQuantity) := by
  have hnothing : ∀ l' : Ledger, l'.dropped = l.dropped →
      l'.discarded order.symbol = l.discarded order.symbol + order.side.signed 0 := by
    intro l' hsame
    rw [Side.signed_zero, add_zero, discarded, discarded, hsame]
  unfold updatePosition leftOver
  cases hfind : l.positionsBySymbol.find? order.symbol with
  | none => exact hnothing _ rfl
  | some existing =>
    simp only
    by_cases hside : (l.objects.get existing).side = order.side
    · rw [if_neg (not_not.mpr hside), if_neg fun h => h.1 hside]
      exact hnothing _ rfl
    · rw [if_pos hside]
      set position := l.objects.get existing with hposition
      unfold closePosition
      simp only [← hposition]
      by_cases hwhole : position.quantity ≤ order.filledQuantity
      · rw [min_eq_right hwhole, if_pos le_rfl]
        by_cases hopens : residualTolerance < order.filledQuantity - position.quantity
        · rw [if_pos hopens, if_neg fun h => absurd h.2.2 (not_le.mpr hopens)]
          exact hnothing _ rfl
        · rw [if_neg hopens]
          by_cases hleft : 0 < order.filledQuantity - position.quantity
          · rw [if_pos hleft, if_pos ⟨hside, hleft, not_lt.mp hopens⟩]
            simp [discarded, settleClose, removePosition, Residual.signedQuantity]
          · rw [if_neg hleft, if_neg fun h => hleft h.2.1]
            exact hnothing _ rfl
      · have hpart := not_le.mp hwhole
        rw [min_eq_left hpart.le, if_neg (not_le.mpr hpart),
          if_neg fun h => absurd h.2.1 (not_lt.mpr (sub_nonpos.mpr hpart.le))]
        exact hnothing _ rfl

theorem signedPosition_bookFill {N : Numerics} {m : MarketView} {l : Ledger} (h : l.Valid)
    {order : Order} (hfilled : 0 < order.filledQuantity) (fee notional : ℚ)
    (stopLoss takeProfit : Option ℚ) (fill : Fill) :
    (l.bookFill N m order fee notional false stopLoss takeProfit fill).signedPosition order.symbol =
      l.signedPosition order.symbol + order.side.signed order.filledQuantity -
        order.side.signed (l.leftOver order.symbol order.side order.filledQuantity) := by
  set locked := (l.chargeFee fee).lockMargin notional with hlocked
  have hvalid : locked.Valid := ⟨h.live, h.nodup, h.indexed, h.positive, h.small⟩
  set margin := (l.chargeFee fee).marginFor notional
  have hmoves := (hvalid.updatePosition (N := N) (m := m) hfilled stopLoss takeProfit margin).position
    order.symbol
  have hleft := discarded_updatePosition N m locked order stopLoss takeProfit margin
  rw [if_pos rfl, hleft] at hmoves
  change (locked.updatePosition N m order stopLoss takeProfit margin).signedPosition _ = _
  have hposition : locked.signedPosition order.symbol = l.signedPosition order.symbol := rfl
  have hover : locked.leftOver order.symbol order.side order.filledQuantity =
      l.leftOver order.symbol order.side order.filledQuantity := rfl
  rw [hposition, hover, Order.signedFilled] at hmoves
  linarith

end Ledger

namespace SimulatedExchange

variable {N : Numerics} {m : MarketView} {x : SimulatedExchange} {symbol : String} {side : Side}
  {quantity : ℚ}

/-- A market order is filled: its quantity is allowed, there is a price, and the account covers
margin, fee and position size. -/
def FillsMarket (N : Numerics) (m : MarketView) (x : SimulatedExchange) (symbol : String)
    (side : Side) (quantity : ℚ) : Prop :=
  0 < quantity ∧ quantity ≤ OrderRequest.maxQuantity ∧ m.price symbol ≠ 0 ∧
    let notional := x.calculateFillPrice (m.price symbol) side quantity * quantity
    x.checkMarginAndSize N quantity notional (notional * x.feePct / 100) (m.price symbol) false = none

instance : Decidable (x.FillsMarket N m symbol side quantity) :=
  inferInstanceAs (Decidable (_ ∧ _ ∧ _ ∧ _))

/-- What becomes of an order whose leg is filled, or is not. -/
def LegOutcome (x x' : SimulatedExchange) (symbol : String) (side : Side) (quantity : ℚ)
    (filled : Prop) (order : Order) : Prop :=
  (filled → order.status = .filled ∧ order.filledQuantity = quantity ∧
    ∀ opening, x.ledger.Sound opening → x'.ledger.signedPosition symbol =
      x.ledger.signedPosition symbol + side.signed quantity -
        side.signed (x.ledger.leftOver symbol side quantity)) ∧
  (¬ filled → order.status = .rejected ∧ x'.ledger = x.ledger)

/-- The order of a market request. -/
def marketOrder (x : SimulatedExchange) (symbol : String) (side : Side) (quantity : ℚ) : Order :=
  (marketRequest symbol side quantity).plainOrder (orderId x.orders.orderCounter) x.exchangeId

theorem screen_marketRequest (N : Numerics) (id exchange symbol : String) (side : Side) (quantity : ℚ) :
    (0 < quantity ∧ quantity ≤ OrderRequest.maxQuantity →
      (marketRequest symbol side quantity).screen N id exchange =
        .ok ((marketRequest symbol side quantity).plainOrder id exchange)) ∧
    (¬ (0 < quantity ∧ quantity ≤ OrderRequest.maxQuantity) →
      ∃ reason, (marketRequest symbol side quantity).screen N id exchange =
        .error ((marketRequest symbol side quantity).plainOrder id exchange, reason)) := by
  constructor
  · rintro ⟨hpositive, hmax⟩
    have hle : ¬ (marketRequest symbol side quantity).quantity ≤ 0 := not_le.mpr hpositive
    have hlt : ¬ OrderRequest.maxQuantity < (marketRequest symbol side quantity).quantity :=
      not_lt.mpr hmax
    rw [OrderRequest.screen, if_neg hle, if_neg hlt]
    rfl
  · intro hnot
    by_cases hle : quantity ≤ 0
    · exact ⟨_, if_pos hle⟩
    · have hlt : OrderRequest.maxQuantity < quantity := by
        by_contra hge
        exact hnot ⟨not_le.mp hle, not_lt.mp hge⟩
      exact ⟨_, (if_neg hle).trans (if_pos hlt)⟩

theorem status_conclude_issue (t : OrderTable) (o : Order) (status : OrderStatus) (reason : String) :
    (((t.issue o).conclude t.objects.next status reason).get t.objects.next).status = status := by
  have hlive : (t.issue o).objects.Live t.objects.next :=
    (Heap.live_alloc _ _ _).mpr (Or.inr rfl)
  simp only [OrderTable.conclude, OrderTable.record, OrderTable.update, OrderTable.setStatus,
    OrderTable.get]
  rw [Heap.get_modify_self _ ((Heap.live_modify _ _ _ _).mpr hlive), Heap.get_modify_self _ hlive]

theorem joinGroup_issue (t : OrderTable) {o : Order} (hgroup : o.ocoGroupId = none) :
    (t.issue o).joinGroup t.objects.next = t.issue o ∧ (t.issue o).resolved t.objects.next = false := by
  have hget : (t.issue o).get t.objects.next = o := Heap.get_alloc_next _ _
  constructor
  · rw [OrderTable.joinGroup, hget, hgroup]
  · rw [OrderTable.resolved, hget, hgroup]
    rfl

/-- Recording a filled order without a group leaves it alone. -/
theorem get_resolveOco {t : OrderTable} {r : Ref} (hgroup : (t.get r).ocoGroupId = none) :
    ((t.record r).resolveOco r).get r = t.get r := by
  have hget : (t.record r).get r = t.get r := rfl
  rw [OrderTable.resolveOco, hget, hgroup]
  rfl

theorem legOutcome_placeOrder (N : Numerics) (m : MarketView) (x : SimulatedExchange)
    (symbol : String) (side : Side) (hallowed : 0 < quantity ∧ quantity ≤ OrderRequest.maxQuantity) :
    ∃ placed : SimulatedExchange,
      (x.withOrders (x.orders.issue (x.marketOrder symbol side quantity))).placeOrder N m
        x.orders.objects.next (marketRequest symbol side quantity) = some placed ∧
      LegOutcome x placed symbol side quantity (x.FillsMarket N m symbol side quantity)
        (placed.orders.get x.orders.objects.next) := by
  set o := x.marketOrder symbol side quantity with ho
  set r := x.orders.objects.next with hr
  set t := x.orders.issue o with ht
  have hrejects : ∀ reason, ¬ x.FillsMarket N m symbol side quantity →
      LegOutcome x ((x.withOrders t).withOrders (t.conclude r .rejected reason)) symbol side quantity
        (x.FillsMarket N m symbol side quantity) ((t.conclude r .rejected reason).get r) := by
    intro reason hnot
    exact ⟨fun h => absurd h hnot, fun _ => ⟨status_conclude_issue _ _ _ _, rfl⟩⟩
  by_cases hprice : m.price symbol = 0
  · refine ⟨_, if_pos hprice, hrejects _ fun h => h.2.2.1 hprice⟩
  · refine ⟨(x.withOrders t).fillMarketOrder N m r (marketRequest symbol side quantity)
      (x.calculateFillPrice (m.price symbol) side quantity) (m.price symbol), if_neg hprice, ?_⟩
    set notional := x.calculateFillPrice (m.price symbol) side quantity * quantity with hnotional
    have hcheck : (x.withOrders t).checkMarginAndSize N quantity notional
        (notional * x.feePct / 100) (m.price symbol) false =
      x.checkMarginAndSize N quantity notional (notional * x.feePct / 100) (m.price symbol)
        false := rfl
    unfold fillMarketOrder
    simp only [marketRequest, reduceCtorEq, if_false, ← hnotional]
    cases hverdict : x.checkMarginAndSize N quantity notional (notional * x.feePct / 100)
        (m.price symbol) false with
    | some reason =>
      have hsome := hcheck.trans hverdict
      rw [show (x.withOrders t).feePct = x.feePct from rfl, hsome]
      refine hrejects reason fun h => ?_
      rw [h.2.2.2] at hverdict
      cases hverdict
    | none =>
      have hnone := hcheck.trans hverdict
      rw [show (x.withOrders t).feePct = x.feePct from rfl, hnone]
      have hfills : x.FillsMarket N m symbol side quantity :=
        ⟨hallowed.1, hallowed.2, hprice, hverdict⟩
      refine ⟨fun _ => ?_, fun hnot => absurd hfills hnot⟩
      have hlive : t.objects.Live r := (Heap.live_alloc _ _ _).mpr (Or.inr rfl)
      have hnew : t.get r = o := Heap.get_alloc_next _ _
      obtain ⟨price, slippage, hbooked⟩ := get_filledAtOnce (N := N) hlive
        (x.calculateFillPrice (m.price symbol) side quantity) (m.price symbol)
        (notional * x.feePct / 100) side quantity
      rw [hnew] at hbooked
      set filled := (t.setStatus r .filled).update r fun order =>
        applyPartialFill N (x.calculateFillPrice (m.price symbol) side quantity) (m.price symbol) side
          quantity { order with
            filledPrice := N.roundPrice (x.calculateFillPrice (m.price symbol) side quantity)
            filledQuantity := quantity
            fee := N.round (notional * x.feePct / 100) 4
            slippage := N.round
              (x.calculateFillPrice (m.price symbol) side quantity - m.price symbol) 4 }
      have hkept : ((filled.record r).resolveOco r).get r = filled.get r :=
        get_resolveOco (by rw [hbooked]; rfl)
      have hsymbol : (filled.get r).symbol = symbol := by rw [hbooked]; rfl
      have hside : (filled.get r).side = side := by rw [hbooked]; rfl
      have hquantity : (filled.get r).filledQuantity = quantity := by rw [hbooked]
      refine ⟨?_, (congrArg Order.filledQuantity hkept).trans hquantity, fun opening hsound => ?_⟩
      · exact (congrArg Order.status hkept).trans (by rw [hbooked])
      · have hpositive : 0 < (filled.get r).filledQuantity := by
          rw [hquantity]
          exact hallowed.1
        have hmoved := Ledger.signedPosition_bookFill (N := N) (m := m) hsound.valid hpositive
          (notional * x.feePct / 100) notional none none
          { orderId := (filled.get r).id, symbol := symbol, side := side, quantity := quantity }
        rw [hsymbol, hside, hquantity] at hmoved
        exact hmoved

/-- A market order is filled or rejected, and changes the account only if it is filled. -/
theorem legOutcome_submitOrder (N : Numerics) (m : MarketView) (x : SimulatedExchange)
    (symbol : String) (side : Side) (quantity : ℚ) :
    ∃ x', x.submitOrder N m (marketRequest symbol side quantity) = (x', some x.orders.objects.next) ∧
      LegOutcome x x' symbol side quantity (x.FillsMarket N m symbol side quantity)
        (x'.orders.get x.orders.objects.next) := by
  have hscreen := screen_marketRequest N (orderId x.orders.orderCounter) x.exchangeId symbol side
    quantity
  by_cases hallowed : 0 < quantity ∧ quantity ≤ OrderRequest.maxQuantity
  · obtain ⟨placed, hplaced, houtcome⟩ :=
      legOutcome_placeOrder N m x symbol side hallowed
    have hjoin := joinGroup_issue x.orders (o := x.marketOrder symbol side quantity) rfl
    refine ⟨placed.accept x.orders.objects.next, ?_, houtcome⟩
    simp only [submitOrder, hscreen.1 hallowed]
    rw [show ((x.orders.issue ((marketRequest symbol side quantity).plainOrder
      (orderId x.orders.orderCounter) x.exchangeId)).joinGroup x.orders.objects.next) =
        x.orders.issue (x.marketOrder symbol side quantity) from hjoin.1]
    rw [show (x.withOrders (x.orders.issue (x.marketOrder symbol side quantity))).orders.resolved
      x.orders.objects.next = false from hjoin.2, hplaced]
    rfl
  · obtain ⟨reason, hreason⟩ := hscreen.2 hallowed
    refine ⟨(x.withOrders ((x.orders.issue (x.marketOrder symbol side quantity)).conclude
      x.orders.objects.next .rejected reason)).accept x.orders.objects.next, ?_, ?_, ?_⟩
    · simp only [submitOrder, hreason]
      rfl
    · exact fun h => absurd ⟨h.1, h.2.1⟩ hallowed
    · exact fun _ => ⟨status_conclude_issue _ _ _ _, rfl⟩

end SimulatedExchange

/-- An exchange that some calls have led to. -/
def Reachable (N : Numerics) (x : SimulatedExchange) : Prop :=
  ∃ exchangeId currency feePct slippageBps initialBalance leverage calls,
    x = SimulatedExchange.after N exchangeId currency feePct slippageBps initialBalance leverage calls

namespace ArbitrageOpportunity

variable (opp : ArbitrageOpportunity)

/-- The signed position of the symbol on an exchange. -/
def positionOn (exchanges : Dict String SimulatedExchange) (id : String) : ℚ :=
  ((exchanges.find? id).map fun x => x.ledger.signedPosition opp.symbol).getD 0

/-- The net signed position of the symbol on the two exchanges. -/
def netPosition (exchanges : Dict String SimulatedExchange) : ℚ :=
  opp.positionOn exchanges opp.buyExchange + opp.positionOn exchanges opp.sellExchange

/-- Both legs filled the same quantity, or no account changed; the net position is the same; and every
fill is broadcast. -/
structure Atomic (before : Dict String SimulatedExchange) (result : ArbitrageResult) : Prop where
  both_or_none : (∃ buyOrder sellOrder, result.orders = [buyOrder, sellOrder] ∧
      buyOrder.status = .filled ∧ sellOrder.status = .filled ∧
      buyOrder.filledQuantity = sellOrder.filledQuantity) ∨
    ∀ id, (result.exchanges.find? id).map (·.ledger) = (before.find? id).map (·.ledger)
  netPosition : opp.netPosition result.exchanges = opp.netPosition before
  announced : ∀ o ∈ result.orders, o.status = .filled → o ∈ result.broadcast

/-- One leg is filled exactly if the other one is, and then both leave over the same of their
quantity. -/
def LegsAgree (N : Numerics) (markets : String → MarketView)
    (exchanges : Dict String SimulatedExchange) : Prop :=
  ∀ buyEx ∈ exchanges.find? opp.buyExchange, ∀ sellEx ∈ exchanges.find? opp.sellExchange,
    let buys := buyEx.FillsMarket N (markets opp.buyExchange) opp.symbol .buy opp.execQty
    let sells := sellEx.FillsMarket N (markets opp.sellExchange) opp.symbol .sell opp.execQty
    (buys ↔ sells) ∧ (buys → buyEx.ledger.leftOver opp.symbol .buy opp.execQty =
      sellEx.ledger.leftOver opp.symbol .sell opp.execQty)

instance (N : Numerics) (markets : String → MarketView)
    (exchanges : Dict String SimulatedExchange) : Decidable (opp.LegsAgree N markets exchanges) :=
  inferInstanceAs (Decidable (∀ buyEx ∈ _, ∀ sellEx ∈ _, (_ ↔ _) ∧ (_ → _)))

variable {opp} {N : Numerics} {markets : String → MarketView}
  {exchanges : Dict String SimulatedExchange} {buyEx sellEx : SimulatedExchange}

/-- Both legs are submitted, each on its exchange. -/
theorem executeArbitrage_eq (N : Numerics) (markets : String → MarketView) (hdistinct : opp.buyExchange ≠ opp.sellExchange)
    (hbuy : exchanges.find? opp.buyExchange = some buyEx)
    (hsell : exchanges.find? opp.sellExchange = some sellEx) :
    ∃ (buyEx' sellEx' : SimulatedExchange) (buyOrder sellOrder : Order),
      SimulatedExchange.LegOutcome buyEx buyEx' opp.symbol .buy opp.execQty
        (buyEx.FillsMarket N (markets opp.buyExchange) opp.symbol .buy opp.execQty) buyOrder ∧
      SimulatedExchange.LegOutcome sellEx sellEx' opp.symbol .sell opp.execQty
        (sellEx.FillsMarket N (markets opp.sellExchange) opp.symbol .sell opp.execQty) sellOrder ∧
      executeArbitrage N markets exchanges opp =
        if buyOrder.status = .filled ∧ sellOrder.status = .filled then
          { exchanges := (exchanges.insert opp.buyExchange buyEx').insert opp.sellExchange sellEx'
            orders := [buyOrder, sellOrder]
            closedAs := some "AUTO_EXECUTED"
            broadcast := [buyOrder, sellOrder].filter fun o => o.status = .filled }
        else
          { exchanges := (exchanges.insert opp.buyExchange buyEx').insert opp.sellExchange sellEx'
            orders := [buyOrder, sellOrder]
            closedAs := some "FAILED" } := by
  obtain ⟨buyEx', hsubmitBuy, hbuyOutcome⟩ := SimulatedExchange.legOutcome_submitOrder N
    (markets opp.buyExchange) buyEx opp.symbol .buy opp.execQty
  obtain ⟨sellEx', hsubmitSell, hsellOutcome⟩ := SimulatedExchange.legOutcome_submitOrder N
    (markets opp.sellExchange) sellEx opp.symbol .sell opp.execQty
  refine ⟨buyEx', sellEx', _, _, hbuyOutcome, hsellOutcome, ?_⟩
  have hstill : (exchanges.insert opp.buyExchange buyEx').find? opp.sellExchange = some sellEx := by
    rw [Dict.find?_insert_of_ne _ hdistinct.symm, hsell]
  simp only [executeArbitrage, submitLeg, leg, hbuy, hsell, hsubmitBuy, hsubmitSell, hstill,
    Option.isSome_some, and_self, if_true, Option.map_some]

theorem netPosition_insert (hdistinct : opp.buyExchange ≠ opp.sellExchange)
    (exchanges : Dict String SimulatedExchange) (buyEx' sellEx' : SimulatedExchange) :
    opp.netPosition ((exchanges.insert opp.buyExchange buyEx').insert opp.sellExchange sellEx') =
      buyEx'.ledger.signedPosition opp.symbol + sellEx'.ledger.signedPosition opp.symbol := by
  rw [ArbitrageOpportunity.netPosition, positionOn, positionOn,
    Dict.find?_insert_of_ne _ hdistinct, Dict.find?_insert_self, Dict.find?_insert_self]
  rfl

/-- An account that was replaced by an equal one has not changed. -/
theorem ledger_insert {ledgers : Dict String SimulatedExchange} {id : String}
    {x x' : SimulatedExchange} (hfind : ledgers.find? id = some x) (hsame : x'.ledger = x.ledger)
    (id' : String) :
    ((ledgers.insert id x').find? id').map (·.ledger) = (ledgers.find? id').map (·.ledger) := by
  rw [Dict.find?_insert]
  split_ifs with hid
  · rw [hid, hfind, Option.map_some, Option.map_some, hsame]
  · rfl

/-- The server announces fills only if both legs fill, and leaves the accounts as the legs left
them. -/
theorem atomic_outcome_iff {buyEx' sellEx' : SimulatedExchange} {buyOrder sellOrder : Order}
    {buys sells : Prop} {openingBuy openingSell : ℚ} (hdistinct : opp.buyExchange ≠ opp.sellExchange)
    (hbuy : exchanges.find? opp.buyExchange = some buyEx)
    (hsell : exchanges.find? opp.sellExchange = some sellEx)
    (hsoundBuy : buyEx.ledger.Sound openingBuy) (hsoundSell : sellEx.ledger.Sound openingSell)
    (hbuyOutcome : buyEx.LegOutcome buyEx' opp.symbol .buy opp.execQty buys buyOrder)
    (hsellOutcome : sellEx.LegOutcome sellEx' opp.symbol .sell opp.execQty sells sellOrder) :
    opp.Atomic exchanges (if buyOrder.status = .filled ∧ sellOrder.status = .filled then
          { exchanges := (exchanges.insert opp.buyExchange buyEx').insert opp.sellExchange sellEx'
            orders := [buyOrder, sellOrder]
            closedAs := some "AUTO_EXECUTED"
            broadcast := [buyOrder, sellOrder].filter fun o => o.status = .filled }
        else
          { exchanges := (exchanges.insert opp.buyExchange buyEx').insert opp.sellExchange sellEx'
            orders := [buyOrder, sellOrder]
            closedAs := some "FAILED" }) ↔
      (buys ↔ sells) ∧ (buys → buyEx.ledger.leftOver opp.symbol .buy opp.execQty =
        sellEx.ledger.leftOver opp.symbol .sell opp.execQty) := by
  have hnet := netPosition_insert hdistinct exchanges buyEx' sellEx'
  have hnetBefore : opp.netPosition exchanges =
      buyEx.ledger.signedPosition opp.symbol + sellEx.ledger.signedPosition opp.symbol := by
    rw [ArbitrageOpportunity.netPosition, positionOn, positionOn, hbuy, hsell]
    rfl
  by_cases hbuys : buys
  · obtain ⟨hbuyFilled, hbuyQty, hbuyMoved⟩ := hbuyOutcome.1 hbuys
    by_cases hsells : sells
    · -- both legs fill: only what they leave over can change the net position
      obtain ⟨hsellFilled, hsellQty, hsellMoved⟩ := hsellOutcome.1 hsells
      rw [if_pos ⟨hbuyFilled, hsellFilled⟩]
      have hbuyPosition := hbuyMoved openingBuy hsoundBuy
      have hsellPosition := hsellMoved openingSell hsoundSell
      simp only [Side.signed] at hbuyPosition hsellPosition
      constructor
      · intro hatomic
        have hsame := hatomic.netPosition
        exact ⟨⟨fun _ => hsells, fun _ => hbuys⟩, fun _ => by linarith⟩
      · rintro ⟨-, hleft⟩
        refine ⟨Or.inl ⟨buyOrder, sellOrder, rfl, hbuyFilled, hsellFilled,
          hbuyQty.trans hsellQty.symm⟩, ?_, ?_⟩
        · linarith [hleft hbuys]
        · intro o ho hfilled
          exact List.mem_filter.mpr ⟨ho, decide_eq_true hfilled⟩
    · -- the buyer's fill is not announced
      obtain ⟨hrejected, -⟩ := hsellOutcome.2 hsells
      rw [if_neg fun h => by rw [hrejected] at h; cases h.2]
      constructor
      · intro hatomic
        exact absurd (hatomic.announced buyOrder List.mem_cons_self hbuyFilled) List.not_mem_nil
      · intro h
        exact absurd (h.1.mp hbuys) hsells
  · obtain ⟨hrejected, hbuySame⟩ := hbuyOutcome.2 hbuys
    rw [if_neg fun h => by rw [hrejected] at h; cases h.1]
    by_cases hsells : sells
    · -- the seller's fill is not announced
      obtain ⟨hsellFilled, -⟩ := hsellOutcome.1 hsells
      constructor
      · intro hatomic
        exact absurd (hatomic.announced sellOrder (List.mem_cons_of_mem _ List.mem_cons_self)
          hsellFilled) List.not_mem_nil
      · intro h
        exact absurd (h.1.mpr hsells) hbuys
    · -- neither leg fills
      obtain ⟨hsellRejected, hsellSame⟩ := hsellOutcome.2 hsells
      have hstill : (exchanges.insert opp.buyExchange buyEx').find? opp.sellExchange =
          some sellEx := by
        rw [Dict.find?_insert_of_ne _ hdistinct.symm, hsell]
      constructor
      · intro _
        exact ⟨⟨fun h => absurd h hbuys, fun h => absurd h hsells⟩, fun h => absurd h hbuys⟩
      · intro _
        refine ⟨Or.inr fun id => ?_, ?_, ?_⟩
        · exact (ledger_insert hstill hsellSame id).trans (ledger_insert hbuy hbuySame id)
        · rw [hnet, hnetBefore, hbuySame, hsellSame]
        · intro o ho hfilled
          rcases List.mem_cons.mp ho with rfl | ho
          · rw [hrejected] at hfilled
            cases hfilled
          · obtain rfl := List.mem_singleton.mp ho
            rw [hsellRejected] at hfilled
            cases hfilled

/-- An opportunity on two reachable exchanges is executed atomically exactly if its legs agree. -/
theorem atomic_iff_legsAgree (N : Numerics) (markets : String → MarketView)
    (exchanges : Dict String SimulatedExchange) (opp : ArbitrageOpportunity)
    (hdistinct : opp.buyExchange ≠ opp.sellExchange)
    (hreachable : ∀ id, ∀ x ∈ exchanges.find? id, Reachable N x) :
    opp.Atomic exchanges (executeArbitrage N markets exchanges opp) ↔
      opp.LegsAgree N markets exchanges := by
  have hsound : ∀ id, ∀ x ∈ exchanges.find? id, ∃ opening, x.ledger.Sound opening := by
    intro id x hx
    obtain ⟨exchangeId, currency, feePct, slippageBps, initialBalance, leverage, calls, rfl⟩ :=
      hreachable id x hx
    exact ⟨_, (SimulatedExchange.sound_after N exchangeId currency feePct slippageBps initialBalance
      leverage calls).ledger⟩
  by_cases hboth : (exchanges.find? opp.buyExchange).isSome ∧
      (exchanges.find? opp.sellExchange).isSome
  · obtain ⟨buyEx, hbuy⟩ := Option.isSome_iff_exists.mp hboth.1
    obtain ⟨sellEx, hsell⟩ := Option.isSome_iff_exists.mp hboth.2
    obtain ⟨openingBuy, hsoundBuy⟩ := hsound _ _ hbuy
    obtain ⟨openingSell, hsoundSell⟩ := hsound _ _ hsell
    obtain ⟨buyEx', sellEx', buyOrder, sellOrder, hbuyOutcome, hsellOutcome, hresult⟩ :=
      executeArbitrage_eq N markets hdistinct hbuy hsell
    rw [hresult, atomic_outcome_iff hdistinct hbuy hsell hsoundBuy hsoundSell hbuyOutcome
      hsellOutcome]
    constructor
    · intro h buyEx₁ hbuy₁ sellEx₁ hsell₁
      obtain rfl := Option.some.inj (hbuy.symm.trans hbuy₁)
      obtain rfl := Option.some.inj (hsell.symm.trans hsell₁)
      exact h
    · intro h
      exact h buyEx hbuy sellEx hsell
  · rw [executeArbitrage, if_neg hboth]
    constructor
    · intro _ buyEx hbuy sellEx hsell
      exact absurd ⟨Option.isSome_of_mem hbuy, Option.isSome_of_mem hsell⟩ hboth
    · intro _
      exact ⟨Or.inr fun _ => rfl, rfl, fun o ho => absurd ho List.not_mem_nil⟩

/-- Two new exchanges with their opening balances. -/
def twoVenues (buyBalance sellBalance : ℚ) : Dict String SimulatedExchange :=
  (Dict.empty.insert "binance" (.init "binance" (1 / 10) 5 buyBalance)).insert "bybit"
    (.init "bybit" (1 / 10) 5 sellBalance)

/-- One exchange asks 100 where the other one bids 102. -/
def spread (id : String) : MarketView :=
  SimulatedExchange.flatMarket (if id = "binance" then 100 else 102)

/-- Buy one coin where it is cheap and sell it where it is dear. -/
def oneCoin : ArbitrageOpportunity where
  symbol := "BTC"
  buyExchange := "binance"
  sellExchange := "bybit"
  maxQuantity := 1

/-- The seller cannot pay the margin: the buyer's fill stays, and nobody is told. -/
theorem not_atomic_poorSeller :
    let result := executeArbitrage .decimal spread (twoVenues 10000 5) oneCoin
    result.orders.map Order.status = [.filled, .rejected] ∧ result.broadcast = [] ∧
      oneCoin.netPosition (twoVenues 10000 5) = 0 ∧ oneCoin.netPosition result.exchanges = 1 ∧
      ¬ oneCoin.Atomic (twoVenues 10000 5) result := by
  refine ⟨by decide +kernel, by decide +kernel, by decide +kernel, by decide +kernel, fun h => ?_⟩
  exact absurd h.netPosition (by decide +kernel)

theorem reachable_twoVenues (buyBalance sellBalance : ℚ) (id : String) :
    ∀ x ∈ (twoVenues buyBalance sellBalance).find? id, Reachable .decimal x := by
  intro x hx
  rw [twoVenues, Option.mem_def, Dict.find?_insert, Dict.find?_insert] at hx
  split_ifs at hx
  · exact ⟨"bybit", "USDT", 1 / 10, 5, sellBalance, 10, [], (Option.some.inj hx).symm⟩
  · exact ⟨"binance", "USDT", 1 / 10, 5, buyBalance, 10, [], (Option.some.inj hx).symm⟩
  · cases hx

/-- Both legs fill. -/
theorem atomic_richVenues : oneCoin.Atomic (twoVenues 10000 10000)
      (executeArbitrage .decimal spread (twoVenues 10000 10000) oneCoin) :=
  (atomic_iff_legsAgree .decimal spread (twoVenues 10000 10000) oneCoin (by decide)
    (reachable_twoVenues 10000 10000)).mpr (by decide +kernel)

end ArbitrageOpportunity

end TradingSim.Exchange
