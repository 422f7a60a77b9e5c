import TradingSim.Exchange.RunTraces
import TradingSim.Exchange.Runs

/-!
# Triggered positions and their closes

A sweep for liquidations, stop losses and take profits notes the triggered positions and then submits
a market order for each. Such an order passes every check but the one on its quantity: a position
that has grown beyond the largest quantity of an order stays open.
-/

namespace TradingSim.Exchange

open Foundations

/-! ### One close in the ledger -/

namespace Ledger

/-- A position has been closed by a quantity of at most its own, and a trade tells of it. -/
structure ClosedBy (l l' : Ledger) (r : Ref) (quantity : ℚ) (trade : ClosedTrade) : Prop where
  valid : l'.Valid
  only : ∀ r' ∈ l'.account.positions, r' ∈ l.account.positions
  others : ∀ r' ∈ l.account.positions, r' ≠ r →
    r' ∈ l'.account.positions ∧ l'.objects.get r' = l.objects.get r'
  whole : quantity = (l.objects.get r).quantity → r ∉ l'.account.positions
  part : quantity < (l.objects.get r).quantity → r ∈ l'.account.positions ∧
    (l'.objects.get r).symbol = (l.objects.get r).symbol ∧
    (l'.objects.get r).quantity = (l.objects.get r).quantity - quantity
  trades : l'.account.tradeHistory = l.account.tradeHistory ++ [trade]
  symbol : trade.symbol = (l.objects.get r).symbol
  closed : trade.quantity = quantity
  leverage : l'.account.leverage = l.account.leverage

/-- Nothing of a ledger has changed that triggers and closes depend on. -/
structure SamePositions (l l' : Ledger) : Prop where
  positions : l'.account.positions = l.account.positions
  index : l'.positionsBySymbol = l.positionsBySymbol
  objects : l'.objects = l.objects
  dropped : l'.dropped = l.dropped
  leverage : l'.account.leverage = l.account.leverage

variable {N : Numerics} {m : MarketView} {l l' l'' : Ledger} {r : Ref} {order : Order} {quantity : ℚ}
  {trade : ClosedTrade}

theorem SamePositions.trans (h : l.SamePositions l') (h' : l'.SamePositions l'') :
    l.SamePositions l'' where
  positions := h'.positions.trans h.positions
  index := h'.index.trans h.index
  objects := h'.objects.trans h.objects
  dropped := h'.dropped.trans h.dropped
  leverage := h'.leverage.trans h.leverage

theorem SamePositions.valid (h : l.SamePositions l') (hvalid : l.Valid) : l'.Valid := by
  refine ⟨?_, ?_, ?_, ?_, ?_⟩
  · rw [h.positions, h.objects]
    exact hvalid.live
  · rw [h.positions]
    exact hvalid.nodup
  · rw [h.positions, h.index, h.objects]
    exact hvalid.indexed
  · rw [h.positions, h.objects]
    exact hvalid.positive
  · rw [h.dropped]
    exact hvalid.small

/-- A close keeps what it did when nothing happens to the positions afterwards. -/
theorem ClosedBy.same (h : l.ClosedBy l' r quantity trade) (hsame : l'.SamePositions l'')
    {trade' : ClosedTrade} (htrades : l''.account.tradeHistory = l.account.tradeHistory ++ [trade'])
    (hsymbol : trade'.symbol = trade.symbol) (hclosed : trade'.quantity = trade.quantity) :
    l.ClosedBy l'' r quantity trade' where
  valid := hsame.valid h.valid
  only := by
    rw [hsame.positions]
    exact h.only
  others := by
    rw [hsame.positions, hsame.objects]
    exact h.others
  whole := by
    rw [hsame.positions]
    exact h.whole
  part := by
    rw [hsame.positions, hsame.objects]
    exact h.part
  trades := htrades
  symbol := hsymbol.trans h.symbol
  closed := hclosed.trans h.closed
  leverage := hsame.leverage.trans h.leverage

/-- An order against a position closes it by the quantity of the order. -/
theorem Valid.closedBy (h : l.Valid) (hr : r ∈ l.account.positions)
    (hsymbol : order.symbol = (l.objects.get r).symbol) (hside : (l.objects.get r).side ≠ order.side)
    (hfilled : 0 < order.filledQuantity)
    (hle : order.filledQuantity ≤ (l.objects.get r).quantity) (margin : ℚ) :
    ∃ trade, trade.orderId = order.id ∧
      l.ClosedBy (l.updatePosition N m order none none margin) r order.filledQuantity trade := by
  have hfind : l.positionsBySymbol.find? order.symbol = some r :=
    (h.indexed order.symbol r).mpr ⟨hr, hsymbol.symm⟩
  have hvalid := (h.updatePosition (N := N) (m := m) hfilled none none margin).valid
  have hmin : min order.filledQuantity (l.objects.get r).quantity = order.filledQuantity :=
    min_eq_left hle
  have hlive := h.live r hr
  have hupdate : l.updatePosition N m order none none margin =
      l.closePosition N m r order margin := by
    unfold Ledger.updatePosition
    rw [hfind]
    exact if_pos hside
  obtain ⟨trade, htrades, htrade, hid⟩ : ∃ trade,
      (l.settleClose N r order order.filledQuantity margin).account.tradeHistory =
        l.account.tradeHistory ++ [trade] ∧
      (trade.symbol = (l.objects.get r).symbol ∧ trade.quantity = order.filledQuantity) ∧
      trade.orderId = order.id := ⟨_, rfl, ⟨rfl, rfl⟩, rfl⟩
  have hsettled : (l.settleClose N r order order.filledQuantity margin).Valid :=
    (h.settleClose hr order order.filledQuantity margin).valid
  have hother : ∀ r', r' ≠ r → (l.settleClose N r order order.filledQuantity margin).objects.get r' =
      l.objects.get r' := fun r' hne => Heap.get_modify_of_ne _ hne _
  have htolerance : ¬ residualTolerance < 0 := by
    unfold residualTolerance
    norm_num
  rw [hupdate] at hvalid ⊢
  unfold Ledger.closePosition at hvalid ⊢
  simp only [hmin, sub_self, if_neg htolerance, lt_irrefl, if_false] at hvalid ⊢
  refine ⟨trade, hid, ?_⟩
  by_cases hwhole : (l.objects.get r).quantity ≤ order.filledQuantity
  · rw [if_pos hwhole] at hvalid ⊢
    have hpositions : ((l.settleClose N r order order.filledQuantity margin).removePosition r
        order.symbol).account.positions = l.account.positions.erase r := hsettled.eraseP_eq hr
    refine ⟨hvalid, ?_, ?_, ?_, ?_, htrades, htrade.1, htrade.2, rfl⟩
    · intro r' hr'
      rw [hpositions] at hr'
      exact List.mem_of_mem_erase hr'
    · intro r' hr' hne
      rw [hpositions]
      exact ⟨(List.mem_erase_of_ne hne).mpr hr', hother r' hne⟩
    · intro _
      rw [hpositions, h.nodup.mem_erase_iff]
      exact fun hc => hc.1 rfl
    · exact fun hless => absurd hwhole (not_le.mpr hless)
  · rw [if_neg hwhole] at hvalid ⊢
    refine ⟨hvalid, fun _ hr' => hr', ?_, ?_, ?_, htrades, htrade.1, htrade.2, rfl⟩
    · intro r' hr' hne
      refine ⟨hr', ?_⟩
      rw [Heap.get_modify_of_ne _ hne, hother r' hne]
    · exact fun heq => absurd heq.ge hwhole
    · intro _
      refine ⟨hr, ?_⟩
      have hget : (l.settleClose N r order order.filledQuantity margin).objects.get r =
          { l.objects.get r with
            margin := (l.objects.get r).margin -
              (l.objects.get r).margin * (order.filledQuantity / (l.objects.get r).quantity) } :=
        Heap.get_modify_self _ hlive _
      have hlive' : (l.settleClose N r order order.filledQuantity margin).objects.Live r :=
        hsettled.live r hr
      rw [Heap.get_modify_self _ hlive', hget]
      exact ⟨rfl, rfl⟩

theorem Valid.closedBy_bookFill (h : l.Valid) (hr : r ∈ l.account.positions)
    (hsymbol : order.symbol = (l.objects.get r).symbol) (hside : (l.objects.get r).side ≠ order.side)
    (hfilled : 0 < order.filledQuantity)
    (hle : order.filledQuantity ≤ (l.objects.get r).quantity) (fee notional : ℚ) (fill : Fill) :
    ∃ trade, trade.orderId = order.id ∧
      l.ClosedBy (l.bookFill N m order fee notional true none none fill) r order.filledQuantity trade := by
  have hcharged : (l.chargeFee fee).Valid := ⟨h.live, h.nodup, h.indexed, h.positive, h.small⟩
  obtain ⟨trade, hid, hclosed⟩ := hcharged.closedBy (N := N) (m := m) hr hsymbol hside hfilled hle 0
  have hvalid : ((l.chargeFee fee).updatePosition N m order none none 0).Valid := hclosed.valid
  exact ⟨trade, hid, ⟨hvalid.live, hvalid.nodup, hvalid.indexed, hvalid.positive, hvalid.small⟩,
    hclosed.only, hclosed.others, hclosed.whole, hclosed.part, hclosed.trades, hclosed.symbol,
    hclosed.closed, hclosed.leverage⟩

theorem tradeHistory_relabelTrade (reason : String)
    (htrades : l'.account.tradeHistory = l.account.tradeHistory ++ [trade]) :
    (l'.relabelTrade trade.orderId reason).account.tradeHistory =
      l.account.tradeHistory ++ [{ trade with reason := reason }] := by
  unfold Ledger.relabelTrade
  rw [htrades, List.reverse_append, List.reverse_singleton, List.singleton_append, relabelFirst,
    if_pos rfl, List.reverse_cons, List.reverse_reverse]

end Ledger

/-! ### One forced order -/

/-- The market order that closes a position by force. -/
def OrderRequest.forcedClose (symbol : String) (side : Side) (quantity : ℚ) : OrderRequest where
  symbol := symbol
  side := side
  quantity := quantity
  forceClose := true

namespace SimulatedExchange

variable {N : Numerics} {m : MarketView} {x y z : SimulatedExchange} {symbol : String} {side : Side}
  {quantity : ℚ} {r : Ref}

theorem screen_forcedClose (N : Numerics) (symbol : String) (side : Side) (hpositive : 0 < quantity)
    (hmax : quantity ≤ OrderRequest.maxQuantity) (id exchange : String) :
    (OrderRequest.forcedClose symbol side quantity).screen N id exchange =
      .ok ((OrderRequest.forcedClose symbol side quantity).plainOrder id exchange) := by
  unfold OrderRequest.screen
  rw [if_neg (not_le.mpr hpositive : ¬ (OrderRequest.forcedClose symbol side quantity).quantity ≤ 0),
    if_neg (not_lt.mpr hmax :
      ¬ OrderRequest.maxQuantity < (OrderRequest.forcedClose symbol side quantity).quantity)]
  rfl

/-- A larger one is turned away by it. -/
theorem screen_forcedClose_refused (N : Numerics) (symbol : String) (side : Side)
    (hmax : OrderRequest.maxQuantity < quantity) (id exchange : String) :
    ∃ reason, (OrderRequest.forcedClose symbol side quantity).screen N id exchange =
      .error ((OrderRequest.forcedClose symbol side quantity).plainOrder id exchange, reason) := by
  have hlarge : (0 : ℚ) < OrderRequest.maxQuantity := by
    unfold OrderRequest.maxQuantity
    norm_num
  have hpositive : ¬ (OrderRequest.forcedClose symbol side quantity).quantity ≤ 0 :=
    not_le.mpr (hlarge.trans hmax)
  have hexceeds : OrderRequest.maxQuantity < (OrderRequest.forcedClose symbol side quantity).quantity :=
    hmax
  unfold OrderRequest.screen
  rw [if_neg hpositive, if_pos hexceeds]
  exact ⟨_, rfl⟩

theorem fillMarketOrder_forcedClose (y : SimulatedExchange) (symbol : String) (side : Side)
    (quantity : ℚ) (hlive : y.orders.objects.Live r) (hgroup : (y.orders.get r).ocoGroupId = none)
    (fillPrice midPrice : ℚ) : ∃ (order : Order) (fee notional : ℚ) (fill : Fill) (t : OrderTable),
      (order.symbol = (y.orders.get r).symbol ∧ order.side = (y.orders.get r).side ∧
        order.filledQuantity = quantity ∧ order.status = .filled) ∧ t.get r = order ∧
      y.fillMarketOrder N m r (.forcedClose symbol side quantity) fillPrice midPrice = { y with
          ledger := y.ledger.bookFill N m order fee notional true none none fill
          orders := t } := by
  obtain ⟨price, slippage, hget⟩ := get_filledAtOnce (N := N) hlive fillPrice midPrice
    (fillPrice * quantity * y.feePct / 100) side quantity
  set filled := (y.orders.setStatus r .filled).update r fun o =>
    applyPartialFill N fillPrice midPrice side quantity { o with
      filledPrice := N.roundPrice fillPrice
      filledQuantity := quantity
      fee := N.round (fillPrice * quantity * y.feePct / 100) 4
      slippage := N.round (fillPrice - midPrice) 4 }
  have hrecorded : (filled.record r).get r = filled.get r := rfl
  have hresolve : (filled.record r).resolveOco r = filled.record r := by
    unfold OrderTable.resolveOco
    rw [hrecorded, hget, hgroup]
  refine ⟨filled.get r, _, _, _, (filled.record r).resolveOco r, ?_, ?_, rfl⟩
  · rw [hget]
    exact ⟨rfl, rfl, rfl, rfl⟩
  · rw [hresolve, hrecorded]

theorem submitOrder_forcedClose (x : SimulatedExchange) (side : Side) (hpositive : 0 < quantity)
    (hmax : quantity ≤ OrderRequest.maxQuantity) (hprice : m.price symbol ≠ 0) :
    ∃ (order : Order) (fee notional : ℚ) (fill : Fill) (t : OrderTable),
      (order.symbol = symbol ∧ order.side = side ∧ order.filledQuantity = quantity ∧
        order.status = .filled) ∧ t.get x.orders.objects.next = order ∧
      x.submitOrder N m (.forcedClose symbol side quantity) = ({ x with
          ledger := x.ledger.bookFill N m order fee notional true none none fill
          orders := t }, some x.orders.objects.next) := by
  have hscreen := screen_forcedClose N symbol side hpositive hmax (orderId x.orders.orderCounter)
    x.exchangeId
  unfold submitOrder
  rw [hscreen]
  simp only
  generalize ho : (OrderRequest.forcedClose symbol side quantity).plainOrder
    (orderId x.orders.orderCounter) x.exchangeId = o
  have hget : (x.orders.issue o).get x.orders.objects.next = o := Heap.get_alloc_next _ _
  have hgroup : o.ocoGroupId = none := by
    rw [← ho]
    rfl
  have hjoin : (x.orders.issue o).joinGroup x.orders.objects.next = x.orders.issue o := by
    unfold OrderTable.joinGroup
    rw [hget, hgroup]
  have hresolved : (x.orders.issue o).resolved x.orders.objects.next = false := by
    unfold OrderTable.resolved
    rw [hget, hgroup]
    rfl
  rw [hjoin, if_neg (hresolved ▸ Bool.false_ne_true)]
  have hlive : (x.orders.issue o).objects.Live x.orders.objects.next :=
    (Heap.live_alloc _ _ _).mpr (Or.inr rfl)
  obtain ⟨order, fee, notional, fill, t, hterms, hat, hfilled⟩ :=
    fillMarketOrder_forcedClose (N := N) (m := m)
      (x.withOrders (x.orders.issue o)) symbol side quantity hlive
      ((congrArg Order.ocoGroupId hget).trans hgroup)
      ((x.withOrders (x.orders.issue o)).calculateFillPrice (m.price symbol) side quantity)
      (m.price symbol)
  have hplaced : (x.withOrders (x.orders.issue o)).placeOrder N m x.orders.objects.next
      (.forcedClose symbol side quantity) = some { x with
        ledger := x.ledger.bookFill N m order fee notional true none none fill
        orders := t } := by
    have hpriced : ¬ m.price (OrderRequest.forcedClose symbol side quantity).symbol = 0 := hprice
    unfold placeOrder
    rw [if_neg hpriced]
    exact congrArg some hfilled
  rw [hplaced]
  refine ⟨order, fee, notional, fill, t.accept x.orders.objects.next, ?_, hat, rfl⟩
  rw [show (x.withOrders (x.orders.issue o)).orders.get x.orders.objects.next = o from hget, ← ho]
    at hterms
  exact hterms

/-- A larger one is turned away. -/
theorem submitOrder_forcedClose_refused (x : SimulatedExchange) (symbol : String) (side : Side)
    (hmax : OrderRequest.maxQuantity < quantity) :
    ∃ t : OrderTable, (t.get x.orders.objects.next).status ≠ .filled ∧
      x.submitOrder N m (.forcedClose symbol side quantity) =
        (x.withOrders t, some x.orders.objects.next) := by
  obtain ⟨reason, hscreen⟩ := screen_forcedClose_refused N symbol side hmax
    (orderId x.orders.orderCounter) x.exchangeId
  unfold submitOrder
  rw [hscreen]
  refine ⟨_, ?_, rfl⟩
  generalize (OrderRequest.forcedClose symbol side quantity).plainOrder
    (orderId x.orders.orderCounter) x.exchangeId = o
  have hlive : (x.orders.issue o).objects.Live x.orders.objects.next :=
    (Heap.live_alloc _ _ _).mpr (Or.inr rfl)
  change (((x.orders.issue o).conclude x.orders.objects.next .rejected reason).objects.get
    x.orders.objects.next).status ≠ .filled
  rw [OrderTable.objects_conclude, Heap.get_modify_self _ hlive]
  change OrderStatus.rejected ≠ .filled
  decide

end SimulatedExchange

/-! ### One entry of the list -/

namespace Ledger

/-- What the entries processed so far have made of a ledger: one above the largest quantity nothing, any
other has closed its position, as a whole or in part, and listed a trade with its reason. -/
structure Swept (l l' : Ledger) (entries : List (Ref × CloseTrigger × ℚ)) (trades : List ClosedTrade) :
    Prop where
  valid : l'.Valid
  only : ∀ r ∈ l'.account.positions, r ∈ l.account.positions
  others : ∀ r ∈ l.account.positions, (∀ e ∈ entries, e.1 ≠ r) →
    r ∈ l'.account.positions ∧ l'.objects.get r = l.objects.get r
  refused : ∀ e ∈ entries, OrderRequest.maxQuantity < e.2.2 →
    e.1 ∈ l'.account.positions ∧ l'.objects.get e.1 = l.objects.get e.1
  whole : ∀ e ∈ entries, e.2.2 ≤ OrderRequest.maxQuantity →
    e.2.2 = (l.objects.get e.1).quantity → e.1 ∉ l'.account.positions
  part : ∀ e ∈ entries, e.2.2 ≤ OrderRequest.maxQuantity → e.2.2 < (l.objects.get e.1).quantity →
    e.1 ∈ l'.account.positions ∧ (l'.objects.get e.1).symbol = (l.objects.get e.1).symbol ∧
      (l'.objects.get e.1).quantity = (l.objects.get e.1).quantity - e.2.2
  history : l'.account.tradeHistory = l.account.tradeHistory ++ trades
  told : ∀ e ∈ entries, e.2.2 ≤ OrderRequest.maxQuantity → ∃ trade ∈ trades,
    trade.symbol = (l.objects.get e.1).symbol ∧ trade.quantity = e.2.2 ∧
      trade.reason = e.2.1.reason
  leverage : l'.account.leverage = l.account.leverage

variable {l l' l'' : Ledger} {entry : Ref × CloseTrigger × ℚ}
  {entries : List (Ref × CloseTrigger × ℚ)} {trades trades' : List ClosedTrade} {trade : ClosedTrade}

theorem Swept.refl (h : l.Valid) : l.Swept l [] [] :=
  ⟨h, fun _ hr => hr, fun _ hr _ => ⟨hr, rfl⟩, fun _ he => absurd he List.not_mem_nil,
    fun _ he => absurd he List.not_mem_nil, fun _ he => absurd he List.not_mem_nil,
    (List.append_nil _).symm, fun _ he => absurd he List.not_mem_nil, rfl⟩

/-- An entry that was refused. -/
theorem SamePositions.swept (h : l.SamePositions l') (hvalid : l.Valid)
    (hr : entry.1 ∈ l.account.positions) (hmax : OrderRequest.maxQuantity < entry.2.2)
    (htrades : l'.account.tradeHistory = l.account.tradeHistory) : l.Swept l' [entry] [] := by
  have hsame : ∀ r ∈ l.account.positions, r ∈ l'.account.positions ∧
      l'.objects.get r = l.objects.get r := by
    intro r hr
    rw [h.positions, h.objects]
    exact ⟨hr, rfl⟩
  have hnone : ∀ {P : Ref × CloseTrigger × ℚ → Prop}, ∀ e ∈ [entry],
      e.2.2 ≤ OrderRequest.maxQuantity → P e := by
    intro P e he hle
    rw [List.mem_singleton.mp he] at hle
    exact absurd hmax (not_lt.mpr hle)
  refine ⟨h.valid hvalid, ?_, fun r hr _ => hsame r hr, ?_, hnone, hnone, ?_, hnone, h.leverage⟩
  · rw [h.positions]
    exact fun _ hr => hr
  · intro e he _
    rw [List.mem_singleton.mp he]
    exact hsame _ hr
  · rw [htrades, List.append_nil]

theorem ClosedBy.swept (h : l.ClosedBy l' entry.1 entry.2.2 trade)
    (hmax : entry.2.2 ≤ OrderRequest.maxQuantity) (hreason : trade.reason = entry.2.1.reason) :
    l.Swept l' [entry] [trade] := by
  refine ⟨h.valid, h.only, ?_, ?_, ?_, ?_, h.trades, ?_, h.leverage⟩
  · intro r hr hother
    exact h.others r hr (hother entry (List.mem_singleton_self entry)).symm
  · intro e he hlarge
    rw [List.mem_singleton.mp he] at hlarge
    exact absurd hmax (not_le.mpr hlarge)
  · intro e he _ hwhole
    rw [List.mem_singleton.mp he] at hwhole ⊢
    exact h.whole hwhole
  · intro e he _ hpart
    rw [List.mem_singleton.mp he] at hpart ⊢
    exact h.part hpart
  · intro e he _
    rw [List.mem_singleton.mp he]
    exact ⟨trade, List.mem_singleton_self trade, h.symbol, h.closed, hreason⟩

/-- One entry after the other. Entries of other positions leave a position as it is. -/
theorem Swept.trans (h : l.Swept l' [entry] trades) (h' : l'.Swept l'' entries trades')
    (hmem : ∀ e ∈ entry :: entries, e.1 ∈ l.account.positions) (hdistinct : ∀ e ∈ entries, e.1 ≠ entry.1) :
    l.Swept l'' (entry :: entries) (trades ++ trades') := by
  have hlater : ∀ e ∈ entries, e.1 ∈ l'.account.positions ∧
      l'.objects.get e.1 = l.objects.get e.1 := by
    intro e he
    apply h.others e.1 (hmem e (List.mem_cons_of_mem entry he))
    intro e' he'
    rw [List.mem_singleton.mp he']
    exact (hdistinct e he).symm
  have hself := List.mem_singleton_self entry
  refine ⟨h'.valid, fun r hr => h.only r (h'.only r hr), ?_, ?_, ?_, ?_, ?_, ?_,
    h'.leverage.trans h.leverage⟩
  · intro r hr hother
    obtain ⟨hr', hget⟩ := h.others r hr fun e he =>
      hother e (List.mem_singleton.mp he ▸ List.mem_cons_self)
    obtain ⟨hr'', hget'⟩ := h'.others r hr' fun e he => hother e (List.mem_cons_of_mem entry he)
    exact ⟨hr'', hget'.trans hget⟩
  · intro e he hlarge
    rcases List.mem_cons.mp he with rfl | hrest
    · obtain ⟨hr', hget⟩ := h.refused e hself hlarge
      obtain ⟨hr'', hget'⟩ := h'.others e.1 hr' hdistinct
      exact ⟨hr'', hget'.trans hget⟩
    · obtain ⟨hr'', hget'⟩ := h'.refused e hrest hlarge
      exact ⟨hr'', hget'.trans (hlater e hrest).2⟩
  · intro e he hmax hwhole
    rcases List.mem_cons.mp he with rfl | hrest
    · exact fun hr => h.whole e hself hmax hwhole (h'.only e.1 hr)
    · exact h'.whole e hrest hmax ((hlater e hrest).2.symm ▸ hwhole)
  · intro e he hmax hpart
    rcases List.mem_cons.mp he with rfl | hrest
    · obtain ⟨hr', hafter⟩ := h.part e hself hmax hpart
      obtain ⟨hr'', hget'⟩ := h'.others e.1 hr' hdistinct
      rw [hget']
      exact ⟨hr'', hafter⟩
    · have hafter := h'.part e hrest hmax ((hlater e hrest).2.symm ▸ hpart)
      rw [(hlater e hrest).2] at hafter
      exact hafter
  · rw [h'.history, h.history, List.append_assoc]
  · intro e he hmax
    rcases List.mem_cons.mp he with rfl | hrest
    · obtain ⟨trade, htrade, htold⟩ := h.told e hself hmax
      exact ⟨trade, List.mem_append_left trades' htrade, htold⟩
    · obtain ⟨trade, htrade, htold⟩ := h'.told e hrest hmax
      rw [(hlater e hrest).2] at htold
      exact ⟨trade, List.mem_append_right trades htrade, htold⟩

end Ledger

namespace SimulatedExchange

variable {N : Numerics} {m : MarketView} {x y z : SimulatedExchange}
  {entry : Ref × CloseTrigger × ℚ} {entries : List (Ref × CloseTrigger × ℚ)}

theorem samePositions_cover (l : Ledger) : l.SamePositions l.handleInsuranceFundDeficit ∧
    l.handleInsuranceFundDeficit.account.tradeHistory = l.account.tradeHistory := by
  unfold Ledger.handleInsuranceFundDeficit
  split
  · exact ⟨⟨rfl, rfl, rfl, rfl, rfl⟩, rfl⟩
  · exact ⟨⟨rfl, rfl, rfl, rfl, rfl⟩, rfl⟩

/-- The side of the order that closes a position. -/
def closingSide (p : Position) : Side := if p.isLong then .sell else .buy

theorem side_ne_closingSide (p : Position) : p.side ≠ closingSide p := by
  unfold closingSide Position.isLong
  cases p.side with
  | buy => decide
  | sell => decide

/-- What becomes of an entry once its order has returned. -/
theorem closeTriggeredPosition_eq {refs : List Ref} {r r' : Ref} {trigger : CloseTrigger} {quantity : ℚ}
    (hsubmitted : z.submitOrder N m (.forcedClose (z.ledger.objects.get r).symbol
      (closingSide (z.ledger.objects.get r)) quantity) = (y, some r')) :
    (closeTriggeredPosition N m (z, refs) (r, trigger, quantity)).1 =
      let covered := if trigger = .liquidation then
        { y with ledger := y.ledger.handleInsuranceFundDeficit } else y
      if (y.orders.get r').status = .filled then covered.labelClose r' trigger.reason
      else covered := by
  unfold closeTriggeredPosition
  simp only
  generalize hreq : (OrderRequest.mk _ _ _ _ _ _ _ _ _ _ _ _ _ _ _ _ _ : OrderRequest) = req
  have hforced : req = .forcedClose (z.ledger.objects.get r).symbol
      (closingSide (z.ledger.objects.get r)) quantity := hreq.symm
  rw [hforced, hsubmitted]
  by_cases hliquidation : trigger = .liquidation
  · simp only [if_pos hliquidation]
    split <;> rfl
  · simp only [if_neg hliquidation]
    split <;> rfl

theorem swept_closeTriggeredPosition (hvalid : z.ledger.Valid)
    (hr : entry.1 ∈ z.ledger.account.positions) (hpositive : 0 < entry.2.2)
    (hle : entry.2.2 ≤ (z.ledger.objects.get entry.1).quantity)
    (hprice : m.price (z.ledger.objects.get entry.1).symbol ≠ 0) (refs : List Ref) :
    ∃ trades, z.ledger.Swept (closeTriggeredPosition N m (z, refs) entry).1.ledger [entry] trades ∧
      (closeTriggeredPosition N m (z, refs) entry).1.maintenanceMarginRate = z.maintenanceMarginRate := by
  obtain ⟨r, trigger, quantity⟩ := entry
  have hcover : ∀ (y : SimulatedExchange) (covered : SimulatedExchange),
      covered = (if trigger = .liquidation then
        { y with ledger := y.ledger.handleInsuranceFundDeficit } else y) →
      y.ledger.SamePositions covered.ledger ∧
        covered.ledger.account.tradeHistory = y.ledger.account.tradeHistory ∧
        covered.orders = y.orders ∧
        covered.maintenanceMarginRate = y.maintenanceMarginRate := by
    intro y covered hcovered
    rw [hcovered]
    by_cases hliquidation : trigger = .liquidation
    · rw [if_pos hliquidation]
      exact ⟨(samePositions_cover y.ledger).1, (samePositions_cover y.ledger).2, rfl, rfl⟩
    · rw [if_neg hliquidation]
      exact ⟨⟨rfl, rfl, rfl, rfl, rfl⟩, rfl, rfl, rfl⟩
  by_cases hmax : quantity ≤ OrderRequest.maxQuantity
  · obtain ⟨order, fee, notional, fill, t, ⟨hsymbol, horder, hquantity, hfilled⟩, hat, hsubmitted⟩ :=
      submitOrder_forcedClose (N := N) (m := m) z (closingSide (z.ledger.objects.get r)) hpositive hmax
        hprice
    obtain ⟨trade, hid, hclosed⟩ := hvalid.closedBy_bookFill (N := N) (m := m) hr hsymbol
      (horder.symm ▸ side_ne_closingSide _) (hquantity.symm ▸ hpositive) (hquantity.symm ▸ hle) fee
      notional fill
    rw [hquantity] at hclosed
    rw [closeTriggeredPosition_eq hsubmitted]
    set y : SimulatedExchange := { z with
      ledger := z.ledger.bookFill N m order fee notional true none none fill
      orders := t } with hy
    obtain ⟨hsame, htrades, horders, hsettings⟩ := hcover y _ rfl
    have hstatus : (y.orders.get z.orders.objects.next).status = .filled :=
      (congrArg Order.status hat).trans hfilled
    simp only [if_pos hstatus]
    generalize (if trigger = .liquidation then
      { y with ledger := y.ledger.handleInsuranceFundDeficit } else y) = covered
      at hsame htrades horders hsettings ⊢
    have hlabel : (covered.orders.get z.orders.objects.next).id = trade.orderId := by
      rw [horders, hid]
      exact congrArg Order.id hat
    have hrelabelled := Ledger.tradeHistory_relabelTrade trigger.reason
      (htrades.trans hclosed.trades)
    refine ⟨[{ trade with reason := trigger.reason }], Ledger.ClosedBy.swept ?_ hmax rfl, hsettings⟩
    unfold labelClose
    rw [hlabel]
    have hrelabel : covered.ledger.SamePositions
        (covered.ledger.relabelTrade trade.orderId trigger.reason) := ⟨rfl, rfl, rfl, rfl, rfl⟩
    exact hclosed.same (hsame.trans hrelabel) hrelabelled rfl rfl
  · obtain ⟨t, hopen, hsubmitted⟩ := submitOrder_forcedClose_refused (N := N) (m := m) z
      (z.ledger.objects.get r).symbol (closingSide (z.ledger.objects.get r)) (not_le.mp hmax)
    rw [closeTriggeredPosition_eq hsubmitted]
    have hstatus : ¬ ((z.withOrders t).orders.get z.orders.objects.next).status = .filled := hopen
    obtain ⟨hsame, htrades, -, hsettings⟩ := hcover (z.withOrders t) _ rfl
    simp only [if_neg hstatus]
    exact ⟨[], hsame.swept hvalid hr (not_le.mp hmax) htrades, hsettings⟩

/-- The list is processed entry by entry. -/
theorem swept_foldl_closeTriggeredPosition (entries : List (Ref × CloseTrigger × ℚ))
    (acc : SimulatedExchange × List Ref) (hvalid : acc.1.ledger.Valid)
    (hdistinct : (entries.map Prod.fst).Nodup)
    (hentries : ∀ e ∈ entries, e.1 ∈ acc.1.ledger.account.positions ∧ 0 < e.2.2 ∧
      e.2.2 ≤ (acc.1.ledger.objects.get e.1).quantity ∧
      m.price (acc.1.ledger.objects.get e.1).symbol ≠ 0) :
    ∃ trades, acc.1.ledger.Swept (entries.foldl (closeTriggeredPosition N m) acc).1.ledger entries trades ∧
      (entries.foldl (closeTriggeredPosition N m) acc).1.maintenanceMarginRate =
        acc.1.maintenanceMarginRate := by
  induction entries generalizing acc with
  | nil => exact ⟨[], .refl hvalid, rfl⟩
  | cons entry rest ih =>
    obtain ⟨habsent, hrest⟩ := List.nodup_cons.mp hdistinct
    obtain ⟨hr, hpositive, hle, hprice⟩ := hentries entry List.mem_cons_self
    obtain ⟨trades, hswept, hsettings⟩ :=
      swept_closeTriggeredPosition (N := N) hvalid hr hpositive hle hprice acc.2
    have hne : ∀ e ∈ rest, e.1 ≠ entry.1 := fun e he heq =>
      habsent (heq ▸ List.mem_map_of_mem he)
    have hlater : ∀ e ∈ rest, e.1 ∈ (closeTriggeredPosition N m acc entry).1.ledger.account.positions ∧
        (closeTriggeredPosition N m acc entry).1.ledger.objects.get e.1 =
          acc.1.ledger.objects.get e.1 := by
      intro e he
      apply hswept.others e.1 (hentries e (List.mem_cons_of_mem entry he)).1
      intro e' he'
      rw [List.mem_singleton.mp he']
      exact (hne e he).symm
    obtain ⟨trades', hswept', hsettings'⟩ := ih (closeTriggeredPosition N m acc entry) hswept.valid
      hrest (by
        intro e he
        obtain ⟨-, hbounds⟩ := hentries e (List.mem_cons_of_mem entry he)
        obtain ⟨hr', hget⟩ := hlater e he
        rw [hget]
        exact ⟨hr', hbounds⟩)
    exact ⟨trades ++ trades', hswept.trans hswept' (fun e he => (hentries e he).1) hne,
      hsettings'.trans hsettings⟩

end SimulatedExchange

end TradingSim.Exchange
