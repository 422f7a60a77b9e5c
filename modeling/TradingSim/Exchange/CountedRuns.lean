import Mathlib.Algebra.BigOperators.Group.Finset.Basic
import TradingSim.Exchange.OrderCounters
import TradingSim.Exchange.Runs
import TradingSim.Exchange.SweepAnnouncements

/-!
# Runs whose counters count each order once

Submissions, cancels, forced closes and iceberg slices count the orders that they write once. A sweep
that executes a resting order and finds its margin too small counts it twice.
-/

namespace TradingSim.Exchange

open Foundations
open OrderTable (CountsOnce CountsOnceIff)

namespace Sweep

/-- If the check of a pending order executes it at the current price, its margin suffices. A slice of
an iceberg is an order of its own. -/
def AffordsPending (N : Numerics) (m : MarketView) (x : SimulatedExchange) (order : Order)
    (currentPrice : ℚ) : PendingBook → OrderKind → Prop
  | .limits, _ =>
    ∀ price ∈ order.price, marketable order.side price currentPrice = true →
      order.expireTs.any (· ≤ m.now) = false → x.checkMargin N order price = none
  | .stopLimits, .stopLimit fields =>
    (fields.checkTrigger order.side currentPrice).triggered = true →
      marketable order.side fields.limitPrice currentPrice = true →
        x.checkMargin N order fields.limitPrice = none
  | .trailingStops, .trailingStop fields =>
    (fields.updateStopPrice order.side currentPrice).reached order.side currentPrice = true →
      x.checkMargin N order (x.slippedPrice order.side currentPrice) = none
  | _, _ => True

/-- The check of an entry refuses no resting order. -/
def AffordsEntry (N : Numerics) (m : MarketView) (book : PendingBook) (s : Sweep)
    (entry : String × Ref) : Prop :=
  let order := s.exchange.orders.get entry.2
  let currentPrice := m.currentPrice order.symbol
  order.status = .pending → currentPrice ≠ 0 →
    AffordsPending N m s.exchange order currentPrice book order.kind

/-- Nor does the sweep of a book. -/
def AffordsBook (N : Numerics) (m : MarketView) (s : Sweep) (book : PendingBook) : Prop :=
  Along (checkEntry N m book) (AffordsEntry N m book) { s with toRemove := [] }
    (s.exchange.orders.pending book).entries

end Sweep

namespace SimulatedExchange

variable {N : Numerics} {m : MarketView} {x : SimulatedExchange} {r : Ref} {s : Sweep} {id : String}

/-- No sweep refuses a resting order. -/
def AffordsSweeps (N : Numerics) (m : MarketView) (x : SimulatedExchange) : Prop :=
  Along (Sweep.checkBook N m) (Sweep.AffordsBook N m) { exchange := x } PendingBook.all

/-! ### Submissions -/

theorem countsOnce_fillMarketOrder (hlive : x.orders.objects.Live r) (hnew : r ∉ x.orders.listened)
    (req : OrderRequest) (marketFillPrice midPrice : ℚ) :
    CountsOnce x.orders (x.fillMarketOrder N m r req marketFillPrice midPrice).orders := by
  unfold fillMarketOrder
  dsimp only
  split
  · exact OrderTable.countsOnce_conclude hlive hnew _ _
  · apply CountsOnce.trans _ (OrderTable.countsOnce_resolveOco _ _)
    refine OrderTable.countsOnce_fillNew hlive hnew fun o => ?_
    exact status_applyPartialFill N _ _ _ _ _

theorem countsOnce_placeOrder {y : SimulatedExchange} {req : OrderRequest}
    (hlive : x.orders.objects.Live r) (hnew : r ∉ x.orders.listened)
    (hpending : (x.orders.get r).status = .pending) (h : x.placeOrder N m r req = some y) :
    CountsOnce x.orders y.orders := by
  have htrail : ∀ o : Order, (startTrail req.side (m.price req.symbol) o).status = o.status := by
    intro o
    unfold startTrail
    split
    · rfl
    · rfl
  cases placing_of_placeOrder h with
  | conclude => exact OrderTable.countsOnce_conclude hlive hnew _ _
  | fill => exact countsOnce_fillMarketOrder hlive hnew _ _ _
  | rest => exact OrderTable.countsOnce_rest hlive hnew hpending _
  | trail =>
    apply (OrderTable.countsOnce_update x.orders r htrail).trans
    have hlive' : (x.orders.update r (startTrail req.side (m.price req.symbol))).objects.Live r :=
      (Heap.live_modify _ _ _ _).mpr hlive
    refine OrderTable.countsOnce_rest hlive' hnew ?_ _
    rw [OrderTable.get, OrderTable.update, Heap.get_modify_self _ hlive, htrail]
    exact hpending

theorem countsOnce_submitOrder (x : SimulatedExchange) (req : OrderRequest) :
    CountsOnce x.orders (x.submitOrder N m req).1.orders := by
  intro twice h
  have hnew : x.orders.objects.next ∉ x.orders.listened := fun hr => (h.live _ hr).ne_next rfl
  revert h twice
  have hissue : ∀ o, CountsOnce x.orders (x.orders.issue o) := fun o =>
    (OrderTable.countsOnce_create x.orders o).trans
      (.of_listened rfl fun _ h => h.of_objects rfl rfl rfl fun _ _ _ hfind => hfind)
  have haccept : ∀ t : OrderTable, CountsOnce t (t.accept x.orders.objects.next) := fun t =>
    .of_listened rfl fun _ h => h.of_objects rfl rfl rfl fun _ _ _ hfind => hfind
  have hissued : ∀ o, (x.orders.issue o).objects.Live x.orders.objects.next := fun o =>
    (Heap.live_alloc _ _ _).mpr (Or.inr rfl)
  unfold submitOrder
  dsimp only
  split
  · rename_i order reason _
    apply (hissue order).trans
    exact (OrderTable.countsOnce_conclude (hissued order) hnew _ _).trans (haccept _)
  · rename_i order hscreen
    obtain ⟨hlive, hget, -, -⟩ := x.orders.entered_issue order
    obtain ⟨groups, hjoined, -⟩ := (x.orders.issue order).joinGroup_eq x.orders.objects.next
    have hjoin : CountsOnce x.orders ((x.orders.issue order).joinGroup x.orders.objects.next) := by
      apply (hissue order).trans
      rw [hjoined]
      exact .of_listened rfl fun _ h => h.of_objects rfl rfl rfl fun _ _ _ hfind => hfind
    have hnew' : x.orders.objects.next ∉
        ((x.orders.issue order).joinGroup x.orders.objects.next).listened := by
      rw [hjoined]
      exact hnew
    have hpending : order.status = .pending := by
      obtain ⟨-, -, kind, -, heq⟩ := OrderRequest.screen_eq_ok hscreen
      rw [heq]
      rfl
    split
    · exact hjoin.trans ((OrderTable.countsOnce_conclude hlive hnew' _ _).trans (haccept _))
    · split
      · rename_i placed hplaced
        have hplace := countsOnce_placeOrder (x := x.withOrders _) hlive hnew'
          ((congrArg Order.status hget).trans hpending) hplaced
        exact hjoin.trans (hplace.trans (haccept _))
      · exact hjoin

/-! ### Sweeps -/

theorem countsOnce_fillResting (hpending : (x.orders.get r).status = .pending) {f : Order → Order}
    (hf : ∀ o, (f o).status = o.status) :
    CountsOnce x.orders (((x.orders.setStatus r .filled).update r f).resolveOco r) := by
  have hfilled : CountsOnce x.orders (x.orders.setStatus r .filled) :=
    OrderTable.countsOnce_setStatus hpending fun hc => nomatch hc
  exact (hfilled.trans (OrderTable.countsOnce_update _ r hf)).trans
    (OrderTable.countsOnce_resolveOco _ r)

theorem countsOnceIff_executeLimitOrder (hr : r ∈ x.orders.listened)
    (hpending : (x.orders.get r).status = .pending) (price : ℚ) :
    CountsOnceIff (x.checkMargin N (x.orders.get r) price = none) x.orders
      (x.executeLimitOrder N m r price).orders := by
  unfold executeLimitOrder
  split
  · rename_i reason hmargin
    refine OrderTable.countsOnceIff_refuse hr hpending reason ?_
    exact fun hc => nomatch hmargin.symm.trans hc
  · rename_i hmargin
    refine CountsOnce.iff ?_ hmargin
    exact countsOnce_fillResting hpending fun _ => rfl

theorem countsOnceIff_executeMarketOrder (hr : r ∈ x.orders.listened)
    (hpending : (x.orders.get r).status = .pending) (price : ℚ) :
    CountsOnceIff (x.checkMargin N (x.orders.get r)
        (x.slippedPrice (x.orders.get r).side price) = none) x.orders
      (x.executeMarketOrder N m r price).orders := by
  unfold executeMarketOrder
  dsimp only
  split
  · rename_i reason hmargin
    refine OrderTable.countsOnceIff_refuse hr hpending reason ?_
    exact fun hc => nomatch hmargin.symm.trans hc
  · rename_i hmargin
    refine CountsOnce.iff ?_ hmargin
    exact countsOnce_fillResting hpending fun _ => rfl

theorem countsOnceIff_checkLimit (hr : r ∈ s.exchange.orders.listened)
    (hpending : (s.exchange.orders.get r).status = .pending) :
    CountsOnceIff (s.AffordsEntry N m .limits (id, r)) s.exchange.orders
      (s.checkLimit N m r id).exchange.orders := by
  have hskipped : ∀ {once : Prop}, once → CountsOnceIff once s.exchange.orders s.exchange.orders :=
    fun honce => (CountsOnce.refl _).iff honce
  unfold Sweep.checkLimit
  dsimp only
  split
  · rename_i hexpired
    have hcancelled : CountsOnce s.exchange.orders (s.exchange.orders.setStatus r .cancelled) :=
      OrderTable.countsOnce_setStatus hpending fun hc => nomatch hc
    refine CountsOnce.iff (hcancelled.trans ?_) ?_
    · exact OrderTable.countsOnce_update _ r fun _ => rfl
    · intro _ _ price _ _ hfresh
      exact absurd hexpired (Bool.eq_false_iff.mp hfresh)
  · rename_i hfresh
    split
    · rename_i hunquoted
      exact hskipped fun _ hquoted => absurd hunquoted hquoted
    · rename_i hquoted
      split
      · rename_i hprice
        exact hskipped fun _ _ price hmem => nomatch hprice.symm.trans hmem
      · rename_i price hprice
        split
        · rename_i hmarket
          refine (countsOnceIff_executeLimitOrder hr hpending price).congr ⟨?_, ?_⟩
          · intro hmargin _ _ price' hprice' _ _
            obtain rfl := Option.some.inj (hprice.symm.trans hprice')
            exact hmargin
          · intro haffords
            exact haffords hpending hquoted price hprice hmarket (Bool.eq_false_iff.mpr hfresh)
        · rename_i hmarket
          refine hskipped fun _ _ price' hprice' hmarket' => ?_
          obtain rfl := Option.some.inj (hprice.symm.trans hprice')
          exact absurd hmarket' hmarket

/-- The exchange after the class fields of an order were rewritten. -/
def touchKind (x : SimulatedExchange) (r : Ref) (kind : OrderKind) : SimulatedExchange :=
  x.withOrders (x.orders.update r fun o => { o with kind := kind })

theorem get_touchKind (hlive : x.orders.objects.Live r) (kind : OrderKind) :
    (x.touchKind r kind).orders.get r = { x.orders.get r with kind := kind } :=
  Heap.get_modify_self _ hlive _

/-- Neither the margin of the order nor its slippage depends on its class fields. -/
theorem checkMargin_touchKind (hlive : x.orders.objects.Live r) (kind : OrderKind) (price : ℚ) :
    (x.touchKind r kind).checkMargin N ((x.touchKind r kind).orders.get r) price =
      x.checkMargin N (x.orders.get r) price := by
  rw [get_touchKind hlive]
  rfl

theorem countsOnce_touchKind (x : SimulatedExchange) (r : Ref) (kind : OrderKind) :
    CountsOnce x.orders (x.touchKind r kind).orders :=
  OrderTable.countsOnce_update _ r fun _ => rfl

theorem countsOnceIff_checkStopLimit (hlive : s.exchange.orders.objects.Live r)
    (hr : r ∈ s.exchange.orders.listened) (hpending : (s.exchange.orders.get r).status = .pending) :
    CountsOnceIff (s.AffordsEntry N m .stopLimits (id, r)) s.exchange.orders
      (s.checkStopLimit N m r id).exchange.orders := by
  have hskipped : ∀ {once : Prop}, once → CountsOnceIff once s.exchange.orders s.exchange.orders :=
    fun honce => (CountsOnce.refl _).iff honce
  unfold Sweep.AffordsEntry Sweep.checkStopLimit
  dsimp only
  split
  · rename_i hunquoted
    exact hskipped fun _ hquoted => absurd hunquoted hquoted
  · rename_i hquoted
    cases hkind : (s.exchange.orders.get r).kind with
    | stopLimit fields =>
      dsimp only [Sweep.AffordsPending]
      generalize hchecked : fields.checkTrigger (s.exchange.orders.get r).side
        (m.currentPrice (s.exchange.orders.get r).symbol) = checked
      have htouched := countsOnce_touchKind s.exchange r (.stopLimit checked)
      split
      · rename_i hreached
        rw [Bool.and_eq_true] at hreached
        have hpending' : ((s.exchange.touchKind r (.stopLimit checked)).orders.get r).status =
            .pending := (congrArg Order.status (get_touchKind hlive _)).trans hpending
        have hexecuted := countsOnceIff_executeLimitOrder (N := N) (m := m)
          (x := s.exchange.touchKind r (.stopLimit checked)) hr hpending' fields.limitPrice
        rw [checkMargin_touchKind hlive] at hexecuted
        refine ((htouched.iff trivial).trans hexecuted).congr ?_
        rw [true_and]
        exact ⟨fun hmargin _ _ _ _ => hmargin,
          fun haffords => haffords hpending hquoted hreached.1 hreached.2⟩
      · rename_i hreached
        refine htouched.iff fun _ _ htriggered hmarket => absurd ?_ hreached
        rw [htriggered, hmarket]
        rfl
    | plain => exact hskipped fun _ _ => trivial
    | trailingStop _ => exact hskipped fun _ _ => trivial
    | iceberg _ => exact hskipped fun _ _ => trivial

theorem countsOnceIff_checkTrailingStop (hlive : s.exchange.orders.objects.Live r)
    (hr : r ∈ s.exchange.orders.listened) (hpending : (s.exchange.orders.get r).status = .pending) :
    CountsOnceIff (s.AffordsEntry N m .trailingStops (id, r)) s.exchange.orders
      (s.checkTrailingStop N m r id).exchange.orders := by
  have hskipped : ∀ {once : Prop}, once → CountsOnceIff once s.exchange.orders s.exchange.orders :=
    fun honce => (CountsOnce.refl _).iff honce
  unfold Sweep.AffordsEntry Sweep.checkTrailingStop
  dsimp only
  split
  · rename_i hunquoted
    exact hskipped fun _ hquoted => absurd hunquoted hquoted
  · rename_i hquoted
    cases hkind : (s.exchange.orders.get r).kind with
    | trailingStop fields =>
      dsimp only [Sweep.AffordsPending]
      generalize fields.updateStopPrice (s.exchange.orders.get r).side
        (m.currentPrice (s.exchange.orders.get r).symbol) = moved
      have htouched := countsOnce_touchKind s.exchange r (.trailingStop moved)
      split
      · rename_i hreached
        have hget := get_touchKind hlive (.trailingStop moved)
        have hside : ((s.exchange.touchKind r (.trailingStop moved)).orders.get r).side =
            (s.exchange.orders.get r).side := by rw [hget]
        have hexecuted := countsOnceIff_executeMarketOrder (N := N) (m := m)
          (x := s.exchange.touchKind r (.trailingStop moved)) hr
          ((congrArg Order.status hget).trans hpending)
          (m.currentPrice (s.exchange.orders.get r).symbol)
        rw [hside, checkMargin_touchKind hlive] at hexecuted
        refine ((htouched.iff trivial).trans hexecuted).congr ?_
        rw [true_and]
        exact ⟨fun hmargin _ _ _ => hmargin, fun haffords => haffords hpending hquoted hreached⟩
      · rename_i hreached
        exact htouched.iff fun _ _ hreached' => absurd hreached' hreached
    | plain => exact hskipped fun _ _ => trivial
    | stopLimit _ => exact hskipped fun _ _ => trivial
    | iceberg _ => exact hskipped fun _ _ => trivial

theorem countsOnce_executeIcebergSlice (x : SimulatedExchange) (r : Ref) (fields : IcebergFields)
    (price : ℚ) : CountsOnce x.orders (x.executeIcebergSlice N m r fields price).1.orders := by
  intro twice h
  have hnew : x.orders.objects.next ∉ x.orders.listened := fun hr => (h.live _ hr).ne_next rfl
  revert h twice
  have hlive : ∀ o, (x.orders.create o).objects.Live x.orders.objects.next := fun o =>
    (Heap.live_alloc _ _ _).mpr (Or.inr rfl)
  unfold executeIcebergSlice
  dsimp only
  apply (OrderTable.countsOnce_create x.orders
    (x.createIcebergSliceOrder N (x.orders.get r) fields price)).trans
  split
  · exact OrderTable.countsOnce_conclude (hlive _) hnew _ _
  · apply (OrderTable.countsOnce_update _ r (f := fun o => { o with
      kind := .iceberg fields.afterSlice }) fun _ => rfl).trans
    refine .of_listened rfl fun twice h => ?_
    exact (h.setStatusNew hnew .filled).update fun _ => rfl

theorem status_executeIcebergSlice (hlive : x.orders.objects.Live r) (fields : IcebergFields)
    (price : ℚ) : ((x.executeIcebergSlice N m r fields price).1.orders.get r).status =
      (x.orders.get r).status := by
  have hne : r ≠ x.orders.objects.next := hlive.ne_next
  have hcreated : ∀ o, (x.orders.create o).get r = x.orders.get r := fun o =>
    Heap.get_alloc_of_live _ _ hlive
  unfold executeIcebergSlice
  dsimp only
  split
  · change ((OrderTable.conclude _ _ _ _).get r).status = _
    rw [OrderTable.get, OrderTable.objects_conclude, Heap.get_modify_of_ne _ hne]
    exact congrArg Order.status (hcreated _)
  · generalize hcreate : x.orders.create
      (x.createIcebergSliceOrder N (x.orders.get r) fields price) = created
    have hlive' : created.objects.Live r := by
      rw [← hcreate]
      exact (Heap.live_alloc _ _ _).mpr (Or.inl hlive)
    have hshown : ((created.update r fun o => { o with kind := .iceberg fields.afterSlice }).get
        r).status = (created.get r).status := by
      rw [OrderTable.get, OrderTable.update, Heap.get_modify_self _ hlive']
      rfl
    have hfilled : ∀ (t : OrderTable) (f : Order → Order),
        ((t.setStatus x.orders.objects.next .filled).update x.orders.objects.next f).get r =
          t.get r := by
      intro t f
      rw [OrderTable.get, OrderTable.objects_update_setStatus, Heap.get_modify_of_ne _ hne]
      rfl
    change (OrderTable.get (OrderTable.update (OrderTable.setStatus _ _ _) _ _) r).status = _
    rw [hfilled, hshown, ← hcreate, hcreated]

theorem countsOnce_finishIceberg (hpending : (s.exchange.orders.get r).status = .pending) :
    CountsOnce s.exchange.orders (s.finishIceberg r id).exchange.orders := by
  unfold Sweep.finishIceberg
  split
  · split
    · exact countsOnce_fillResting hpending fun _ => rfl
    · exact .refl _
  · exact .refl _

theorem countsOnce_checkIceberg (hlive : s.exchange.orders.objects.Live r)
    (hpending : (s.exchange.orders.get r).status = .pending) :
    CountsOnce s.exchange.orders (s.checkIceberg N m r id).exchange.orders := by
  unfold Sweep.checkIceberg
  dsimp only
  split
  · exact .refl _
  · split
    · rename_i fields _
      split
      · split
        · exact .refl _
        · rename_i fillPrice _
          have hsliced := countsOnce_executeIcebergSlice (N := N) (m := m) s.exchange r fields fillPrice
          have hstatus := status_executeIcebergSlice (N := N) (m := m) hlive fields fillPrice
          generalize s.exchange.executeIcebergSlice N m r fields fillPrice = sliced at hsliced hstatus ⊢
          apply hsliced.trans
          exact countsOnce_finishIceberg (s := { s with
            exchange := sliced.1
            filledOrders := s.filledOrders ++ [sliced.2] }) (hstatus.trans hpending)
      · exact .refl _
    · exact .refl _

theorem countsOnceIff_checkEntry {book : PendingBook} {e : String × Ref}
    (hr : e.2 ∈ s.exchange.orders.listened) : CountsOnceIff (s.AffordsEntry N m book e) s.exchange.orders
      (s.checkEntry N m book e).exchange.orders := by
  intro twice h
  have hlive := h.live _ hr
  revert h twice
  unfold Sweep.checkEntry
  split
  · rename_i hdone
    exact (CountsOnce.refl _).iff fun hpending => absurd hpending hdone
  · rename_i hpending
    rw [not_not] at hpending
    cases book with
    | limits => exact countsOnceIff_checkLimit hr hpending
    | stopLimits => exact countsOnceIff_checkStopLimit hlive hr hpending
    | trailingStops => exact countsOnceIff_checkTrailingStop hlive hr hpending
    | icebergs =>
      refine (countsOnce_checkIceberg hlive hpending).iff fun _ _ => ?_
      cases (s.exchange.orders.get e.2).kind with
      | plain => trivial
      | stopLimit _ => trivial
      | trailingStop _ => trivial
      | iceberg _ => trivial

theorem countsOnceIff_foldl_checkEntry (book : PendingBook) (entries : List (String × Ref))
    (s : Sweep) (hentries : ∀ e ∈ entries, e.2 ∈ s.exchange.orders.listened) :
    CountsOnceIff (Along (Sweep.checkEntry N m book) (Sweep.AffordsEntry N m book) s entries)
      s.exchange.orders (entries.foldl (Sweep.checkEntry N m book) s).exchange.orders := by
  induction entries generalizing s with
  | nil => exact (CountsOnce.refl _).iff trivial
  | cons e rest ih =>
    have hentry : CountsOnceIff (s.AffordsEntry N m book e) s.exchange.orders
        (s.checkEntry N m book e).exchange.orders :=
      countsOnceIff_checkEntry (hentries e List.mem_cons_self)
    intro twice h
    have hlistened := (hentry twice h).1
    exact (hentry.trans (ih _ fun e' he' => hlistened (hentries e' (List.mem_cons_of_mem _ he'))))
      twice h

theorem countsOnceIff_checkBook (s : Sweep) (book : PendingBook) :
    CountsOnceIff (s.AffordsBook N m book) s.exchange.orders (s.checkBook N m book).exchange.orders := by
  intro twice h
  have hentries : ∀ e ∈ (s.exchange.orders.pending book).entries, e.2 ∈ s.exchange.orders.listened :=
    fun e he => h.booked book e.1 e.2 ((Dict.mem_entries_iff _ _ _).mp he)
  have hswept := countsOnceIff_foldl_checkEntry (N := N) (m := m) book _ { s with toRemove := [] }
    hentries
  have hdeleted : ∀ (ids : List String) (t : OrderTable),
      CountsOnce t (ids.foldl (fun t id => t.popPending book id) t) :=
    fun ids t => CountsOnce.foldl id (fun t id => OrderTable.countsOnce_popPending t book id) ids t
  exact ((hswept.trans ((hdeleted _ _).iff trivial)).congr (iff_of_eq (and_true _))) twice h

theorem countsOnceIff_checkAdvancedOrders (x : SimulatedExchange) :
    CountsOnceIff (x.AffordsSweeps N m) x.orders (x.checkAdvancedOrders N m).1.orders := by
  have hbooks : ∀ (books : List PendingBook) (s : Sweep),
      CountsOnceIff (Along (Sweep.checkBook N m) (Sweep.AffordsBook N m) s books) s.exchange.orders
        (books.foldl (Sweep.checkBook N m) s).exchange.orders := by
    intro books
    induction books with
    | nil => exact fun s => (CountsOnce.refl _).iff trivial
    | cons book rest ih => exact fun s => (countsOnceIff_checkBook s book).trans (ih _)
  exact hbooks PendingBook.all { exchange := x }

/-! ### The other calls -/

/-- The entries that a cancel may still find: their orders are pending, or cancelled by now. -/
def Cancellable (t : OrderTable) : Prop :=
  ∀ book k r, (t.pending book).find? k = some r →
    (t.get r).status = .pending ∨ (t.get r).status = .cancelled

theorem cancellable_of_consistent {t : OrderTable} (h : t.Consistent) : Cancellable t :=
  fun book k r hfind => Or.inl ((h.booked book k r hfind).2.2.2.mpr not_false)

theorem countsOnce_cancelEntry {t : OrderTable}
    (hstatus : (t.get r).status = .pending ∨ (t.get r).status = .cancelled) (book : PendingBook)
    (k : String) : CountsOnce t ((t.popPending book k).setStatus r .cancelled) :=
  (OrderTable.countsOnce_popPending t book k).trans (OrderTable.countsOnce_cancel hstatus)

theorem countsOnce_cancelOrder (hvalid : x.orders.Consistent) (id : String) :
    CountsOnce x.orders (x.cancelOrder id).1.orders := by
  obtain hnone | ⟨book, r, hfind, hcancel⟩ := x.cancelOrder_cases id
  · rw [hnone]
    exact .refl _
  · rw [hcancel]
    exact countsOnce_cancelEntry (cancellable_of_consistent hvalid book id r hfind) book id

theorem status_cancelEntry {t : OrderTable} {r' : Ref}
    (hstatus : (t.get r').status = .pending ∨ (t.get r').status = .cancelled) (book : PendingBook)
    (k : String) (r : Ref) : (((t.popPending book k).setStatus r .cancelled).get r').status = .pending ∨
      (((t.popPending book k).setStatus r .cancelled).get r').status = .cancelled := by
  rw [OrderTable.status_setStatus]
  split
  · exact Or.inr rfl
  · exact hstatus

theorem Cancellable.cancelEntry {t : OrderTable} (h : Cancellable t) (book : PendingBook)
    (k : String) (r : Ref) : Cancellable ((t.popPending book k).setStatus r .cancelled) := by
  intro book' k' r' hfind
  refine status_cancelEntry (h book' k' r' ?_) book k r
  change (Function.update t.pending book ((t.pending book).erase k) book').find? k' = some r' at hfind
  by_cases heq : book' = book
  · subst heq
    rw [Function.update_self, Dict.find?_erase] at hfind
    split at hfind
    · cases hfind
    · exact hfind
  · rwa [Function.update_of_ne heq] at hfind

theorem countsOnce_cancelBook (symbol : Option String) (acc : OrderTable × List Ref)
    (h : Cancellable acc.1) (book : PendingBook) :
    CountsOnce acc.1 (cancelBook symbol acc book).1 ∧ Cancellable (cancelBook symbol acc book).1 := by
  unfold cancelBook
  have hentries : ∀ e ∈ (acc.1.pending book).entries.filter fun e =>
      symbol.all fun s => (acc.1.get e.2).symbol = s,
      (acc.1.get e.2).status = .pending ∨ (acc.1.get e.2).status = .cancelled := fun e he =>
    h book e.1 e.2 ((Dict.mem_entries_iff _ _ _).mp (List.mem_of_mem_filter he))
  generalize (acc.1.pending book).entries.filter _ = entries at hentries ⊢
  induction entries generalizing acc with
  | nil => exact ⟨.refl _, h⟩
  | cons e rest ih =>
    have hfirst := countsOnce_cancelEntry (hentries e List.mem_cons_self) book e.1
    obtain ⟨hrest, hleft⟩ := ih
      ((acc.1.popPending book e.1).setStatus e.2 .cancelled, acc.2 ++ [e.2])
      (h.cancelEntry book e.1 e.2) fun e' he' =>
        status_cancelEntry (hentries e' (List.mem_cons_of_mem _ he')) book e.1 e.2
    exact ⟨hfirst.trans hrest, hleft⟩

theorem countsOnce_cancelAllOrders (hvalid : x.orders.Consistent) (symbol : Option String) :
    CountsOnce x.orders (x.cancelAllOrders symbol).1.orders := by
  have hbooks : ∀ (books : List PendingBook) (acc : OrderTable × List Ref), Cancellable acc.1 →
      CountsOnce acc.1 (books.foldl (cancelBook symbol) acc).1 := by
    intro books
    induction books with
    | nil => exact fun _ _ => .refl _
    | cons book rest ih =>
      intro acc hacc
      obtain ⟨hbook, hleft⟩ := countsOnce_cancelBook symbol acc hacc book
      exact hbook.trans (ih _ hleft)
  exact hbooks PendingBook.all (x.orders, []) (cancellable_of_consistent hvalid)

theorem countsOnce_closeTriggeredPosition (acc : SimulatedExchange × List Ref)
    (entry : Ref × CloseTrigger × ℚ) :
    CountsOnce acc.1.orders (closeTriggeredPosition N m acc entry).1.orders := by
  obtain ⟨req, -, horders⟩ := orders_closeTriggeredPosition N m acc entry
  have hsubmit := countsOnce_submitOrder (N := N) (m := m) acc.1 req
  obtain horders | ⟨r, -, horders⟩ := horders
  · rw [horders]
    exact hsubmit
  · rw [horders]
    apply hsubmit.trans
    exact OrderTable.countsOnce_update _ _ fun _ => rfl

theorem countsOnce_checkStopLossTakeProfit (x : SimulatedExchange) :
    CountsOnce x.orders (x.checkStopLossTakeProfit N m).1.orders := by
  unfold checkStopLossTakeProfit
  have hmarked := orders_foldl_markAndCheck (N := N) (m := m) x.ledger.account.positions (x, [])
  generalize x.ledger.account.positions.foldl (markAndCheck N m) (x, []) = marked at hmarked ⊢
  rw [← hmarked]
  exact .foldl (fun acc : SimulatedExchange × List Ref => acc.1.orders)
    (fun acc entry => countsOnce_closeTriggeredPosition acc entry) _ (marked.1, [])

/-- If the call is a sweep, it refuses no resting order. -/
def AffordsCall (N : Numerics) (x : SimulatedExchange) (call : MarketView × Operation) : Prop :=
  call.2 = .checkAdvancedOrders → x.AffordsSweeps N call.1

theorem countsOnceIff_step (hvalid : x.orders.Consistent) (call : MarketView × Operation) :
    CountsOnceIff (x.AffordsCall N call) x.orders (x.step N call).orders := by
  obtain ⟨m, op⟩ := call
  cases op with
  | submitOrder req => exact (countsOnce_submitOrder x req).iff fun hc => nomatch hc
  | checkAdvancedOrders =>
    exact (countsOnceIff_checkAdvancedOrders x).congr ⟨fun h _ => h, fun h => h rfl⟩
  | checkStopLossTakeProfit =>
    exact (countsOnce_checkStopLossTakeProfit x).iff fun hc => nomatch hc
  | cancelOrder id => exact (countsOnce_cancelOrder hvalid id).iff fun hc => nomatch hc
  | cancelAllOrders symbol => exact (countsOnce_cancelAllOrders hvalid symbol).iff fun hc => nomatch hc
  | chargeFunding rate => exact CountsOnce.iff (.refl _) fun hc => nomatch hc

/-- A run counts every order once if all its calls afford what they execute, and only then. -/
theorem countsOnceIff_run {initialBalance : ℚ} (calls : List (MarketView × Operation))
    (x : SimulatedExchange) (hsound : x.Sound initialBalance) :
    CountsOnceIff (Along (step N) (AffordsCall N) x calls) x.orders (run (step N) x calls).orders := by
  induction calls generalizing x with
  | nil => exact CountsOnce.iff (.refl _) trivial
  | cons call rest ih =>
    exact (countsOnceIff_step hsound.orders call).trans (ih _ (hsound.step call))

end SimulatedExchange

namespace OrderTable

/-- The counters of the history are the numbers of the recorded orders: of all, and by their status. -/
def CountersExact (t : OrderTable) : Prop :=
  t.history.submitted = t.recorded.card ∧
    t.history.filled = t.withStatus .filled ∧ t.history.rejected = t.withStatus .rejected ∧
    t.history.cancelled = t.withStatus .cancelled ∧
    t.history.filled + t.history.rejected + t.history.cancelled + t.withStatus .pending =
      t.history.submitted

theorem card_recorded (t : OrderTable) : t.recorded.card = t.withStatus .filled +
    (t.withStatus .rejected + (t.withStatus .cancelled + t.withStatus .pending)) := by
  have hstatus : ∀ status : OrderStatus,
      status ∈ ({.filled, .rejected, .cancelled, .pending} : Finset OrderStatus) := by
    intro status
    cases status with
    | pending => decide
    | filled => decide
    | rejected => decide
    | cancelled => decide
  have hsplit : t.recorded.card = ∑ status ∈ {OrderStatus.filled, .rejected, .cancelled, .pending},
      t.withStatus status :=
    Finset.card_eq_sum_card_fiberwise fun r _ => hstatus (t.get r).status
  rw [hsplit, Finset.sum_insert (by decide), Finset.sum_insert (by decide),
    Finset.sum_insert (by decide), Finset.sum_singleton]

theorem Counted.countersExact_iff {twice : ℕ} {t : OrderTable} (h : t.Counted twice) :
    t.CountersExact ↔ twice = 0 := by
  have hfilled : t.history.filled = t.withStatus .filled := h.final .filled fun hc => nomatch hc
  have hrejected : t.history.rejected = t.withStatus .rejected + twice :=
    h.final .rejected fun hc => nomatch hc
  have hcancelled : t.history.cancelled = t.withStatus .cancelled :=
    h.final .cancelled fun hc => nomatch hc
  constructor
  · intro hexact
    have hsubmitted := h.submitted
    rw [hexact.1] at hsubmitted
    omega
  · rintro rfl
    refine ⟨h.submitted, hfilled, hrejected, hcancelled, ?_⟩
    rw [hfilled, hrejected, hcancelled, h.submitted, card_recorded]
    omega

/-- Nothing is recorded at first. -/
theorem counted_empty : Counted 0 {} := by
  refine ⟨fun r hr => absurd hr List.not_mem_nil, (fun book k r hfind => nomatch hfind), rfl, ?_⟩
  intro status _
  cases status with
  | pending => rfl
  | filled => rfl
  | rejected => rfl
  | cancelled => rfl

end OrderTable

namespace SimulatedExchange

variable (N : Numerics) (exchangeId currency : String)
  (feePct slippageBps initialBalance leverage : ℚ)

/-- The counters of a reachable exchange are exact if and only if no sweep on the way has refused a
resting order. -/
theorem countersExact_after_iff (calls : List (MarketView × Operation)) :
    (after N exchangeId currency feePct slippageBps initialBalance leverage calls).orders.CountersExact ↔
      Along (step N) (AffordsCall N)
        (init exchangeId feePct slippageBps initialBalance leverage currency) calls := by
  have hrun := countsOnceIff_run (N := N) calls _
    (sound_init exchangeId feePct slippageBps initialBalance leverage currency)
  obtain ⟨-, again, hagain, hcounted⟩ := hrun 0 OrderTable.counted_empty
  rw [Nat.zero_add] at hcounted
  exact hcounted.countersExact_iff.trans hagain

/-- A purchase for far more than the account can carry rests until the market comes down to it. -/
def restingPurchase : OrderRequest where
  symbol := "BTC"
  side := .buy
  quantity := 1000
  orderType := .limit
  price := some 90

/-- The only order there is, refused by a sweep, is counted twice as submitted and as rejected. -/
theorem not_countersExact_refused :
    let calls := [(flatMarket 100, Operation.submitOrder restingPurchase),
      (flatMarket 80, Operation.checkAdvancedOrders)]
    let orders := (after Numerics.decimal "binance" "USDT" (1 / 10) 5 10000 10 calls).orders
    orders.recorded = {0} ∧ (orders.get 0).status = .rejected ∧
      orders.history.submitted = 2 ∧ orders.history.rejected = 2 ∧ ¬ orders.CountersExact := by
  intro calls orders
  have hrecorded : orders.recorded = {0} := by decide +kernel
  have hsubmitted : orders.history.submitted = 2 := by decide +kernel
  refine ⟨hrecorded, by decide +kernel, hsubmitted, by decide +kernel, fun hexact => ?_⟩
  have hcount := hexact.1
  rw [hsubmitted, hrecorded] at hcount
  exact absurd hcount (by decide)

end SimulatedExchange

end TradingSim.Exchange
