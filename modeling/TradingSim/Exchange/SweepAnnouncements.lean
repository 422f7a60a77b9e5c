import TradingSim.Exchange.Announcements

/-!
# Which orders a sweep tells of

`check_advanced_orders` returns the orders that it has executed, refused or found expired. Two
branches of the source take other orders out of the books as well. Executing an order cancels the
resting orders of its OCO group, which are not returned, and the slice that uses an iceberg up is
returned in the place of the iceberg. `SparesSweeps` says, of the state before each check, that
neither branch is taken.
-/

namespace TradingSim.Exchange

open Foundations

/-- The price at which `_execute_market_order` fills. -/
def SimulatedExchange.slippedPrice (x : SimulatedExchange) (side : Side) (price : ℚ) : ℚ :=
  match side with
  | .buy => price + price * x.slippageBps / 10000
  | .sell => price - price * x.slippageBps / 10000

namespace Sweep

/-- If the check of a pending order executes it at the current price, no order of its group rests
besides, and a slice leaves some of its iceberg. -/
def SparesPending (N : Numerics) (m : MarketView) (x : SimulatedExchange) (order : Order)
    (currentPrice : ℚ) : PendingBook → OrderKind → Prop
  | .limits, _ =>
    ∀ price ∈ order.price, marketable order.side price currentPrice = true →
      order.expireTs.any (· ≤ m.now) = false → x.checkMargin N order price = none →
        x.orders.Unrivalled order.id order.ocoGroupId
  | .stopLimits, .stopLimit fields =>
    (fields.checkTrigger order.side currentPrice).triggered = true →
      marketable order.side fields.limitPrice currentPrice = true →
        x.checkMargin N order fields.limitPrice = none → x.orders.Unrivalled order.id order.ocoGroupId
  | .trailingStops, .trailingStop fields =>
    (fields.updateStopPrice order.side currentPrice).reached order.side currentPrice = true →
      x.checkMargin N order (x.slippedPrice order.side currentPrice) = none →
        x.orders.Unrivalled order.id order.ocoGroupId
  | .icebergs, .iceberg fields =>
    ∀ price ∈ icebergPrice order currentPrice, 0 < fields.hiddenQuantity →
      x.checkMargin N (x.createIcebergSliceOrder N order fields price) price = none →
        fields.sliceQuantity < fields.hiddenQuantity
  | _, _ => True

instance (N : Numerics) (m : MarketView) (x : SimulatedExchange) (order : Order) (currentPrice : ℚ) :
    ∀ book kind, Decidable (SparesPending N m x order currentPrice book kind)
  | .limits, _ => inferInstanceAs (Decidable (∀ price ∈ order.price, _ → _ → _ → _))
  | .stopLimits, .stopLimit _ => inferInstanceAs (Decidable (_ → _ → _ → _))
  | .trailingStops, .trailingStop _ => inferInstanceAs (Decidable (_ → _ → _))
  | .icebergs, .iceberg _ =>
    inferInstanceAs (Decidable (∀ price ∈ icebergPrice order currentPrice, _ → _ → _))
  | .stopLimits, .plain | .stopLimits, .trailingStop _ | .stopLimits, .iceberg _
  | .trailingStops, .plain | .trailingStops, .stopLimit _ | .trailingStops, .iceberg _
  | .icebergs, .plain | .icebergs, .stopLimit _ | .icebergs, .trailingStop _ => isTrue trivial

/-- The check of an entry takes no order out of the books that it does not report. -/
def SparesEntry (N : Numerics) (m : MarketView) (book : PendingBook) (s : Sweep)
    (entry : String × Ref) : Prop :=
  let order := s.exchange.orders.get entry.2
  let currentPrice := m.currentPrice order.symbol
  order.status = .pending → currentPrice ≠ 0 →
    SparesPending N m s.exchange order currentPrice book order.kind

/-- Nor does the sweep of a book. -/
def SparesBook (N : Numerics) (m : MarketView) (s : Sweep) (book : PendingBook) : Prop :=
  Along (checkEntry N m book) (SparesEntry N m book) { s with toRemove := [] }
    (s.exchange.orders.pending book).entries

instance (N : Numerics) (m : MarketView) (book : PendingBook) (s : Sweep) (entry : String × Ref) :
    Decidable (s.SparesEntry N m book entry) :=
  inferInstanceAs (Decidable (_ → _ → _))

instance (N : Numerics) (m : MarketView) (s : Sweep) (book : PendingBook) :
    Decidable (s.SparesBook N m book) :=
  inferInstanceAs (Decidable (Along _ _ _ _))

/-- From one moment of a sweep to a later one, the exchange tells of the orders that were added to
`filled_orders`, and those are done with. -/
def Reports (s s' : Sweep) : Prop :=
  ∃ told, s'.filledOrders = s.filledOrders ++ told ∧ s.exchange.Tells told s'.exchange ∧
    s'.exchange.Concluded told

theorem reports_of_tells {s s' : Sweep} (hfilled : s'.filledOrders = s.filledOrders)
    (h : s.exchange.Tells [] s'.exchange) : s.Reports s' :=
  ⟨[], by rw [hfilled, List.append_nil], h, fun _ hr => absurd hr List.not_mem_nil⟩

end Sweep

namespace SimulatedExchange

variable {N : Numerics} {m : MarketView} {x : SimulatedExchange} {r : Ref}
  {stale : PendingBook → String → Prop} {book : PendingBook} {ids : List String} {s : Sweep}
  {id : String}

theorem tells_execute (hvalid : x.orders.Valid stale) (hr : x.Resting book r)
    {f : Order → Order} (hexchange : ∀ o, (f o).exchange = o.exchange)
    (happly : ∃ price slippage fee, f { x.orders.get r with status := .filled } =
      { x.orders.get r with
        status := .filled
        filledPrice := price
        filledQuantity := (x.orders.get r).quantity
        slippage := slippage
        fee := fee })
    (halone : x.orders.Unrivalled (x.orders.get r).id (x.orders.get r).ocoGroupId)
    (fillPrice : ℚ) :
    Tells [r] x ((x.withOrders ((x.orders.setStatus r .filled).update r f)).finalizeOrderExecution N m
        r fillPrice) ∧
      ((x.withOrders ((x.orders.setStatus r .filled).update r f)).finalizeOrderExecution N m r
        fillPrice).Concluded [r] := by
  obtain ⟨price, slippage, fee, happly⟩ := happly
  obtain ⟨hevolves, hdone⟩ := evolves_filled hr.pending happly
  obtain ⟨htells, hconcluded⟩ := tells_fill hvalid hr.issued
    ((x.orders.setStatus r .filled).update r f) (OrderTable.objects_update_setStatus _ _ _ _)
    (fun o => hexchange { o with status := .filled }) hevolves hdone rfl rfl rfl rfl
    fun r' hr' => hvalid.not_rival halone hr'
  exact ⟨htells.congr rfl rfl, hconcluded⟩

/-- Turning a resting order away. -/
theorem tells_conclude (hr : x.Resting book r) {status : OrderStatus} (hstatus : status ≠ .pending)
    (reason : String) : Tells [r] x (x.withOrders (x.orders.conclude r status reason)) ∧
      (x.withOrders (x.orders.conclude r status reason)).Concluded [r] :=
  tells_finish hr.issued.1 (OrderTable.objects_conclude x.orders r status reason) (fun _ => rfl)
    (fun _ => hstatus) rfl rfl

theorem tells_executeLimitOrder (hvalid : x.orders.Valid stale) (hr : x.Resting book r)
    (price : ℚ) (halone : x.checkMargin N (x.orders.get r) price = none →
      x.orders.Unrivalled (x.orders.get r).id (x.orders.get r).ocoGroupId) :
    Tells [r] x (x.executeLimitOrder N m r price) ∧ (x.executeLimitOrder N m r price).Concluded [r] := by
  unfold executeLimitOrder
  split
  · exact tells_conclude hr (by decide) _
  · rename_i hmargin
    refine tells_execute hvalid hr ?_ ?_ (halone hmargin) price
    · exact fun _ => rfl
    · exact ⟨_, _, _, rfl⟩

theorem tells_executeMarketOrder (hvalid : x.orders.Valid stale) (hr : x.Resting book r)
    (price : ℚ) (halone :
      x.checkMargin N (x.orders.get r) (x.slippedPrice (x.orders.get r).side price) = none →
        x.orders.Unrivalled (x.orders.get r).id (x.orders.get r).ocoGroupId) :
    Tells [r] x (x.executeMarketOrder N m r price) ∧ (x.executeMarketOrder N m r price).Concluded [r] := by
  unfold executeMarketOrder
  simp only
  split
  · exact tells_conclude hr (by decide) _
  · rename_i hmargin
    refine tells_execute hvalid hr ?_ ?_ (halone hmargin) _
    · exact fun _ => rfl
    · exact ⟨_, _, _, rfl⟩

/-- Whether a group has a resting order is not changed by what keeps the statuses and the books. -/
theorem unrivalled_congr {t t' : OrderTable} {group : Option String}
    (hpending : t'.pending = t.pending) (hsame : ∀ r, (t'.get r).id = (t.get r).id ∧
      (t'.get r).status = (t.get r).status ∧ (t'.get r).ocoGroupId = (t.get r).ocoGroupId)
    (h : t.Unrivalled id group) : t'.Unrivalled id group := by
  intro r hr
  rw [OrderTable.pendingOrders, hpending] at hr
  obtain ⟨hid, hstatus, hgroup⟩ := hsame r
  unfold OrderTable.Rival
  rw [hid, hstatus, hgroup]
  exact h r hr

/-- Rewriting the class fields of a resting order tells of nothing. -/
theorem tells_touchKind (hvalid : x.orders.Valid (staleIn book ids)) (hr : x.Resting book r)
    (kind : OrderKind) (hkind : (x.orders.get r).kind.Evolves kind) :
    let touched := x.withOrders (x.orders.update r fun o => { o with kind := kind })
    Tells [] x touched ∧ touched.orders.Valid (staleIn book ids) ∧ touched.Resting book r ∧
      touched.orders.get r = { x.orders.get r with kind := kind } ∧
      ∀ id group, x.orders.Unrivalled id group → touched.orders.Unrivalled id group := by
  intro touched
  have hstart : Progress Numerics.decimal False False x (staleIn book ids) x :=
    .refl hvalid False.elim
  obtain ⟨hprogress, hresting, -⟩ := hstart.touchKind hr kind hkind
  have hget : ∀ r', touched.orders.get r' =
      if r' = r then { x.orders.get r' with kind := kind } else x.orders.get r' :=
    fun r' => Heap.get_modify _ hr.issued.1 r' _
  refine ⟨.modify rfl (fun _ => rfl) (Or.inr (Or.inr rfl)) rfl rfl, hprogress.orders, hresting, ?_, ?_⟩
  · rw [hget, if_pos rfl]
  · intro id group
    refine unrivalled_congr rfl fun r' => ?_
    rw [hget]
    split
    · exact ⟨rfl, rfl, rfl⟩
    · exact ⟨rfl, rfl, rfl⟩

/-! ### One entry of a sweep -/

theorem reports_checkLimit (hvalid : s.exchange.orders.Valid (staleIn book s.toRemove))
    (hr : s.exchange.Resting book r) (hspares : s.SparesEntry N m .limits (id, r)) :
    s.Reports (s.checkLimit N m r id) := by
  unfold Sweep.checkLimit
  simp only
  split
  · obtain ⟨htells, hdone⟩ := tells_finish hr.issued.1 (t := (s.exchange.orders.setStatus r
      .cancelled).update r fun o => { o with rejectionReason := some "GTD_EXPIRED" })
      (OrderTable.objects_update_setStatus _ _ _ _) (fun _ => rfl) (fun _ hc => by cases hc) rfl rfl
    exact ⟨[r], rfl, htells, hdone⟩
  · rename_i hfresh
    split
    · exact Sweep.reports_of_tells rfl (.refl _)
    · rename_i hquoted
      split
      · exact Sweep.reports_of_tells rfl (.refl _)
      · rename_i price hprice
        split
        · rename_i hmarket
          obtain ⟨htells, hdone⟩ := tells_executeLimitOrder (m := m) hvalid hr price
            fun hmargin => hspares hr.pending hquoted price hprice hmarket
              (by simpa using hfresh) hmargin
          exact ⟨[r], rfl, htells, hdone⟩
        · exact Sweep.reports_of_tells rfl (.refl _)

theorem reports_checkStopLimit (hvalid : s.exchange.orders.Valid (staleIn book s.toRemove))
    (hr : s.exchange.Resting book r) (hspares : s.SparesEntry N m .stopLimits (id, r)) :
    s.Reports (s.checkStopLimit N m r id) := by
  unfold Sweep.checkStopLimit
  simp only
  split
  · exact Sweep.reports_of_tells rfl (.refl _)
  · rename_i hquoted
    have hguard := hspares hr.pending hquoted
    cases hkind : (s.exchange.orders.get r).kind with
    | stopLimit fields =>
      simp only [hkind, Sweep.SparesPending] at hguard ⊢
      obtain ⟨htouched, hvalid', hr', hget, halone⟩ := tells_touchKind hvalid hr
        (.stopLimit (fields.checkTrigger (s.exchange.orders.get r).side
          (m.currentPrice (s.exchange.orders.get r).symbol))) (by rw [hkind]; trivial)
      split
      · rename_i hreached
        rw [Bool.and_eq_true] at hreached
        obtain ⟨htells, hdone⟩ := tells_executeLimitOrder (m := m) hvalid' hr' fields.limitPrice (by
          rw [hget]
          exact fun hmargin => halone _ _ (hguard hreached.1 hreached.2 hmargin))
        exact ⟨[r], rfl, htouched.trans htells, hdone⟩
      · exact Sweep.reports_of_tells rfl htouched
    | plain => exact Sweep.reports_of_tells rfl (.refl _)
    | trailingStop _ => exact Sweep.reports_of_tells rfl (.refl _)
    | iceberg _ => exact Sweep.reports_of_tells rfl (.refl _)

theorem reports_checkTrailingStop (hvalid : s.exchange.orders.Valid (staleIn book s.toRemove))
    (hr : s.exchange.Resting book r) (hspares : s.SparesEntry N m .trailingStops (id, r)) :
    s.Reports (s.checkTrailingStop N m r id) := by
  unfold Sweep.checkTrailingStop
  simp only
  split
  · exact Sweep.reports_of_tells rfl (.refl _)
  · rename_i hquoted
    have hguard := hspares hr.pending hquoted
    cases hkind : (s.exchange.orders.get r).kind with
    | trailingStop fields =>
      simp only [hkind, Sweep.SparesPending] at hguard ⊢
      obtain ⟨htouched, hvalid', hr', hget, halone⟩ := tells_touchKind hvalid hr
        (.trailingStop (fields.updateStopPrice (s.exchange.orders.get r).side
          (m.currentPrice (s.exchange.orders.get r).symbol))) (by rw [hkind]; trivial)
      split
      · rename_i hreached
        obtain ⟨htells, hdone⟩ := tells_executeMarketOrder (m := m) hvalid' hr'
          (m.currentPrice (s.exchange.orders.get r).symbol) (by
            rw [hget]
            exact fun hmargin => halone _ _ (hguard hreached hmargin))
        exact ⟨[r], rfl, htouched.trans htells, hdone⟩
      · exact Sweep.reports_of_tells rfl htouched
    | plain => exact Sweep.reports_of_tells rfl (.refl _)
    | stopLimit _ => exact Sweep.reports_of_tells rfl (.refl _)
    | iceberg _ => exact Sweep.reports_of_tells rfl (.refl _)

theorem reports_slice (hvalid : s.exchange.orders.Valid (staleIn book s.toRemove))
    (hr : s.exchange.Resting book r) {fields : IcebergFields}
    (hkind : (s.exchange.orders.get r).kind = .iceberg fields) (hhidden : 0 < fields.hiddenQuantity)
    (price : ℚ) (hleft : s.exchange.checkMargin N (s.exchange.createIcebergSliceOrder N
      (s.exchange.orders.get r) fields price) price = none →
        fields.sliceQuantity < fields.hiddenQuantity) : s.Reports (Sweep.finishIceberg { s with
      exchange := (s.exchange.executeIcebergSlice N m r fields price).1
      filledOrders := s.filledOrders ++ [(s.exchange.executeIcebergSlice N m r fields price).2] } r id)
    := by
  have hslice : ∀ n, (s.exchange.createIcebergSliceOrder N (s.exchange.orders.get r) fields
      price).id ≠ orderId n := fun n heq => orderId_ne_slice n _ _ heq.symm
  have hstart : Progress N False False s.exchange (staleIn book s.toRemove) s.exchange :=
    .refl hvalid False.elim
  generalize horder : s.exchange.createIcebergSliceOrder N (s.exchange.orders.get r) fields price =
    order at hslice hleft
  have hstatus : order.status = .pending := by rw [← horder]; rfl
  have hexchange : order.exchange = s.exchange.exchangeId := by rw [← horder]; rfl
  have hcreate : Tells [s.exchange.orders.objects.next] s.exchange
      (s.exchange.withOrders (s.exchange.orders.create order)) := .create hvalid hexchange
  have hlive : (s.exchange.orders.create order).objects.Live s.exchange.orders.objects.next :=
    (Heap.live_alloc _ _ _).mpr (Or.inr rfl)
  unfold executeIcebergSlice
  simp only [horder]
  cases hmargin : s.exchange.checkMargin N order price with
  | some reason =>
    obtain ⟨-, hget⟩ := hstart.refuseSlice hr hslice hstatus reason
    obtain ⟨htells, hdone⟩ := tells_finish (x := s.exchange.withOrders
      (s.exchange.orders.create order)) hlive (OrderTable.objects_conclude _ _ .rejected reason)
      (fun _ => rfl) (fun _ hc => by cases hc) rfl rfl
    have hkind' : (((s.exchange.orders.create order).conclude s.exchange.orders.objects.next
        .rejected reason).get r).kind = .iceberg fields := by rw [hget, hkind]
    refine ⟨[s.exchange.orders.objects.next], ?_⟩
    simp only [Sweep.finishIceberg, withOrders, hkind', if_neg (not_le.mpr hhidden)]
    exact ⟨trivial, hcreate.tail htells, hdone⟩
  | none =>
    obtain ⟨-, -, hget, hgetSlice⟩ := hstart.showSlice hr hkind hhidden hslice hstatus
      (N.roundPrice price)
    have hshow : Tells [s.exchange.orders.objects.next]
        (s.exchange.withOrders (s.exchange.orders.create order))
        (s.exchange.withOrders ((s.exchange.orders.create order).update r fun o =>
          { o with kind := .iceberg fields.afterSlice })) :=
      .modify rfl (fun _ => rfl) (Or.inr (Or.inr rfl)) rfl rfl
    have hfill := tells_finish (x := s.exchange.withOrders ((s.exchange.orders.create order).update r
        fun o => { o with kind := .iceberg fields.afterSlice }))
      ((Heap.live_modify _ _ _ _).mpr hlive)
      (OrderTable.objects_update_setStatus _ s.exchange.orders.objects.next .filled fun o =>
        { o with filledPrice := N.roundPrice price, filledQuantity := fields.sliceQuantity })
      (fun _ => rfl) (fun _ hc => by cases hc) rfl rfl
    have hkept : ¬ fields.afterSlice.hiddenQuantity ≤ 0 := by
      rw [fields.afterSlice_eq.2]
      linarith [hleft hmargin]
    refine ⟨[s.exchange.orders.objects.next], ?_⟩
    simp only [Sweep.finishIceberg, finalizeIcebergExecution, withOrders, hget, if_neg hkept]
    exact ⟨trivial, ((hcreate.tail hshow).tail hfill.1).congr rfl rfl, hfill.2⟩

theorem reports_checkIceberg (hvalid : s.exchange.orders.Valid (staleIn book s.toRemove))
    (hr : s.exchange.Resting book r) (hspares : s.SparesEntry N m .icebergs (id, r)) :
    s.Reports (s.checkIceberg N m r id) := by
  unfold Sweep.checkIceberg
  simp only
  split
  · exact Sweep.reports_of_tells rfl (.refl _)
  · rename_i hquoted
    have hguard := hspares hr.pending hquoted
    cases hkind : (s.exchange.orders.get r).kind with
    | iceberg fields =>
      simp only [hkind, Sweep.SparesPending] at hguard ⊢
      split
      · rename_i hhidden
        split
        · exact Sweep.reports_of_tells rfl (.refl _)
        · rename_i price hprice
          exact reports_slice hvalid hr hkind hhidden price (hguard price hprice hhidden)
      · exact Sweep.reports_of_tells rfl (.refl _)
    | plain => exact Sweep.reports_of_tells rfl (.refl _)
    | stopLimit _ => exact Sweep.reports_of_tells rfl (.refl _)
    | trailingStop _ => exact Sweep.reports_of_tells rfl (.refl _)

theorem reports_checkEntry {entry : String × Ref}
    (hvalid : s.exchange.orders.Valid (staleIn book s.toRemove))
    (hissued : s.exchange.orders.Issued entry.2) (hrests : (s.exchange.orders.get entry.2).Rests book)
    (hspares : s.SparesEntry N m book entry) : s.Reports (s.checkEntry N m book entry) := by
  unfold Sweep.checkEntry
  split
  · exact Sweep.reports_of_tells rfl (.refl _)
  · rename_i hstatus
    have hr : s.exchange.Resting book entry.2 := ⟨hissued, not_not.mp hstatus, hrests⟩
    cases book with
    | limits => exact reports_checkLimit hvalid hr hspares
    | stopLimits => exact reports_checkStopLimit hvalid hr hspares
    | trailingStops => exact reports_checkTrailingStop hvalid hr hspares
    | icebergs => exact reports_checkIceberg hvalid hr hspares

/-! ### A whole sweep -/

/-- A sweep has told of the orders that it has collected, and of no others. -/
structure Tracked (start : SimulatedExchange) (s : Sweep) : Prop where
  tells : Tells s.filledOrders start s.exchange
  done : s.exchange.Concluded s.filledOrders

theorem Tracked.reports {start : SimulatedExchange} {s s' : Sweep} (h : Tracked start s)
    (hreports : s.Reports s') (hevolves : s.exchange.orders.Evolves s'.exchange.orders) :
    Tracked start s' := by
  obtain ⟨told, hfilled, htells, hdone⟩ := hreports
  refine ⟨hfilled ▸ h.tells.trans htells, ?_⟩
  intro r hr
  rw [hfilled] at hr
  rcases List.mem_append.mp hr with hold | hnew
  · obtain ⟨hlive, hstatus⟩ := h.done r hold
    obtain ⟨hlive', hev⟩ := hevolves r hlive
    exact ⟨hlive', (hev.frozen hstatus).1 ▸ hstatus⟩
  · exact hdone r hnew

theorem Tracked.foldl_checkEntry {start : SimulatedExchange} (entries : List (String × Ref))
    {s : Sweep} (h : Tracked start s) (hvalid : s.exchange.orders.Valid (staleIn book s.toRemove))
    (hentries : ∀ e ∈ entries, s.exchange.orders.Issued e.2 ∧
      (s.exchange.orders.get e.2).id = e.1 ∧ (s.exchange.orders.get e.2).Rests book)
    (hspares : Along (Sweep.checkEntry N m book) (Sweep.SparesEntry N m book) s entries) :
    Tracked start (entries.foldl (Sweep.checkEntry N m book) s) ∧
      (entries.foldl (Sweep.checkEntry N m book) s).exchange.orders.Valid
        (staleIn book (entries.foldl (Sweep.checkEntry N m book) s).toRemove) := by
  induction entries generalizing s with
  | nil => exact ⟨h, hvalid⟩
  | cons e rest ih =>
    obtain ⟨hissued, hid, hrests⟩ := hentries e List.mem_cons_self
    have hstart : Progress N False False s.exchange (staleIn book s.toRemove) s.exchange :=
      .refl hvalid False.elim
    have hprogress := hstart.checkEntry (m := m) hissued hid hrests False.elim
    have hevolves := hprogress.evolves
    refine ih (h.reports (reports_checkEntry hvalid hissued hrests hspares.1) hevolves)
      hprogress.orders ?_ hspares.2
    intro e' he'
    obtain ⟨hissued', hid', hrests'⟩ := hentries e' (List.mem_cons_of_mem e he')
    have hev := (hevolves e'.2 hissued'.1).2
    exact ⟨hissued'.evolves hevolves, hev.id.trans hid', hrests'.evolves hev⟩

theorem Tracked.checkBook {start : SimulatedExchange} {s : Sweep} (h : Tracked start s)
    (hvalid : s.exchange.orders.Consistent) (book : PendingBook)
    (hspares : s.SparesBook N m book) : Tracked start (s.checkBook N m book) := by
  have hentries : ∀ e ∈ (s.exchange.orders.pending book).entries,
      s.exchange.orders.Issued e.2 ∧ (s.exchange.orders.get e.2).id = e.1 ∧
        (s.exchange.orders.get e.2).Rests book := by
    intro e he
    obtain ⟨hissued, hid, hrests, -⟩ :=
      hvalid.booked book e.1 e.2 ((Dict.mem_entries_iff _ _ _).mp he)
    exact ⟨hissued, hid, hrests⟩
  have hfrom : s.exchange.orders.Valid (staleIn book []) :=
    hvalid.stale_congr fun _ _ _ _ => by simp [staleIn]
  obtain ⟨hswept, hvalid'⟩ := Tracked.foldl_checkEntry (s := { s with toRemove := [] })
    (s.exchange.orders.pending book).entries ⟨h.tells, h.done⟩ hfrom hentries hspares
  exact hswept.reports (Sweep.reports_of_tells rfl (.deleteIds book _ _)) hvalid'.deleteIds.1.evolves

/-- No sweep takes an order out of the books that it does not report. -/
def SparesSweeps (N : Numerics) (m : MarketView) (x : SimulatedExchange) : Prop :=
  Along (Sweep.checkBook N m) (Sweep.SparesBook N m) { exchange := x } PendingBook.all

instance (N : Numerics) (m : MarketView) (x : SimulatedExchange) : Decidable (x.SparesSweeps N m) :=
  inferInstanceAs (Decidable (Along _ _ _ _))

theorem tells_checkAdvancedOrders (hvalid : x.orders.Consistent) (hspares : x.SparesSweeps N m) :
    Tells (x.checkAdvancedOrders N m).2 x (x.checkAdvancedOrders N m).1 ∧
      (x.checkAdvancedOrders N m).1.Concluded (x.checkAdvancedOrders N m).2 := by
  have hstart : Tracked x { exchange := x } ∧ x.orders.Consistent :=
    ⟨⟨.refl x, fun _ hr => absurd hr List.not_mem_nil⟩, hvalid⟩
  have hstep : ∀ (s : Sweep) (book : PendingBook), Tracked x s ∧ s.exchange.orders.Consistent →
      s.SparesBook N m book →
        Tracked x (s.checkBook N m book) ∧ (s.checkBook N m book).exchange.orders.Consistent := by
    intro s book ⟨htracked, hconsistent⟩ hguard
    have hunchanged : Progress N False False s.exchange noneStale s.exchange :=
      .refl hconsistent False.elim
    exact ⟨htracked.checkBook hconsistent book hguard,
      (hunchanged.checkBook False.elim book).orders⟩
  obtain ⟨hswept, -⟩ := run_invariant_of_along _ hstep hstart hspares
  rw [run] at hswept
  unfold checkAdvancedOrders
  generalize PendingBook.all.foldl (Sweep.checkBook N m) { exchange := x } = swept at hswept ⊢
  exact ⟨hswept.tells, hswept.done⟩

end SimulatedExchange

end TradingSim.Exchange
