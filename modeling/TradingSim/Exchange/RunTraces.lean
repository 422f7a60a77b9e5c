import TradingSim.Exchange.OrderInstructions
import TradingSim.Exchange.SubmissionTraces
import TradingSim.Exchange.SweepAnnouncements

/-!
# What a call executes

Every call on an exchange is a chain of moves: sweeps execute resting orders and slices of icebergs,
forced closes submit market orders, and the rest of the calls execute nothing.
-/

namespace TradingSim.Exchange

open Foundations

theorem OrderType.book_injective {type type' : OrderType} {book : PendingBook}
    (h : type.book = some book) (h' : type'.book = some book) : type = type' := by
  revert h h'
  cases book <;> cases type <;> cases type' <;> decide

theorem StopLimitFields.limitPrice_checkTrigger (fields : StopLimitFields) (side : Side)
    (currentPrice : ℚ) : (fields.checkTrigger side currentPrice).limitPrice = fields.limitPrice := by
  unfold checkTrigger
  split
  · rfl
  · cases side <;> rfl

namespace SimulatedExchange

variable {N : Numerics} {m : MarketView} {x : SimulatedExchange} {r : Ref} {book : PendingBook}
  {s : Sweep} {id : String}

theorem executes_money {l : Ledger} (hstep : Ledger.LedgerStep N x.ledger l)
    (hfills : l.fills = x.ledger.fills) : x.Executes N m [] { x with ledger := l } := by
  have hmove : Move N m x.desk [] { x.desk with ledger := l } := .money x.desk l hstep hfills
  exact .single hmove

/-- Turning a resting order away. -/
theorem executes_conclude (hlive : x.orders.objects.Live r)
    (hpending : (x.orders.get r).status = .pending) {status : OrderStatus}
    (hstatus : status ≠ .filled) (reason : String) :
    x.Executes N m [] (x.withOrders (x.orders.conclude r status reason)) :=
  executes_amend hlive (OrderTable.objects_conclude _ _ _ _) rfl
    (amends_status (Or.inr ⟨hpending, hstatus⟩))

/-! ### Resting orders -/

/-- Executing a resting order in full, at a price that comes from its limit or from the market. -/
theorem executes_execute (hr : x.Resting book r) {f : Order → Order} {recorded slippage fee : ℚ}
    (happly : f { x.orders.get r with status := .filled } = { x.orders.get r with
      status := .filled
      filledPrice := recorded
      filledQuantity := (x.orders.get r).quantity
      slippage := slippage
      fee := fee })
    (basis : PriceBasis) (hbasis : (x.orders.get r).RestsAt basis)
    (hquoted : basis.QuotedBy m (x.orders.get r).symbol) {fillPrice : ℚ}
    (hprice : fillPrice =
      basis.basePrice x.slippageBps (x.orders.get r).side (x.orders.get r).quantity)
    (hrecorded : recorded = N.roundPrice
      (basis.exactPrice x.slippageBps (x.orders.get r).side (x.orders.get r).quantity))
    (hfee : fee = N.round (fillPrice * (x.orders.get r).quantity * x.feePct / 100) 4) :
    ∃ es, x.Executes N m es
      ((x.withOrders ((x.orders.setStatus r .filled).update r f)).finalizeOrderExecution N m r
        fillPrice) := by
  set filled := (x.orders.setStatus r .filled).update r f with hfilled
  set order : Order := { x.orders.get r with
    status := .filled
    filledPrice := recorded
    filledQuantity := (x.orders.get r).quantity
    slippage := slippage
    fee := fee } with horder
  have hget : filled.get r = order := by
    rw [hfilled, OrderTable.get_update_setStatus hr.issued.1]
    exact happly
  let e : Execution := {
    order := order
    basis := basis
    fee := fee
    notional := fillPrice * (x.orders.get r).quantity
    margin := x.ledger.marginFor (fillPrice * (x.orders.get r).quantity) }
  have hcharged : e.Charged N x.desk :=
    ⟨rfl, hr.rests.1, hrecorded, congrArg (· * _) hprice, Or.inr hfee, rfl⟩
  have hmove : Move N m x.desk [e] ((x.desk.rewrite r order).book N m e none none) :=
    .execute x.desk r e hr.issued.1 hr.pending ⟨rfl, rfl, rfl, rfl, rfl, rfl⟩ rfl hcharged rfl
      hbasis hquoted
  have hobjects : filled.objects = x.orders.objects.modify r fun _ => order := by
    rw [hfilled, OrderTable.objects_update_setStatus]
    exact Heap.modify_congr _ happly
  have hbooked : SimulatedExchange.desk { x with
      ledger := x.ledger.bookFill N m order fee (fillPrice * (x.orders.get r).quantity) false none
        none e.fill
      orders := filled } = (x.desk.rewrite r order).book N m e none none := by
    unfold desk Desk.book Desk.rewrite
    rw [hobjects]
    rfl
  rw [← hbooked] at hmove
  refine ⟨[e], (Trace.single hmove).trans_right ?_⟩
  have hresolved := executes_resolveOco (N := N) (m := m) { x with
    ledger := x.ledger.bookFill N m order fee (fillPrice * (x.orders.get r).quantity) false none
      none e.fill
    orders := filled } r
  have hend : (x.withOrders filled).finalizeOrderExecution N m r fillPrice = { x with
      ledger := x.ledger.bookFill N m order fee (fillPrice * (x.orders.get r).quantity) false none
        none e.fill
      orders := filled.resolveOco r } := by
    unfold finalizeOrderExecution withOrders
    rw [hget]
    rfl
  rw [hend]
  exact hresolved

theorem executes_executeLimitOrder (hr : x.Resting book r) {price : ℚ}
    (hbasis : (x.orders.get r).RestsAt (.resting price)) :
    ∃ es, x.Executes N m es (x.executeLimitOrder N m r price) := by
  unfold executeLimitOrder
  split
  · exact ⟨[], executes_conclude hr.issued.1 hr.pending (by decide) _⟩
  · exact executes_execute hr rfl (.resting price) hbasis trivial rfl rfl rfl

theorem executes_executeMarketOrder (hr : x.Resting book r) (price : ℚ)
    (hquoted : price = m.currentPrice (x.orders.get r).symbol)
    (hbasis : (x.orders.get r).RestsAt (.trailing price)) :
    ∃ es, x.Executes N m es (x.executeMarketOrder N m r price) := by
  have hslipped : x.slippedPrice (x.orders.get r).side price =
      (PriceBasis.trailing price).basePrice x.slippageBps (x.orders.get r).side
        (x.orders.get r).quantity := by
    unfold slippedPrice PriceBasis.basePrice
    cases (x.orders.get r).side with
    | buy =>
      simp only [Side.signed]
      ring
    | sell =>
      simp only [Side.signed]
      ring
  unfold executeMarketOrder
  dsimp only
  split
  · exact ⟨[], executes_conclude hr.issued.1 hr.pending (by decide) _⟩
  · exact executes_execute hr rfl (.trailing price) hbasis hquoted hslipped (congrArg N.roundPrice hslipped)
      rfl

/-! ### Slices -/

theorem executes_refuseSlice (N : Numerics) (x : SimulatedExchange) (r : Ref) (fields : IcebergFields)
    (price : ℚ) (reason : String) : x.Executes N m [] (x.withOrders ((x.orders.create
      (x.createIcebergSliceOrder N (x.orders.get r) fields price)).conclude x.orders.objects.next
        .rejected reason)) := by
  set slice := x.createIcebergSliceOrder N (x.orders.get r) fields price with hslice
  have hid : ∀ n, slice.id ≠ orderId n := fun n heq => orderId_ne_slice n _ _ heq.symm
  have hrejected : OrderStatus.rejected ≠ .filled := by decide
  have hentered : Order.Entered { slice with
      status := .rejected
      rejectionReason := some reason } := ⟨hrejected, rfl, fun _ hfields => by cases hfields⟩
  have hmove : Move N m x.desk [] (x.desk.create { slice with
      status := .rejected
      rejectionReason := some reason }) :=
    .refuseSlice x.desk _ hid hentered rfl rfl
  have hdesk : (x.withOrders ((x.orders.create slice).conclude x.orders.objects.next .rejected
      reason)).desk = x.desk.create { slice with
        status := .rejected
        rejectionReason := some reason } := by
    unfold desk withOrders Desk.create
    rw [OrderTable.objects_conclude]
    exact congrArg (Desk.mk _ _ _ · _ _) (Heap.modify_alloc_next _ _ _)
  rw [← hdesk] at hmove
  exact .single hmove

theorem executes_fillSlice (hr : x.Resting .icebergs r) {fields : IcebergFields}
    (hkind : (x.orders.get r).kind = .iceberg fields) (hhidden : 0 < fields.hiddenQuantity)
    {price : ℚ} (hprice : ∀ limit, (x.orders.get r).price = some limit → price = limit) :
    let slice := x.createIcebergSliceOrder N (x.orders.get r) fields price
    let filled := (((x.orders.create slice).update r fun o =>
      { o with kind := .iceberg fields.afterSlice }).setStatus x.orders.objects.next
        .filled).update x.orders.objects.next fun o => { o with
          filledPrice := N.roundPrice price
          filledQuantity := fields.sliceQuantity }
    (∃ es, x.Executes N m es
        ((x.withOrders filled).finalizeIcebergExecution N m x.orders.objects.next r price)) ∧
      filled.get r = { x.orders.get r with kind := .iceberg fields.afterSlice } := by
  intro slice filled
  have hlive := hr.issued.1
  have hnext := (x.orders.objects.next_modify r fun o => { o with kind := .iceberg fields.afterSlice })
  set order : Order := { slice with
    status := .filled
    filledPrice := N.roundPrice price
    filledQuantity := fields.sliceQuantity } with horder
  have hobjects : filled.objects = (x.orders.objects.modify r fun o =>
      { o with kind := .iceberg fields.afterSlice }).alloc order := by
    rw [OrderTable.objects_update_setStatus]
    change (((x.orders.objects.alloc slice).modify r _).modify _ _) = _
    rw [Heap.modify_alloc_of_live _ _ hlive, ← hnext, Heap.modify_alloc_next]
  have hgetSlice : filled.get x.orders.objects.next = order := by
    rw [OrderTable.get, hobjects, ← hnext, Heap.get_alloc_next]
  have hget : filled.get r = { x.orders.get r with kind := .iceberg fields.afterSlice } := by
    rw [OrderTable.get, hobjects, Heap.get_alloc_of_live _ _ ((Heap.live_modify _ _ _ _).mpr hlive),
      Heap.get_modify_self _ hlive]
    rfl
  refine ⟨?_, hget⟩
  have hquantity : 0 < fields.sliceQuantity := lt_min (hr.rests.2.2 fields hkind) hhidden
  let e : Execution := {
    order := order
    basis := .resting price
    fee := order.fee
    notional := price * fields.sliceQuantity
    margin := x.ledger.marginFor (price * fields.sliceQuantity)
    parentOrder := some (x.orders.get r).id }
  have hcharged : e.Charged N x.desk := ⟨rfl, hquantity, rfl, rfl, Or.inr rfl, rfl⟩
  have htype : (x.orders.get r).orderType = .iceberg := OrderType.book_injective hr.rests.2.1 rfl
  have hmove : Move N m x.desk [e] (((x.desk.rewrite r { x.orders.get r with
      kind := .iceberg fields.afterSlice }).create order).book N m e none none) :=
    .slice x.desk r fields e hlive hr.pending htype hkind hhidden
      (fun n heq => orderId_ne_slice n _ _ heq.symm) rfl rfl rfl hcharged rfl rfl price rfl hprice
  have hdesk : ((x.withOrders filled).finalizeIcebergExecution N m x.orders.objects.next r
      price).desk = ((x.desk.rewrite r { x.orders.get r with
        kind := .iceberg fields.afterSlice }).create order).book N m e none none := by
    have hrewritten : filled.objects = (x.orders.objects.modify r fun _ =>
        { x.orders.get r with kind := .iceberg fields.afterSlice }).alloc order := by
      rw [hobjects]
      exact congrArg (Heap.alloc · order) (Heap.modify_congr _ rfl)
    unfold finalizeIcebergExecution desk withOrders Desk.book Desk.create Desk.rewrite
    rw [hget, hgetSlice, hrewritten]
    rfl
  rw [← hdesk] at hmove
  exact ⟨[e], .single hmove⟩

theorem executes_finishIceberg (hr : s.exchange.Resting .icebergs r) :
    s.exchange.Executes N m [] (s.finishIceberg r id).exchange := by
  have htype : (s.exchange.orders.get r).orderType = .iceberg :=
    OrderType.book_injective hr.rests.2.1 rfl
  unfold Sweep.finishIceberg
  cases hkind : (s.exchange.orders.get r).kind with
  | iceberg fields =>
    dsimp only
    split
    · rename_i hhidden
      set filled := (s.exchange.orders.setStatus r .filled).update r fun o =>
        { o with filledQuantity := o.quantity } with hfilled
      have hmove : Move N m s.exchange.desk [] (s.exchange.desk.rewrite r { s.exchange.orders.get r with
          status := .filled
          filledQuantity := (s.exchange.orders.get r).quantity }) :=
        .finish s.exchange.desk r fields hr.issued.1 hr.pending htype hkind hhidden
      have hdesk : (s.exchange.withOrders filled).desk = s.exchange.desk.rewrite r
          { s.exchange.orders.get r with
            status := .filled
            filledQuantity := (s.exchange.orders.get r).quantity } := by
        unfold desk withOrders Desk.rewrite
        rw [hfilled, OrderTable.objects_update_setStatus]
        exact congrArg (Desk.mk _ _ _ · _ _) (Heap.modify_congr _ rfl)
      rw [← hdesk] at hmove
      exact (Trace.single hmove).trans_left (executes_resolveOco (s.exchange.withOrders filled) r)
    · exact .refl _
  | plain => exact .refl _
  | stopLimit _ => exact .refl _
  | trailingStop _ => exact .refl _

/-! ### Sweeps -/

theorem executes_checkLimit (hr : s.exchange.Resting .limits r) :
    ∃ es, s.exchange.Executes N m es (s.checkLimit N m r id).exchange := by
  have htype : (s.exchange.orders.get r).orderType = .limit :=
    OrderType.book_injective hr.rests.2.1 rfl
  unfold Sweep.checkLimit
  dsimp only
  split
  · have hcancelled : OrderStatus.cancelled ≠ .filled := by decide
    exact ⟨[], executes_amend hr.issued.1 (OrderTable.objects_update_setStatus _ _ _ _) rfl
      (amends_status (Or.inr ⟨hr.pending, hcancelled⟩))⟩
  · split
    · exact ⟨[], .refl _⟩
    · split
      · exact ⟨[], .refl _⟩
      · rename_i price hprice
        split
        · exact executes_executeLimitOrder hr (Or.inl ⟨htype, hprice⟩)
        · exact ⟨[], .refl _⟩

/-- Rewriting the class fields of a resting order. -/
theorem executes_touchKind (hr : s.exchange.Resting book r) (kind : OrderKind)
    (hkeeps : (s.exchange.orders.get r).kind.Keeps kind) : s.exchange.Executes N m []
      (s.exchange.withOrders (s.exchange.orders.update r fun o => { o with kind := kind })) := by
  have hamends : (s.exchange.orders.get r).Amends { s.exchange.orders.get r with kind := kind } :=
    ⟨⟨rfl, rfl, rfl, rfl, rfl, rfl⟩, rfl, rfl, rfl, hkeeps, Or.inl rfl⟩
  exact executes_amend hr.issued.1 rfl rfl hamends

theorem resting_touchKind (hr : s.exchange.Resting book r) (kind : OrderKind)
    (hkind : (s.exchange.orders.get r).kind.Evolves kind) :
    let touched := s.exchange.withOrders
      (s.exchange.orders.update r fun o => { o with kind := kind })
    touched.Resting book r ∧ touched.orders.get r = { s.exchange.orders.get r with kind := kind } := by
  intro touched
  have hget : touched.orders.get r = { s.exchange.orders.get r with kind := kind } := by
    change (s.exchange.orders.objects.modify r _).get r = _
    rw [Heap.get_modify_self _ hr.issued.1]
    rfl
  have hevolves : (s.exchange.orders.get r).Evolves { s.exchange.orders.get r with kind := kind } :=
    ⟨rfl, rfl, rfl, rfl, rfl, rfl, rfl, hkind, fun _ => ⟨rfl, rfl⟩⟩
  refine ⟨⟨⟨(Heap.live_modify _ _ _ _).mpr hr.issued.1, ?_⟩, ?_, ?_⟩, hget⟩
  · rw [hget]
    exact hr.issued.2
  · rw [hget]
    exact hr.pending
  · rw [hget]
    exact hr.rests.evolves hevolves

theorem executes_checkStopLimit (hr : s.exchange.Resting .stopLimits r) :
    ∃ es, s.exchange.Executes N m es (s.checkStopLimit N m r id).exchange := by
  have htype : (s.exchange.orders.get r).orderType = .stopLimit :=
    OrderType.book_injective hr.rests.2.1 rfl
  unfold Sweep.checkStopLimit
  dsimp only
  split
  · exact ⟨[], .refl _⟩
  · cases hkind : (s.exchange.orders.get r).kind with
    | stopLimit fields =>
      have hlimit := fields.limitPrice_checkTrigger (s.exchange.orders.get r).side
        (m.currentPrice (s.exchange.orders.get r).symbol)
      set checked := fields.checkTrigger (s.exchange.orders.get r).side
        (m.currentPrice (s.exchange.orders.get r).symbol)
      have hkeeps : (s.exchange.orders.get r).kind.Keeps (.stopLimit checked) := by
        rw [hkind]
        exact hlimit
      have htouched := executes_touchKind (N := N) (m := m) hr (.stopLimit checked) hkeeps
      obtain ⟨hr', hget⟩ := resting_touchKind hr (.stopLimit checked) (by rw [hkind]; trivial)
      dsimp only
      split
      · have hbasis : ((s.exchange.withOrders (s.exchange.orders.update r fun o =>
            { o with kind := .stopLimit checked })).orders.get r).RestsAt
              (.resting fields.limitPrice) := by
          rw [hget]
          exact Or.inr ⟨htype, checked, rfl, hlimit⟩
        obtain ⟨es, hexecutes⟩ := executes_executeLimitOrder (N := N) (m := m) hr' hbasis
        exact ⟨es, htouched.trans_left hexecutes⟩
      · exact ⟨[], htouched⟩
    | plain => exact ⟨[], .refl _⟩
    | trailingStop _ => exact ⟨[], .refl _⟩
    | iceberg _ => exact ⟨[], .refl _⟩

theorem executes_checkTrailingStop (hr : s.exchange.Resting .trailingStops r) :
    ∃ es, s.exchange.Executes N m es (s.checkTrailingStop N m r id).exchange := by
  have htype : (s.exchange.orders.get r).orderType = .trailingStop :=
    OrderType.book_injective hr.rests.2.1 rfl
  unfold Sweep.checkTrailingStop
  dsimp only
  split
  · exact ⟨[], .refl _⟩
  · cases hkind : (s.exchange.orders.get r).kind with
    | trailingStop fields =>
      set moved := fields.updateStopPrice (s.exchange.orders.get r).side
        (m.currentPrice (s.exchange.orders.get r).symbol)
      have htouched := executes_touchKind (N := N) (m := m) hr (.trailingStop moved) (by rw [hkind]; trivial)
      obtain ⟨hr', hget⟩ := resting_touchKind hr (.trailingStop moved) (by rw [hkind]; trivial)
      dsimp only
      split
      · obtain ⟨es, hexecutes⟩ := executes_executeMarketOrder (N := N) (m := m) hr'
          (m.currentPrice (s.exchange.orders.get r).symbol) (by rw [hget])
          (by rw [hget]; exact htype)
        exact ⟨es, htouched.trans_left hexecutes⟩
      · exact ⟨[], htouched⟩
    | plain => exact ⟨[], .refl _⟩
    | stopLimit _ => exact ⟨[], .refl _⟩
    | iceberg _ => exact ⟨[], .refl _⟩

theorem executes_checkIceberg (hvalid : s.exchange.orders.Valid (staleIn .icebergs s.toRemove))
    (hr : s.exchange.Resting .icebergs r) :
    ∃ es, s.exchange.Executes N m es (s.checkIceberg N m r id).exchange := by
  unfold Sweep.checkIceberg
  dsimp only
  split
  · exact ⟨[], .refl _⟩
  · cases hkind : (s.exchange.orders.get r).kind with
    | iceberg fields =>
      dsimp only
      split
      · rename_i hhidden
        split
        · exact ⟨[], .refl _⟩
        · rename_i price hprice
          have hlimit : ∀ limit, (s.exchange.orders.get r).price = some limit → price = limit := by
            intro limit hlimit
            rw [icebergPrice, hlimit] at hprice
            dsimp only at hprice
            split at hprice
            · exact (Option.some.inj hprice).symm
            · cases hprice
          have hfresh : ∀ n, (s.exchange.createIcebergSliceOrder N (s.exchange.orders.get r) fields
              price).id ≠ orderId n := fun n heq => orderId_ne_slice n _ _ heq.symm
          have hstart : Progress N False False s.exchange (staleIn .icebergs s.toRemove) s.exchange :=
            .refl hvalid False.elim
          unfold executeIcebergSlice
          dsimp only
          split
          · rename_i reason _
            have hrefused := executes_refuseSlice (m := m) N s.exchange r fields price reason
            obtain ⟨-, hget⟩ := hstart.refuseSlice hr hfresh rfl reason
            refine ⟨[], ?_⟩
            simp only [Sweep.finishIceberg, withOrders, hget, hkind, if_neg (not_le.mpr hhidden)]
            exact hrefused
          · obtain ⟨⟨es, hfilled⟩, hget⟩ := executes_fillSlice (N := N) (m := m) hr hkind hhidden hlimit
            obtain ⟨hc, -, -, -⟩ := hstart.showSlice hr hkind hhidden hfresh rfl (N.roundPrice price)
            refine ⟨es, hfilled.trans_right (executes_finishIceberg (s := ⟨_, _, _⟩) ?_)⟩
            refine ⟨hr.issued.evolves hc.evolves, ?_, ?_⟩
            · exact (congrArg Order.status hget).trans hr.pending
            · exact hr.rests.evolves (hc.evolves r hr.issued.1).2
      · exact ⟨[], .refl _⟩
    | plain => exact ⟨[], .refl _⟩
    | stopLimit _ => exact ⟨[], .refl _⟩
    | trailingStop _ => exact ⟨[], .refl _⟩

theorem executes_checkEntry {entry : String × Ref}
    (hvalid : s.exchange.orders.Valid (staleIn book s.toRemove))
    (hissued : s.exchange.orders.Issued entry.2) (hrests : (s.exchange.orders.get entry.2).Rests book) :
    ∃ es, s.exchange.Executes N m es (s.checkEntry N m book entry).exchange := by
  unfold Sweep.checkEntry
  split
  · exact ⟨[], .refl _⟩
  · rename_i hstatus
    have hr : s.exchange.Resting book entry.2 := ⟨hissued, not_not.mp hstatus, hrests⟩
    cases book with
    | limits => exact executes_checkLimit hr
    | stopLimits => exact executes_checkStopLimit hr
    | trailingStops => exact executes_checkTrailingStop hr
    | icebergs => exact executes_checkIceberg hvalid hr

theorem executes_foldl_checkEntry (entries : List (String × Ref)) {s : Sweep}
    (hvalid : s.exchange.orders.Valid (staleIn book s.toRemove))
    (hentries : ∀ e ∈ entries, s.exchange.orders.Issued e.2 ∧
      (s.exchange.orders.get e.2).id = e.1 ∧ (s.exchange.orders.get e.2).Rests book) :
    ∃ es, s.exchange.Executes N m es (entries.foldl (Sweep.checkEntry N m book) s).exchange := by
  induction entries generalizing s with
  | nil => exact ⟨[], .refl _⟩
  | cons e rest ih =>
    obtain ⟨hissued, hid, hrests⟩ := hentries e List.mem_cons_self
    have hstart : Progress N False False s.exchange (staleIn book s.toRemove) s.exchange :=
      .refl hvalid False.elim
    have hprogress := hstart.checkEntry (m := m) hissued hid hrests False.elim
    have hevolves := hprogress.evolves
    obtain ⟨es, hhead⟩ := executes_checkEntry (N := N) (m := m) hvalid hissued hrests
    obtain ⟨es', htail⟩ := ih hprogress.orders fun e' he' => by
      obtain ⟨hissued', hid', hrests'⟩ := hentries e' (List.mem_cons_of_mem e he')
      have hev := (hevolves e'.2 hissued'.1).2
      exact ⟨hissued'.evolves hevolves, hev.id.trans hid', hrests'.evolves hev⟩
    exact ⟨es ++ es', hhead.trans htail⟩

theorem executes_deleteIds (book : PendingBook) (ids : List String) (x : SimulatedExchange) :
    x.Executes N m [] (x.withOrders (ids.foldl (fun t id => t.popPending book id) x.orders)) := by
  have hsame : ∀ (ids : List String) (t : OrderTable),
      (ids.foldl (fun t id => t.popPending book id) t).objects = t.objects ∧
        (ids.foldl (fun t id => t.popPending book id) t).orderCounter = t.orderCounter := by
    intro ids
    induction ids with
    | nil => exact fun _ => ⟨rfl, rfl⟩
    | cons id rest ih => exact fun t => ih (t.popPending book id)
  exact executes_of_objects (hsame ids x.orders).1 (hsame ids x.orders).2

theorem executes_checkBook (hvalid : s.exchange.orders.Consistent) (book : PendingBook) :
    ∃ es, s.exchange.Executes N m es (s.checkBook N m book).exchange := by
  have hentries : ∀ e ∈ (s.exchange.orders.pending book).entries,
      s.exchange.orders.Issued e.2 ∧ (s.exchange.orders.get e.2).id = e.1 ∧
        (s.exchange.orders.get e.2).Rests book := by
    intro e he
    obtain ⟨hissued, hid, hrests, -⟩ :=
      hvalid.booked book e.1 e.2 ((Dict.mem_entries_iff _ _ _).mp he)
    exact ⟨hissued, hid, hrests⟩
  have hfrom : s.exchange.orders.Valid (staleIn book []) :=
    hvalid.stale_congr fun _ _ _ _ => by simp [staleIn]
  obtain ⟨es, hswept⟩ := executes_foldl_checkEntry (N := N) (m := m) (s := { s with toRemove := [] })
    (s.exchange.orders.pending book).entries hfrom hentries
  exact ⟨es, hswept.trans_right (executes_deleteIds book _ _)⟩

/-- A sweep is a trace of moves. -/
theorem executes_checkAdvancedOrders (hvalid : x.orders.Consistent) :
    ∃ es, x.Executes N m es (x.checkAdvancedOrders N m).1 := by
  have hfold : ∀ (books : List PendingBook) (s : Sweep), s.exchange.orders.Consistent →
      ∃ es, s.exchange.Executes N m es (books.foldl (Sweep.checkBook N m) s).exchange := by
    intro books
    induction books with
    | nil => exact fun s _ => ⟨[], .refl _⟩
    | cons book rest ih =>
      intro s hs
      have hstart : Progress N False False s.exchange noneStale s.exchange := .refl hs False.elim
      obtain ⟨es, hhead⟩ := executes_checkBook (N := N) (m := m) hs book
      obtain ⟨es', htail⟩ := ih _ (hstart.checkBook (m := m) False.elim book).orders
      exact ⟨es ++ es', hhead.trans htail⟩
  exact hfold PendingBook.all { exchange := x } hvalid

/-! ### Forced closes, cancels and funding -/

theorem executes_foldl_markAndCheck (positions : List Ref)
    (acc : SimulatedExchange × List (Ref × CloseTrigger × ℚ)) :
    acc.1.Executes N m [] (positions.foldl (markAndCheck N m) acc).1 := by
  induction positions generalizing acc with
  | nil => exact .refl _
  | cons r rest ih =>
    apply Trace.trans_left _ (ih _)
    have hmarked : acc.1.Executes N m [] { acc.1 with
        ledger := acc.1.ledger.markPosition r (m.price (acc.1.ledger.objects.get r).symbol) } :=
      executes_money (.mark _ _ _) rfl
    unfold markAndCheck
    dsimp only
    split
    · exact hmarked
    · exact hmarked

theorem executes_labelClose (hlive : x.orders.objects.Live r) (reason : String) :
    x.Executes N m [] (x.labelClose r reason) := by
  have hamends : (x.orders.get r).Amends { x.orders.get r with closeReason := reason } :=
    ⟨⟨rfl, rfl, rfl, rfl, rfl, rfl⟩, rfl, rfl, rfl, .refl _, Or.inl rfl⟩
  have hlabelled : x.Executes N m [] (x.withOrders (x.orders.update r fun o =>
      { o with closeReason := reason })) := executes_amend hlive rfl rfl hamends
  exact hlabelled.trans_left (executes_money (.relabel _ (x.orders.get r).id reason) rfl)

theorem executes_closeTriggeredPosition {acc : SimulatedExchange × List Ref}
    (hvalid : acc.1.orders.Consistent) (entry : Ref × CloseTrigger × ℚ) :
    ∃ es, acc.1.Executes N m es (closeTriggeredPosition N m acc entry).1 := by
  unfold closeTriggeredPosition
  dsimp only
  generalize hreq : (OrderRequest.mk _ _ _ _ _ _ _ _ _ _ _ _ _ _ _ _ _ : OrderRequest) = req
  obtain ⟨es, hsubmitted⟩ := (submits_submitOrder (N := N) (m := m) acc.1 req).executes
  have hstart : Progress N False True acc.1 noneStale acc.1 := .refl hvalid False.elim
  have hissued := (hstart.submitOrder (m := m) req).2
  generalize acc.1.submitOrder N m req = submitted at hsubmitted hissued ⊢
  have hcovered : submitted.1.Executes N m [] (if entry.2.1 = .liquidation then
        { submitted.1 with ledger := submitted.1.ledger.handleInsuranceFundDeficit }
      else submitted.1) := by
    split
    · refine executes_money (.cover _) ?_
      unfold Ledger.handleInsuranceFundDeficit
      split <;> rfl
    · exact .refl _
  have horders : (if entry.2.1 = .liquidation then
        { submitted.1 with ledger := submitted.1.ledger.handleInsuranceFundDeficit }
      else submitted.1).orders = submitted.1.orders := by
    split <;> rfl
  generalize (if entry.2.1 = .liquidation then
      { submitted.1 with ledger := submitted.1.ledger.handleInsuranceFundDeficit }
    else submitted.1) = covered at hcovered horders ⊢
  have hclosed := hsubmitted.trans_right hcovered
  cases hr : submitted.2 with
  | none => exact ⟨es, hclosed⟩
  | some r =>
    dsimp only
    split
    · have hlive : covered.orders.objects.Live r := horders ▸ (hissued r hr).1
      exact ⟨es, hclosed.trans_right (executes_labelClose hlive _)⟩
    · exact ⟨es, hclosed⟩

theorem executes_checkStopLossTakeProfit (hvalid : x.orders.Consistent) :
    ∃ es, x.Executes N m es (x.checkStopLossTakeProfit N m).1 := by
  have hfold : ∀ (triggers : List (Ref × CloseTrigger × ℚ)) (acc : SimulatedExchange × List Ref),
      acc.1.orders.Consistent →
        ∃ es, acc.1.Executes N m es (triggers.foldl (closeTriggeredPosition N m) acc).1 := by
    intro triggers
    induction triggers with
    | nil => exact fun acc _ => ⟨[], .refl _⟩
    | cons entry rest ih =>
      intro acc hacc
      have hstart : Progress N False True acc.1 noneStale acc.1 := .refl hacc False.elim
      obtain ⟨es, hhead⟩ := executes_closeTriggeredPosition (N := N) (m := m) hacc entry
      obtain ⟨es', htail⟩ := ih _ (hstart.foldl_closeTriggeredPosition (m := m) [entry]).orders
      exact ⟨es ++ es', hhead.trans htail⟩
  have hmarked := executes_foldl_markAndCheck (N := N) (m := m) x.ledger.account.positions (x, [])
  have horders := orders_foldl_markAndCheck (N := N) (m := m) x.ledger.account.positions (x, [])
  obtain ⟨es, hclosed⟩ := hfold
    (x.ledger.account.positions.foldl (markAndCheck N m) (x, [])).2
    ((x.ledger.account.positions.foldl (markAndCheck N m) (x, [])).1, [])
    (by rw [horders]; exact hvalid)
  exact ⟨es, hmarked.trans_left hclosed⟩

theorem executes_cancelEntry (hpending : (x.orders.get r).status = .pending) (book : PendingBook)
    (k : String) :
    x.Executes N m [] (x.withOrders ((x.orders.popPending book k).setStatus r .cancelled)) := by
  have hpopped : x.Executes N m [] (x.withOrders (x.orders.popPending book k)) :=
    executes_of_objects rfl rfl
  exact hpopped.trans_left (executes_cancel (x := x.withOrders (x.orders.popPending book k)) hpending)

theorem executes_cancelOrder (hvalid : x.orders.Consistent) (id : String) :
    x.Executes N m [] (x.cancelOrder id).1 := by
  obtain hnone | ⟨book, r, hfind, hcancel⟩ := x.cancelOrder_cases id
  · rw [hnone]
    exact .refl _
  · rw [hcancel]
    exact executes_cancelEntry ((hvalid.booked book id r hfind).2.2.2.mpr not_false) book id

theorem executes_cancelEntries (book : PendingBook) (entries : List (String × Ref))
    (hnodup : (entries.map Prod.fst).Nodup) {t : OrderTable} (cancelled : List Ref)
    (hvalid : t.Consistent) (hentries : ∀ e ∈ entries, (t.pending book).find? e.1 = some e.2) :
    (x.withOrders t).Executes N m [] (x.withOrders (entries.foldl (fun acc e =>
      ((acc.1.popPending book e.1).setStatus e.2 .cancelled, acc.2 ++ [e.2])) (t, cancelled)).1) := by
  induction entries generalizing t cancelled with
  | nil => exact .refl _
  | cons e rest ih =>
    obtain ⟨habsent, hrest⟩ := List.nodup_cons.mp hnodup
    have hfind := hentries e List.mem_cons_self
    have hpending := (hvalid.booked book e.1 e.2 hfind).2.2.2.mpr not_false
    have hstart : Progress N False False (x.withOrders t) noneStale (x.withOrders t) :=
      .refl hvalid False.elim
    have hcancel := executes_cancelEntry (N := N) (m := m) (x := x.withOrders t) hpending book e.1
    apply hcancel.trans_left
    apply ih hrest _ (hstart.cancelEntry hfind).orders
    intro e' he'
    have hne : e'.1 ≠ e.1 := fun heq => habsent (heq ▸ List.mem_map_of_mem he')
    change (Function.update t.pending book ((t.pending book).erase e.1) book).find? e'.1 = some e'.2
    rw [Function.update_self, Dict.find?_erase_of_ne _ hne]
    exact hentries e' (List.mem_cons_of_mem e he')

theorem executes_cancelAllOrders (hvalid : x.orders.Consistent) (symbol : Option String) :
    x.Executes N m [] (x.cancelAllOrders symbol).1 := by
  have hfold : ∀ (books : List PendingBook) (acc : OrderTable × List Ref), acc.1.Consistent →
      (x.withOrders acc.1).Executes N m []
        (x.withOrders (books.foldl (cancelBook symbol) acc).1) := by
    intro books
    induction books with
    | nil => exact fun _ _ => .refl _
    | cons book rest ih =>
      intro acc hacc
      have hnodup : (((acc.1.pending book).entries.filter fun e =>
          symbol.all fun s => (acc.1.get e.2).symbol = s).map Prod.fst).Nodup :=
        (acc.1.pending book).nodup.sublist ((List.filter_sublist).map _)
      have hentries : ∀ e ∈ (acc.1.pending book).entries.filter fun e =>
          symbol.all fun s => (acc.1.get e.2).symbol = s,
          (acc.1.pending book).find? e.1 = some e.2 := fun e he =>
        (Dict.mem_entries_iff _ _ _).mp (List.mem_of_mem_filter he)
      have hstart : Progress N False False (x.withOrders acc.1) noneStale (x.withOrders acc.1) :=
        .refl hacc False.elim
      have hconsistent : (cancelBook symbol acc book).1.Consistent :=
        (Progress.cancelEntries (x := x) book _ hnodup hstart hentries).orders
      have hcancel := executes_cancelEntries (N := N) (m := m) (x := x) book _ hnodup acc.2 hacc hentries
      exact hcancel.trans_left (ih _ hconsistent)
  exact hfold PendingBook.all (x.orders, []) hvalid

theorem executes_chargeFunding (x : SimulatedExchange) (rate : ℚ) :
    x.Executes N m [] (x.chargeFunding m rate) := by
  have hfold : ∀ (positions : List Ref) (l : Ledger), SimulatedExchange.Executes N m { x with ledger := l }
      [] { x with ledger := positions.foldl (Ledger.fundPosition m rate) l } := by
    intro positions
    induction positions with
    | nil => exact fun _ => .refl _
    | cons r rest ih =>
      intro l
      have hfunded : SimulatedExchange.Executes N m { x with ledger := l } []
          { x with ledger := Ledger.fundPosition m rate l r } :=
        executes_money (x := { x with ledger := l }) (.fund l _) rfl
      exact hfunded.trans_left (ih _)
  exact hfold _ x.ledger

/-! ### Calls and runs -/

/-- Every call on a consistent exchange is a chain of moves. -/
theorem executes_step (hvalid : x.orders.Consistent) (call : MarketView × Operation) :
    ∃ es, x.Executes N call.1 es (x.step N call) := by
  obtain ⟨m, op⟩ := call
  cases op with
  | submitOrder req => exact (submits_submitOrder x req).executes
  | checkAdvancedOrders => exact executes_checkAdvancedOrders hvalid
  | checkStopLossTakeProfit => exact executes_checkStopLossTakeProfit hvalid
  | cancelOrder id => exact ⟨[], executes_cancelOrder hvalid id⟩
  | cancelAllOrders symbol => exact ⟨[], executes_cancelAllOrders hvalid symbol⟩
  | chargeFunding rate => exact ⟨[], executes_chargeFunding x rate⟩

/-- Every run is a trace of moves with its executions. -/
theorem Sound.executes_run {opening : ℚ} (h : x.Sound opening) (calls : List (MarketView × Operation)) :
    ∃ es, x.ExecutesOver N es (Foundations.run (SimulatedExchange.step N) x calls) := by
  induction calls generalizing x with
  | nil => exact ⟨[], .refl _⟩
  | cons call rest ih =>
    obtain ⟨es, hhead⟩ := executes_step (N := N) h.orders call
    obtain ⟨es', htail⟩ := ih (h.step call)
    exact ⟨es ++ es', (Move.any hhead).trans htail⟩

end SimulatedExchange

end TradingSim.Exchange
