import TradingSim.Exchange.Progress

/-!
# A submission is sound

Whatever a request asks for, `submit_order` keeps the books valid, moves the ledger by at
most one fill, and keeps the OCO groups exclusive: an order that joins a group with a
filled order is cancelled before it can rest or execute.
-/

namespace TradingSim.Exchange

open Foundations

/-- The terms that screening gives an order. -/
structure OrderRequest.Terms (req : OrderRequest) (id : String) (o : Order) : Prop where
  id : o.id = id
  pending : o.status = .pending
  symbol : o.symbol = req.symbol
  side : o.side = req.side
  orderType : o.orderType = req.orderType
  quantity : o.quantity = req.quantity
  price : o.price = req.price
  group : o.ocoGroupId = req.group
  positive : 0 < req.quantity
  visible : ∀ fields, o.kind = .iceberg fields → 0 < fields.visibleQuantity

/-- An iceberg shows a positive quantity. -/
theorem OrderRequest.visible_createKind {req : OrderRequest} {fields : IcebergFields}
    (hkind : req.createKind = some (.iceberg fields)) : 0 < fields.visibleQuantity := by
  unfold createKind at hkind
  cases htype : req.orderType with
  | iceberg =>
    simp only [htype] at hkind
    cases hvisible : req.icebergVisibleQty with
    | none => simp [hvisible] at hkind
    | some visible =>
      simp only [hvisible] at hkind
      by_cases hbad : visible ≤ 0 ∨ req.quantity ≤ visible
      · simp [hbad] at hkind
      · rw [if_neg hbad, Option.some.injEq, OrderKind.iceberg.injEq] at hkind
        rw [← hkind]
        exact not_le.mp fun hle => hbad (Or.inl hle)
  | stopLimit =>
    simp only [htype] at hkind
    split at hkind <;> cases hkind
  | trailingStop =>
    simp only [htype] at hkind
    split at hkind
    · cases hkind
    · split at hkind <;> cases hkind
  | market => simp [htype] at hkind
  | limit => simp [htype] at hkind
  | oco => simp [htype] at hkind

/-- A request that passes its checks has a positive quantity and, if it is good till a date, an
expiry; its order is the created one with its instructions. -/
theorem OrderRequest.screen_eq_ok {N : Numerics} {req : OrderRequest} {id exchange : String}
    {o : Order} (h : req.screen N id exchange = .ok o) :
    0 < req.quantity ∧ (req.timeInForce = "GTD" → req.expireTs.isSome) ∧
      ∃ kind, req.createKind = some kind ∧ o = { req.plainOrder id exchange with
        kind := kind
        timeInForce := req.timeInForce
        postOnly := req.postOnly
        expireTs := req.expireTs
        ocoGroupId := req.group } := by
  unfold screen at h
  split at h
  · cases h
  · rename_i hpositive
    split at h
    · cases h
    · split at h
      · cases h
      · rename_i created hcreated
        obtain ⟨kind, hkind, rfl⟩ := Option.map_eq_some_iff.mp hcreated
        split at h
        · cases h
        · split at h
          · cases h
          · split at h
            · cases h
            · split at h
              · cases h
              · rename_i hdated
                obtain rfl := Except.ok.inj h
                refine ⟨not_le.mp hpositive, fun hgtd => ?_, kind, hkind, rfl⟩
                by_contra hnone
                exact hdated ⟨hgtd, by simpa using hnone⟩

theorem OrderRequest.screen_ok {N : Numerics} {req : OrderRequest} {id exchange : String}
    {o : Order} (h : req.screen N id exchange = .ok o) : req.Terms id o := by
  obtain ⟨hpositive, -, kind, hkind, rfl⟩ := screen_eq_ok h
  refine ⟨rfl, rfl, rfl, rfl, rfl, rfl, rfl, rfl, hpositive, ?_⟩
  intro fields hfields
  exact visible_createKind (hkind.trans (congrArg some hfields))

theorem OrderRequest.screen_error {N : Numerics} {req : OrderRequest} {id exchange : String}
    {o : Order} {reason : String} (h : req.screen N id exchange = .error (o, reason)) :
    o.id = id ∧ o.status = .pending ∧ o.ocoGroupId = none := by
  unfold screen at h
  have hplain : ∀ {o' : Order} {text : String},
      (Except.error (o', text) : Except (Order × String) Order) = .error (o, reason) →
      o'.id = id ∧ o'.status = .pending ∧ o'.ocoGroupId = none →
      o.id = id ∧ o.status = .pending ∧ o.ocoGroupId = none := by
    intro o' text heq hfacts
    simp only [Except.error.injEq, Prod.mk.injEq] at heq
    rw [← heq.1]
    exact hfacts
  split at h
  · exact hplain h ⟨rfl, rfl, rfl⟩
  · split at h
    · exact hplain h ⟨rfl, rfl, rfl⟩
    · cases hkind : req.createKind with
      | none =>
        simp only [createOrder, hkind, Option.map_none] at h
        exact hplain h ⟨rfl, rfl, rfl⟩
      | some kind =>
        simp only [createOrder, hkind, Option.map_some] at h
        split at h
        · exact hplain h ⟨rfl, rfl, rfl⟩
        · split at h
          · exact hplain h ⟨rfl, rfl, rfl⟩
          · split at h
            · exact hplain h ⟨rfl, rfl, rfl⟩
            · split at h
              · exact hplain h ⟨rfl, rfl, rfl⟩
              · cases h

namespace SimulatedExchange

variable {N : Numerics} {m : MarketView} {strict admits : Prop} {start x x' : SimulatedExchange}
  {r : Ref} {req : OrderRequest}

/-- No entry is left to delete. -/
abbrev noneStale : PendingBook → String → Prop := fun _ _ => False

/-- The order is neither booked nor executed. -/
structure Fresh (x : SimulatedExchange) (r : Ref) : Prop where
  issued : x.orders.Issued r
  pending : (x.orders.get r).status = .pending
  unbooked : ∀ book k, (x.orders.pending book).find? k ≠ some r

/-- The order has the terms of its request besides. -/
structure Submitted (x : SimulatedExchange) (r : Ref) (req : OrderRequest) : Prop
    extends x.Fresh r where
  terms : ∃ id, req.Terms id (x.orders.get r)

theorem Submitted.rests (h : x.Submitted r req) {book : PendingBook}
    (hbook : req.orderType.book = some book) : (x.orders.get r).Rests book := by
  obtain ⟨_, hterms⟩ := h.terms
  refine ⟨?_, ?_, hterms.visible⟩
  · rw [hterms.quantity]
    exact hterms.positive
  · rw [hterms.orderType]
    exact hbook

/-- The outcome of a submission for its order: it is issued, and booked if still pending. -/
def Settled (x : SimulatedExchange) (r : Ref) : Prop :=
  x.orders.Issued r ∧ ((x.orders.get r).status = .pending →
    ∃ book, (x.orders.pending book).find? (x.orders.get r).id = some r)

/-- Turning a submitted order away. -/
theorem Progress.concludeNew (h : Progress N strict admits start noneStale x)
    (hsub : x.Fresh r) {status : OrderStatus} (hstatus : status ≠ .pending) (reason : String) :
    Progress N strict admits start noneStale (x.withOrders (x.orders.conclude r status reason)) ∧
      (x.withOrders (x.orders.conclude r status reason)).Settled r := by
  have hlive := hsub.issued.1
  obtain ⟨hn, hvalid⟩ := h.orders.conclude hlive hsub.pending hstatus reason
  have hstale : (x.orders.conclude r status reason).Consistent :=
    hvalid.stale_congr fun book k r' _ => by
      simp only [noneStale, false_or, iff_false]
      exact hsub.unbooked book k
  refine ⟨h.carry hstale (hn.carries rfl), (hn.issued_iff r).mpr hsub.issued, ?_⟩
  intro hpending
  change ((x.orders.conclude r status reason).get r).status = .pending at hpending
  rw [OrderTable.get, OrderTable.objects_conclude, Heap.get_modify_self _ hlive] at hpending
  exact absurd hpending hstatus

/-- Registering a submitted order as pending. -/
theorem Progress.restNew (h : Progress N strict admits start noneStale x) (hsub : x.Submitted r req)
    {book : PendingBook} (hbook : req.orderType.book = some book) :
    Progress N strict admits start noneStale (x.withOrders (x.orders.rest r book)) ∧
      (x.withOrders (x.orders.rest r book)).Settled r := by
  obtain ⟨hev, hvalid, hget, hfind⟩ := h.orders.rest hsub.issued hsub.pending (hsub.rests hbook)
  have hc : x.orders.Carries (x.orders.rest r book) := by
    refine ⟨?_, hev, rfl, fun _ => rfl⟩
    intro r' hr'
    obtain ⟨hlive, n, hid⟩ := hr'
    rw [hget] at hid
    exact ⟨(Heap.live_modify _ _ _ _).mp hlive, n, hid⟩
  refine ⟨h.carry hvalid hc, hsub.issued.evolves hev, fun _ => ⟨book, ?_⟩⟩
  change ((x.orders.rest r book).pending book).find? ((x.orders.rest r book).get r).id = some r
  rw [hget]
  exact hfind

theorem Progress.startTrail (h : Progress N strict admits start noneStale x) (hsub : x.Submitted r req)
    (midPrice : ℚ) : Progress N strict admits start noneStale
        (x.withOrders (x.orders.update r (SimulatedExchange.startTrail req.side midPrice))) ∧
      (x.withOrders (x.orders.update r
        (SimulatedExchange.startTrail req.side midPrice))).Submitted r req := by
  have hlive := hsub.issued.1
  have hsame : ∀ o : Order, o.Evolves (SimulatedExchange.startTrail req.side midPrice o) ∧
      (SimulatedExchange.startTrail req.side midPrice o).status = o.status ∧
      ∀ id, req.Terms id o → req.Terms id (SimulatedExchange.startTrail req.side midPrice o) := by
    intro o
    unfold SimulatedExchange.startTrail
    cases hkind : o.kind with
    | trailingStop fields =>
      refine ⟨⟨rfl, rfl, rfl, rfl, rfl, rfl, rfl, ?_, fun _ => ⟨rfl, rfl⟩⟩, rfl, ?_⟩
      · rw [hkind]
        trivial
      · intro id hterms
        exact { hterms with visible := fun fields hfields => by cases hfields }
    | plain => exact ⟨.refl o, rfl, fun _ hterms => hterms⟩
    | stopLimit _ => exact ⟨.refl o, rfl, fun _ hterms => hterms⟩
    | iceberg _ => exact ⟨.refl o, rfl, fun _ hterms => hterms⟩
  obtain ⟨hevolves, hstatus, hkeep⟩ := hsame (x.orders.get r)
  obtain ⟨hn, hvalid⟩ := h.orders.touch hlive hevolves hstatus
  obtain ⟨id, hterms⟩ := hsub.terms
  have hterms' : req.Terms id ((x.orders.update r
      (SimulatedExchange.startTrail req.side midPrice)).get r) := by
    rw [OrderTable.get, OrderTable.update, Heap.get_modify_self _ hlive]
    exact hkeep id hterms
  exact ⟨h.carry hvalid (hn.carries rfl),
    ⟨⟨(hn.issued_iff r).mpr hsub.issued, hterms'.pending, hsub.unbooked⟩, id, hterms'⟩⟩

theorem applyPartialFill_eq (N : Numerics) (fillPrice midPrice : ℚ) (side : Side) (quantity : ℚ)
    (o : Order) : ∃ price slippage, applyPartialFill N fillPrice midPrice side quantity o =
      { o with filledPrice := price, slippage := slippage } := by
  unfold applyPartialFill
  split
  · exact ⟨o.filledPrice, o.slippage, rfl⟩
  · simp only
    split
    · exact ⟨o.filledPrice, o.slippage, rfl⟩
    · exact ⟨_, _, rfl⟩

theorem status_applyPartialFill (N : Numerics) (fillPrice midPrice : ℚ) (side : Side)
    (quantity : ℚ) (o : Order) :
    (applyPartialFill N fillPrice midPrice side quantity o).status = o.status := by
  obtain ⟨price, slippage, heq⟩ := applyPartialFill_eq N fillPrice midPrice side quantity o
  rw [heq]

theorem get_filledAtOnce {t : OrderTable} {r : Ref} (hlive : t.objects.Live r)
    (fillPrice midPrice fee : ℚ) (side : Side) (quantity : ℚ) :
    ∃ price slippage, ((t.setStatus r .filled).update r fun o =>
        applyPartialFill N fillPrice midPrice side quantity { o with
          filledPrice := N.roundPrice fillPrice
          filledQuantity := quantity
          fee := N.round fee 4
          slippage := N.round (fillPrice - midPrice) 4 }).get r = { t.get r with
      status := .filled
      filledPrice := price
      filledQuantity := quantity
      fee := N.round fee 4
      slippage := slippage } := by
  obtain ⟨price, slippage, heq⟩ := applyPartialFill_eq N fillPrice midPrice side quantity
    { t.get r with
      status := .filled
      filledPrice := N.roundPrice fillPrice
      filledQuantity := quantity
      fee := N.round fee 4
      slippage := N.round (fillPrice - midPrice) 4 }
  refine ⟨price, slippage, ?_⟩
  rw [OrderTable.get_update_setStatus hlive]
  exact heq

theorem evolves_filled {o o' : Order} (hpending : o.status = .pending) {price quantity slippage fee : ℚ}
    (hfilled : o' = { o with
      status := .filled
      filledPrice := price
      filledQuantity := quantity
      slippage := slippage
      fee := fee }) : o.Evolves o' ∧ o'.status ≠ .pending := by
  rw [hfilled]
  constructor
  · exact OrderTable.evolves_of_pending hpending ⟨rfl, rfl, rfl, rfl, rfl, rfl, rfl⟩ (.refl _)
  · exact fun hc => by cases hc

theorem Progress.fillMarketOrder (h : Progress N strict admits start noneStale x)
    (hsub : x.Submitted r req) (marketFillPrice midPrice : ℚ) :
    Progress N strict admits start noneStale (x.fillMarketOrder N m r req marketFillPrice midPrice) ∧
      (x.fillMarketOrder N m r req marketFillPrice midPrice).Settled r := by
  unfold SimulatedExchange.fillMarketOrder
  simp only
  generalize (if req.orderType = .limit then req.price.getD marketFillPrice else marketFillPrice) =
    fillPrice
  split
  · exact h.concludeNew hsub.toFresh (by decide) _
  · have hlive := hsub.issued.1
    obtain ⟨id, hterms⟩ := hsub.terms
    obtain ⟨price, slippage, hget⟩ := get_filledAtOnce (N := N) hlive fillPrice midPrice
      (fillPrice * req.quantity * x.feePct / 100) req.side req.quantity
    generalize (fun o : Order => applyPartialFill N fillPrice midPrice req.side
      req.quantity { o with
        filledPrice := N.roundPrice fillPrice
        filledQuantity := req.quantity
        fee := N.round (fillPrice * req.quantity * x.feePct / 100) 4
        slippage := N.round (fillPrice - midPrice) 4 }) = f at hget ⊢
    have hobjects := OrderTable.objects_update_setStatus x.orders r .filled f
    have hwritten := OrderTable.get_update_setStatus hlive .filled f
    obtain ⟨hevolves, hdone⟩ := evolves_filled hsub.pending (hwritten.symm.trans hget)
    obtain ⟨hn, hvalid⟩ := h.orders.finish (((x.orders.setStatus r .filled).update r f).record r)
      hlive hobjects hevolves hdone rfl rfl rfl rfl
    have hstale : (((x.orders.setStatus r .filled).update r f).record r).Consistent :=
      hvalid.stale_congr fun book k r' _ => by
        simp only [noneStale, false_or, iff_false]
        exact hsub.unbooked book k
    have hfilled := h.fill hsub.issued hsub.pending hstale (hn.carries rfl)
      (by rw [OrderTable.get_record, hwritten]; exact hdone) m
      (((x.orders.setStatus r .filled).update r f).get r)
      { orderId := (((x.orders.setStatus r .filled).update r f).get r).id
        symbol := req.symbol
        side := req.side
        quantity := req.quantity }
      (by rw [hget]; exact hterms.positive)
      (by rw [hget]; exact hterms.symbol.symm)
      (by
        rw [hget, Fill.signedQuantity, Order.signedFilled]
        exact congrArg (Side.signed · req.quantity) hterms.side.symm)
      (by rw [hget]; rfl)
      (fillPrice * req.quantity * x.feePct / 100) (fillPrice * req.quantity) req.forceClose
      req.stopLoss req.takeProfit
    refine ⟨hfilled, ?_⟩
    obtain ⟨hresolves, -⟩ := hstale.resolveOco ((hn.issued_iff r).mpr hsub.issued)
    refine ⟨(hresolves.narrows.issued_iff r).mpr ((hn.issued_iff r).mpr hsub.issued), ?_⟩
    intro hpending
    rw [hresolves.get_self, OrderTable.get_record, hwritten] at hpending
    exact absurd hpending hdone

theorem Progress.placeOrder (h : Progress N strict admits start noneStale x) (hsub : x.Submitted r req)
    (hplaced : x.placeOrder N m r req = some x') :
    Progress N strict admits start noneStale x' ∧ x'.Settled r := by
  cases placing_of_placeOrder hplaced with
  | conclude hdone reason =>
    exact h.concludeNew hsub.toFresh (OrderStatus.ne_pending_of_done hdone) reason
  | fill => exact h.fillMarketOrder hsub _ _
  | rest hbook => exact h.restNew hsub hbook
  | trail htype =>
    obtain ⟨htrail, hsub'⟩ := h.startTrail hsub (m.price req.symbol)
    exact htrail.restNew hsub' (by rw [htype]; rfl)

/-- Issuing an order and entering it into its group, up to a point at which it is not left
pending in a group with a filled order. -/
theorem Progress.enter (h : Progress N strict True start noneStale x) {o : Order} {t t' : OrderTable}
    (hid : o.id = orderId x.orders.orderCounter) (hadmits : x.orders.Admits t o)
    (hvalid : t'.Consistent) (hc : t.Carries t')
    (hnew : ∀ g winner, o.ocoGroupId = some g → x.orders.filledOrderOf g = some winner →
      (t'.get x.orders.objects.next).status ≠ .pending) :
    Progress N strict True start noneStale (x.withOrders t') where
  orders := hvalid
  evolves := (h.evolves.trans hadmits.evolves).trans hc.evolves
  known := Or.inl trivial
  ledger := h.ledger
  exclusive := fun hstrict => (h.exclusive hstrict).enter hadmits hc rfl hnew hid

theorem Progress.turnAway (h : Progress N strict True start noneStale x) {o : Order} {t : OrderTable}
    (hid : o.id = orderId x.orders.orderCounter) (hpending : o.status = .pending)
    (hadmits : x.orders.Admits t o) {status : OrderStatus} (hstatus : status ≠ .pending)
    (reason : String) : Progress N strict True start noneStale
        (x.withOrders (t.conclude x.orders.objects.next status reason)) ∧
      (x.withOrders (t.conclude x.orders.objects.next status reason)).Settled x.orders.objects.next := by
  have hlive := hadmits.issued.1
  obtain ⟨hn, hvalid⟩ := hadmits.valid.conclude hlive
    (by rw [hadmits.get_next]; exact hpending) hstatus reason
  have hstale : (t.conclude x.orders.objects.next status reason).Consistent :=
    hvalid.stale_congr fun book k r' _ => by
      simp only [false_or, iff_false]
      exact hadmits.unbooked book k
  have hdone : ((t.conclude x.orders.objects.next status reason).get
      x.orders.objects.next).status ≠ .pending := by
    rw [OrderTable.get, OrderTable.objects_conclude, Heap.get_modify_self _ hlive]
    exact hstatus
  exact ⟨h.enter hid hadmits hstale (hn.carries rfl) fun _ _ _ _ => hdone,
    (hn.issued_iff _).mpr hadmits.issued, fun hp => absurd hp hdone⟩

/-- Returning an order from its submission. -/
theorem Progress.accept (h : Progress N strict True start noneStale x) (hsettled : x.Settled r) :
    Progress N strict True start noneStale (x.accept r) :=
  h.carry (h.orders.accept hsettled.1 hsettled.2)
    ⟨fun _ hr => hr, .refl _, rfl, fun _ => rfl⟩

theorem Progress.submitOrder (h : Progress N strict True start noneStale x) (req : OrderRequest) :
    Progress N strict True start noneStale (x.submitOrder N m req).1 ∧
      ∀ r, (x.submitOrder N m req).2 = some r → (x.submitOrder N m req).1.orders.Issued r := by
  have hreturn : ∀ {y : SimulatedExchange} {r : Ref}, Progress N strict True start noneStale y →
      y.Settled r → Progress N strict True start noneStale (y.accept r) ∧
        ∀ r', some r = some r' → (y.accept r).orders.Issued r' := by
    intro y r hy hsettled
    refine ⟨hy.accept hsettled, fun r' heq => ?_⟩
    rw [← Option.some.inj heq]
    exact hsettled.1
  unfold SimulatedExchange.submitOrder
  cases hscreen : req.screen N (orderId x.orders.orderCounter) x.exchangeId with
  | error rejected =>
    obtain ⟨o, reason⟩ := rejected
    obtain ⟨hid, hpending, hgroup⟩ := OrderRequest.screen_error hscreen
    have hadmits := h.orders.enter (o := o) hid
    have hjoin : (x.orders.issue o).joinGroup x.orders.objects.next = x.orders.issue o := by
      have hnext : (x.orders.issue o).get x.orders.objects.next = o := Heap.get_alloc_next _ _
      simp only [OrderTable.joinGroup, hnext, hgroup]
    rw [hjoin] at hadmits
    have hrejected : OrderStatus.rejected ≠ .pending := by decide
    obtain ⟨hprogress, hsettled⟩ := h.turnAway hid hpending hadmits hrejected reason
    exact hreturn hprogress hsettled
  | ok o =>
    have hterms := OrderRequest.screen_ok hscreen
    have hadmits := h.orders.enter (o := o) hterms.id
    simp only
    generalize (x.orders.issue o).joinGroup x.orders.objects.next = t at hadmits ⊢
    by_cases hresolved : t.resolved x.orders.objects.next = true
    · rw [if_pos (show (x.withOrders t).orders.resolved _ = true from hresolved)]
      have hcancelled : OrderStatus.cancelled ≠ .pending := by decide
      obtain ⟨hprogress, hsettled⟩ :=
        h.turnAway hterms.id hterms.pending hadmits hcancelled "OCO_GROUP_RESOLVED"
      exact hreturn hprogress hsettled
    · rw [if_neg (show ¬ (x.withOrders t).orders.resolved _ = true from hresolved)]
      have hopen : ∀ g winner, o.ocoGroupId = some g → x.orders.filledOrderOf g = some winner →
          (t.get x.orders.objects.next).status ≠ .pending := by
        intro g winner hgroup hwinner
        rw [OrderTable.resolved, hadmits.get_next, hgroup, Option.bind_some,
          hadmits.filledOrderOf, hwinner] at hresolved
        exact absurd rfl hresolved
      have hjoined := h.enter hterms.id hadmits hadmits.valid
        ⟨fun _ hr => hr, .refl _, rfl, fun _ => rfl⟩ hopen
      have hsub : (x.withOrders t).Submitted x.orders.objects.next req := by
        refine ⟨⟨hadmits.issued, ?_, hadmits.unbooked⟩, orderId x.orders.orderCounter, ?_⟩
        · exact hadmits.get_next ▸ hterms.pending
        · exact hadmits.get_next ▸ hterms
      cases hplaced : (x.withOrders t).placeOrder N m x.orders.objects.next req with
      | none => exact ⟨hjoined, fun r heq => by cases heq⟩
      | some placed =>
        obtain ⟨hprogress, hsettled⟩ := hjoined.placeOrder hsub hplaced
        exact hreturn hprogress hsettled

end SimulatedExchange

end TradingSim.Exchange
