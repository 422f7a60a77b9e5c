import TradingSim.Exchange.Executions

/-!
# What a submission executes

A submission enters one order, which it leaves pending, turns away or fills, and then cancels the
resting orders of its group if it filled. `Places` says so in terms of moves.
-/

namespace TradingSim.Exchange

open Foundations

namespace SimulatedExchange

variable {N : Numerics} {m : MarketView} {x y x' : SimulatedExchange} {r : Ref}

/-! ### Amendments -/

theorem executes_amend {t : OrderTable} {f : Order → Order} (hlive : x.orders.objects.Live r)
    (hobjects : t.objects = x.orders.objects.modify r f)
    (hcounter : t.orderCounter = x.orders.orderCounter)
    (hamends : (x.orders.get r).Amends (f (x.orders.get r))) : x.Executes N m [] (x.withOrders t) := by
  have hdesk : (x.withOrders t).desk = x.desk.rewrite r (f (x.orders.get r)) := by
    unfold desk withOrders Desk.rewrite
    rw [hobjects, hcounter]
    congr 1
    exact Heap.modify_congr _ rfl
  have hmove : Move N m x.desk [] (x.desk.rewrite r (f (x.orders.get r))) :=
    .amend x.desk r _ hlive hamends
  rw [← hdesk] at hmove
  exact .single hmove

theorem executes_of_objects {t : OrderTable} (hobjects : t.objects = x.orders.objects)
    (hcounter : t.orderCounter = x.orders.orderCounter) : x.Executes N m [] (x.withOrders t) := by
  have hdesk : (x.withOrders t).desk = x.desk := by
    unfold desk withOrders
    rw [hobjects, hcounter]
  rw [Executes, hdesk]
  exact .refl _

/-- An order keeps its terms and fills under whatever writes none of them. -/
theorem amends_status {o : Order} {status : OrderStatus} {reason : Option String}
    (hstatus : status = o.status ∨ (o.status = .pending ∧ status ≠ .filled)) :
    o.Amends { o with status := status, rejectionReason := reason } :=
  ⟨⟨rfl, rfl, rfl, rfl, rfl, rfl⟩, rfl, rfl, rfl, .refl _, hstatus⟩

theorem executes_cancel (hpending : (x.orders.get r).status = .pending) :
    x.Executes N m [] (x.withOrders (x.orders.setStatus r .cancelled)) := by
  by_cases hlive : x.orders.objects.Live r
  · have hamends : (x.orders.get r).Amends { x.orders.get r with status := .cancelled } :=
      amends_status (Or.inr ⟨hpending, by decide⟩)
    exact executes_amend hlive rfl rfl hamends
  · exact executes_of_objects (Heap.modify_of_not_live _ hlive _) rfl

theorem executes_foldl_cancelSibling (id : String) (orders : List Ref) (acc : OrderTable × List Ref) :
    (x.withOrders acc.1).Executes N m []
      (x.withOrders (orders.foldl (OrderTable.cancelSibling id) acc).1) := by
  induction orders generalizing acc with
  | nil => exact .refl _
  | cons a rest ih =>
    apply Trace.trans_left _ (ih _)
    unfold OrderTable.cancelSibling
    split
    · rename_i hsibling
      exact executes_cancel (x := x.withOrders acc.1) hsibling.2
    · exact .refl _

theorem executes_resolveOco (x : SimulatedExchange) (r : Ref) :
    x.Executes N m [] (x.withOrders (x.orders.resolveOco r)) := by
  unfold OrderTable.resolveOco
  split
  · exact .refl _
  · split
    · exact .refl _
    · split
      · exact .refl _
      · rename_i group _ _
        have hswept := executes_foldl_cancelSibling (m := m) (N := N) (x := x) (x.orders.get r).id group.orders
          (x.orders, [])
        apply hswept.trans_right
        simp only [OrderTable.onFill, OrderTable.foldl_popEverywhere]
        exact executes_of_objects (x := x.withOrders _) rfl rfl

end SimulatedExchange

/-! ### Prices -/

theorem SimulatedExchange.calculateFillPrice_eq (x : SimulatedExchange) (midPrice : ℚ) (side : Side)
    (quantity : ℚ) : x.calculateFillPrice midPrice side quantity =
      (PriceBasis.market midPrice).basePrice x.slippageBps side quantity := by
  have hlarge : (1 / 10 : ℚ) < quantity / 500 ↔ 50 < quantity := by
    rw [lt_div_iff₀ (by norm_num)]
    norm_num
  unfold SimulatedExchange.calculateFillPrice PriceBasis.basePrice
  simp only [typicalVolume, hlarge]
  by_cases h : 50 < quantity
  · cases side with
    | buy =>
      simp only [if_pos h, Side.signed]
      ring
    | sell =>
      simp only [if_pos h, Side.signed]
      ring
  · cases side with
    | buy =>
      simp only [if_neg h, Side.signed]
      ring
    | sell =>
      simp only [if_neg h, Side.signed]
      ring

theorem SimulatedExchange.filledPrice_applyPartialFill (N : Numerics) (fillPrice midPrice : ℚ)
    (side : Side) (quantity : ℚ) {o : Order} (ho : o.filledPrice = N.roundPrice fillPrice) :
    (applyPartialFill N fillPrice midPrice side quantity o).filledPrice =
      N.roundPrice (averagePrice fillPrice side quantity) := by
  unfold applyPartialFill averagePrice
  by_cases hhalf : quantity ≤ typicalVolume * (1 / 2)
  · have hsmall : quantity ≤ typicalVolume := by
      unfold typicalVolume at hhalf ⊢
      linarith
    rw [if_pos hhalf, if_pos hsmall, ho]
  · have hpositive : 0 < quantity := by
      unfold typicalVolume at hhalf
      linarith
    rw [if_neg hhalf]
    by_cases hsmall : quantity ≤ typicalVolume
    · have hone : 1 ≤ typicalVolume / quantity := (one_le_div hpositive).mpr hsmall
      simp only [min_eq_left hone, le_refl, if_true, if_pos hsmall]
      exact ho
    · have hless : typicalVolume / quantity < 1 := (div_lt_one hpositive).mpr (not_le.mp hsmall)
      simp only [min_eq_right hless.le, if_neg (not_le.mpr hless), if_neg hsmall]
      congr 1
      cases side with
      | buy =>
        simp only [Side.signed]
        ring
      | sell =>
        simp only [Side.signed]
        ring

theorem SimulatedExchange.averaged_applyPartialFill (N : Numerics) (fillPrice midPrice : ℚ)
    (side : Side) (quantity : ℚ) {o : Order} (ho : o.filledPrice = N.roundPrice fillPrice) :
    ∃ slippage, applyPartialFill N fillPrice midPrice side quantity o = { o with
      filledPrice := N.roundPrice (averagePrice fillPrice side quantity)
      slippage := slippage } := by
  obtain ⟨price, slippage, heq⟩ := applyPartialFill_eq N fillPrice midPrice side quantity o
  have hprice : price = N.roundPrice (averagePrice fillPrice side quantity) := by
    have hfilled := filledPrice_applyPartialFill N fillPrice midPrice side quantity ho
    rw [heq] at hfilled
    exact hfilled
  exact ⟨slippage, heq.trans (by rw [hprice])⟩

/-! ### The order of a request -/

namespace OrderRequest

variable {N : Numerics} {m : MarketView} {x : SimulatedExchange} {req : OrderRequest}
  {id exchange : String} {o : Order}

/-- The terms of a request under the number of the order itself. -/
theorem sameTerms_ownId (h : (req.plainOrder id exchange).SameTerms o) :
    (req.plainOrder o.id exchange).SameTerms o :=
  ⟨rfl, h.symbol, h.side, h.orderType, h.quantity, h.price⟩

theorem screen_order (h : req.screen N id exchange = .ok o ∨
      ∃ reason, req.screen N id exchange = .error (o, reason)) :
    ∃ kind timeInForce postOnly expireTs group, (kind = .plain ∨ req.createKind = some kind) ∧
      o = { req.plainOrder id exchange with
        kind := kind
        timeInForce := timeInForce
        postOnly := postOnly
        expireTs := expireTs
        ocoGroupId := group } := by
  rcases h with hok | ⟨reason, herror⟩
  · obtain ⟨-, -, kind, hkind, heq⟩ := screen_eq_ok hok
    exact ⟨kind, _, _, _, _, Or.inr hkind, heq⟩
  · have hplain : ∀ {o' : Order} {text : String},
        (Except.error (o', text) : Except (Order × String) Order) = .error (o, reason) → o = o' := by
      intro o' text heq
      simp only [Except.error.injEq, Prod.mk.injEq] at heq
      exact heq.1.symm
    unfold screen at herror
    split at herror
    · exact ⟨.plain, _, _, _, _, Or.inl rfl, hplain herror⟩
    · split at herror
      · exact ⟨.plain, _, _, _, _, Or.inl rfl, hplain herror⟩
      · cases hkind : req.createKind with
        | none =>
          simp only [createOrder, hkind, Option.map_none] at herror
          exact ⟨.plain, _, _, _, _, Or.inl rfl, hplain herror⟩
        | some kind =>
          simp only [createOrder, hkind, Option.map_some] at herror
          split at herror
          · exact ⟨kind, _, _, _, _, Or.inr rfl, hplain herror⟩
          · split at herror
            · exact ⟨kind, _, _, _, _, Or.inr rfl, hplain herror⟩
            · split at herror
              · exact ⟨kind, _, _, _, _, Or.inr rfl, hplain herror⟩
              · split at herror
                · exact ⟨kind, _, _, _, _, Or.inr rfl, hplain herror⟩
                · cases herror

theorem iceberg_createKind {fields : IcebergFields} (h : req.createKind = some (.iceberg fields)) :
    req.orderType = .iceberg ∧ 0 < fields.visibleQuantity ∧ fields.visibleQuantity < req.quantity ∧
      fields.hiddenQuantity = req.quantity - fields.visibleQuantity := by
  unfold createKind at h
  cases htype : req.orderType with
  | iceberg =>
    simp only [htype] at h
    cases hvisible : req.icebergVisibleQty with
    | none => simp [hvisible] at h
    | some visible =>
      simp only [hvisible] at h
      by_cases hbad : visible ≤ 0 ∨ req.quantity ≤ visible
      · simp [hbad] at h
      · rw [if_neg hbad, Option.some.injEq, OrderKind.iceberg.injEq] at h
        rw [not_or, not_le, not_le] at hbad
        rw [← h]
        exact ⟨rfl, hbad.1, hbad.2, rfl⟩
  | stopLimit =>
    simp only [htype] at h
    split at h <;> cases h
  | trailingStop =>
    simp only [htype] at h
    split at h
    · cases h
    · split at h <;> cases h
  | market => simp [htype] at h
  | limit => simp [htype] at h
  | oco => simp [htype] at h

theorem plain_createKind {kind : OrderKind} (hkind : req.createKind = some kind)
    (hbook : req.orderType.book = none ∨ req.orderType = .limit) : kind = .plain := by
  unfold createKind at hkind
  cases htype : req.orderType with
  | market => simpa [htype] using hkind.symm
  | limit => simpa [htype] using hkind.symm
  | oco => simpa [htype] using hkind.symm
  | stopLimit => simp [htype, OrderType.book] at hbook
  | trailingStop => simp [htype, OrderType.book] at hbook
  | iceberg => simp [htype, OrderType.book] at hbook

theorem screen_entered (h : req.screen N id exchange = .ok o ∨
      ∃ reason, req.screen N id exchange = .error (o, reason)) :
    (req.plainOrder id exchange).SameTerms o ∧ o.status = .pending ∧ o.Entered := by
  obtain ⟨kind, _, _, _, _, hkind, rfl⟩ := screen_order h
  have hopen : OrderStatus.pending ≠ .filled := by decide
  refine ⟨⟨rfl, rfl, rfl, rfl, rfl, rfl⟩, rfl, hopen, rfl, ?_⟩
  intro fields hfields
  rcases hkind with hplain | hcreated
  · rw [hplain] at hfields
    cases hfields
  · exact iceberg_createKind (hcreated.trans (congrArg some hfields))

/-- A request with a price is filled as soon as it is placed: the price is reached and nothing in
its instructions keeps it from taking. -/
def FillsAtOnce (m : MarketView) (x : SimulatedExchange) (req : OrderRequest) (price : ℚ) : Prop :=
  marketable req.side price
      (x.calculateFillPrice (m.price req.symbol) req.side req.quantity) = true ∧
    req.postOnly = false ∧
      (req.timeInForce = "FOK" →
        SimulatedExchange.depthCovers m req.symbol req.side req.quantity = some true)

theorem decideLimit_eq_fill_iff {price : ℚ} (hterms : (req.plainOrder id exchange).SameTerms o)
    (hpost : o.postOnly = req.postOnly) (htime : o.timeInForce = req.timeInForce) :
    SimulatedExchange.decideLimit m o price
        (x.calculateFillPrice (m.price req.symbol) req.side req.quantity) = .fill ↔
      req.FillsAtOnce m x price := by
  have hside : o.side = req.side := hterms.side
  have hsymbol : o.symbol = req.symbol := hterms.symbol
  have hquantity : o.quantity = req.quantity := hterms.quantity
  unfold SimulatedExchange.decideLimit FillsAtOnce
  rw [hside, hsymbol, hquantity, hpost, htime]
  by_cases hreached : marketable req.side price
      (x.calculateFillPrice (m.price req.symbol) req.side req.quantity) = true
  · rw [if_pos hreached]
    cases hpostOnly : req.postOnly with
    | true => simp
    | false =>
      simp only [Bool.false_eq_true, if_false, hreached, true_and]
      by_cases hfok : req.timeInForce = "FOK"
      · cases SimulatedExchange.depthCovers m req.symbol req.side req.quantity with
        | none => simp
        | some covers => cases covers <;> simp
      · simp [hfok]
  · rw [if_neg hreached]
    constructor
    · intro hfill
      split at hfill <;> cases hfill
    · exact fun hfills => absurd hfills.1 hreached

/-- The order of a request that is not executed by its submission. -/
structure Enters (m : MarketView) (x : SimulatedExchange) (req : OrderRequest) (o : Order) :
    Prop where
  number : o.id = orderId x.orders.orderCounter
  terms : (req.plainOrder o.id x.exchangeId).SameTerms o
  entered : o.Entered
  kind : o.status = .pending → ∃ kind, req.createKind = some kind ∧ kind.Keeps o.kind
  waits : o.status = .pending → req.orderType = .limit → ∀ price ∈ req.price,
    ¬ req.FillsAtOnce m x price

/-- The execution of a request by its submission. -/
structure Fills (N : Numerics) (m : MarketView) (x : SimulatedExchange) (req : OrderRequest)
    (e : Execution) : Prop where
  number : e.order.id = orderId x.orders.orderCounter
  terms : (req.plainOrder e.order.id x.exchangeId).SameTerms e.order
  whole : e.order.filledQuantity = req.quantity
  charged : e.Charged N x.desk
  parent : e.parentOrder = none
  immediate : req.orderType.book = none ∨ req.orderType = .limit
  kind : e.order.kind = .plain
  basis : e.order.FillsFrom e.basis
  quoted : e.basis.QuotedBy m req.symbol
  taken : req.orderType = .limit → ∀ price ∈ req.price, req.FillsAtOnce m x price

/-- A submission enters or fills its order, and then at most cancels others. -/
def Submits (N : Numerics) (m : MarketView) (x : SimulatedExchange) (req : OrderRequest)
    (x' : SimulatedExchange) : Prop :=
  ∃ d, Trace (Move N m) d [] x'.desk ∧
    ((∃ o, req.Enters m x o ∧ d = x.desk.enter o) ∨
      ∃ e, req.Fills N m x e ∧
        d = (x.desk.enter e.order).book N m e req.stopLoss req.takeProfit)

theorem Submits.executes {x' : SimulatedExchange} (h : req.Submits N m x x') :
    ∃ es, x.Executes N m es x' := by
  obtain ⟨d, hrest, ⟨o, henters, rfl⟩ | ⟨e, hfills, rfl⟩⟩ := h
  · have hmove : Move N m x.desk [] (x.desk.enter o) := .enter _ o henters.number henters.entered
    exact ⟨[], (Trace.single hmove).trans_left hrest⟩
  · have hmove : Move N m x.desk [e]
        ((x.desk.enter e.order).book N m e req.stopLoss req.takeProfit) := by
      refine .fillEntered x.desk e _ _ hfills.number hfills.charged hfills.parent ?_ hfills.kind
        hfills.basis ?_
      · rw [hfills.terms.orderType]
        exact hfills.immediate
      · rw [hfills.terms.symbol]
        exact hfills.quoted
    exact ⟨[e], (Trace.single hmove).trans_right hrest⟩

end OrderRequest

/-! ### Submissions -/

namespace SimulatedExchange

variable {N : Numerics} {m : MarketView} {x y x' : SimulatedExchange} {req : OrderRequest} {o : Order}

theorem desk_rewriteEntered (hy : y.desk = x.desk.enter o) {t : OrderTable} {f : Order → Order}
    (hobjects : t.objects = y.orders.objects.modify x.orders.objects.next f)
    (hcounter : t.orderCounter = y.orders.orderCounter) : (y.withOrders t).desk = x.desk.enter (f o) := by
  have hentered : y.orders.objects = x.orders.objects.alloc o := congrArg Desk.objects hy
  have hnumber : y.orders.orderCounter = x.orders.orderCounter + 1 :=
    congrArg Desk.orderCounter hy
  have hfee : y.feePct = x.feePct := congrArg Desk.feePct hy
  have hslippage : y.slippageBps = x.slippageBps := congrArg Desk.slippageBps hy
  have hratio : y.partialLiquidationRatio = x.partialLiquidationRatio :=
    congrArg Desk.partialLiquidationRatio hy
  have hledger : y.ledger = x.ledger := congrArg Desk.ledger hy
  unfold desk withOrders Desk.enter
  simp only [hobjects, hcounter, hentered, hnumber, hfee, hslippage, hratio,
    hledger,
    Heap.modify_alloc_next]

theorem get_entered (hy : y.desk = x.desk.enter o) : y.orders.get x.orders.objects.next = o := by
  have hentered : y.orders.objects = x.orders.objects.alloc o := congrArg Desk.objects hy
  rw [OrderTable.get, hentered, Heap.get_alloc_next]

theorem submits_entered (ho : req.Enters m x o) (hdesk : x'.desk = x.desk.enter o) :
    req.Submits N m x x' := by
  refine ⟨x.desk.enter o, ?_, Or.inl ⟨o, ho, rfl⟩⟩
  rw [hdesk]
  exact .refl _

/-- Turning an entered order away. -/
theorem submits_conclude (hy : y.desk = x.desk.enter o) (hnumber : o.id = orderId x.orders.orderCounter)
    (hterms : (req.plainOrder o.id x.exchangeId).SameTerms o) (hentered : o.Entered)
    {status : OrderStatus} (hpending : status ≠ .pending) (hfilled : status ≠ .filled) (reason : String) :
    req.Submits N m x (y.withOrders (y.orders.conclude x.orders.objects.next status reason)) := by
  have hdesk : (y.withOrders (y.orders.conclude x.orders.objects.next status reason)).desk =
      x.desk.enter { o with status := status, rejectionReason := some reason } :=
    desk_rewriteEntered hy (OrderTable.objects_conclude _ _ _ _) rfl
  refine submits_entered (o := { o with status := status, rejectionReason := some reason })
    ⟨hnumber, ⟨hterms.id, hterms.symbol, hterms.side, hterms.orderType, hterms.quantity,
      hterms.price⟩, ⟨hfilled, hentered.filledPrice, hentered.iceberg⟩, ?_, ?_⟩ hdesk
  · exact fun hc => absurd hc hpending
  · exact fun hc => absurd hc hpending

/-- What the price of an immediate fill is made from: the limit, or the market if the request names
none. -/
theorem exists_priceBasis (hslippage : y.slippageBps = x.slippageBps) : ∃ basis : PriceBasis,
      (∀ o' : Order, o'.orderType = req.orderType → o'.price = req.price → o'.FillsFrom basis) ∧
      (if req.orderType = .limit then req.price.getD
          (y.calculateFillPrice (m.price req.symbol) req.side req.quantity)
        else y.calculateFillPrice (m.price req.symbol) req.side req.quantity) =
        basis.basePrice x.slippageBps req.side req.quantity ∧
      basis.exactPrice x.slippageBps req.side req.quantity =
        averagePrice (basis.basePrice x.slippageBps req.side req.quantity) req.side req.quantity ∧
      basis.QuotedBy m req.symbol := by
  have hmarket : y.calculateFillPrice (m.price req.symbol) req.side req.quantity =
      (PriceBasis.market (m.price req.symbol)).basePrice x.slippageBps req.side req.quantity := by
    rw [calculateFillPrice_eq, hslippage]
  by_cases hlimit : req.orderType = .limit
  · rw [if_pos hlimit]
    cases hprice : req.price with
    | none =>
      refine ⟨.market (m.price req.symbol), fun o' _ hprice' => ?_, hmarket, rfl, rfl⟩
      exact fun _ => hprice'
    | some price =>
      refine ⟨.limit price, fun o' htype hprice' => ?_, rfl, rfl, trivial⟩
      exact ⟨htype.trans hlimit, hprice'⟩
  · rw [if_neg hlimit]
    refine ⟨.market (m.price req.symbol), fun o' htype _ => ?_, hmarket, rfl, rfl⟩
    exact fun hc => absurd (htype.symm.trans hc) hlimit

theorem submits_fillMarketOrder (hy : y.desk = x.desk.enter o)
    (hterms : req.Terms (orderId x.orders.orderCounter) o)
    (hsame : (req.plainOrder o.id x.exchangeId).SameTerms o) (hentered : o.Entered)
    (himmediate : req.orderType.book = none ∨ req.orderType = .limit) (hplain : o.kind = .plain)
    (htaken : req.orderType = .limit → ∀ price ∈ req.price, req.FillsAtOnce m x price) :
    req.Submits N m x (y.fillMarketOrder N m x.orders.objects.next req
      (y.calculateFillPrice (m.price req.symbol) req.side req.quantity) (m.price req.symbol)) := by
  have hfee : y.feePct = x.feePct := congrArg Desk.feePct hy
  have hslippage : y.slippageBps = x.slippageBps := congrArg Desk.slippageBps hy
  obtain ⟨basis, hbasis, hbase, hexact, hquoted⟩ := @exists_priceBasis m x y req hslippage
  unfold fillMarketOrder
  dsimp only
  rw [hbase]
  generalize hfillPrice : basis.basePrice x.slippageBps req.side req.quantity = fillPrice at hexact ⊢
  split
  · exact submits_conclude hy hterms.id hsame hentered (by decide) (by decide) _
  · obtain ⟨slippage, haveraged⟩ := averaged_applyPartialFill N fillPrice (m.price req.symbol)
      req.side req.quantity (o := { o with
        status := .filled
        filledPrice := N.roundPrice fillPrice
        filledQuantity := req.quantity
        fee := N.round (fillPrice * req.quantity * y.feePct / 100) 4
        slippage := N.round (fillPrice - m.price req.symbol) 4 }) rfl
    set filled := ((y.orders.setStatus x.orders.objects.next .filled).update x.orders.objects.next
      fun o => applyPartialFill N fillPrice (m.price req.symbol) req.side req.quantity { o with
        filledPrice := N.roundPrice fillPrice
        filledQuantity := req.quantity
        fee := N.round (fillPrice * req.quantity * y.feePct / 100) 4
        slippage := N.round (fillPrice - m.price req.symbol) 4 }) with hfilled
    set order : Order := { o with
      status := .filled
      filledPrice := N.roundPrice (averagePrice fillPrice req.side req.quantity)
      filledQuantity := req.quantity
      fee := N.round (fillPrice * req.quantity * y.feePct / 100) 4
      slippage := slippage } with horder
    have hdesk : (y.withOrders filled).desk = x.desk.enter order := by
      have hrewritten := desk_rewriteEntered (t := filled) hy
        (OrderTable.objects_update_setStatus _ _ _ _) rfl
      exact hrewritten.trans (congrArg x.desk.enter haveraged)
    have hget : filled.get x.orders.objects.next = order := get_entered hdesk
    rw [hget]
    let e : Execution := {
      order := order
      basis := basis
      fee := fillPrice * req.quantity * y.feePct / 100
      notional := fillPrice * req.quantity
      margin := if req.forceClose then 0 else x.ledger.marginFor (fillPrice * req.quantity)
      forceClose := req.forceClose }
    have hside : order.side = req.side := hterms.side
    have hcharged : e.Charged N x.desk := by
      refine ⟨rfl, hterms.positive, ?_, ?_, Or.inl ?_, rfl⟩
      · change N.roundPrice (averagePrice fillPrice req.side req.quantity) =
          N.roundPrice (basis.exactPrice x.slippageBps order.side req.quantity)
        rw [hside, hexact]
      · change fillPrice * req.quantity =
          basis.basePrice x.slippageBps order.side req.quantity * req.quantity
        rw [hside, hfillPrice]
      · change fillPrice * req.quantity * y.feePct / 100 = fillPrice * req.quantity * x.feePct / 100
        rw [hfee]
    have hfill : e.fill = {
        orderId := order.id
        symbol := req.symbol
        side := req.side
        quantity := req.quantity } := by
      unfold Execution.fill
      rw [show e.order.symbol = req.symbol from hterms.symbol,
        show e.order.side = req.side from hside]
    refine ⟨(x.desk.enter order).book N m e req.stopLoss req.takeProfit, ?_, Or.inr ⟨e,
      ⟨hterms.id, ⟨hsame.id, hsame.symbol, hsame.side, hsame.orderType, hsame.quantity, hsame.price⟩,
        rfl, hcharged, rfl, himmediate, hplain, hbasis order hsame.orderType hsame.price, hquoted,
        htaken⟩,
      rfl⟩⟩
    have hbooked : SimulatedExchange.desk { y with
        ledger := y.ledger.bookFill N m order (fillPrice * req.quantity * y.feePct / 100)
          (fillPrice * req.quantity) req.forceClose req.stopLoss req.takeProfit e.fill
        orders := filled } = (x.desk.enter order).book N m e req.stopLoss req.takeProfit := by
      rw [Desk.book, ← hdesk]
      rfl
    rw [← hbooked, hfill]
    exact executes_resolveOco { y with
      ledger := y.ledger.bookFill N m order (fillPrice * req.quantity * y.feePct / 100)
        (fillPrice * req.quantity) req.forceClose req.stopLoss req.takeProfit {
          orderId := order.id
          symbol := req.symbol
          side := req.side
          quantity := req.quantity }
      orders := filled.record x.orders.objects.next } x.orders.objects.next

/-- Leaving an entered order pending in a book. -/
theorem submits_rest (hy : y.desk = x.desk.enter o) (ho : req.Enters m x o)
    (hpending : o.status = .pending) (book : PendingBook) :
    req.Submits N m x (y.withOrders (y.orders.rest x.orders.objects.next book)) := by
  refine submits_entered ho ?_
  have hdesk : (y.withOrders (y.orders.rest x.orders.objects.next book)).desk =
      x.desk.enter { o with status := .pending } :=
    desk_rewriteEntered (t := y.orders.rest x.orders.objects.next book) hy rfl rfl
  rw [hdesk, ← hpending]

theorem startTrail_keeps (side : Side) (midPrice : ℚ) (o : Order) :
    o.SameTerms (startTrail side midPrice o) ∧ (startTrail side midPrice o).status = o.status ∧
      o.kind.Keeps (startTrail side midPrice o).kind ∧
      (o.Entered → (startTrail side midPrice o).Entered) := by
  unfold startTrail
  cases hkind : o.kind with
  | trailingStop fields =>
    refine ⟨⟨rfl, rfl, rfl, rfl, rfl, rfl⟩, rfl, trivial, ?_⟩
    exact fun hentered => ⟨hentered.status, hentered.filledPrice, fun _ hfields => by cases hfields⟩
  | plain => exact ⟨⟨rfl, rfl, rfl, rfl, rfl, rfl⟩, rfl, by rw [hkind]; exact .refl _, id⟩
  | stopLimit _ => exact ⟨⟨rfl, rfl, rfl, rfl, rfl, rfl⟩, rfl, by rw [hkind]; exact .refl _, id⟩
  | iceberg _ => exact ⟨⟨rfl, rfl, rfl, rfl, rfl, rfl⟩, rfl, by rw [hkind]; exact .refl _, id⟩

/-- Starting the trail of an entered order and leaving it pending. -/
theorem submits_trail (hy : y.desk = x.desk.enter o) (ho : req.Enters m x o)
    (hcreated : req.createKind = some o.kind) (hpending : o.status = .pending)
    (htype : req.orderType = .trailingStop) (book : PendingBook) :
    let trailed := y.withOrders
      (y.orders.update x.orders.objects.next (startTrail req.side (m.price req.symbol)))
    req.Submits N m x
      (trailed.withOrders (trailed.orders.rest x.orders.objects.next book)) := by
  obtain ⟨htrail, hstatus, hkeeps, htrailed⟩ := startTrail_keeps req.side (m.price req.symbol) o
  have hdesk : (y.withOrders (y.orders.update x.orders.objects.next
      (startTrail req.side (m.price req.symbol)))).desk =
        x.desk.enter (startTrail req.side (m.price req.symbol) o) :=
    desk_rewriteEntered hy rfl rfl
  have hmoved : req.Enters m x (startTrail req.side (m.price req.symbol) o) := by
    refine ⟨htrail.id.trans ho.number, ⟨rfl, htrail.symbol.trans ho.terms.symbol,
      htrail.side.trans ho.terms.side, htrail.orderType.trans ho.terms.orderType,
      htrail.quantity.trans ho.terms.quantity, htrail.price.trans ho.terms.price⟩,
      htrailed ho.entered, fun _ => ⟨o.kind, hcreated, hkeeps⟩, fun _ hlimit => ?_⟩
    rw [htype] at hlimit
    cases hlimit
  exact submits_rest hdesk hmoved (hstatus.trans hpending) _

/-! ### Accepted orders -/

theorem createKind_accepted (hscreen : req.screen N (orderId x.orders.orderCounter) x.exchangeId = .ok o) :
    req.createKind = some o.kind := by
  obtain ⟨-, -, kind, hkind, ho⟩ := OrderRequest.screen_eq_ok hscreen
  rw [hkind, ho]

theorem enters_accepted (hscreen : req.screen N (orderId x.orders.orderCounter) x.exchangeId = .ok o)
    (hwaits : req.orderType = .limit → ∀ price ∈ req.price, ¬ req.FillsAtOnce m x price) :
    req.Enters m x o := by
  obtain ⟨hsame, -, hentered⟩ := OrderRequest.screen_entered (Or.inl hscreen)
  exact ⟨(OrderRequest.screen_ok hscreen).id, OrderRequest.sameTerms_ownId hsame, hentered,
    fun _ => ⟨o.kind, createKind_accepted hscreen, .refl _⟩, fun _ => hwaits⟩

theorem submits_fillAccepted (hy : y.desk = x.desk.enter o)
    (hscreen : req.screen N (orderId x.orders.orderCounter) x.exchangeId = .ok o)
    (himmediate : req.orderType.book = none ∨ req.orderType = .limit)
    (htaken : req.orderType = .limit → ∀ price ∈ req.price, req.FillsAtOnce m x price) :
    req.Submits N m x (y.fillMarketOrder N m x.orders.objects.next req
      (y.calculateFillPrice (m.price req.symbol) req.side req.quantity) (m.price req.symbol)) := by
  obtain ⟨hsame, -, hentered⟩ := OrderRequest.screen_entered (Or.inl hscreen)
  exact submits_fillMarketOrder hy (OrderRequest.screen_ok hscreen)
    (OrderRequest.sameTerms_ownId hsame) hentered himmediate
    (OrderRequest.plain_createKind (createKind_accepted hscreen) himmediate) htaken

theorem decideAccepted_eq_fill_iff (hy : y.desk = x.desk.enter o)
    (hscreen : req.screen N (orderId x.orders.orderCounter) x.exchangeId = .ok o) {price : ℚ} :
    decideLimit m o price (y.calculateFillPrice (m.price req.symbol) req.side req.quantity) = .fill ↔
      req.FillsAtOnce m x price := by
  obtain ⟨hsame, -, -⟩ := OrderRequest.screen_entered (Or.inl hscreen)
  obtain ⟨-, -, kind, -, ho⟩ := OrderRequest.screen_eq_ok hscreen
  have hslippage : y.slippageBps = x.slippageBps := congrArg Desk.slippageBps hy
  rw [calculateFillPrice_eq, hslippage, ← calculateFillPrice_eq]
  exact OrderRequest.decideLimit_eq_fill_iff hsame (by rw [ho]) (by rw [ho])

theorem submits_placeOrder (hy : y.desk = x.desk.enter o)
    (hscreen : req.screen N (orderId x.orders.orderCounter) x.exchangeId = .ok o)
    (hplaced : y.placeOrder N m x.orders.objects.next req = some x') : req.Submits N m x x' := by
  have hnumber := (OrderRequest.screen_ok hscreen).id
  obtain ⟨hsame, hpending, hentered⟩ := OrderRequest.screen_entered (Or.inl hscreen)
  have hnotLimit (hne : req.orderType ≠ .limit) : req.Enters m x o :=
    enters_accepted hscreen fun hlimit => absurd hlimit hne
  cases placing_of_placeOrder hplaced with
  | conclude hdone reason =>
    exact submits_conclude hy hnumber (OrderRequest.sameTerms_ownId hsame) hentered
      (OrderStatus.ne_pending_of_done hdone) (OrderStatus.ne_filled_of_done hdone) reason
  | fill _ hbook htaken =>
    refine submits_fillAccepted hy hscreen hbook fun hlimit price hprice => ?_
    have hfill := htaken hlimit price hprice
    rw [get_entered hy] at hfill
    exact (decideAccepted_eq_fill_iff hy hscreen).mp hfill
  | rest _ _ hwaits =>
    refine submits_rest hy (enters_accepted hscreen fun hlimit price hprice htakes => ?_) hpending _
    obtain ⟨price', hprice', hrest⟩ := hwaits hlimit
    obtain rfl := Option.some.inj (hprice.symm.trans hprice')
    rw [get_entered hy, (decideAccepted_eq_fill_iff hy hscreen).mpr htakes] at hrest
    cases hrest
  | trail htype =>
    exact submits_trail hy (hnotLimit (by rw [htype]; decide)) (createKind_accepted hscreen) hpending
      htype _

/-- A submission raises only where the depth of the book cannot be told. -/
theorem raises_placeOrder (hy : y.desk = x.desk.enter o)
    (hscreen : req.screen N (orderId x.orders.orderCounter) x.exchangeId = .ok o)
    (hplaced : y.placeOrder N m x.orders.objects.next req = none) :
    ∀ price ∈ req.price, ¬ req.FillsAtOnce m x price := by
  intro price hprice htakes
  have hfill := (decideAccepted_eq_fill_iff hy hscreen).mpr htakes
  unfold placeOrder at hplaced
  dsimp only at hplaced
  rw [get_entered hy, show req.price = some price from hprice] at hplaced
  split at hplaced
  · cases hplaced
  · split at hplaced
    · cases hplaced
    · cases hplaced
    · cases hplaced
    · dsimp only at hplaced
      rw [hfill] at hplaced
      cases hplaced
    · cases hplaced
    · cases hplaced

theorem desk_issue (x : SimulatedExchange) (o : Order) (r : Ref) :
    (x.withOrders ((x.orders.issue o).joinGroup r)).desk = x.desk.enter o := by
  obtain ⟨groups, hgroups, -⟩ := OrderTable.joinGroup_eq (x.orders.issue o) r
  rw [hgroups]
  rfl

theorem submits_submitOrder (x : SimulatedExchange) (req : OrderRequest) :
    req.Submits N m x (x.submitOrder N m req).1 := by
  unfold submitOrder
  cases hscreen : req.screen N (orderId x.orders.orderCounter) x.exchangeId with
  | error rejected =>
    obtain ⟨o, reason⟩ := rejected
    obtain ⟨hid, -, -⟩ := OrderRequest.screen_error hscreen
    obtain ⟨hsame, -, hentered⟩ := OrderRequest.screen_entered (Or.inr ⟨reason, hscreen⟩)
    exact submits_conclude (y := x.withOrders (x.orders.issue o)) rfl hid
      (OrderRequest.sameTerms_ownId hsame) hentered (by decide) (by decide) reason
  | ok o =>
    have hterms := OrderRequest.screen_ok hscreen
    obtain ⟨hsame, hpending, hentered⟩ := OrderRequest.screen_entered (Or.inl hscreen)
    have hdesk := desk_issue x o x.orders.objects.next
    dsimp only
    generalize x.withOrders ((x.orders.issue o).joinGroup x.orders.objects.next) = joined
      at hdesk ⊢
    split
    · exact submits_conclude hdesk hterms.id (OrderRequest.sameTerms_ownId hsame) hentered
        (by decide) (by decide) _
    · cases hplaced : joined.placeOrder N m x.orders.objects.next req with
      | some placed =>
        have hsubmits : req.Submits N m x placed := submits_placeOrder hdesk hscreen hplaced
        exact hsubmits
      | none =>
        apply submits_entered (enters_accepted hscreen _) hdesk
        intro _ price hprice htakes
        exact raises_placeOrder hdesk hscreen hplaced price hprice htakes

end SimulatedExchange

end TradingSim.Exchange
