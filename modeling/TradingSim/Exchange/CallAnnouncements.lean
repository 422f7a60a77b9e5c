import TradingSim.Exchange.OrderInstructions
import TradingSim.Exchange.SweepAnnouncements

/-!
# Which orders the other calls tell of

A submission tells of the order it returns, a cancel of the orders it cancels, and a check of the
positions of the orders that closed them. The first one tells of enough unless the new order fills
at once while another order of its group rests.

Between calls the resting orders are the accepted ones that are pending.
-/

namespace TradingSim.Exchange

open Foundations

namespace OrderRequest

variable {N : Numerics} {req : OrderRequest} {id exchange reason : String} {o : Order}

theorem exchange_of_createOrder (h : req.createOrder id exchange = some o) : o.exchange = exchange := by
  obtain ⟨kind, -, rfl⟩ := Option.map_eq_some_iff.mp h
  rfl

/-- The order of a request that passes its checks names the exchange. -/
theorem exchange_of_screen_ok (h : req.screen N id exchange = .ok o) : o.exchange = exchange := by
  obtain ⟨-, -, kind, -, rfl⟩ := screen_eq_ok h
  rfl

/-- So does the order of a request that fails one. -/
theorem exchange_of_screen_error (h : req.screen N id exchange = .error (o, reason)) :
    o.exchange = exchange := by
  unfold screen at h
  split at h
  · cases h
    rfl
  · split at h
    · cases h
      rfl
    · split at h
      · cases h
        rfl
      · rename_i created hcreated
        have hexchange := exchange_of_createOrder hcreated
        split at h
        · cases h
          exact hexchange
        · split at h
          · cases h
            exact hexchange
          · split at h
            · cases h
              exact hexchange
            · split at h
              · cases h
                exact hexchange
              · cases h

end OrderRequest

namespace SimulatedExchange

/-- The price at which a submission fills at once, unless its margin does not suffice. -/
def immediatePrice (m : MarketView) (x : SimulatedExchange) (req : OrderRequest) (order : Order) :
    Option ℚ :=
  let fillPrice := x.calculateFillPrice (m.price req.symbol) req.side req.quantity
  if m.price req.symbol = 0 then none
  else match req.orderType, req.price with
  | .market, _ => some fillPrice
  | .oco, _ => some fillPrice
  | .limit, none => some fillPrice
  | .limit, some price => if decideLimit m order price fillPrice = .fill then some price else none
  | .stopLimit, _ => none
  | .trailingStop, _ => none
  | .iceberg, _ => none

/-- If a submission fills at once, no order rests in the group it names. -/
def SparesSubmission (N : Numerics) (m : MarketView) (x : SimulatedExchange) (req : OrderRequest) : Prop :=
  ∀ order ∈ (req.screen N (orderId x.orders.orderCounter) x.exchangeId).toOption,
    ∀ price ∈ x.immediatePrice m req order,
      x.checkMarginAndSize N req.quantity (price * req.quantity)
          (price * req.quantity * x.feePct / 100) (m.price req.symbol) req.forceClose = none →
        x.orders.Unrivalled order.id order.ocoGroupId

instance (N : Numerics) (m : MarketView) (x : SimulatedExchange) (req : OrderRequest) :
    Decidable (x.SparesSubmission N m req) :=
  inferInstanceAs (Decidable (∀ order ∈ _, ∀ price ∈ x.immediatePrice m req order, _ → _))

variable {N : Numerics} {m : MarketView} {x x' : SimulatedExchange} {told : List Ref} {r : Ref}
  {req : OrderRequest}

/-! ### Submissions -/

/-- What placing a new order leads to: it is told of, and it rests only if its type has a book. -/
structure Places (r : Ref) (req : OrderRequest) (x x' : SimulatedExchange) : Prop where
  tells : Tells [r] x x'
  live : x'.orders.objects.Live r
  status : (x'.orders.get r).status = .pending → req.orderType.book.isSome

theorem places_of_concluded (h : Tells [r] x x' ∧ x'.Concluded [r]) : Places r req x x' := by
  obtain ⟨hlive, hdone⟩ := h.2 r List.mem_cons_self
  exact ⟨h.1, hlive, fun hpending => absurd hpending hdone⟩

/-- Registering an order as pending. -/
theorem places_rest (hlive : x.orders.objects.Live r) {book : PendingBook}
    (hbook : req.orderType.book = some book) : Places r req x (x.withOrders (x.orders.rest r book)) := by
  have hset : Tells [r] x (x.withOrders (x.orders.setStatus r .pending)) :=
    .modify rfl (fun _ => rfl) (Or.inl List.mem_cons_self) rfl rfl
  have hadd : Tells [r] (x.withOrders (x.orders.setStatus r .pending))
      (x.withOrders (x.orders.rest r book)) := by
    refine .withOrders rfl rfl fun book' k r' hfind => ?_
    change (Function.update x.orders.pending book _ book').find? k = some r' at hfind
    by_cases heq : book' = book
    · subst heq
      rw [Function.update_self, Dict.find?_insert] at hfind
      split at hfind
      · exact Or.inr (List.mem_singleton.mpr (Option.some.inj hfind).symm)
      · exact Or.inl hfind
    · rw [Function.update_of_ne heq] at hfind
      exact Or.inl hfind
  exact ⟨hset.tail hadd, (Heap.live_modify _ _ _ _).mpr hlive, fun _ => by rw [hbook]; rfl⟩

theorem exchange_applyPartialFill (N : Numerics) (fillPrice midPrice : ℚ) (side : Side)
    (quantity : ℚ) (o : Order) :
    (applyPartialFill N fillPrice midPrice side quantity o).exchange = o.exchange := by
  obtain ⟨price, slippage, heq⟩ := applyPartialFill_eq N fillPrice midPrice side quantity o
  rw [heq]

theorem places_fillMarketOrder (hvalid : x.orders.Consistent) (hsub : x.Submitted r req)
    (marketFillPrice midPrice : ℚ)
    (hfree : ∀ price, price = (if req.orderType = .limit then req.price.getD marketFillPrice
        else marketFillPrice) → x.checkMarginAndSize N req.quantity (price * req.quantity)
          (price * req.quantity * x.feePct / 100) midPrice req.forceClose = none →
      ∀ r' ∈ x.orders.accepted, ¬ x.orders.Rival (x.orders.get r).id (x.orders.get r).ocoGroupId r') :
    Places r req x (x.fillMarketOrder N m r req marketFillPrice midPrice) := by
  apply places_of_concluded
  unfold fillMarketOrder
  simp only
  generalize hprice : (if req.orderType = .limit then req.price.getD marketFillPrice
    else marketFillPrice) = fillPrice at hfree ⊢
  split
  · exact tells_finish hsub.issued.1 (OrderTable.objects_conclude _ _ .rejected _) (fun _ => rfl)
      (fun _ hc => by cases hc) rfl rfl
  · rename_i hmargin
    obtain ⟨price, slippage, happly⟩ := applyPartialFill_eq N fillPrice midPrice req.side
      req.quantity { x.orders.get r with
        status := .filled
        filledPrice := N.roundPrice fillPrice
        filledQuantity := req.quantity
        fee := N.round (fillPrice * req.quantity * x.feePct / 100) 4
        slippage := N.round (fillPrice - midPrice) 4 }
    obtain ⟨hevolves, hdone⟩ := evolves_filled hsub.pending happly
    obtain ⟨htells, hconcluded⟩ := tells_fill hvalid hsub.issued
      (((x.orders.setStatus r .filled).update r fun o =>
        applyPartialFill N fillPrice midPrice req.side req.quantity { o with
          filledPrice := N.roundPrice fillPrice
          filledQuantity := req.quantity
          fee := N.round (fillPrice * req.quantity * x.feePct / 100) 4
          slippage := N.round (fillPrice - midPrice) 4 }).record r)
      (OrderTable.objects_update_setStatus _ _ _ _)
      (fun _ => exchange_applyPartialFill N fillPrice midPrice req.side req.quantity _)
      hevolves hdone rfl rfl rfl rfl (hfree fillPrice rfl hmargin)
    exact ⟨htells.congr rfl rfl, hconcluded⟩

/-- An order that fills at once does so at its limit, or at the market. -/
theorem mem_immediatePrice {order : Order} (hquoted : m.price req.symbol ≠ 0)
    (hbook : req.orderType.book = none ∨ req.orderType = .limit)
    (htaken : req.orderType = .limit → ∀ price ∈ req.price, decideLimit m order price
      (x.calculateFillPrice (m.price req.symbol) req.side req.quantity) = .fill) :
    (if req.orderType = .limit then
        req.price.getD (x.calculateFillPrice (m.price req.symbol) req.side req.quantity)
      else x.calculateFillPrice (m.price req.symbol) req.side req.quantity) ∈
        x.immediatePrice m req order := by
  unfold immediatePrice
  rw [if_neg hquoted]
  cases htype : req.orderType with
  | limit =>
    cases hprice : req.price with
    | none => rfl
    | some price => simp [htaken htype price hprice]
  | market => rfl
  | oco => rfl
  | stopLimit => simp [htype, OrderType.book] at hbook
  | trailingStop => simp [htype, OrderType.book] at hbook
  | iceberg => simp [htype, OrderType.book] at hbook

theorem places_placeOrder (hvalid : x.orders.Consistent) (hsub : x.Submitted r req)
    (hfree : ∀ price ∈ x.immediatePrice m req (x.orders.get r),
      x.checkMarginAndSize N req.quantity (price * req.quantity)
          (price * req.quantity * x.feePct / 100) (m.price req.symbol) req.forceClose = none →
        ∀ r' ∈ x.orders.accepted, ¬ x.orders.Rival (x.orders.get r).id (x.orders.get r).ocoGroupId r')
    (hplaced : x.placeOrder N m r req = some x') : Places r req x x' := by
  have hlive := hsub.issued.1
  cases placing_of_placeOrder hplaced with
  | conclude hdone reason =>
    have hfinal := OrderStatus.ne_pending_of_done hdone
    exact places_of_concluded (tells_finish hlive (OrderTable.objects_conclude _ _ _ reason)
      (fun _ => rfl) (fun _ => hfinal) rfl rfl)
  | fill hquoted hbook htaken =>
    refine places_fillMarketOrder hvalid hsub _ _ fun price hprice => hfree price ?_
    rw [hprice]
    exact mem_immediatePrice hquoted hbook htaken
  | rest hbook => exact places_rest hlive hbook
  | trail htype =>
    have htrail : Tells [r] x
        (x.withOrders (x.orders.update r (startTrail req.side (m.price req.symbol)))) := by
      refine .modify rfl (fun o => ?_) (Or.inl List.mem_cons_self) rfl rfl
      unfold startTrail
      split <;> rfl
    have hrest : Places r req
        (x.withOrders (x.orders.update r (startTrail req.side (m.price req.symbol))))
        (x.withOrders ((x.orders.update r
          (startTrail req.side (m.price req.symbol))).rest r .trailingStops)) :=
      places_rest ((Heap.live_modify _ _ _ _).mpr hlive) (by rw [htype]; rfl)
    exact ⟨htrail.tail hrest.tells, hrest.live, hrest.status⟩

theorem tells_issue (told : List Ref) (hvalid : x.orders.Consistent) {o : Order}
    (ho : o.exchange = x.exchangeId) (r : Ref) : Tells told x (x.withOrders ((x.orders.issue o).joinGroup r)) := by
  have hissue : Tells told x (x.withOrders (x.orders.issue o)) :=
    (Tells.create hvalid ho).tail (.withOrders rfl rfl fun _ _ _ hfind => Or.inl hfind)
  obtain ⟨groups, heq, -⟩ := OrderTable.joinGroup_eq (x.orders.issue o) r
  rw [heq]
  exact hissue.tail (.withOrders rfl rfl fun _ _ _ hfind => Or.inl hfind)

theorem tells_submitOrder (hvalid : x.orders.Consistent) (hspares : x.SparesSubmission N m req) :
    Tells (x.submitOrder N m req).2.toList x (x.submitOrder N m req).1 ∧
      ∀ r, (x.submitOrder N m req).2 = some r → r ∈ (x.submitOrder N m req).1.orders.accepted ∧
        (((x.submitOrder N m req).1.orders.get r).status = .pending → req.orderType.book.isSome) := by
  have hreturn : ∀ {y y' : SimulatedExchange} {r : Ref}, Tells [r] x y → Places r req y y' →
      Tells (some r).toList x (y'.accept r) ∧ ∀ r', some r = some r' →
        r' ∈ (y'.accept r).orders.accepted ∧
          (((y'.accept r).orders.get r').status = .pending → req.orderType.book.isSome) := by
    intro y y' r hy hplaces
    have haccept : Tells [r] y' (y'.accept r) :=
      ⟨rfl, id, fun _ _ _ => rfl, fun _ hr => List.mem_append_left _ hr,
        fun _ hr => List.mem_append.mp hr, fun _ _ _ hfind => Or.inl hfind⟩
    refine ⟨(hy.tail hplaces.tells).tail haccept, fun r' heq => ?_⟩
    cases heq
    exact ⟨List.mem_append_right _ List.mem_cons_self, hplaces.status⟩
  unfold submitOrder
  cases hscreen : req.screen N (orderId x.orders.orderCounter) x.exchangeId with
  | error rejected =>
    obtain ⟨o, reason⟩ := rejected
    obtain ⟨hid, hpending, hgroup⟩ := OrderRequest.screen_error hscreen
    have hadmits := hvalid.enter (o := o) hid
    have hissue := tells_issue [x.orders.objects.next] hvalid
      (OrderRequest.exchange_of_screen_error hscreen) x.orders.objects.next
    have hjoin : (x.orders.issue o).joinGroup x.orders.objects.next = x.orders.issue o := by
      have hnext : (x.orders.issue o).get x.orders.objects.next = o := Heap.get_alloc_next _ _
      simp only [OrderTable.joinGroup, hnext, hgroup]
    rw [hjoin] at hadmits hissue
    exact hreturn hissue (places_of_concluded (tells_finish hadmits.issued.1
      (OrderTable.objects_conclude _ _ .rejected reason) (fun _ => rfl) (fun _ hc => by cases hc)
      rfl rfl))
  | ok o =>
    have hterms := OrderRequest.screen_ok hscreen
    have hadmits := hvalid.enter (o := o) hterms.id
    have hissue : ∀ told, Tells told x
        (x.withOrders ((x.orders.issue o).joinGroup x.orders.objects.next)) := fun told =>
      tells_issue told hvalid (OrderRequest.exchange_of_screen_ok hscreen) x.orders.objects.next
    have hguard := hspares o (by rw [hscreen]; rfl)
    simp only
    generalize (x.orders.issue o).joinGroup x.orders.objects.next = t at hadmits hissue ⊢
    split
    · exact hreturn (hissue _) (places_of_concluded (tells_finish hadmits.issued.1
        (OrderTable.objects_conclude _ _ .cancelled _) (fun _ => rfl) (fun _ hc => by cases hc)
        rfl rfl))
    · have hsub : (x.withOrders t).Submitted x.orders.objects.next req := by
        refine ⟨⟨hadmits.issued, ?_, hadmits.unbooked⟩, orderId x.orders.orderCounter, ?_⟩
        · exact hadmits.get_next ▸ hterms.pending
        · exact hadmits.get_next ▸ hterms
      cases hplaced : (x.withOrders t).placeOrder N m x.orders.objects.next req with
      | none => exact ⟨hissue _, fun r heq => by cases heq⟩
      | some placed =>
        refine hreturn (hissue _) (places_placeOrder hadmits.valid hsub ?_ hplaced)
        intro price hprice hmargin r' hr' hrival
        change t.Rival (t.get x.orders.objects.next).id
          (t.get x.orders.objects.next).ocoGroupId r' at hrival
        change price ∈ x.immediatePrice m req (t.get x.orders.objects.next) at hprice
        rw [hadmits.get_next] at hrival hprice
        have hr : r' ∈ x.orders.accepted := hadmits.accepted ▸ hr'
        unfold OrderTable.Rival at hrival
        rw [hadmits.get_old r' (hvalid.acceptedIssued r' hr).1] at hrival
        exact hvalid.not_rival (hguard price hprice hmargin) hr hrival

/-! ### Forced closes -/

/-- A market order in no group fills without a rival. -/
theorem sparesSubmission_of_group (hgroup : req.group = none) : x.SparesSubmission N m req := by
  intro order horder price _ _ r _ hrival
  cases hscreen : req.screen N (orderId x.orders.orderCounter) x.exchangeId with
  | error rejected =>
    rw [hscreen] at horder
    cases horder
  | ok o =>
    rw [hscreen] at horder
    cases horder
    exact hrival.2.2.1 ((OrderRequest.screen_ok hscreen).group.trans hgroup)

/-- What is told of and done with stays so. -/
theorem Concluded.evolves {told : List Ref} (h : x.Concluded told)
    (hevolves : x.orders.Evolves x'.orders) : x'.Concluded told := by
  intro r hr
  obtain ⟨hlive, hstatus⟩ := h r hr
  obtain ⟨hlive', hev⟩ := hevolves r hlive
  exact ⟨hlive', (hev.frozen hstatus).1 ▸ hstatus⟩

theorem exchangeId_foldl_markAndCheck (positions : List Ref)
    (acc : SimulatedExchange × List (Ref × CloseTrigger × ℚ)) :
    (positions.foldl (markAndCheck N m) acc).1.exchangeId = acc.1.exchangeId := by
  induction positions generalizing acc with
  | nil => rfl
  | cons r rest ih =>
    rw [List.foldl_cons, ih]
    unfold markAndCheck
    dsimp only
    split
    · rfl
    · rfl

theorem tells_closeTriggeredPosition {acc : SimulatedExchange × List Ref}
    (hvalid : acc.1.orders.Consistent) (htells : Tells acc.2 x acc.1)
    (hdone : acc.1.Concluded acc.2) (entry : Ref × CloseTrigger × ℚ) :
    Tells (closeTriggeredPosition N m acc entry).2 x (closeTriggeredPosition N m acc entry).1 ∧
      (closeTriggeredPosition N m acc entry).1.Concluded (closeTriggeredPosition N m acc entry).2 := by
  unfold closeTriggeredPosition
  simp only
  generalize hreq : (OrderRequest.mk _ _ _ _ _ _ _ _ _ _ _ _ _ _ _ _ _ : OrderRequest) = req
  have hgroup : req.group = none := by rw [← hreq]; rfl
  have hbook : req.orderType.book = none := by rw [← hreq]; rfl
  obtain ⟨hsubmitted, hreturned⟩ := tells_submitOrder (m := m) hvalid
    (sparesSubmission_of_group (N := N) hgroup)
  have hstart : Progress N False True acc.1 noneStale acc.1 := .refl hvalid False.elim
  obtain ⟨hprogress, hissued⟩ := hstart.submitOrder (m := m) req
  generalize acc.1.submitOrder N m req = submitted at hsubmitted hreturned hprogress hissued ⊢
  have hcovered : (if entry.2.1 = .liquidation then
        { submitted.1 with ledger := submitted.1.ledger.handleInsuranceFundDeficit }
      else submitted.1).orders = submitted.1.orders ∧
      (if entry.2.1 = .liquidation then
        { submitted.1 with ledger := submitted.1.ledger.handleInsuranceFundDeficit }
      else submitted.1).exchangeId = submitted.1.exchangeId := by
    split <;> exact ⟨rfl, rfl⟩
  generalize (if entry.2.1 = .liquidation then
      { submitted.1 with ledger := submitted.1.ledger.handleInsuranceFundDeficit }
    else submitted.1) = covered at hcovered ⊢
  obtain ⟨horders, hid⟩ := hcovered
  have hkept := hdone.evolves hprogress.evolves
  cases hr : submitted.2 with
  | none =>
    rw [hr] at hsubmitted
    refine ⟨(List.append_nil acc.2 ▸ htells.trans hsubmitted).congr hid horders, ?_⟩
    intro r' hr'
    rw [horders]
    exact hkept r' hr'
  | some r =>
    rw [hr] at hsubmitted
    obtain ⟨haccepted, hstatus⟩ := hreturned r hr
    have hlive : submitted.1.orders.objects.Live r := (hissued r hr).1
    have hclosed : (submitted.1.orders.get r).status ≠ .pending := by
      intro hpending
      have hsome := hstatus hpending
      rw [hbook] at hsome
      cases hsome
    have htold : Tells (acc.2 ++ [r]) x covered := (htells.trans hsubmitted).congr hid horders
    have hfinal : covered.Concluded (acc.2 ++ [r]) := by
      intro r' hr'
      rw [horders]
      rcases List.mem_append.mp hr' with hold | hnew
      · exact hkept r' hold
      · rw [List.mem_singleton.mp hnew]
        exact ⟨hlive, hclosed⟩
    simp only
    split
    · have hlabel : Tells (acc.2 ++ [r]) covered (covered.labelClose r entry.2.1.reason) :=
        (Tells.modify (t := covered.orders.update r fun o =>
          { o with closeReason := entry.2.1.reason }) rfl (fun _ => rfl) (Or.inr (Or.inr rfl))
            rfl rfl).congr rfl rfl
      refine ⟨htold.tail hlabel, fun r' hr' => ?_⟩
      obtain ⟨hlive', hstatus'⟩ := hfinal r' hr'
      refine ⟨(Heap.live_modify _ _ _ _).mpr hlive', ?_⟩
      change ((covered.orders.objects.modify r _).get r').status ≠ .pending
      rw [Heap.get_modify _ (horders ▸ hlive)]
      split <;> exact hstatus'
    · exact ⟨htold, hfinal⟩

theorem tells_checkStopLossTakeProfit (hvalid : x.orders.Consistent) :
    Tells (x.checkStopLossTakeProfit N m).2 x (x.checkStopLossTakeProfit N m).1 ∧
      (x.checkStopLossTakeProfit N m).1.Concluded (x.checkStopLossTakeProfit N m).2 := by
  have hfold : ∀ (triggers : List (Ref × CloseTrigger × ℚ)) (acc : SimulatedExchange × List Ref),
      acc.1.orders.Consistent → Tells acc.2 x acc.1 → acc.1.Concluded acc.2 →
      Tells (triggers.foldl (closeTriggeredPosition N m) acc).2 x
          (triggers.foldl (closeTriggeredPosition N m) acc).1 ∧
        (triggers.foldl (closeTriggeredPosition N m) acc).1.Concluded
          (triggers.foldl (closeTriggeredPosition N m) acc).2 := by
    intro triggers
    induction triggers with
    | nil => exact fun _ _ htells hdone => ⟨htells, hdone⟩
    | cons entry rest ih =>
      intro acc hacc htells hdone
      obtain ⟨htells', hdone'⟩ := tells_closeTriggeredPosition (N := N) (m := m) hacc htells hdone
        entry
      have hstart : Progress N False True acc.1 noneStale acc.1 := .refl hacc False.elim
      exact ih _ (hstart.foldl_closeTriggeredPosition (m := m) [entry]).orders htells' hdone'
  have horders := orders_foldl_markAndCheck (N := N) (m := m) x.ledger.account.positions (x, [])
  have hid := exchangeId_foldl_markAndCheck (N := N) (m := m) x.ledger.account.positions (x, [])
  refine hfold _ _ ?_ ((Tells.refl x).congr hid horders) fun _ hr => absurd hr List.not_mem_nil
  rw [horders]
  exact hvalid

/-! ### Cancels -/

theorem tells_cancelEntry (hlive : x.orders.objects.Live r) (book : PendingBook) (k : String) :
    Tells [r] x (x.withOrders ((x.orders.popPending book k).setStatus r .cancelled)) ∧
      (x.withOrders ((x.orders.popPending book k).setStatus r .cancelled)).Concluded [r] := by
  obtain ⟨htells, hdone⟩ := tells_finish (x := x.withOrders (x.orders.popPending book k)) hlive
    (t := (x.orders.popPending book k).setStatus r .cancelled) rfl (fun _ => rfl)
    (fun _ hc => by cases hc) rfl rfl
  exact ⟨(Tells.popPending book k).tail htells, hdone⟩

theorem tells_cancelOrder (hvalid : x.orders.Consistent) (id : String) :
    Tells (x.cancelOrder id).2.toList x (x.cancelOrder id).1 ∧
      (x.cancelOrder id).1.Concluded (x.cancelOrder id).2.toList := by
  obtain hnone | ⟨book, r, hfind, hcancel⟩ := x.cancelOrder_cases id
  · rw [hnone]
    exact ⟨.refl x, fun _ hr => absurd hr List.not_mem_nil⟩
  · rw [hcancel]
    exact tells_cancelEntry (hvalid.booked book id r hfind).1.1 book id

theorem tells_cancelEntries (book : PendingBook) (entries : List (String × Ref)) {t : OrderTable}
    {cancelled : List Ref} (htells : Tells cancelled x (x.withOrders t))
    (hdone : (x.withOrders t).Concluded cancelled) (hlive : ∀ e ∈ entries, t.objects.Live e.2) :
    let swept := entries.foldl (fun acc e =>
      ((acc.1.popPending book e.1).setStatus e.2 .cancelled, acc.2 ++ [e.2])) (t, cancelled)
    Tells swept.2 x (x.withOrders swept.1) ∧ (x.withOrders swept.1).Concluded swept.2 := by
  induction entries generalizing t cancelled with
  | nil => exact ⟨htells, hdone⟩
  | cons e rest ih =>
    have hlivee := hlive e List.mem_cons_self
    obtain ⟨hcancel, hcancelled⟩ := tells_cancelEntry (x := x.withOrders t) hlivee book e.1
    refine ih (htells.trans hcancel) ?_ fun e' he' =>
      (Heap.live_modify _ _ _ _).mpr (hlive e' (List.mem_cons_of_mem e he'))
    intro r hr
    rcases List.mem_append.mp hr with hold | hnew
    · obtain ⟨hliver, hstatus⟩ := hdone r hold
      refine ⟨(Heap.live_modify _ _ _ _).mpr hliver, ?_⟩
      change ((t.objects.modify e.2 fun o => { o with status := .cancelled }).get r).status ≠ .pending
      rw [Heap.get_modify _ hlivee]
      split
      · exact fun hc => by cases hc
      · exact hstatus
    · exact hcancelled r hnew

theorem tells_cancelAllOrders (hvalid : x.orders.Consistent) (symbol : Option String) :
    Tells (x.cancelAllOrders symbol).2 x (x.cancelAllOrders symbol).1 ∧
      (x.cancelAllOrders symbol).1.Concluded (x.cancelAllOrders symbol).2 := by
  have hfold : ∀ (books : List PendingBook) (acc : OrderTable × List Ref), acc.1.Consistent →
      Tells acc.2 x (x.withOrders acc.1) → (x.withOrders acc.1).Concluded acc.2 →
      Tells (books.foldl (cancelBook symbol) acc).2 x
          (x.withOrders (books.foldl (cancelBook symbol) acc).1) ∧
        (x.withOrders (books.foldl (cancelBook symbol) acc).1).Concluded
          (books.foldl (cancelBook symbol) acc).2 := by
    intro books
    induction books with
    | nil => exact fun _ _ htells hdone => ⟨htells, hdone⟩
    | cons book rest ih =>
      intro acc hacc htells hdone
      have hentries : ∀ e ∈ (acc.1.pending book).entries.filter fun e =>
          symbol.all fun s => (acc.1.get e.2).symbol = s,
          (acc.1.pending book).find? e.1 = some e.2 := fun e he =>
        (Dict.mem_entries_iff _ _ _).mp (List.mem_of_mem_filter he)
      obtain ⟨htells', hdone'⟩ := tells_cancelEntries book _ htells hdone fun e he =>
        (hacc.booked book e.1 e.2 (hentries e he)).1.1
      have hstart : Progress Numerics.decimal False False (x.withOrders acc.1) noneStale
          (x.withOrders acc.1) := .refl hacc False.elim
      have hconsistent : (cancelBook symbol acc book).1.Consistent :=
        (Progress.cancelEntries (x := x) book _
          ((acc.1.pending book).nodup.sublist ((List.filter_sublist).map _)) hstart hentries).orders
      exact ih _ hconsistent htells' hdone'
  exact hfold PendingBook.all (x.orders, []) hvalid (.refl x) fun _ hr => absurd hr List.not_mem_nil

/-! ### The resting orders between calls -/

/-- Between calls the orders are consistent and of this exchange, and whatever rests was returned
by its submission. -/
structure Acknowledged (x : SimulatedExchange) : Prop where
  orders : x.orders.Consistent
  named : x.Named
  accepted : ∀ book k r, (x.orders.pending book).find? k = some r → r ∈ x.orders.accepted

/-- The exchange and the id of each resting order. -/
def pendingKeys (x : SimulatedExchange) : List (String × String) :=
  x.orders.pendingOrders.map fun r => ((x.orders.get r).exchange, (x.orders.get r).id)

theorem Acknowledged.tells (h : x.Acknowledged) (htells : Tells told x x') (hvalid : x'.orders.Consistent)
    (htold : ∀ r ∈ told, r ∈ x'.orders.accepted ∨ (x'.orders.get r).status ≠ .pending) :
    x'.Acknowledged where
  orders := hvalid
  named := htells.named h.named
  accepted book k r hfind := by
    rcases htells.booked book k r hfind with hold | hnew
    · exact htells.accepted r (h.accepted book k r hold)
    · refine (htold r hnew).resolve_right fun hdone => hdone ?_
      exact (hvalid.booked book k r hfind).2.2.2.mpr not_false

theorem Acknowledged.mem_pendingKeys (h : x.Acknowledged) (key : String × String) :
    key ∈ x.pendingKeys ↔ ∃ r ∈ x.orders.accepted, (x.orders.get r).status = .pending ∧
      key = (x.exchangeId, (x.orders.get r).id) := by
  rw [pendingKeys, List.mem_map]
  constructor
  · rintro ⟨r, hr, rfl⟩
    obtain ⟨book, k, hfind⟩ := (x.orders.mem_pendingOrders r).mp hr
    obtain ⟨hissued, -, -, hstatus⟩ := h.orders.booked book k r hfind
    exact ⟨r, h.accepted book k r hfind, hstatus.mpr not_false, by rw [h.named r hissued.1]⟩
  · rintro ⟨r, hr, hpending, rfl⟩
    obtain ⟨book, hfind⟩ := h.orders.resting r hr hpending
    refine ⟨r, (x.orders.mem_pendingOrders r).mpr ⟨book, _, hfind⟩, ?_⟩
    rw [h.named r (h.orders.acceptedIssued r hr).1]

/-- What an order object says of itself is true: an accepted one rests exactly if it is pending,
and none rests under the id of one that is done with. -/
theorem Acknowledged.mem_pendingKeys_iff (h : x.Acknowledged) (hlive : x.orders.objects.Live r)
    (hr : r ∈ x.orders.accepted ∨ (x.orders.get r).status ≠ .pending) :
    ((x.orders.get r).exchange, (x.orders.get r).id) ∈ x.pendingKeys ↔
      (x.orders.get r).status = .pending := by
  rw [h.mem_pendingKeys]
  constructor
  · rintro ⟨r', hr', hpending, hkey⟩
    obtain ⟨hissued', n, hn⟩ := h.orders.acceptedIssued r' hr'
    have hid : (x.orders.get r).id = (x.orders.get r').id := (Prod.mk.inj hkey).2
    have hsame := h.orders.idUnique r r' ⟨hlive, n, hid.trans hn⟩ ⟨hissued', n, hn⟩ hid
    rwa [hsame]
  · intro hpending
    exact ⟨r, hr.resolve_right (not_not.mpr hpending), hpending, by rw [h.named r hlive]⟩

/-- A call takes in and out of the books only what it tells of. -/
theorem Acknowledged.mem_pendingKeys_congr (h : x.Acknowledged) (h' : x'.Acknowledged)
    (htells : Tells told x x') (hevolves : x.orders.Evolves x'.orders) {key : String × String}
    (hkey : ∀ r ∈ told, key ≠ (x'.exchangeId, (x'.orders.get r).id)) :
    key ∈ x'.pendingKeys ↔ key ∈ x.pendingKeys := by
  rw [h.mem_pendingKeys, h'.mem_pendingKeys]
  have hid : ∀ r ∈ x.orders.accepted, (x'.orders.get r).id = (x.orders.get r).id :=
    fun r hr => (hevolves r (h.orders.acceptedIssued r hr).1).2.id
  constructor
  · rintro ⟨r, hr, hpending, rfl⟩
    have hnot : r ∉ told := fun hmem => hkey r hmem rfl
    have hold := (htells.answered r hr).resolve_right hnot
    exact ⟨r, hold, htells.status r hold hnot ▸ hpending, by rw [htells.exchangeId, hid r hold]⟩
  · rintro ⟨r, hr, hpending, rfl⟩
    have hsame : (x.exchangeId, (x.orders.get r).id) = (x'.exchangeId, (x'.orders.get r).id) := by
      rw [htells.exchangeId, hid r hr]
    have hnot : r ∉ told := fun hmem => hkey r hmem hsame
    exact ⟨r, htells.accepted r hr, (htells.status r hr hnot).trans hpending, hsame⟩

theorem Acknowledged.ne_empty (h : x.Acknowledged) {key : String × String}
    (hkey : key ∈ x.pendingKeys) : key.2 ≠ "" := by
  obtain ⟨r, hr, -, rfl⟩ := (h.mem_pendingKeys key).mp hkey
  obtain ⟨-, n, hn⟩ := h.orders.acceptedIssued r hr
  rw [show (x.exchangeId, (x.orders.get r).id).2 = orderId n from hn]
  exact paddedHex_ne_empty n (by decide)

/-- A call tells of the orders that it returns, and what it tells of is accepted or done with. -/
structure Announced (told : List Ref) (x x' : SimulatedExchange) : Prop where
  tells : Tells told x x'
  evolves : x.orders.Evolves x'.orders
  consistent : x'.orders.Consistent
  live : ∀ r ∈ told, x'.orders.objects.Live r
  known : ∀ r ∈ told, r ∈ x'.orders.accepted ∨ (x'.orders.get r).status ≠ .pending

theorem Announced.of_concluded {admits : Prop} (h : Tells told x x' ∧ x'.Concluded told)
    (hprogress : Progress N False admits x noneStale x') : Announced told x x' where
  tells := h.1
  evolves := hprogress.evolves
  consistent := hprogress.orders
  live r hr := (h.2 r hr).1
  known r hr := Or.inr (h.2 r hr).2

theorem Announced.refl (hvalid : x.orders.Consistent) : Announced [] x x :=
  ⟨.refl x, .refl _, hvalid, fun _ hr => absurd hr List.not_mem_nil,
    fun _ hr => absurd hr List.not_mem_nil⟩

theorem Announced.acknowledged (h : Announced told x x') (hx : x.Acknowledged) : x'.Acknowledged :=
  hx.tells h.tells h.consistent h.known

theorem Announced.trans (h : Announced told x x') {told' : List Ref} {x'' : SimulatedExchange}
    (h' : Announced told' x' x'') (hdone : x'.Concluded told) : Announced (told ++ told') x x'' where
  tells := h.tells.trans h'.tells
  evolves := h.evolves.trans h'.evolves
  consistent := h'.consistent
  live r hr := by
    rcases List.mem_append.mp hr with hold | hnew
    · exact (h'.evolves r (h.live r hold)).1
    · exact h'.live r hnew
  known r hr := by
    rcases List.mem_append.mp hr with hold | hnew
    · exact Or.inr (hdone.evolves h'.evolves r hold).2
    · exact h'.known r hnew

/-- Only the order side matters. -/
theorem Announced.congr (h : Announced told x x') {x'' : SimulatedExchange}
    (hid : x''.exchangeId = x'.exchangeId) (horders : x''.orders = x'.orders) : Announced told x x'' where
  tells := h.tells.congr hid horders
  evolves := horders ▸ h.evolves
  consistent := horders ▸ h.consistent
  live := horders ▸ h.live
  known := horders ▸ h.known

/-- Writing the `client_order_id` of an order that is told of. -/
theorem Announced.relabel (h : Announced told x x') (hr : r ∈ told) (clientOrderId : Option String) :
    Announced told x (x'.withOrders (x'.orders.update r fun o =>
      { o with clientOrderId := clientOrderId })) := by
  have hlive := h.live r hr
  obtain ⟨hn, hvalid⟩ := h.consistent.touch (f := fun o => { o with clientOrderId := clientOrderId })
    hlive ⟨rfl, rfl, rfl, rfl, rfl, rfl, rfl, .refl _, fun _ => ⟨rfl, rfl⟩⟩ rfl
  refine ⟨h.tells.tail (.modify rfl (fun _ => rfl) (Or.inr (Or.inr rfl)) rfl rfl),
    h.evolves.trans hn.evolves, hvalid, fun r' hr' => (hn.live r').mpr (h.live r' hr'),
    fun r' hr' => (h.known r' hr').imp_right fun hdone => ?_⟩
  change ((x'.orders.objects.modify r _).get r').status ≠ .pending
  rw [Heap.get_modify _ hlive]
  split <;> exact hdone

theorem announced_submitOrder (hvalid : x.orders.Consistent) (hspares : x.SparesSubmission N m req) :
    Announced (x.submitOrder N m req).2.toList x (x.submitOrder N m req).1 := by
  obtain ⟨htells, hreturned⟩ := tells_submitOrder hvalid hspares
  have hstart : Progress N False True x noneStale x := .refl hvalid False.elim
  obtain ⟨hprogress, hissued⟩ := hstart.submitOrder (m := m) req
  refine ⟨htells, hprogress.evolves, hprogress.orders, fun r hr => ?_, fun r hr => Or.inl ?_⟩
  · exact (hissued r (Option.mem_toList.mp hr)).1
  · exact (hreturned r (Option.mem_toList.mp hr)).1

theorem announced_cancelOrder (hvalid : x.orders.Consistent) (id : String) :
    Announced (x.cancelOrder id).2.toList x (x.cancelOrder id).1 := by
  have hstart : Progress Numerics.decimal False False x noneStale x := .refl hvalid False.elim
  exact .of_concluded (tells_cancelOrder hvalid id) (hstart.cancelOrder id)

theorem announced_cancelAllOrders (hvalid : x.orders.Consistent) (symbol : Option String) :
    Announced (x.cancelAllOrders symbol).2 x (x.cancelAllOrders symbol).1 := by
  have hstart : Progress Numerics.decimal False False x noneStale x := .refl hvalid False.elim
  exact .of_concluded (tells_cancelAllOrders hvalid symbol) (hstart.cancelAllOrders symbol)

theorem announced_tick (hvalid : x.orders.Consistent)
    (hspares : (x.checkStopLossTakeProfit N m).1.SparesSweeps N m) :
    let closed := x.checkStopLossTakeProfit N m
    let swept := closed.1.checkAdvancedOrders N m
    Announced (closed.2 ++ swept.2) x swept.1 := by
  intro closed swept
  have hstart : Progress N False True x noneStale x := .refl hvalid False.elim
  have hclosed := hstart.checkStopLossTakeProfit (m := m)
  have hswept : Progress N False False closed.1 noneStale swept.1 :=
    .checkAdvancedOrders hclosed.orders False.elim False.elim
  have htells := tells_checkStopLossTakeProfit (N := N) (m := m) hvalid
  exact (Announced.of_concluded htells hclosed).trans
    (.of_concluded (tells_checkAdvancedOrders hclosed.orders hspares) hswept) htells.2

end SimulatedExchange

end TradingSim.Exchange
