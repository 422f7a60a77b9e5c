import TradingSim.Exchange.FillOrKill

/-!
# Honoured instructions

A post-only order is not to take, an order that is immediate or cancel, or fill or kill, is not to rest,
and an order that is good till a date is not to fill from that date on. The books and the sweeps keep
to this. A submission does not in two cases: without a price the limit order goes to execution before
post-only is looked at, and no submission looks at the expiry of its order.
-/

namespace TradingSim.Exchange

open Foundations

namespace OrderTable

variable {t : OrderTable} {r : Ref}

/-- Resolving a group leaves an order alone that is not pending. -/
theorem get_resolveOco_of_settled (hsettled : (t.get r).status ≠ .pending) (r' : Ref) :
    (t.resolveOco r').get r = t.get r := by
  have hcancel : ∀ (id : String) (orders : List Ref) (acc : OrderTable × List Ref),
      acc.1.get r = t.get r → (orders.foldl (cancelSibling id) acc).1.get r = t.get r := by
    intro id orders
    induction orders with
    | nil => exact fun _ hacc => hacc
    | cons sibling rest ih =>
      intro acc hacc
      apply ih
      unfold cancelSibling
      split
      · rename_i hpending
        have hne : r ≠ sibling := by
          rintro rfl
          rw [hacc] at hpending
          exact hsettled hpending.2
        rw [get, setStatus, Heap.get_modify_of_ne _ hne]
        exact hacc
      · exact hacc
  unfold resolveOco
  split
  · rfl
  · split
    · rfl
    · split
      · rfl
      · rename_i group _ _
        rw [foldl_popEverywhere]
        exact hcancel (t.get r').id group.orders (t, []) rfl

theorem status_rest (hlive : t.objects.Live r) (book : PendingBook) :
    ((t.rest r book).get r).status = .pending := by
  change ((t.objects.modify r fun o => { o with status := .pending }).get r).status = _
  rw [Heap.get_modify_self _ hlive]

/-- No order in a book is immediate or cancel, or fill or kill. -/
def Patient (t : OrderTable) : Prop :=
  ∀ book, ∀ e ∈ (t.pending book).entries,
    (t.get e.2).timeInForce ≠ "IOC" ∧ (t.get e.2).timeInForce ≠ "FOK"

end OrderTable

namespace OrderRequest

variable {N : Numerics} {m : MarketView} {x : SimulatedExchange} {req : OrderRequest}

/-- The order is good till a date that has come. -/
def Due (req : OrderRequest) (now : ℚ) : Prop :=
  req.timeInForce = "GTD" ∧ ∃ expiry ∈ req.expireTs, expiry ≤ now

/-- The price at which a limit order is executed at its submission. -/
def executionPrice (m : MarketView) (x : SimulatedExchange) (req : OrderRequest) : ℚ :=
  req.price.getD (x.calculateFillPrice (m.price req.symbol) req.side req.quantity)

/-- The limit order comes to its execution, and margin and size allow it: its parameters are accepted, its
group has had no fill, there is a market price, and its own price is absent or fills at once. -/
def Executes (N : Numerics) (m : MarketView) (x : SimulatedExchange) (req : OrderRequest) : Prop :=
  (∃ o, req.screen N (orderId x.orders.orderCounter) x.exchangeId = .ok o) ∧ ¬ req.GroupResolved x ∧
    m.price req.symbol ≠ 0 ∧ (∀ price ∈ req.price, req.FillsAtOnce m x price) ∧
    x.checkMarginAndSize N req.quantity (req.executionPrice m x * req.quantity)
      (req.executionPrice m x * req.quantity * x.feePct / 100) (m.price req.symbol)
      req.forceClose = none

theorem decideLimit_rest {o : Order} {price fillPrice : ℚ}
    (h : SimulatedExchange.decideLimit m o price fillPrice = .rest) :
    o.timeInForce ≠ "IOC" ∧ o.timeInForce ≠ "FOK" := by
  unfold SimulatedExchange.decideLimit at h
  split at h
  · split at h
    · cases h
    · split at h
      · split at h
        · cases h
        · cases h
        · cases h
      · cases h
  · split at h
    · cases h
    · rename_i hnow
      exact not_or.mp hnow

theorem timeInForce_of_screen {id exchange : String} {o : Order}
    (h : req.screen N id exchange = .ok o) (htype : req.orderType ≠ .limit) : o.timeInForce = "GTC" := by
  obtain ⟨-, -, kind, -, ho⟩ := screen_eq_ok h
  rw [ho]
  unfold screen at h
  by_contra hother
  have hrefused : req.orderType ≠ .limit ∧
      (req.timeInForce ≠ "GTC" ∨ req.postOnly = true ∨ req.expireTs.isSome) :=
    ⟨htype, Or.inl hother⟩
  split at h
  · cases h
  · split at h
    · cases h
    · split at h
      · cases h
      · split at h
        · cases h
        · cases h

end OrderRequest

namespace SimulatedExchange

variable {N : Numerics} {m : MarketView} {x : SimulatedExchange} {req : OrderRequest} {r : Ref}

theorem filled_fillMarketOrder_iff (hlive : x.orders.objects.Live r) (htype : req.orderType = .limit)
    (marketFillPrice midPrice : ℚ) :
    ((x.fillMarketOrder N m r req marketFillPrice midPrice).orders.get r).status = .filled ↔
      x.checkMarginAndSize N req.quantity (req.price.getD marketFillPrice * req.quantity)
        (req.price.getD marketFillPrice * req.quantity * x.feePct / 100) midPrice req.forceClose =
          none := by
  unfold fillMarketOrder
  dsimp only
  rw [if_pos htype]
  cases hmargin : x.checkMarginAndSize N req.quantity (req.price.getD marketFillPrice * req.quantity)
      (req.price.getD marketFillPrice * req.quantity * x.feePct / 100) midPrice req.forceClose with
  | some reason =>
    have hrejected := OrderTable.status_conclude hlive .rejected reason
    dsimp only [withOrders]
    rw [hrejected]
    simp
  | none =>
    have hfilled : ∀ f : Order → Order, (∀ o, (f o).status = o.status) →
        (((((x.orders.setStatus r .filled).update r f).record r).resolveOco r).get r).status =
          .filled := by
      intro f hf
      have hget : (((x.orders.setStatus r .filled).update r f).record r).get r =
          f { x.orders.get r with status := .filled } :=
        OrderTable.get_update_setStatus hlive .filled f
      have hstatus : ((((x.orders.setStatus r .filled).update r f).record r).get r).status =
          .filled := by
        rw [hget, hf]
      rw [OrderTable.get_resolveOco_of_settled (by rw [hstatus]; decide), hstatus]
    refine iff_of_true (hfilled _ fun o => ?_) rfl
    rw [status_applyPartialFill]

theorem filled_placeOrder_iff {joined : OrderTable} {o : Order} (htype : req.orderType = .limit)
    (hscreen : req.screen N (orderId x.orders.orderCounter) x.exchangeId = .ok o)
    (hlive : joined.objects.Live r) (hget : joined.get r = o) :
    (∃ placed, (x.withOrders joined).placeOrder N m r req = some placed ∧
        (placed.orders.get r).status = .filled) ↔
      m.price req.symbol ≠ 0 ∧ (∀ price ∈ req.price, req.FillsAtOnce m x price) ∧
        x.checkMarginAndSize N req.quantity (req.executionPrice m x * req.quantity)
          (req.executionPrice m x * req.quantity * x.feePct / 100) (m.price req.symbol)
          req.forceClose = none := by
  obtain ⟨hsame, -, -⟩ := OrderRequest.screen_entered (Or.inl hscreen)
  obtain ⟨-, -, kind, -, ho⟩ := OrderRequest.screen_eq_ok hscreen
  have hfilled := filled_fillMarketOrder_iff (N := N) (m := m) (x := x.withOrders joined) hlive htype
    (x.calculateFillPrice (m.price req.symbol) req.side req.quantity) (m.price req.symbol)
  have hdecide : ∀ price, decideLimit m o price
      (x.calculateFillPrice (m.price req.symbol) req.side req.quantity) = .fill ↔
        req.FillsAtOnce m x price :=
    fun price => OrderRequest.decideLimit_eq_fill_iff hsame (by rw [ho]) (by rw [ho])
  unfold placeOrder OrderRequest.executionPrice
  rw [htype]
  by_cases hquoted : m.price req.symbol = 0
  · rw [if_pos hquoted]
    refine iff_of_false ?_ fun h => h.1 hquoted
    rintro ⟨placed, hplaced, hstatus⟩
    cases hplaced
    have hrejected := OrderTable.status_conclude hlive .rejected "NO_PRICE_DATA"
    cases hrejected.symm.trans hstatus
  · rw [if_neg hquoted, and_iff_right hquoted]
    cases hprice : req.price with
    | none =>
      rw [hprice] at hfilled
      constructor
      · rintro ⟨placed, hplaced, hstatus⟩
        cases hplaced
        exact ⟨by simp, hfilled.mp hstatus⟩
      · rintro ⟨-, hmargin⟩
        exact ⟨_, rfl, hfilled.mpr hmargin⟩
    | some price =>
      rw [hprice] at hfilled
      have htakes : (∀ price' ∈ some price, req.FillsAtOnce m x price') ↔
          req.FillsAtOnce m x price := by simp
      rw [htakes, ← hdecide price, ← hget]
      have horders : (x.withOrders joined).orders = joined := rfl
      have hfillPrice : (x.withOrders joined).calculateFillPrice = x.calculateFillPrice := rfl
      simp only [horders, hfillPrice]
      cases hdecision : decideLimit m (joined.get r) price
          (x.calculateFillPrice (m.price req.symbol) req.side req.quantity) with
      | fill =>
        rw [and_iff_right rfl]
        constructor
        · rintro ⟨placed, hplaced, hstatus⟩
          cases hplaced
          exact hfilled.mp hstatus
        · exact fun hmargin => ⟨_, rfl, hfilled.mpr hmargin⟩
      | rest =>
        refine iff_of_false ?_ (by simp)
        rintro ⟨placed, hplaced, hstatus⟩
        cases hplaced
        cases (OrderTable.status_rest hlive .limits).symm.trans hstatus
      | conclude status reason =>
        refine iff_of_false ?_ (by simp)
        rintro ⟨placed, hplaced, hstatus⟩
        cases hplaced
        have hconcluded := OrderTable.status_conclude hlive status reason
        exact OrderStatus.ne_filled_of_done (decideLimit_conclude hdecision) (hconcluded.symm.trans hstatus)
      | «raise» =>
        refine iff_of_false ?_ (by simp)
        rintro ⟨placed, hplaced, -⟩
        cases hplaced

theorem filled_submitOrder_iff (htype : req.orderType = .limit) :
    (∃ r, (x.submitOrder N m req).2 = some r ∧
      ((x.submitOrder N m req).1.orders.get r).status = .filled) ↔ req.Executes N m x := by
  unfold submitOrder OrderRequest.Executes
  dsimp only
  cases hscreen : req.screen N (orderId x.orders.orderCounter) x.exchangeId with
  | error refused =>
    refine iff_of_false ?_ fun h => ?_
    · rintro ⟨r, hr, hstatus⟩
      cases hr
      have hrejected := OrderTable.status_conclude (t := x.orders.issue refused.1)
        ((Heap.live_alloc _ _ _).mpr (Or.inr rfl)) .rejected refused.2
      cases hrejected.symm.trans hstatus
    · obtain ⟨o, ho⟩ := h.1
      cases ho
  | ok o =>
    obtain ⟨-, -, kind, -, ho⟩ := OrderRequest.screen_eq_ok hscreen
    obtain ⟨hlive, hget, -, hresolved⟩ := x.orders.entered_issue o
    have hgroup : ((x.orders.issue o).joinGroup x.orders.objects.next).resolved
        x.orders.objects.next = true ↔ req.GroupResolved x := by
      rw [hresolved, ho]
      rfl
    have hplaced := filled_placeOrder_iff (N := N) (m := m) htype hscreen hlive hget
    rw [and_iff_right ⟨o, rfl⟩]
    dsimp only
    generalize (x.orders.issue o).joinGroup x.orders.objects.next = joined at *
    by_cases hdone : req.GroupResolved x
    · rw [if_pos (show (x.withOrders joined).orders.resolved _ = true from hgroup.mpr hdone)]
      refine iff_of_false ?_ fun h => h.1 hdone
      rintro ⟨r, hr, hstatus⟩
      cases hr
      have hcancelled := OrderTable.status_conclude hlive .cancelled "OCO_GROUP_RESOLVED"
      cases hcancelled.symm.trans hstatus
    · rw [if_neg (show ¬ (x.withOrders joined).orders.resolved _ = true from mt hgroup.mp hdone),
        and_iff_right hdone, ← hplaced]
      cases (x.withOrders joined).placeOrder N m x.orders.objects.next req with
      | none => simp
      | some placed =>
        constructor
        · rintro ⟨r, hr, hstatus⟩
          cases hr
          exact ⟨placed, rfl, hstatus⟩
        · rintro ⟨placed', hplaced', hstatus⟩
          cases hplaced'
          exact ⟨_, rfl, hstatus⟩

/-! ### Calls -/

/-- A call honours the instructions: no limit order is filled against post-only at its submission, or from
its date on, and no book holds an order that is not to rest. -/
structure Honours (N : Numerics) (x : SimulatedExchange) (call : MarketView × Operation) : Prop where
  submitted : ∀ req r, call.2 = .submitOrder req → req.orderType = .limit →
    (x.submitOrder N call.1 req).2 = some r → ((x.step N call).orders.get r).status = .filled →
      req.postOnly = false ∧ ¬ req.Due call.1.now
  patient : (x.step N call).orders.Patient
  timely : ∀ r ∈ x.orders.accepted, (x.orders.get r).orderType = .limit →
    (x.orders.get r).timeInForce = "GTD" → ∀ expiry ∈ (x.orders.get r).expireTs,
      expiry ≤ call.1.now → ((x.step N call).orders.get r).status = .filled →
        (x.orders.get r).status = .filled

/-- A call submits no limit order to execution that is post-only or whose date has come. -/
def Honourable (N : Numerics) (x : SimulatedExchange) (call : MarketView × Operation) : Prop :=
  ∀ req, call.2 = .submitOrder req → req.orderType = .limit → req.Executes N call.1 x →
    req.postOnly = false ∧ ¬ req.Due call.1.now

/-- No call leaves an order in a book that is not to rest. -/
theorem patient_step (hvalid : x.orders.Consistent) (h : x.orders.Patient)
    (call : MarketView × Operation) : (x.step N call).orders.Patient := by
  have hkept : ∀ book, ∀ e ∈ (x.orders.pending book).entries,
      ((x.step N call).orders.get e.2).timeInForce ≠ "IOC" ∧
        ((x.step N call).orders.get e.2).timeInForce ≠ "FOK" := by
    intro book e he
    have hissued := (hvalid.booked book e.1 e.2 ((Dict.mem_entries_iff _ _ _).mp he)).1
    have hsame := ((writes_step (N := N) x call).order e.2 hissued.1).2.1
    simp only [Order.instructions, Prod.mk.injEq] at hsame
    rw [hsame.2.2.1]
    exact h book e he
  intro book e he
  obtain ⟨m, op⟩ := call
  by_cases hcall : ∃ req, op = .submitOrder req
  · obtain ⟨req, rfl⟩ := hcall
    obtain hold | ⟨-, o, hscreen, hinstructions, -, hrests⟩ := mem_pending_submitOrder he
    · exact hkept book e hold
    · simp only [Order.instructions, Prod.mk.injEq] at hinstructions
      have htime : ((x.step N (m, .submitOrder req)).orders.get e.2).timeInForce = o.timeInForce :=
        hinstructions.2.2.1
      rw [htime]
      by_cases htype : req.orderType = .limit
      · obtain ⟨price, hrest⟩ := hrests htype
        exact OrderRequest.decideLimit_rest hrest
      · rw [OrderRequest.timeInForce_of_screen hscreen htype]
        decide
  · exact hkept book e (((writes_step x (m, op)).entry book e he).resolve_right hcall)

/-- No call fills an order that was submitted before from its date on. -/
theorem timely_step (hvalid : x.orders.Consistent) (call : MarketView × Operation)
    (hr : r ∈ x.orders.accepted) (htype : (x.orders.get r).orderType = .limit) {expiry : ℚ}
    (hexpiry : (x.orders.get r).expireTs = some expiry) (hdue : expiry ≤ call.1.now)
    (hfilled : ((x.step N call).orders.get r).status = .filled) : (x.orders.get r).status = .filled := by
  have hlive := (hvalid.acceptedIssued r hr).1
  have hnotCancelled : ((x.step N call).orders.get r).status ≠ .cancelled := by
    rw [hfilled]
    decide
  by_cases hsweep : call.2 = .checkAdvancedOrders
  · obtain ⟨m, op⟩ := call
    obtain rfl : op = .checkAdvancedOrders := hsweep
    by_cases hpending : (x.orders.get r).status = .pending
    · have hbook : (x.orders.get r).orderType.book = some .limits := by
        rw [htype]
        rfl
      obtain hcancelled | ⟨s, hlive', hget, hvisited⟩ :=
        checkAdvancedOrders_entry (N := N) (m := m) hvalid hr hpending hbook
      · exact absurd hcancelled hnotCancelled
      · change ((x.checkAdvancedOrders N m).1.orders.get r).status = .filled at hfilled
        rw [hvisited] at hfilled
        change ((s.checkLimit N m r (x.orders.get r).id).exchange.orders.get r).status = _ at hfilled
        have hany : (s.exchange.orders.get r).expireTs.any (· ≤ m.now) = true := by
          rw [hget, hexpiry]
          simpa using hdue
        rw [Sweep.checkLimit, if_pos hany] at hfilled
        cases (get_expired hlive').symm.trans hfilled
    · have hprogress := (step_progress (N := N) False (m, .checkAdvancedOrders) hvalid False.elim
        False.elim).evolves r hlive
      exact (hprogress.2.frozen hpending).1.symm.trans hfilled
  · have hkept := (writes_step (N := N) x call).get_eq hlive hsweep hnotCancelled
    rw [← hkept]
    exact hfilled

theorem honours_iff (hvalid : x.orders.Consistent) (h : x.orders.Patient)
    (call : MarketView × Operation) : x.Honours N call ↔ x.Honourable N call := by
  have hsubmitted : ∀ req, call.2 = .submitOrder req →
      (x.step N call).orders = (x.submitOrder N call.1 req).1.orders := by
    intro req hreq
    rw [show call = (call.1, .submitOrder req) from Prod.ext rfl hreq]
    rfl
  constructor
  · intro hhonours req hreq htype hexecutes
    obtain ⟨r, hreturned, hfilled⟩ := (filled_submitOrder_iff htype).mpr hexecutes
    rw [← hsubmitted req hreq] at hfilled
    exact hhonours.submitted req r hreq htype hreturned hfilled
  · intro hhonourable
    refine ⟨?_, patient_step hvalid h call, ?_⟩
    · intro req r hreq htype hreturned hfilled
      rw [hsubmitted req hreq] at hfilled
      exact hhonourable req hreq htype ((filled_submitOrder_iff htype).mp ⟨r, hreturned, hfilled⟩)
    · intro r hr htype _ expiry hexpiry hdue hfilled
      exact timely_step hvalid call hr htype hexpiry hdue hfilled

/-- **Instructions are honoured as long as no post-only and no expired limit order is submitted to
execution.** -/
theorem honours_run_iff (N : Numerics) (exchangeId currency : String)
    (feePct slippageBps initialBalance leverage : ℚ) (calls : List (MarketView × Operation)) :
    Along (step N) (Honours N)
        (init exchangeId feePct slippageBps initialBalance leverage currency) calls ↔
      Along (step N) (Honourable N)
        (init exchangeId feePct slippageBps initialBalance leverage currency) calls := by
  have hinv : ∀ (x : SimulatedExchange) (call : MarketView × Operation),
      x.Sound initialBalance ∧ x.orders.Patient → x.Honours N call →
        (x.step N call).Sound initialBalance ∧ (x.step N call).orders.Patient :=
    fun x call h hhonours => ⟨h.1.step call, hhonours.patient⟩
  have hiff : ∀ (x : SimulatedExchange) (call : MarketView × Operation),
      x.Sound initialBalance ∧ x.orders.Patient → (x.Honours N call ↔ x.Honourable N call) :=
    fun x call h => honours_iff h.1.orders h.2 call
  apply along_congr (fun x => x.Sound initialBalance ∧ x.orders.Patient) hinv hiff
  exact ⟨sound_init exchangeId feePct slippageBps initialBalance leverage currency, fun _ _ he => by cases he⟩

/-- A post-only limit order without a price. -/
def unpricedPostOnly : OrderRequest where
  symbol := "BTC"
  side := .buy
  quantity := 1
  orderType := .limit
  postOnly := true

/-- A limit order that the market reaches after its date. -/
def expiredOnArrival : OrderRequest where
  symbol := "BTC"
  side := .buy
  quantity := 1
  orderType := .limit
  price := some 110
  timeInForce := "GTD"
  expireTs := some 0

/-- Both orders are filled by their submissions. -/
theorem not_honours_unpricedPostOnly :
    ¬ Honours Numerics.decimal (init "binance" (1 / 10) 5 10000 10 "USDT")
        (flatMarket 100, .submitOrder unpricedPostOnly) ∧
      ¬ Honours Numerics.decimal (init "binance" (1 / 10) 5 10000 10 "USDT")
        (flatMarket 100, .submitOrder expiredOnArrival) := by
  constructor
  · intro h
    have hfilled := h.submitted unpricedPostOnly 0 rfl rfl (by decide +kernel) (by decide +kernel)
    cases hfilled.1
  · intro h
    have hfilled := h.submitted expiredOnArrival 0 rfl rfl (by decide +kernel) (by decide +kernel)
    exact hfilled.2 ⟨rfl, 0, rfl, le_rfl⟩

end SimulatedExchange

end TradingSim.Exchange
