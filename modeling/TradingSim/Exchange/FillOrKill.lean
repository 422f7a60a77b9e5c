import TradingSim.Exchange.LimitPrices
import TradingSim.Exchange.OrderFrames

/-!
# Fill-or-kill orders

A fill-or-kill order is to be filled as a whole if the book is deep enough at its limit, and to be
cancelled otherwise. The check of the depth unpacks each level as a pair, so it raises at the first
level it looks at: an order that reaches the check comes through it on an empty side only, where it
is cancelled.
-/

namespace TradingSim.Exchange

open Foundations

namespace OrderBook

/-- The levels that an order of a side takes from. -/
def opposite (book : OrderBook) : Side → List OrderBookLevel
  | .buy => book.asks
  | .sell => book.bids

/-- The quantity on offer to a side at its limit or better. -/
def depthAt (book : OrderBook) (side : Side) (limit : ℚ) : ℚ :=
  (((book.opposite side).filter fun level => side.NotWorse limit level.price).map
    OrderBookLevel.quantity).sum

end OrderBook

namespace OrderRequest

variable {N : Numerics} {m : MarketView} {x : SimulatedExchange} {req : OrderRequest} {price : ℚ}
  {book : OrderBook}

/-- The limit reaches the computed fill price. -/
def Marketable (m : MarketView) (x : SimulatedExchange) (req : OrderRequest) (price : ℚ) : Prop :=
  marketable req.side price (x.calculateFillPrice (m.price req.symbol) req.side req.quantity) = true

instance (m : MarketView) (x : SimulatedExchange) (req : OrderRequest) (price : ℚ) :
    Decidable (req.Marketable m x price) := inferInstanceAs (Decidable (_ = _))

/-- The order is to be filled: its limit is reached and the book is deep enough. -/
def Covered (m : MarketView) (x : SimulatedExchange) (req : OrderRequest) (price : ℚ)
    (book : OrderBook) : Prop :=
  req.Marketable m x price ∧ req.quantity ≤ book.depthAt req.side price

instance (m : MarketView) (x : SimulatedExchange) (req : OrderRequest) (price : ℚ)
    (book : OrderBook) : Decidable (req.Covered m x price book) := inferInstanceAs (Decidable (_ ∧ _))

/-- The submission returns an order that is filled as a whole if it is covered and cancelled if it is
not, and it enters no order into a pending book. -/
def DecidesByDepth (N : Numerics) (m : MarketView) (x : SimulatedExchange) (req : OrderRequest)
    (price : ℚ) (book : OrderBook) : Prop :=
  let after := (x.submitOrder N m req).1.orders
  ∃ r, (x.submitOrder N m req).2 = some r ∧
    (req.Covered m x price book →
      (after.get r).status = .filled ∧ (after.get r).filledQuantity = req.quantity) ∧
    (¬ req.Covered m x price book → (after.get r).status = .cancelled) ∧
    ∀ pending, (after.pending pending).entries ⊆ (x.orders.pending pending).entries

/-- The checks of the parameters accept a fill-or-kill order. -/
def Acceptable (req : OrderRequest) : Prop :=
  0 < req.quantity ∧ req.quantity ≤ maxQuantity ∧ req.expireTs = none

instance (req : OrderRequest) : Decidable req.Acceptable := inferInstanceAs (Decidable (_ ∧ _ ∧ _))

/-- The group of the order has had its fill. -/
def GroupResolved (x : SimulatedExchange) (req : OrderRequest) : Prop :=
  (req.group.bind x.orders.filledOrderOf).isSome = true

instance (x : SimulatedExchange) (req : OrderRequest) : Decidable (req.GroupResolved x) :=
  inferInstanceAs (Decidable (_ = _))

/-- The depth is not needed to decide the order: its parameters are accepted, and its group has had its fill
and the order is not covered, or the limit does not reach the price, or it does and there is nothing on the
other side. -/
def DepthUnneeded (m : MarketView) (x : SimulatedExchange) (req : OrderRequest) (price : ℚ)
    (book : OrderBook) : Prop :=
  req.Acceptable ∧
    if req.GroupResolved x then ¬ req.Covered m x price book
    else m.price req.symbol ≠ 0 ∧
      (req.Marketable m x price → req.postOnly = false ∧ book.opposite req.side = [])

instance (m : MarketView) (x : SimulatedExchange) (req : OrderRequest) (price : ℚ)
    (book : OrderBook) : Decidable (req.DepthUnneeded m x price book) := by
  unfold DepthUnneeded
  infer_instance

/-- The status that a fill-or-kill order is placed with; `none` stands for a call that raises. -/
def placedOutcome (m : MarketView) (x : SimulatedExchange) (req : OrderRequest) (price : ℚ)
    (book : OrderBook) : Option OrderStatus :=
  if m.price req.symbol = 0 then some .rejected
  else if ¬ req.Marketable m x price then some .cancelled
  else if req.postOnly = true then some .rejected
  else if book.opposite req.side = [] then some .cancelled
  else none

/-- The status that a fill-or-kill order is returned with. -/
def fokOutcome (m : MarketView) (x : SimulatedExchange) (req : OrderRequest) (price : ℚ)
    (book : OrderBook) : Option OrderStatus :=
  if ¬ req.Acceptable then some .rejected
  else if req.GroupResolved x then some .cancelled
  else req.placedOutcome m x price book

/-- A submission ends with a status of its order and the pending books as they were, or raises. -/
def EndsWith (N : Numerics) (m : MarketView) (x : SimulatedExchange) (req : OrderRequest) :
    Option OrderStatus → Prop
  | none => (x.submitOrder N m req).2 = none
  | some status => ∃ r, (x.submitOrder N m req).2 = some r ∧
      ((x.submitOrder N m req).1.orders.get r).status = status ∧
      ∀ pending, (x.submitOrder N m req).1.orders.pending pending = x.orders.pending pending

theorem screen_fok (htype : req.orderType = .limit) (hfok : req.timeInForce = "FOK")
    (id exchange : String) :
    (req.Acceptable → req.screen N id exchange = .ok { req.plainOrder id exchange with
      timeInForce := "FOK"
      postOnly := req.postOnly
      ocoGroupId := req.group }) ∧
    (¬ req.Acceptable → ∃ o reason, req.screen N id exchange = .error (o, reason)) := by
  have hcreate : req.createOrder id exchange = some (req.plainOrder id exchange) := by
    unfold createOrder createKind
    rw [htype]
    rfl
  unfold screen Acceptable
  constructor
  · intro ⟨hpositive, hmax, hexpiry⟩
    rw [if_neg (not_le.mpr hpositive), if_neg (not_lt.mpr hmax), hcreate]
    simp [htype, hfok, hexpiry, plainOrder]
  · intro hnot
    by_cases hpositive : req.quantity ≤ 0
    · rw [if_pos hpositive]
      exact ⟨_, _, rfl⟩
    · rw [if_neg hpositive]
      by_cases hmax : maxQuantity < req.quantity
      · rw [if_pos hmax]
        exact ⟨_, _, rfl⟩
      · have hdated : req.expireTs.isSome = true := by
          rw [Option.isSome_iff_ne_none]
          exact fun hnone => hnot ⟨not_le.mp hpositive, not_lt.mp hmax, hnone⟩
        rw [if_neg hmax, hcreate]
        simp [htype, hfok, hdated]

end OrderRequest

namespace OrderRequest

variable {N : Numerics} {m : MarketView} {x : SimulatedExchange} {req : OrderRequest} {price : ℚ}
  {book : OrderBook}

theorem depthCovers_of_book (hbook : m.book req.symbol = some book) (hpositive : 0 < req.quantity) :
    SimulatedExchange.depthCovers m req.symbol req.side req.quantity =
      if book.opposite req.side = [] then some false else none := by
  have hnot : ¬ req.quantity ≤ 0 := not_le.mpr hpositive
  unfold SimulatedExchange.depthCovers
  rw [hbook]
  cases req.side with
  | buy =>
    simp only [OrderBook.opposite, hnot, decide_false]
    rfl
  | sell =>
    simp only [OrderBook.opposite, hnot, decide_false]
    rfl

/-- The decision on a fill-or-kill order is none to fill it and none to let it rest. -/
theorem decideLimit_fok {o : Order} (hbook : m.book req.symbol = some book)
    (hpositive : 0 < req.quantity) (hside : o.side = req.side) (hsymbol : o.symbol = req.symbol)
    (hquantity : o.quantity = req.quantity) (hfok : o.timeInForce = "FOK")
    (hpost : o.postOnly = req.postOnly) : SimulatedExchange.decideLimit m o price
        (x.calculateFillPrice (m.price req.symbol) req.side req.quantity) =
      if ¬ req.Marketable m x price then .conclude .cancelled "FOK_UNFILLED"
      else if req.postOnly = true then .conclude .rejected "POST_ONLY_WOULD_TAKE"
      else if book.opposite req.side = [] then .conclude .cancelled "FOK_INSUFFICIENT_DEPTH"
      else .raise := by
  unfold SimulatedExchange.decideLimit Marketable
  rw [hside, hsymbol, hquantity, hfok, hpost, depthCovers_of_book hbook hpositive]
  by_cases hreached : marketable req.side price
      (x.calculateFillPrice (m.price req.symbol) req.side req.quantity) = true
  · rw [if_pos hreached, if_neg (not_not.mpr hreached), if_pos rfl]
    by_cases hempty : book.opposite req.side = []
    · simp only [if_pos hempty]
    · simp only [if_neg hempty]
  · rw [if_neg hreached, if_pos hreached, if_pos (Or.inr rfl)]
    rfl

theorem placeOrder_fok {y : SimulatedExchange} {r : Ref} (htype : req.orderType = .limit)
    (hprice : req.price = some price) (hbook : m.book req.symbol = some book)
    (hpositive : 0 < req.quantity) (hslippage : y.slippageBps = x.slippageBps)
    (hside : (y.orders.get r).side = req.side) (hsymbol : (y.orders.get r).symbol = req.symbol)
    (hquantity : (y.orders.get r).quantity = req.quantity)
    (hfok : (y.orders.get r).timeInForce = "FOK") (hpost : (y.orders.get r).postOnly = req.postOnly) :
    match req.placedOutcome m x price book with
    | some status => ∃ reason,
      y.placeOrder N m r req = some (y.withOrders (y.orders.conclude r status reason))
    | none => y.placeOrder N m r req = none := by
  have hdecision : SimulatedExchange.decideLimit m (y.orders.get r) price
      (x.calculateFillPrice (m.price req.symbol) req.side req.quantity) = _ :=
    decideLimit_fok hbook hpositive hside hsymbol hquantity hfok hpost
  rw [SimulatedExchange.calculateFillPrice_eq, ← hslippage,
    ← SimulatedExchange.calculateFillPrice_eq] at hdecision
  unfold placedOutcome SimulatedExchange.placeOrder
  simp only [htype, hprice, hdecision]
  by_cases hzero : m.price req.symbol = 0
  · simp only [if_pos hzero]
    exact ⟨_, rfl⟩
  · simp only [if_neg hzero]
    by_cases hreached : req.Marketable m x price
    · simp only [if_neg (not_not.mpr hreached)]
      by_cases hpostOnly : req.postOnly = true
      · simp only [if_pos hpostOnly]
        exact ⟨_, rfl⟩
      · simp only [if_neg hpostOnly]
        by_cases hempty : book.opposite req.side = []
        · simp only [if_pos hempty]
          exact ⟨_, rfl⟩
        · simp only [if_neg hempty]
    · simp only [if_pos hreached]
      exact ⟨_, rfl⟩

theorem endsWith_fokOutcome (htype : req.orderType = .limit) (hfok : req.timeInForce = "FOK")
    (hprice : req.price = some price) (hbook : m.book req.symbol = some book) :
    req.EndsWith N m x (req.fokOutcome m x price book) := by
  obtain ⟨haccepted, hrefused⟩ := screen_fok (N := N) htype hfok (orderId x.orders.orderCounter)
    x.exchangeId
  unfold fokOutcome
  by_cases hok : req.Acceptable
  · rw [if_neg (not_not.mpr hok)]
    have hscreen := haccepted hok
    generalize horder : ({ req.plainOrder (orderId x.orders.orderCounter) x.exchangeId with
        timeInForce := "FOK"
        postOnly := req.postOnly
        ocoGroupId := req.group } : Order) = o at hscreen
    obtain ⟨hlive, hget, hpending, hresolved⟩ := x.orders.entered_issue o
    have hgroup : ((x.orders.issue o).joinGroup x.orders.objects.next).resolved
        x.orders.objects.next = true ↔ req.GroupResolved x := by
      rw [hresolved, ← horder]
      rfl
    have hplaced := placeOrder_fok (N := N) (x := x) (r := x.orders.objects.next)
      (y := x.withOrders ((x.orders.issue o).joinGroup x.orders.objects.next)) htype hprice hbook
      hok.1 rfl
    rw [SimulatedExchange.withOrders, hget, ← horder] at hplaced
    have hplaced := hplaced rfl rfl rfl rfl rfl
    rw [horder] at hplaced
    unfold EndsWith SimulatedExchange.submitOrder
    simp only [hscreen]
    generalize (x.orders.issue o).joinGroup x.orders.objects.next = joined at *
    by_cases hdone : req.GroupResolved x
    · rw [if_pos hdone]
      have hresolved : (x.withOrders joined).orders.resolved x.orders.objects.next = true :=
        hgroup.mpr hdone
      simp only [if_pos hresolved]
      exact ⟨_, rfl, OrderTable.status_conclude hlive _ _, fun pending => congrFun hpending pending⟩
    · rw [if_neg hdone]
      have hresolved : ¬ (x.withOrders joined).orders.resolved x.orders.objects.next = true :=
        fun h => hdone (hgroup.mp h)
      simp only [if_neg hresolved]
      cases houtcome : req.placedOutcome m x price book with
      | none =>
        rw [houtcome] at hplaced
        simp only [SimulatedExchange.withOrders, hplaced]
      | some status =>
        rw [houtcome] at hplaced
        obtain ⟨reason, hplaced⟩ := hplaced
        simp only [SimulatedExchange.withOrders, hplaced]
        exact ⟨_, rfl, OrderTable.status_conclude hlive _ _, fun pending => congrFun hpending pending⟩
  · rw [if_pos hok]
    obtain ⟨o, reason, hscreen⟩ := hrefused hok
    unfold EndsWith SimulatedExchange.submitOrder
    simp only [hscreen]
    refine ⟨_, rfl, OrderTable.status_conclude ?_ _ _, fun pending => rfl⟩
    exact (Heap.live_alloc _ _ _).mpr (Or.inr rfl)

theorem EndsWith.not_decidesByDepth (h : req.EndsWith N m x (some .rejected)) :
    ¬ req.DecidesByDepth N m x price book := by
  obtain ⟨r, hreturned, hstatus, -⟩ := h
  rintro ⟨r', hreturned', hfilled, hcancelled, -⟩
  obtain rfl := Option.some.inj (hreturned.symm.trans hreturned')
  by_cases hcovered : req.Covered m x price book
  · have hsame := hstatus.symm.trans (hfilled hcovered).1
    cases hsame
  · have hsame := hstatus.symm.trans (hcancelled hcovered)
    cases hsame

/-- A cancelled order is decided by depth exactly if it is not covered. -/
theorem EndsWith.decides_iff (h : req.EndsWith N m x (some .cancelled)) :
    req.DecidesByDepth N m x price book ↔ ¬ req.Covered m x price book := by
  obtain ⟨r, hreturned, hstatus, hpending⟩ := h
  constructor
  · rintro ⟨r', hreturned', hfilled, -, -⟩ hcovered
    obtain rfl := Option.some.inj (hreturned.symm.trans hreturned')
    have hsame := hstatus.symm.trans (hfilled hcovered).1
    cases hsame
  · intro hnot
    refine ⟨r, hreturned, fun hcovered => absurd hcovered hnot, fun _ => hstatus, fun pending => ?_⟩
    rw [hpending]
    exact List.Subset.refl _

/-- A fill-or-kill order is decided by the depth of the book exactly if the depth is not needed. -/
theorem decidesByDepth_iff (N : Numerics) (m : MarketView) (x : SimulatedExchange)
    (req : OrderRequest) (price : ℚ) (book : OrderBook) (htype : req.orderType = .limit)
    (hfok : req.timeInForce = "FOK") (hprice : req.price = some price)
    (hbook : m.book req.symbol = some book) :
    req.DecidesByDepth N m x price book ↔ req.DepthUnneeded m x price book := by
  have hends := endsWith_fokOutcome (N := N) (x := x) htype hfok hprice hbook
  unfold fokOutcome at hends
  unfold DepthUnneeded
  by_cases hok : req.Acceptable
  · rw [if_neg (not_not.mpr hok)] at hends
    rw [and_iff_right hok]
    by_cases hdone : req.GroupResolved x
    · rw [if_pos hdone] at hends ⊢
      exact hends.decides_iff
    · rw [if_neg hdone] at hends ⊢
      unfold placedOutcome at hends
      by_cases hzero : m.price req.symbol = 0
      · rw [if_pos hzero] at hends
        exact iff_of_false hends.not_decidesByDepth fun h => h.1 hzero
      · rw [if_neg hzero] at hends
        rw [and_iff_right hzero]
        by_cases hreached : req.Marketable m x price
        · rw [if_neg (not_not.mpr hreached)] at hends
          by_cases hpost : req.postOnly = true
          · rw [if_pos hpost] at hends
            refine iff_of_false hends.not_decidesByDepth fun h => ?_
            rw [(h hreached).1] at hpost
            cases hpost
          · rw [if_neg hpost] at hends
            by_cases hempty : book.opposite req.side = []
            · rw [if_pos hempty] at hends
              -- nothing covers a positive quantity
              have hnot : ¬ req.Covered m x price book := by
                intro hcovered
                have hdepth := hcovered.2
                rw [OrderBook.depthAt, hempty] at hdepth
                exact absurd hdepth (not_le.mpr hok.1)
              rw [hends.decides_iff]
              exact iff_of_true hnot fun _ => ⟨Bool.not_eq_true _ ▸ hpost, hempty⟩
            · rw [if_neg hempty] at hends
              refine iff_of_false ?_ fun h => hempty (h hreached).2
              rintro ⟨r, hreturned, -⟩
              rw [show (x.submitOrder N m req).2 = none from hends] at hreturned
              cases hreturned
        · rw [if_pos hreached] at hends
          rw [hends.decides_iff]
          exact iff_of_true (fun hcovered => hreached hcovered.1) fun h => absurd h hreached
  · rw [if_pos hok] at hends
    exact iff_of_false hends.not_decidesByDepth fun h => hok h.1

/-- A book around a price of 100 with one level on each side, two units deep. -/
def twoUnitBook : OrderBook where
  symbol := "BTC"
  exchange := "binance"
  bids := [⟨9992 / 100, 2⟩]
  asks := [⟨10008 / 100, 2⟩]

def quotedMarket (book : OrderBook) : MarketView where
  symbols := ["BTC"]
  price := fun _ => 100
  book := fun _ => some book
  now := 0

/-- A fill-or-kill purchase of one unit. -/
def fokPurchase (limit : ℚ) : OrderRequest where
  symbol := "BTC"
  side := .buy
  quantity := 1
  orderType := .limit
  price := some limit
  timeInForce := "FOK"

/-- A purchase below the market is cancelled without a look at the book. -/
theorem decidesByDepth_iff_below :
    ((fokPurchase 99).DecidesByDepth Numerics.decimal (quotedMarket twoUnitBook)
        (SimulatedExchange.init "binance" (1 / 10) 5) 99 twoUnitBook ↔
      (fokPurchase 99).DepthUnneeded (quotedMarket twoUnitBook)
        (SimulatedExchange.init "binance" (1 / 10) 5) 99 twoUnitBook) ∧
    (fokPurchase 99).DepthUnneeded (quotedMarket twoUnitBook)
      (SimulatedExchange.init "binance" (1 / 10) 5) 99 twoUnitBook :=
  ⟨decidesByDepth_iff Numerics.decimal (quotedMarket twoUnitBook)
    (SimulatedExchange.init "binance" (1 / 10) 5) (fokPurchase 99) 99 twoUnitBook rfl rfl rfl rfl,
    by decide +kernel⟩

/-- A purchase that the book covers raises. -/
theorem not_decidesByDepth_covered : (fokPurchase 102).Covered (quotedMarket twoUnitBook)
      (SimulatedExchange.init "binance" (1 / 10) 5) 102 twoUnitBook ∧
    ((SimulatedExchange.init "binance" (1 / 10) 5).submitOrder Numerics.decimal
      (quotedMarket twoUnitBook) (fokPurchase 102)).2 = none ∧
    ¬ (fokPurchase 102).DecidesByDepth Numerics.decimal (quotedMarket twoUnitBook)
      (SimulatedExchange.init "binance" (1 / 10) 5) 102 twoUnitBook := by
  have hcovered : (fokPurchase 102).Covered (quotedMarket twoUnitBook)
      (SimulatedExchange.init "binance" (1 / 10) 5) 102 twoUnitBook := by decide +kernel
  have hraises : ((SimulatedExchange.init "binance" (1 / 10) 5).submitOrder Numerics.decimal
      (quotedMarket twoUnitBook) (fokPurchase 102)).2 = none := by decide +kernel
  refine ⟨hcovered, hraises, ?_⟩
  rintro ⟨r, hreturned, -⟩
  rw [hraises] at hreturned
  cases hreturned

end OrderRequest

end TradingSim.Exchange
