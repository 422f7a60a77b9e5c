import TradingSim.RawOrders.TickCompletion

/-!
# Submissions on sound exchanges

A submission keeps an exchange sound if the values that it stores are numbers. It raises at several
points. Before the order has entered its group, nothing that counts has changed yet; afterwards the
group has a member more, so that an order in a group must not raise in being placed.
-/

namespace TradingSim.RawOrders

open Foundations
open Exchange (CloseTrigger OrderStatus PendingBook Side orderId)
open Floats (Positive div divide_of_positive isZero le lit lt)
open Foundations.Action
open SimulatedExchange (Sound)

variable {F : Type} [Floats F]

/-! ### When a request does no harm -/

namespace OrderRequest

/-- The request names a group. -/
def grouped (req : OrderRequest F) : Bool := req.ocoGroupId.truthy

/-- The group that the request names cannot be looked up or has had a fill. -/
def groupClosed (rt : Runtime F) (x : SimulatedExchange F) (req : OrderRequest F) : Bool :=
  req.grouped && match req.ocoGroupId.key rt with
    | .ok key => ((x.ocoGroups.find? key).bind (·.filledOrderId)).isSome
    | .error _ => true

/-- The order passes the checks before its group, and its group is open. -/
def reachesPlacement (rt : Runtime F) (x : SimulatedExchange F) (req : OrderRequest F) : Bool :=
  (match req.screen (orderId x.orderCounter) with
    | .ok screened => screened.2
    | .error _ => false) && !req.groupClosed rt x

/-- A level is left out or a number. -/
def LevelFits (v : Value F) : Prop := v.isNull = true ∨ v.IsNumber

instance (v : Value F) : Decidable (LevelFits v) := inferInstanceAs (Decidable (_ ∨ _))

/-- The levels that a new position would take over are numbers. -/
def LevelsFit (rt : Runtime F) (x : SimulatedExchange F) (req : OrderRequest F) : Prop :=
  (∀ key ∈ (req.symbol.key rt).toOption, x.positions.find? key = none →
    LevelFits req.stopLoss ∧ LevelFits req.takeProfit)

instance (rt : Runtime F) (x : SimulatedExchange F) (req : OrderRequest F) :
    Decidable (req.LevelsFit rt x) :=
  have : ∀ key, Decidable (x.positions.find? key = none) := fun key =>
    decidable_of_iff (x.positions.find? key).isNone (by rw [Option.isNone_iff_eq_none])
  inferInstanceAs (Decidable (∀ key ∈ (req.symbol.key rt).toOption,
    x.positions.find? key = none → LevelFits req.stopLoss ∧ LevelFits req.takeProfit))

/-- The market has reached the limit of the request. -/
def reachesLimit (x : SimulatedExchange F) (req : OrderRequest F) (midPrice : F) : Bool :=
  match req.price.number with
  | .ok limit => marketable req.side limit (x.calculateFillPrice midPrice req.side req.quantity)
  | .error _ => false

/-- The price at which the order would fill at once. -/
def immediatePrice (x : SimulatedExchange F) (req : OrderRequest F) (midPrice : F) : Option F :=
  let fillPrice := x.calculateFillPrice midPrice req.side req.quantity
  match req.orderType with
  | .market => some fillPrice
  | .oco => some fillPrice
  | .limit =>
    if req.price.isNull then some fillPrice
    else if req.reachesLimit x midPrice && !req.postOnly then req.price.toFloat.toOption
    else none
  | .stopLimit => none
  | .trailingStop => none
  | .iceberg => none

/-- What a placed order stores are numbers: the values that its book is swept by, and the levels of a
position that it opens at once. -/
def StoresNumbers (rt : Runtime F) (x : SimulatedExchange F) (req : OrderRequest F) (midPrice : F) :
    Prop :=
  (req.orderType = .stopLimit → req.stopPrice.IsNumber ∧ req.limitPrice.IsFactor) ∧
    (req.orderType = .trailingStop → req.trailAmount.IsFactor) ∧
    (req.orderType = .iceberg → req.price.isNull = true ∨ req.price.IsFactor) ∧
    (req.orderType = .limit → req.price.IsNumber → req.price.IsFactor) ∧
    ∀ price ∈ req.immediatePrice x midPrice,
      x.refuses req (price * req.quantity) (div (price * req.quantity * x.feePct) (lit 100)) midPrice =
        false → req.LevelsFit rt x

instance (rt : Runtime F) (x : SimulatedExchange F) (req : OrderRequest F) (midPrice : F) :
    Decidable (req.StoresNumbers rt x midPrice) :=
  inferInstanceAs (Decidable ((_ → _ ∧ _) ∧ (_ → _) ∧ (_ → _ ∨ _) ∧ (_ → _ → _) ∧
    ∀ price ∈ req.immediatePrice x midPrice, _ → req.LevelsFit rt x))

/-- Placing a limit order compares numbers, and where it fills, it multiplies one and asks for no
book with levels. -/
def PlacesQuietly (m : MarketView F) (x : SimulatedExchange F) (req : OrderRequest F)
    (midPrice : F) : Prop :=
  req.orderType = .limit → req.price.isNull = true ∨ req.price.IsNumber ∧
    (req.reachesLimit x midPrice = true → req.postOnly = false → req.price.IsFactor ∧
      (req.timeInForce = "FOK" → (SimulatedExchange.depthCovers m req.symbol req.side
        req.quantity).toOption.isSome = true))

instance (m : MarketView F) (x : SimulatedExchange F) (req : OrderRequest F) (midPrice : F) :
    Decidable (req.PlacesQuietly m x midPrice) :=
  inferInstanceAs (Decidable (_ → _ ∨ _ ∧ (_ → _ → _ ∧ (_ → _))))

/-- The request neither leaves a value that a tick trips over nor raises after its order has entered
a group. -/
def Harmless (rt : Runtime F) (m : MarketView F) (x : SimulatedExchange F) (req : OrderRequest F) : Prop :=
  req.reachesPlacement rt x = true →
    match m.getPrice req.symbol with
    | .error _ => req.grouped = false
    | .ok midPrice => isZero midPrice = false →
        req.StoresNumbers rt x midPrice ∧ (req.grouped = true → req.PlacesQuietly m x midPrice)

instance (rt : Runtime F) (m : MarketView F) (x : SimulatedExchange F) (req : OrderRequest F) :
    Decidable (req.Harmless rt m x) :=
  have : Decidable (match m.getPrice req.symbol with
      | .error _ => req.grouped = false
      | .ok midPrice => isZero midPrice = false →
          req.StoresNumbers rt x midPrice ∧ (req.grouped = true → req.PlacesQuietly m x midPrice)) :=
    match m.getPrice req.symbol with
    | .error _ => inferInstanceAs (Decidable (_ = _))
    | .ok _ => inferInstanceAs (Decidable (_ → _ ∧ (_ → _)))
  inferInstanceAs (Decidable (_ → _))

end OrderRequest

/-! ### Screening and placing -/

variable {rt : Runtime F} {m : MarketView F} {req : OrderRequest F} {x : SimulatedExchange F}
  {r : Ref} {book : PendingBook} {id : String} {o : Order F}

/-- An order that passed the checks. -/
structure Screened (req : OrderRequest F) (o : Order F) : Prop where
  symbol : o.symbol = req.symbol
  quantity : o.quantity = req.quantity
  price : o.price = req.price
  kind : req.createKind = .ok (some o.kind)
  positive : Positive req.quantity

/-- No group was looked up before the checks. -/
theorem group_of_screen {passed : Bool} (h : req.screen id = .ok (o, passed)) : o.ocoGroupId = .null := by
  unfold OrderRequest.screen at h
  split at h
  · cases h
    rfl
  · split at h
    · cases h
      rfl
    · cases hkind : req.createKind with
      | error e =>
        rw [hkind] at h
        cases h
      | ok kind =>
        rw [hkind] at h
        cases kind with
        | none =>
          cases h
          rfl
        | some kind =>
          split at h
          · cases h
            rfl
          · split at h
            · cases h
              rfl
            · split at h
              · cases h
                rfl
              · split at h
                · cases h
                  rfl
                · cases h
                  rfl

/-- An order that passes the checks is as they leave it. -/
theorem screened_of_screen (h : req.screen id = .ok (o, true)) : Screened req o := by
  unfold OrderRequest.screen at h
  split at h
  · cases h
  · rename_i hquantity
    split at h
    · cases h
    · cases hkind : req.createKind with
      | error e =>
        rw [hkind] at h
        cases h
      | ok kind =>
        rw [hkind] at h
        cases kind with
        | none => cases h
        | some kind =>
          simp only [Bool.or_eq_true, Bool.not_eq_true', not_or, Bool.not_eq_true,
            Bool.not_eq_false] at hquantity
          have hpositive := Floats.positive_of_not_le hquantity.2 hquantity.1
          split at h
          · cases h
          · split at h
            · cases h
            · split at h
              · cases h
              · split at h
                · cases h
                · cases h
                  exact ⟨rfl, rfl, rfl, hkind, hpositive⟩

variable {R : PyException → SimulatedExchange F → Prop} {midPrice : F}

/-- Only a text has a price. -/
theorem symbol_of_getPrice {v : Value F} (h : m.getPrice v = .ok midPrice)
    (hzero : isZero midPrice = false) : ∃ s, v = .text s := by
  have hzeroLit : isZero (lit 0 : F) = true := by
    rw [isZero, Floats.zero_le_zero]
    rfl
  cases v with
  | text s => exact ⟨s, rfl⟩
  | container rendering isEmpty => cases h
  | null | bool _ | int _ | float _ =>
    obtain rfl := Except.ok.inj h
    rw [hzeroLit] at hzero
    cases hzero

/-- An order of a type goes into the book of that type. -/
inductive RestsIn (req : OrderRequest F) : PendingBook → Prop
  | stopLimit : req.orderType = .stopLimit → RestsIn req .stopLimits
  | trailingStop : req.orderType = .trailingStop → RestsIn req .trailingStops
  | iceberg : req.orderType = .iceberg → RestsIn req .icebergs
  | limit : req.orderType = .limit → req.price.IsNumber → RestsIn req .limits

/-- What the placement of an order says of it. -/
def Places (x : SimulatedExchange F) (req : OrderRequest F) (midPrice : F) : Placement F → Prop
  | .rejected => True
  | .cancelled => True
  | .rests book => RestsIn req book
  | .fills price mid => mid = midPrice ∧ price ∈ req.immediatePrice x midPrice

variable {p : Placement F}

/-- A limit order that the market has reached fills at its limit if the book covers it. -/
theorem places_reached {price : Number F}
    (hlimit : ∀ limit, price.toFloat = .ok limit → limit ∈ req.immediatePrice x midPrice)
    (covered : Bool) (h : (if covered then do
        let limit ← price.toFloat
        return .fills limit midPrice
      else return .cancelled : Except PyException (Placement F)) = .ok p) :
    Places x req midPrice p := by
  cases covered with
  | false =>
    cases h
    exact trivial
  | true =>
    cases hfloat : price.toFloat with
    | error e =>
      rw [hfloat] at h
      cases h
    | ok limit =>
      rw [hfloat] at h
      cases h
      exact ⟨rfl, hlimit limit hfloat⟩

/-- What the placement of a limit order decides. -/
theorem places_limit (htype : req.orderType = .limit)
    (hgiven : req.price.isNull = false) {price : Number F} (hprice : req.price.number = .ok price)
    (h : (if marketable req.side price (x.calculateFillPrice midPrice req.side req.quantity) then
      if req.postOnly then return .rejected else do
        let covered ← if req.timeInForce = "FOK" then
            SimulatedExchange.depthCovers m req.symbol req.side req.quantity
          else .ok true
        if covered then
          let limit ← price.toFloat
          return .fills limit midPrice
        else return .cancelled
    else if req.timeInForce = "IOC" ∨ req.timeInForce = "FOK" then return .cancelled
    else return .rests .limits : Except PyException (Placement F)) = .ok p) :
    Places x req midPrice p := by
  have hreaches : req.reachesLimit x midPrice =
      marketable req.side price (x.calculateFillPrice midPrice req.side req.quantity) := by
    rw [OrderRequest.reachesLimit, hprice]
  split at h
  · rename_i hmarketable
    split at h
    · cases h
      exact trivial
    · rename_i hpost
      have hlimit : ∀ limit, price.toFloat = .ok limit → limit ∈ req.immediatePrice x midPrice := by
        intro limit hfloat
        simp [OrderRequest.immediatePrice, htype, hgiven, hreaches, hmarketable, hpost,
          Value.toFloat, hprice, hfloat, bind, Except.bind, Except.toOption]
      split at h
      · cases hdepth : SimulatedExchange.depthCovers m req.symbol req.side req.quantity with
        | error e =>
          rw [hdepth] at h
          cases h
        | ok covered =>
          rw [hdepth] at h
          exact places_reached hlimit covered h
      · exact places_reached hlimit true h
  · split at h
    · cases h
      exact trivial
    · cases h
      exact .limit htype (by rw [Value.IsNumber, hprice]; rfl)

/-- An order is placed for a symbol with a price, or rejected. -/
theorem places_of_placement (h : x.placement m req = .ok p) :
    ∃ midPrice, m.getPrice req.symbol = .ok midPrice ∧
      (p = .rejected ∨ isZero midPrice = false ∧ Places x req midPrice p) := by
  unfold SimulatedExchange.placement at h
  cases hprice : m.getPrice req.symbol with
  | error e =>
    rw [hprice] at h
    cases h
  | ok midPrice =>
    rw [hprice] at h
    refine ⟨midPrice, rfl, ?_⟩
    change (if isZero midPrice = true then _ else _) = _ at h
    split at h
    · cases h
      exact Or.inl rfl
    · rename_i hzero
      refine Or.inr ⟨Bool.not_eq_true _ ▸ hzero, ?_⟩
      cases htype : req.orderType <;> rw [htype] at h <;> dsimp only at h
      case limit =>
        split at h
        · rename_i hnull
          cases h
          refine ⟨rfl, ?_⟩
          simp [OrderRequest.immediatePrice, htype, hnull]
        · rename_i hgiven
          cases hnumber : req.price.number with
          | error e =>
            rw [hnumber] at h
            cases h
          | ok price =>
            rw [hnumber] at h
            exact places_limit htype (Bool.not_eq_true _ ▸ hgiven) hnumber h
      case stopLimit =>
        cases h
        exact .stopLimit htype
      case trailingStop =>
        cases h
        exact .trailingStop htype
      case iceberg =>
        cases h
        exact .iceberg htype
      all_goals
        cases h
        refine ⟨rfl, ?_⟩
        simp [OrderRequest.immediatePrice, htype]

/-! ### What a placed order stores -/

/-- The checks of an iceberg keep its quantities. -/
theorem quantities_of_postInit {fields initial : Iceberg F}
    (h : OrderRequest.postInit initial = .ok fields) : fields.visibleQuantity = initial.visibleQuantity ∧
      fields.hiddenQuantity = initial.hiddenQuantity := by
  unfold OrderRequest.postInit at h
  split at h
  · cases hslices : Floats.divide initial.hiddenQuantity initial.sliceSize with
    | error e =>
      rw [hslices] at h
      cases h
    | ok slices =>
      rw [hslices] at h
      dsimp only [bind, Except.bind] at h
      cases htruncate : Floats.truncate (slices + lit (1 / 2)) with
      | none =>
        rw [htruncate] at h
        cases h
      | some n =>
        rw [htruncate] at h
        cases h
        exact ⟨rfl, rfl⟩
  · cases h
    exact ⟨rfl, rfl⟩

/-- A number that is not refused is a positive float. -/
theorem positive_of_toFloat {n : Number F} {quantity visible : F} (hn : n.nonPositive = false)
    (h : n.toFloat = .ok visible) (hhidden : Positive (quantity - visible)) : Positive visible := by
  cases n with
  | int n =>
    have hpositive : 0 < n := by simpa [Number.nonPositive] using hn
    unfold Number.toFloat at h
    cases hint : Floats.ofInt (F := F) n with
    | none => simp [hint] at h
    | some y =>
      simp only [hint, Except.ok.injEq] at h
      exact Floats.ofInt_pos n visible (h ▸ hint) hpositive
  | float y =>
    obtain rfl := Except.ok.inj h
    by_cases hself : le y y = true
    · exact Floats.positive_of_not_le hself hn
    · have hnan := Floats.sub_nan quantity y (Bool.not_eq_true _ ▸ hself)
      rw [Positive, hnan] at hhidden
      cases hhidden

/-- An iceberg shows a positive quantity as long as it hides one. -/
theorem visible_of_createKind {kind : OrderKind F} (htype : req.orderType = .iceberg)
    (h : req.createKind = .ok (some kind)) : ∃ fields, kind = .iceberg fields ∧
      (Positive fields.hiddenQuantity → Positive fields.visibleQuantity) := by
  unfold OrderRequest.createKind at h
  rw [htype] at h
  dsimp only at h
  split at h
  · cases h
  · cases hnumber : req.icebergVisibleQty.number with
    | error e =>
      rw [hnumber] at h
      cases h
    | ok visibleQty =>
      rw [hnumber] at h
      change (if _ then _ else _) = _ at h
      split at h
      · cases h
      · rename_i hbounds
        simp only [Bool.or_eq_true, not_or, Bool.not_eq_true] at hbounds
        cases hfloat : visibleQty.toFloat with
        | error e =>
          rw [hfloat] at h
          cases h
        | ok visible =>
          rw [hfloat] at h
          cases hinit : OrderRequest.postInit {
              visibleQuantity := visible
              hiddenQuantity := req.quantity - visible
              sliceSize := visible
              currentSliceFilled := lit 0 } with
          | error e =>
            change (OrderRequest.postInit _ >>= _) = _ at h
            rw [hinit] at h
            cases h
          | ok fields =>
            change (OrderRequest.postInit _ >>= _) = _ at h
            rw [hinit] at h
            cases h
            obtain ⟨hvisible, hhidden⟩ := quantities_of_postInit hinit
            refine ⟨fields, rfl, fun hpositive => ?_⟩
            rw [hvisible]
            rw [hhidden] at hpositive
            exact positive_of_toFloat hbounds.1 hfloat hpositive

/-- A trail is started in the kind of an order only. -/
theorem startTrail_eq (midPrice : F) (o : Order F) :
    ∃ kind, startTrail midPrice o = { o with kind := kind } := by
  unfold startTrail
  split <;> exact ⟨_, rfl⟩

/-- An order still fits once its trail is started. -/
theorem Order.Fits.startTrail {o : Order F} (h : o.Fits book) (midPrice : F) :
    (startTrail midPrice o).Fits book := by
  obtain ⟨kind, htrail⟩ := startTrail_eq midPrice o
  refine ⟨?_, ?_, ?_⟩
  · rw [htrail]
    exact h.symbol
  · rw [htrail]
    exact h.quantity
  · have hreadable := h.readable
    unfold RawOrders.startTrail
    split
    · rename_i fields hkind
      unfold Order.Readable at hreadable ⊢
      rw [hkind] at hreadable
      cases book <;> exact hreadable
    · exact hreadable

/-- The values of a placed order that the sweep of its book reads. -/
theorem readable_of_restsIn (hrests : RestsIn req book)
    (hstores : req.StoresNumbers rt x midPrice) (ho : Screened req o) (price : F) (status : OrderStatus) :
    (startTrail price { o with status := status }).Readable book := by
  have hkind := ho.kind
  unfold OrderRequest.createKind at hkind
  cases hrests with
  | limit htype hnumber =>
    have hfactor := hstores.2.2.2.1 htype hnumber
    obtain ⟨kind, htrail⟩ := startTrail_eq price { o with status := status }
    rw [htrail]
    rw [← ho.price] at hfactor
    exact hfactor
  | stopLimit htype =>
    rw [htype] at hkind
    dsimp only at hkind
    split at hkind
    · cases hkind
    · have hplain : o.kind = .stopLimit req.stopPrice req.limitPrice false :=
        (Option.some.inj (Except.ok.inj hkind)).symm
      simp only [startTrail, hplain, Order.Readable]
      exact hstores.1 htype
  | trailingStop htype =>
    have hfactor := hstores.2.1 htype
    obtain ⟨n, -, hn, -⟩ := hfactor.exists
    rw [htype] at hkind
    dsimp only at hkind
    rw [hn] at hkind
    split at hkind
    · cases hkind
    · change (if _ then _ else _) = _ at hkind
      split at hkind
      · cases hkind
      · have hplain := (Option.some.inj (Except.ok.inj hkind)).symm
        simp only [startTrail, hplain, Order.Readable]
        exact hfactor
  | iceberg htype =>
    obtain ⟨fields, hplain, hvisible⟩ := visible_of_createKind htype ho.kind
    simp only [startTrail, hplain, Order.Readable]
    refine ⟨?_, hvisible⟩
    rw [ho.price]
    exact hstores.2.2.1 htype

/-! ### Placing orders -/

/-- An order has been filled and not been booked yet. -/
structure Filling (rt : Runtime F) (s : String) (positions : Dict String (Position F)) (r : Ref)
    (x : SimulatedExchange F) : Prop where
  sound : Sound rt [] x
  live : x.orders.Live r
  symbol : (x.orders.get r).symbol = .text s
  filled : Positive (x.orders.get r).filledQuantity
  positions : x.positions = positions

variable {s : String} {positions : Dict String (Position F)}

/-- Averaging in a partial fill completes. -/
theorem completes_applyPartialFill {quantity : F} (hquantity : Positive quantity)
    (fillPrice midPrice : F) (side : Side) :
    Completes (Filling rt s positions r) (applyPartialFill r fillPrice midPrice side quantity)
      fun _ => Filling rt s positions r := by
  refine triple_ite (fun _ => triple_pure fun _ h => h) fun _ => ?_
  rw [lift_bind_of_ok (divide_of_positive _ hquantity)]
  refine triple_when (fun _ => triple_modify fun x h => ?_) fun _ _ h => h
  refine ⟨h.sound.updateOrder r id fun _ hfits =>
    ⟨hfits.2.symbol, hfits.2.quantity, hfits.2.readable⟩, (Heap.live_modify _ _ _ _).mpr h.live, ?_, ?_,
    h.positions⟩
  · change ((x.orders.modify r _).get r).symbol = .text s
    rw [Heap.get_modify_self _ h.live]
    exact h.symbol
  · change Positive ((x.orders.modify r _).get r).filledQuantity
    rw [Heap.get_modify_self _ h.live]
    exact h.filled

/-- Booking a fill completes. -/
theorem completes_bookFill {order : Order F} (horder : order.Executed)
    (hlevels : ∀ key, order.symbol.key rt = .ok key → positions.find? key = none →
      OrderRequest.LevelFits req.stopLoss ∧ OrderRequest.LevelFits req.takeProfit) (orderMargin : F) :
    Completes (Filling rt s positions r) (do
      updatePosition rt order req.stopLoss req.takeProfit orderMargin
      resolveOco rt r) fun _ => Sound rt [] := by
  refine triple_bind (completes_updatePosition horder (fun _ h => h.sound) ?_ orderMargin)
    fun _ => completes_resolveOco r
  intro x hx key hkey hnone
  rw [hx.positions] at hnone
  exact hlevels key hkey hnone

/-- Filling an order at once completes. -/
theorem completes_fillMarketOrder (hx : x.Sound rt []) (hlive : x.orders.Live r)
    (ho : Screened req (x.orders.get r)) (hs : req.symbol = .text s) {fillPrice midPrice : F}
    (hlevels : x.refuses req (fillPrice * req.quantity)
      (div (fillPrice * req.quantity * x.feePct) (lit 100)) midPrice = false → req.LevelsFit rt x) :
    Completes (· = x) (fillMarketOrder rt r req fillPrice midPrice) fun _ => Sound rt [] := by
  refine triple_get_bind_eq fun y hy => ?_
  subst hy
  refine triple_ite (fun _ => triple_modify fun z hz => hz ▸ hx.setStatus r .rejected)
    fun hrefuses => ?_
  have hfit := hlevels (Bool.not_eq_true _ ▸ hrefuses)
  have hbook : ∀ orderMargin, Completes (Filling rt s y.positions r) (do
      let order ← readOrder r
      updatePosition rt order req.stopLoss req.takeProfit orderMargin
      resolveOco rt r) fun _ => Sound rt [] := by
    refine fun orderMargin => triple_readOrder_bind fun z hz =>
      completes_bookFill ⟨⟨s, hz.symbol⟩, hz.filled⟩ (fun key hkey hnone => hfit key ?_ hnone) _
    rw [hz.symbol, ← hs] at hkey
    rw [hkey]
    rfl
  have hmoney : ∀ x balance totalFees, Filling rt s y.positions r x →
      Filling rt s y.positions r { x with balance := balance, totalFees := totalFees } :=
    fun _ _ _ h => ⟨h.sound.congr rfl rfl rfl, h.live, h.symbol, h.filled, h.positions⟩
  refine triple_modify_bind (Filling rt s y.positions r) (fun z hz => ?_)
    (triple_bind (completes_applyPartialFill ho.positive _ _ _) fun _ =>
      triple_bind (completes_chargeFee _ hmoney) fun _ => triple_ite (fun _ => hbook _) fun _ =>
        triple_bind (completes_lockMargin _ fun x _ h => hmoney x _ x.totalFees h) hbook)
  subst hz
  refine ⟨hx.updateOrder r id fun _ hfits =>
    ⟨hfits.2.symbol, hfits.2.quantity, hfits.2.readable⟩, (Heap.live_modify _ _ _ _).mpr hlive, ?_, ?_,
    rfl⟩
  · change ((z.orders.modify r _).get r).symbol = .text s
    rw [Heap.get_modify_self _ hlive]
    exact ho.symbol.trans hs
  · change Positive ((z.orders.modify r _).get r).filledQuantity
    rw [Heap.get_modify_self _ hlive]
    exact ho.positive

/-- What holds after an order was placed. -/
theorem triple_placeOrder (hx : x.Sound rt []) (hlive : x.orders.Live r) (ho : Screened req (x.orders.get r))
    (hstores : ∀ midPrice, m.getPrice req.symbol = .ok midPrice → isZero midPrice = false →
      req.StoresNumbers rt x midPrice) (hraises : ∀ e, x.placement m req = .error e → R e x) :
    Triple (· = x) (placeOrder rt m r req) (fun _ => Sound rt []) R := by
  refine triple_get_bind_eq fun y hy => ?_
  subst hy
  refine triple_lift_bind (fun p hp => ?_) fun e he z hz => hz ▸ hraises e he
  obtain ⟨midPrice, hprice, hplaced⟩ := places_of_placement hp
  cases p with
  | rejected => exact triple_modify fun z hz => hz ▸ hx.setStatus r .rejected
  | cancelled => exact triple_modify fun z hz => hz ▸ hx.setStatus r .cancelled
  | rests book =>
    obtain ⟨hzero, hrests⟩ := hplaced.resolve_left (by simp)
    obtain ⟨s, hs⟩ := symbol_of_getPrice hprice hzero
    have hreadable := readable_of_restsIn hrests (hstores _ hprice hzero) ho midPrice .pending
    dsimp only
    rw [lift_bind_of_ok hprice]
    refine triple_readOrder_bind fun z hz => triple_modify fun w hw => ?_
    subst hw
    obtain ⟨kind, htrail⟩ := startTrail_eq midPrice { w.orders.get r with status := .pending }
    have hfits : (startTrail midPrice { w.orders.get r with status := .pending }).Fits book := by
      refine ⟨⟨s, ?_⟩, ?_, hreadable⟩
      · rw [htrail]
        exact ho.symbol.trans hs
      · rw [htrail]
        rw [ho.quantity]
        exact ho.positive
    have hget : (w.setStatus r .pending).orders.get r = { w.orders.get r with status := .pending } :=
      Heap.get_modify_self _ hlive _
    have hset : (w.setStatus r .pending).orders.Live r := (Heap.live_modify _ _ _ _).mpr hlive
    have hsound : ((w.setStatus r .pending).updateOrder r (startTrail midPrice)).Sound rt [] := by
      refine (hx.setStatus r .pending).updateOrder r (fun hnamed => ?_) fun _ hr => hr.2.startTrail _
      obtain ⟨kind, hkept⟩ := startTrail_eq midPrice ((w.setStatus r .pending).orders.get r)
      rw [hkept]
      exact hnamed
    refine hsound.addPending ⟨(Heap.live_modify _ _ _ _).mpr hset, ?_⟩ _
    change (((w.setStatus r .pending).orders.modify r _).get r).Fits book
    rw [Heap.get_modify_self _ hset, hget]
    exact hfits
  | fills price mid =>
    obtain ⟨hzero, rfl, himmediate⟩ := hplaced.resolve_left (by simp)
    obtain ⟨s, hs⟩ := symbol_of_getPrice hprice hzero
    exact (completes_fillMarketOrder hx hlive ho hs
      ((hstores _ hprice hzero).2.2.2.2 price himmediate)).triple

/-! ### Submissions -/

/-- Nothing that counts has changed: there may be more order objects, that nothing leads to. -/
structure Untouched (x x' : SimulatedExchange F) : Prop where
  fields : { x' with orders := x.orders, orderCounter := x.orderCounter } = x
  orders : ∀ r, x.orders.Live r → x'.orders.Live r ∧ x'.orders.get r = x.orders.get r

theorem Untouched.refl (x : SimulatedExchange F) : Untouched x x := ⟨rfl, fun _ h => ⟨h, rfl⟩⟩

/-- The call of `submit_order` raises somewhere. -/
def OrderRequest.Raises (rt : Runtime F) (m : MarketView F) (x : SimulatedExchange F)
    (req : OrderRequest F) : Prop :=
  (∃ e, req.screen (orderId x.orderCounter) = .error e) ∨
    (req.grouped = true ∧ ∃ e, req.ocoGroupId.key rt = .error e) ∨ ∃ e, x.placement m req = .error e

omit [Floats F] in
theorem triple_create_bind_eq {α : Type} {Q : α → SimulatedExchange F → Prop} {f : Ref → Call F α}
    (h : Triple (· = { x with orders := x.orders.alloc o }) (f x.orders.next) Q R) :
    Triple (· = x) (create o >>= f) Q R := by
  intro z hz
  subst hz
  exact h _ rfl

/-- An order that is placed quietly does not raise. -/
theorem placement_of_placesQuietly (hprice : m.getPrice req.symbol = .ok midPrice)
    (h : req.PlacesQuietly m x midPrice) : ∃ p, x.placement m req = .ok p := by
  unfold SimulatedExchange.placement
  rw [hprice]
  change ∃ p, (if isZero midPrice = true then _ else _) = _
  split
  · exact ⟨_, rfl⟩
  · cases htype : req.orderType <;> dsimp only
    case limit =>
      split
      · exact ⟨_, rfl⟩
      · rename_i hgiven
        obtain ⟨hnumber, hfills⟩ := (h htype).resolve_left hgiven
        obtain ⟨price, hnumber⟩ := hnumber.exists
        rw [OrderRequest.reachesLimit, hnumber] at hfills
        rw [hnumber]
        change ∃ p, (if marketable _ price _ = true then _ else _) = _
        split
        · rename_i hmarketable
          split
          · exact ⟨_, rfl⟩
          · rename_i hpost
            obtain ⟨hfactor, hdepth⟩ := hfills hmarketable (Bool.not_eq_true _ ▸ hpost)
            obtain ⟨n, limit, hn, hlimit⟩ := hfactor.exists
            obtain rfl := Except.ok.inj (hnumber.symm.trans hn)
            split
            · rename_i hfok
              have hcovers := hdepth hfok
              cases hcovered : SimulatedExchange.depthCovers m req.symbol req.side req.quantity with
              | error e =>
                rw [hcovered] at hcovers
                cases hcovers
              | ok covered =>
                rw [hlimit]
                cases covered <;> exact ⟨_, rfl⟩
            · rw [hlimit]
              exact ⟨_, rfl⟩
        · split <;> exact ⟨_, rfl⟩
    all_goals exact ⟨_, rfl⟩

/-- The exchange after an order has entered a group. -/
def SimulatedExchange.enterGroup (x : SimulatedExchange F) (r : Ref) (ocoGroupId : Value F)
    (key : String) : SimulatedExchange F :=
  let group := (x.ocoGroups.find? key).getD {}
  { x.updateOrder r fun o => { o with ocoGroupId := ocoGroupId } with
    ocoGroups := x.ocoGroups.insert key { group with orders := group.orders ++ [r] } }

/-- Entering a group keeps an exchange sound. -/
theorem SimulatedExchange.Sound.enterGroup (h : x.Sound rt []) (r : Ref) {ocoGroupId : Value F}
    {key : String} (hkey : ocoGroupId.key rt = .ok key) : (x.enterGroup r ocoGroupId key).Sound rt [] := by
  refine (h.updateOrder r (fun _ _ => ⟨key, hkey⟩) fun _ hfits => ?_).congr rfl rfl rfl
  exact ⟨hfits.2.symbol, hfits.2.quantity, hfits.2.readable⟩

/-- A group is entered under its key, or the lookup raises. -/
theorem triple_joinGroup (r : Ref) {ocoGroupId : Value F} (hnamed : ocoGroupId.truthy = true)
    (hraises : ∀ e, ocoGroupId.key rt = .error e → R e x) : Triple (· = x) (joinGroup rt r ocoGroupId)
      (fun closed x' => ∃ key, ocoGroupId.key rt = .ok key ∧ x' = x.enterGroup r ocoGroupId key ∧
        closed = ((x.ocoGroups.find? key).bind (·.filledOrderId)).isSome) R := by
  unfold joinGroup
  rw [if_pos hnamed]
  refine triple_lift_bind (fun key hkey => ?_) fun e he z hz => hz ▸ hraises e he
  refine triple_get_bind_eq fun y hy => ?_
  subst hy
  refine triple_modify_bind (· = y.enterGroup r ocoGroupId key) (fun z hz => hz ▸ rfl)
    (triple_pure fun z hz => ⟨key, hkey, hz, ?_⟩)
  cases y.ocoGroups.find? key <;> rfl

/-- The end of a submission, for an order that passed its checks. -/
theorem triple_placeOrder_return (hx : x.Sound rt [])
    (hlive : x.orders.Live r) (ho : Screened req (x.orders.get r))
    (hstores : ∀ midPrice, m.getPrice req.symbol = .ok midPrice → isZero midPrice = false →
      req.StoresNumbers rt x midPrice) (hraises : ∀ e, x.placement m req = .error e → R e x) :
    Triple (· = x) (do placeOrder rt m r req; return r) (fun _ => Sound rt []) R :=
  triple_bind (triple_placeOrder hx hlive ho hstores hraises) fun _ => triple_pure fun _ h => h

/-- The submission of an order that has been created and passed its checks. -/
theorem triple_enterAndPlace {orders : Heap (Order F)} {n : ℕ}
    (hw : ({ x with orders := orders, orderCounter := n } : SimulatedExchange F).Sound rt [])
    (huntouched : Untouched x { x with orders := orders, orderCounter := n }) (hlive : orders.Live r)
    (ho : Screened req (orders.get r))
    (hreq : req.groupClosed rt x = false →
      match m.getPrice req.symbol with
      | .error _ => req.grouped = false
      | .ok midPrice => isZero midPrice = false →
          req.StoresNumbers rt x midPrice ∧ (req.grouped = true → req.PlacesQuietly m x midPrice)) :
    Triple (· = { x with orders := orders, orderCounter := n }) (do
      let closed ← joinGroup rt r req.ocoGroupId
      if closed then
        modify (·.setStatus r .cancelled)
        return r
      else
        placeOrder rt m r req
        return r) (fun _ => Sound rt [])
      fun _ x' => Sound rt [] x' ∧ Untouched x x' ∧ req.Raises rt m x := by
  have hstores : req.groupClosed rt x = false → ∀ midPrice, m.getPrice req.symbol = .ok midPrice →
      isZero midPrice = false → req.StoresNumbers rt x midPrice := by
    intro hopen midPrice hprice hzero
    have hopened := hreq hopen
    rw [hprice] at hopened
    exact (hopened hzero).1
  by_cases hnamed : req.ocoGroupId.truthy = true
  · refine triple_bind (triple_joinGroup r hnamed fun e he => ?_) fun closed => ?_
    · exact ⟨hw, huntouched, Or.inr (Or.inl ⟨hnamed, e, he⟩)⟩
    · refine triple_of_forall_eq fun z hz => ?_
      obtain ⟨key, hkey, rfl, rfl⟩ := hz
      have hentered := hw.enterGroup r hkey
      have hgroup : req.groupClosed rt x =
          ((x.ocoGroups.find? key).bind (·.filledOrderId)).isSome := by
        rw [OrderRequest.groupClosed, OrderRequest.grouped, hnamed, hkey]
        rfl
      refine triple_ite (fun _ => triple_modify_bind _ (fun z hz => hz ▸ hentered.setStatus r .cancelled)
        (triple_pure fun _ h => h)) fun hopen => ?_
      rw [← hgroup, Bool.not_eq_true] at hopen
      have hscreened : Screened req ((orders.modify r fun o =>
          { o with ocoGroupId := req.ocoGroupId }).get r) := by
        rw [Heap.get_modify_self _ hlive]
        exact ⟨ho.symbol, ho.quantity, ho.price, ho.kind, ho.positive⟩
      refine triple_placeOrder_return hentered ((Heap.live_modify _ _ _ _).mpr hlive) hscreened
        (hstores hopen) fun e he => ?_
      have hopened := hreq hopen
      cases hprice : m.getPrice req.symbol with
      | error e =>
        rw [hprice, OrderRequest.grouped, hnamed] at hopened
        cases hopened
      | ok midPrice =>
        rw [hprice] at hopened
        by_cases hzero : isZero midPrice = true
        · have hrejected : x.placement m req = .ok .rejected := by
            unfold SimulatedExchange.placement
            rw [hprice]
            exact if_pos hzero
          cases hrejected.symm.trans he
        · obtain ⟨p, hp⟩ := placement_of_placesQuietly hprice
            ((hopened (Bool.not_eq_true _ ▸ hzero)).2 hnamed)
          cases hp.symm.trans he
  · have hplain : joinGroup rt r req.ocoGroupId = pure false := by
      rw [joinGroup, if_neg hnamed]
    rw [hplain, Action.pure_bind]
    have hopen : req.groupClosed rt x = false := by
      rw [OrderRequest.groupClosed, OrderRequest.grouped, (Bool.not_eq_true _).mp hnamed]
      rfl
    exact triple_placeOrder_return hw hlive ho (hstores hopen)
      fun e he => ⟨hw, huntouched, Or.inr (Or.inr ⟨e, he⟩)⟩

/-- A harmless submission leaves a sound exchange, and one on which nothing has changed if it
raises. -/
theorem triple_submitOrder (hx : x.Sound rt []) (hreq : req.Harmless rt m x) :
    Triple (· = x) (submitOrder rt m req) (fun _ => Sound rt [])
      fun _ x' => Sound rt [] x' ∧ Untouched x x' ∧ req.Raises rt m x := by
  refine triple_get_bind_eq fun y hy => ?_
  subst hy
  refine triple_modify_bind (· = { y with orderCounter := y.orderCounter + 1 }) (fun z hz => hz ▸ rfl)
    (triple_lift_bind (fun screened hscreen => ?_) fun e he z hz => ?_)
  · obtain ⟨o, passed⟩ := screened
    refine triple_create_bind_eq ?_
    have hgroup : o.ocoGroupId.NamesGroup rt := by
      rw [group_of_screen hscreen]
      exact fun hnull => by cases hnull
    have hsound : ({ y with
        orders := y.orders.alloc o, orderCounter := y.orderCounter + 1 } : SimulatedExchange F).Sound
        rt [] := (hx.create hgroup).congr rfl rfl rfl
    refine triple_ite (fun hfailed => ?_) fun hpassed => ?_
    · exact triple_modify_bind _ (fun z hz => hz ▸ hsound.setStatus _ .rejected)
        (triple_pure fun _ h => h)
    · rw [Bool.not_eq_false] at hpassed
      refine triple_enterAndPlace hsound ⟨rfl, fun r hr => ?_⟩ ((Heap.live_alloc _ _ _).mpr (Or.inr rfl)) ?_
        fun hopen => hreq ?_
      · exact ⟨(Heap.live_alloc _ _ _).mpr (Or.inl hr), Heap.get_alloc_of_live _ _ hr⟩
      · rw [Heap.get_alloc_next]
        obtain rfl : passed = true := hpassed
        exact screened_of_screen hscreen
      · rw [OrderRequest.reachesPlacement, hscreen, hopen]
        simpa using hpassed
  · subst hz
    exact ⟨hx.congr rfl rfl rfl, ⟨rfl, fun _ h => ⟨h, rfl⟩⟩, Or.inl ⟨e, he⟩⟩

end TradingSim.RawOrders
