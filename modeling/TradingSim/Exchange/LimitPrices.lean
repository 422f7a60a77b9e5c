import TradingSim.Exchange.IcebergSlices

/-!
# Limit prices

A limit is the worst price that an order may be filled at. An order that rests is filled at its limit,
and so is every slice of a priced iceberg. A limit order that its submission fills is recorded at the
average with a worse price for the part beyond the typical volume, and an iceberg itself records no
price at all.
-/

namespace TradingSim.Exchange

open Foundations

/-- A price that a side may be filled at under a limit. -/
def Side.NotWorse (side : Side) (limit price : ℚ) : Prop :=
  match side with
  | .buy => price ≤ limit
  | .sell => limit ≤ price

instance (side : Side) (limit price : ℚ) : Decidable (side.NotWorse limit price) :=
  match side with
  | .buy => inferInstanceAs (Decidable (price ≤ limit))
  | .sell => inferInstanceAs (Decidable (limit ≤ price))

theorem Side.NotWorse.refl (side : Side) (limit : ℚ) : side.NotWorse limit limit := by
  cases side with
  | buy => exact le_refl limit
  | sell => exact le_refl limit

/-! ### What a move does to one order -/

/-- What a move may make of an order. -/
inductive Order.Moves (N : Numerics) (o : Order) : Order → Prop
  | amended {o' : Order} (h : o.Amends o') : Moves N o o'
  | executed (e : Execution) (hpending : o.status = .pending) (hterms : o.SameTerms e.order)
      (hkind : e.order.kind = o.kind) (hcharged : ∃ d, e.Charged N d) (hbasis : o.RestsAt e.basis) :
    Moves N o e.order
  | sliced (fields : IcebergFields) (hpending : o.status = .pending) (htype : o.orderType = .iceberg) :
    Moves N o { o with kind := .iceberg fields }
  | finished (hpending : o.status = .pending) (htype : o.orderType = .iceberg) :
    Moves N o { o with status := .filled, filledQuantity := o.quantity }

theorem Order.Amends.refl (o : Order) : o.Amends o :=
  ⟨⟨rfl, rfl, rfl, rfl, rfl, rfl⟩, rfl, rfl, rfl, .refl _, Or.inl rfl⟩

theorem Order.Moves.terms {N : Numerics} {o o' : Order} (h : o.Moves N o') : o.SameTerms o' := by
  cases h with
  | amended h => exact h.terms
  | executed _ _ hterms => exact hterms
  | sliced => exact ⟨rfl, rfl, rfl, rfl, rfl, rfl⟩
  | finished => exact ⟨rfl, rfl, rfl, rfl, rfl, rfl⟩

theorem Order.moves_rewrite {N : Numerics} {d : Desk} {r r' : Ref} {o : Order}
    (hlive : d.objects.Live r') (hmoves : (d.objects.get r').Moves N o) :
    (d.objects.get r).Moves N ((d.rewrite r' o).objects.get r) := by
  rw [Desk.get_rewrite hlive]
  by_cases heq : r = r'
  · rw [if_pos heq, heq]
    exact hmoves
  · rw [if_neg heq]
    exact .amended (.refl _)

theorem Move.moves {N : Numerics} {m : MarketView} {d d' : Desk} {es : List Execution}
    (hmove : Move N m d es d')
    {r : Ref} (hlive : d.objects.Live r) :
    d'.objects.Live r ∧ (d.objects.get r).Moves N (d'.objects.get r) := by
  have hcreated : ∀ o : Order, (d.create o).objects.Live r ∧
      (d.objects.get r).Moves N ((d.create o).objects.get r) := by
    intro o
    have hget : (d.create o).objects.get r = d.objects.get r := Heap.get_alloc_of_live _ _ hlive
    rw [hget]
    exact ⟨(Heap.live_alloc _ _ _).mpr (Or.inl hlive), .amended (.refl _)⟩
  have hrewritten : ∀ r' o, (d.rewrite r' o).objects.Live r := fun _ _ =>
    (Heap.live_modify _ _ _ _).mpr hlive
  cases hmove with
  | enter o => exact hcreated o
  | fillEntered e => exact hcreated e.order
  | amend r' o hlive' hamends =>
    exact ⟨hrewritten r' o, Order.moves_rewrite hlive' (.amended hamends)⟩
  | execute r' e hlive' hpending hterms hkind hcharged hparent hbasis hquoted =>
    exact ⟨hrewritten r' e.order,
      Order.moves_rewrite hlive' (.executed e hpending hterms hkind ⟨d, hcharged⟩ hbasis)⟩
  | slice r' fields e hlive' hpending htype =>
    have hlive'' := hrewritten r' { d.objects.get r' with kind := .iceberg fields.afterSlice }
    refine ⟨(Heap.live_alloc _ _ _).mpr (Or.inl hlive''), ?_⟩
    change (d.objects.get r).Moves N (((d.rewrite r' { d.objects.get r' with
      kind := .iceberg fields.afterSlice }).objects.alloc e.order).get r)
    rw [Heap.get_alloc_of_live _ _ hlive'']
    exact Order.moves_rewrite hlive' (.sliced _ hpending htype)
  | refuseSlice o => exact hcreated o
  | finish r' fields hlive' hpending htype =>
    exact ⟨hrewritten r' _, Order.moves_rewrite hlive' (.finished hpending htype)⟩
  | money => exact ⟨hlive, .amended (.refl _)⟩

theorem Order.along_trace {N : Numerics} {d d' : Desk} {es : List Execution} (Q : Order → Prop)
    (hstep : ∀ o o', Q o → o.Moves N o' → Q o') (htrace : Trace (AnyMove N) d es d') {r : Ref}
    (hlive : d.objects.Live r) (hq : Q (d.objects.get r)) : d'.objects.Live r ∧ Q (d'.objects.get r) := by
  apply htrace.invariant (fun d => d.objects.Live r ∧ Q (d.objects.get r)) _ ⟨hlive, hq⟩
  intro d _ d' h ⟨_, hmove⟩
  obtain ⟨hlive', hmoves⟩ := hmove.moves h.1
  exact ⟨hlive', hstep _ _ h.2 hmoves⟩

theorem Order.Moves.settled {N : Numerics} {o o' : Order} (h : o.Moves N o')
    (hsettled : o.status ≠ .pending) : o'.status = o.status ∧ o'.filledPrice = o.filledPrice := by
  cases h with
  | amended h =>
    rcases h.status with hsame | ⟨hpending, -⟩
    · exact ⟨hsame, h.filledPrice⟩
    · exact absurd hpending hsettled
  | executed _ hpending => exact absurd hpending hsettled
  | sliced _ hpending => exact absurd hpending hsettled
  | finished hpending => exact absurd hpending hsettled

theorem Order.RestsAt.keeps {o o' : Order} {price : ℚ} (h : o.RestsAt (.resting price))
    (hterms : o.SameTerms o') (hkind : o.kind.Keeps o'.kind) : o'.RestsAt (.resting price) := by
  rcases h with ⟨htype, hprice⟩ | ⟨htype, fields, hfields, hlimit⟩
  · exact Or.inl ⟨hterms.orderType.trans htype, hterms.price.trans hprice⟩
  · refine Or.inr ⟨hterms.orderType.trans htype, ?_⟩
    rw [hfields] at hkind
    cases hkind' : o'.kind with
    | stopLimit fields' =>
      rw [hkind'] at hkind
      have hsame : fields'.limitPrice = fields.limitPrice := hkind
      exact ⟨fields', rfl, hsame.trans hlimit⟩
    | plain => rw [hkind'] at hkind; exact hkind.elim
    | trailingStop _ => rw [hkind'] at hkind; exact hkind.elim
    | iceberg _ => rw [hkind'] at hkind; exact hkind.elim

theorem Order.RestsAt.unique {o : Order} {price price' : ℚ} (h : o.RestsAt (.resting price))
    (h' : o.RestsAt (.resting price')) : price' = price := by
  rcases h with ⟨htype, hprice⟩ | ⟨htype, fields, hfields, hlimit⟩
  · rcases h' with ⟨-, hprice'⟩ | ⟨htype', -⟩
    · exact Option.some.inj (hprice'.symm.trans hprice)
    · rw [htype] at htype'
      cases htype'
  · rcases h' with ⟨htype', -⟩ | ⟨-, fields', hfields', hlimit'⟩
    · rw [htype] at htype'
      cases htype'
    · rw [hfields, OrderKind.stopLimit.injEq] at hfields'
      rw [← hlimit, ← hlimit', hfields']

/-- A resting order that was filled was filled at its limit. -/
structure Order.FillsAt (N : Numerics) (limit : ℚ) (o : Order) : Prop where
  rests : o.RestsAt (.resting limit)
  recorded : o.status = .filled → o.filledPrice = N.roundPrice limit

theorem Order.RestsAt.orderType {o : Order} {price : ℚ} (h : o.RestsAt (.resting price)) :
    o.orderType ≠ .trailingStop ∧ o.orderType ≠ .iceberg := by
  rcases h with ⟨htype, -⟩ | ⟨htype, -⟩
  · rw [htype]
    decide
  · rw [htype]
    decide

theorem Order.FillsAt.moves {N : Numerics} {limit : ℚ} {o o' : Order} (h : o.FillsAt N limit)
    (hmoves : o.Moves N o') : o'.FillsAt N limit := by
  cases hmoves with
  | amended hamends =>
    refine ⟨h.rests.keeps hamends.terms hamends.kind, fun hfilled => ?_⟩
    rcases hamends.status with hsame | ⟨-, hopen⟩
    · exact hamends.filledPrice.trans (h.recorded (hsame.symm.trans hfilled))
    · exact absurd hfilled hopen
  | executed e hpending hterms hkind hcharged hbasis =>
    refine ⟨h.rests.keeps hterms (hkind ▸ .refl _), fun _ => ?_⟩
    obtain ⟨d, hcharged⟩ := hcharged
    rw [hcharged.recorded]
    cases hb : e.basis with
    | market _ => rw [hb] at hbasis; exact hbasis.elim
    | limit _ => rw [hb] at hbasis; exact hbasis.elim
    | resting price =>
      rw [hb] at hbasis
      rw [h.rests.unique hbasis]
      rfl
    | trailing _ =>
      rw [hb] at hbasis
      exact absurd hbasis h.rests.orderType.1
  | sliced _ _ htype => exact absurd htype h.rests.orderType.2
  | finished _ htype => exact absurd htype h.rests.orderType.2

theorem Order.Moves.iceberg {N : Numerics} {o o' : Order} (h : o.Moves N o')
    (htype : o.orderType = .iceberg) : o'.filledPrice = o.filledPrice := by
  cases h with
  | amended h => exact h.filledPrice
  | executed e hpending hterms hkind hcharged hbasis =>
    cases hb : e.basis with
    | market _ => rw [hb] at hbasis; exact hbasis.elim
    | limit _ => rw [hb] at hbasis; exact hbasis.elim
    | resting price =>
      rw [hb] at hbasis
      exact absurd htype hbasis.orderType.2
    | trailing _ =>
      rw [hb] at hbasis
      change o.orderType = .trailingStop at hbasis
      rw [htype] at hbasis
      cases hbasis
  | sliced => rfl
  | finished => rfl

/-! ### Slices -/

/-- Every slice was filled at the price of its iceberg, if that has one. -/
def Desk.SlicesAtLimit (N : Numerics) (es : List Execution) (d : Desk) : Prop :=
  ∀ e ∈ es, ∀ id, e.parentOrder = some id → ∃ r, d.objects.Live r ∧ (d.objects.get r).id = id ∧
    (d.objects.get r).orderType = .iceberg ∧
    ∀ limit, (d.objects.get r).price = some limit → e.order.filledPrice = N.roundPrice limit

theorem Desk.SlicesAtLimit.move {N : Numerics} {m : MarketView} {es last : List Execution} {d d' : Desk}
    (h : d.SlicesAtLimit N es) (hmove : Move N m d last d') : d'.SlicesAtLimit N (es ++ last) := by
  have hkept : ∀ e : Execution, ∀ id, (∃ r, d.objects.Live r ∧ (d.objects.get r).id = id ∧
      (d.objects.get r).orderType = .iceberg ∧ ∀ limit, (d.objects.get r).price = some limit →
        e.order.filledPrice = N.roundPrice limit) →
      ∃ r, d'.objects.Live r ∧ (d'.objects.get r).id = id ∧ (d'.objects.get r).orderType = .iceberg ∧
        ∀ limit, (d'.objects.get r).price = some limit →
          e.order.filledPrice = N.roundPrice limit := by
    intro e id ⟨r, hlive, hid, htype, hprice⟩
    obtain ⟨hlive', hmoves⟩ := hmove.moves hlive
    refine ⟨r, hlive', hmoves.terms.id.trans hid, hmoves.terms.orderType.trans htype, ?_⟩
    intro limit hlimit
    exact hprice limit (hmoves.terms.price.symm.trans hlimit)
  have hlast : ∀ e ∈ last, ∀ id, e.parentOrder = some id → ∃ r, d.objects.Live r ∧
      (d.objects.get r).id = id ∧ (d.objects.get r).orderType = .iceberg ∧
      ∀ limit, (d.objects.get r).price = some limit → e.order.filledPrice = N.roundPrice limit := by
    intro e he id hid
    cases hmove with
    | slice r fields e' hlive hpending htype hkind hhidden hnumber hplain horderType hside hcharged
        hparent hquantity price hbasis hprice =>
      obtain rfl := List.mem_singleton.mp he
      refine ⟨r, hlive, Option.some.inj (hparent.symm.trans hid), htype, ?_⟩
      intro limit hlimit
      rw [hcharged.recorded, hbasis, ← hprice limit hlimit]
      rfl
    | fillEntered e' stopLoss takeProfit hnumber hcharged hparent =>
      obtain rfl := List.mem_singleton.mp he
      rw [hparent] at hid
      cases hid
    | execute r e' hlive hpending hterms hkind hcharged hparent =>
      obtain rfl := List.mem_singleton.mp he
      rw [hparent] at hid
      cases hid
    | enter => exact absurd he List.not_mem_nil
    | amend => exact absurd he List.not_mem_nil
    | refuseSlice => exact absurd he List.not_mem_nil
    | finish => exact absurd he List.not_mem_nil
    | money => exact absurd he List.not_mem_nil
  intro e he id hid
  rcases List.mem_append.mp he with hold | hnew
  · exact hkept e id (h e hold id hid)
  · exact hkept e id (hlast e hnew id hid)

/-! ### Requests -/

namespace OrderRequest

/-- The limit price of a request, by its type. -/
def limit (req : OrderRequest) : Option ℚ :=
  match req.orderType with
  | .limit => req.price
  | .stopLimit => req.limitPrice
  | .iceberg => req.price
  | _ => none

/-- An order is recorded no worse than its limit: a limit order filled at once at the rounded average with
its part beyond the typical volume, an iceberg at zero. -/
def RecordsLimit (N : Numerics) (m : MarketView) (x : SimulatedExchange) (req : OrderRequest)
    (limit : ℚ) : Prop :=
  (req.orderType = .limit → req.FillsAtOnce m x limit →
    req.side.NotWorse limit (N.roundPrice (averagePrice limit req.side req.quantity))) ∧
  (req.orderType = .iceberg → req.side.NotWorse limit 0)

/-- A limit order that its submission fills has no part beyond the typical volume, and for an iceberg a
price of zero is no worse than its limit. -/
def KeepsLimit (m : MarketView) (x : SimulatedExchange) (req : OrderRequest) (limit : ℚ) : Prop :=
  (req.orderType = .limit → req.FillsAtOnce m x limit → req.quantity ≤ typicalVolume) ∧
  (req.orderType = .iceberg → req.side.NotWorse limit 0)

variable {N : Numerics} {m : MarketView} {x : SimulatedExchange} {req : OrderRequest} {limit : ℚ}
  {d d' : Desk} {es : List Execution}

theorem Enters.recorded {o : Order} (h : req.Enters m x o) (hlimit : req.limit = some limit)
    (hgrid : N.roundPrice limit = limit) (htrace : Trace (AnyMove N) (x.desk.enter o) es d')
    (hfilled : (d'.objects.get x.orders.objects.next).status = .filled) :
    (req.orderType = .limit → ¬ req.FillsAtOnce m x limit) ∧
    (d'.objects.get x.orders.objects.next).filledPrice =
      if req.orderType = .iceberg then 0 else limit := by
  have hlive : (x.desk.enter o).objects.Live x.orders.objects.next :=
    (Heap.live_alloc _ _ _).mpr (Or.inr rfl)
  have hget : (x.desk.enter o).objects.get x.orders.objects.next = o := Heap.get_alloc_next _ _
  have htype : o.orderType = req.orderType := h.terms.orderType
  have hprice : o.price = req.price := h.terms.price
  have hpending : o.status = .pending := by
    by_contra hsettled
    have hkept := Order.along_trace (fun o' => o'.status = o.status)
      (fun o' o'' ho' hmoves =>
        (hmoves.settled (ho'.symm ▸ hsettled)).1.trans ho') htrace hlive (congrArg _ hget)
    exact h.entered.status (hkept.2.symm.trans hfilled)
  obtain ⟨kind, hcreated, hkeeps⟩ := h.kind hpending
  by_cases hiceberg : req.orderType = .iceberg
  · rw [if_pos hiceberg]
    refine ⟨fun hlimitType => ?_, ?_⟩
    · rw [hiceberg] at hlimitType
      cases hlimitType
    · apply (Order.along_trace (fun o' => o'.orderType = .iceberg ∧ o'.filledPrice = 0) _ htrace
        hlive _).2.2
      · intro o' o'' ho' hmoves
        exact ⟨hmoves.terms.orderType.trans ho'.1, (hmoves.iceberg ho'.1).trans ho'.2⟩
      · rw [hget]
        exact ⟨htype.trans hiceberg, h.entered.filledPrice⟩
  · rw [if_neg hiceberg]
    have hrests : o.RestsAt (.resting limit) ∧
        (req.orderType = .limit → ¬ req.FillsAtOnce m x limit) := by
      unfold OrderRequest.limit at hlimit
      cases hreq : req.orderType with
      | limit =>
        rw [hreq] at hlimit
        exact ⟨Or.inl ⟨htype.trans hreq, hprice.trans hlimit⟩,
          fun _ => h.waits hpending hreq limit hlimit⟩
      | stopLimit =>
        rw [hreq] at hlimit
        refine ⟨Or.inr ⟨htype.trans hreq, ?_⟩, fun hc => by cases hc⟩
        simp only [createKind, hreq, hlimit] at hcreated
        cases hstop : req.stopPrice with
        | none => simp [hstop] at hcreated
        | some stopPrice =>
          simp only [hstop, Option.some.injEq] at hcreated
          rw [← hcreated] at hkeeps
          cases hkind : o.kind with
          | stopLimit fields =>
            rw [hkind] at hkeeps
            exact ⟨fields, rfl, hkeeps⟩
          | plain => rw [hkind] at hkeeps; exact hkeeps.elim
          | trailingStop _ => rw [hkind] at hkeeps; exact hkeeps.elim
          | iceberg _ => rw [hkind] at hkeeps; exact hkeeps.elim
      | iceberg => exact absurd hreq hiceberg
      | market => rw [hreq] at hlimit; cases hlimit
      | trailingStop => rw [hreq] at hlimit; cases hlimit
      | oco => rw [hreq] at hlimit; cases hlimit
    have hfills : o.FillsAt N limit := by
      refine ⟨hrests.1, fun hnow => ?_⟩
      rw [hpending] at hnow
      cases hnow
    have hend := Order.along_trace (Order.FillsAt N limit) (fun _ _ => Order.FillsAt.moves) htrace
      hlive (hget.symm ▸ hfills)
    exact ⟨hrests.2, (hend.2.recorded hfilled).trans hgrid⟩

theorem Fills.recorded {e : Execution} {stopLoss takeProfit : Option ℚ} (h : req.Fills N m x e)
    (hlimit : req.limit = some limit)
    (htrace : Trace (AnyMove N) ((x.desk.enter e.order).book N m e stopLoss takeProfit) es d') :
    (req.orderType = .limit ∧ req.FillsAtOnce m x limit) ∧
    (d'.objects.get x.orders.objects.next).filledPrice =
      N.roundPrice (averagePrice limit req.side req.quantity) := by
  have htype : req.orderType = .limit := by
    rcases h.immediate with hnone | hlimitType
    · cases hreq : req.orderType with
      | limit => rfl
      | market => rw [OrderRequest.limit, hreq] at hlimit; cases hlimit
      | oco => rw [OrderRequest.limit, hreq] at hlimit; cases hlimit
      | stopLimit => rw [hreq] at hnone; cases hnone
      | trailingStop => rw [hreq] at hnone; cases hnone
      | iceberg => rw [hreq] at hnone; cases hnone
    · exact hlimitType
  have hprice : req.price = some limit := by
    rw [OrderRequest.limit, htype] at hlimit
    exact hlimit
  have hbasis : e.basis = .limit limit := by
    have hfrom := h.basis
    have heprice : e.order.price = some limit := h.terms.price.trans hprice
    cases hb : e.basis with
    | market _ =>
      rw [hb] at hfrom
      have hnone := hfrom (h.terms.orderType.trans htype)
      rw [heprice] at hnone
      cases hnone
    | limit price =>
      rw [hb] at hfrom
      have hsame := hfrom.2.symm.trans heprice
      rw [Option.some.inj hsame]
    | resting _ => rw [hb] at hfrom; exact hfrom.elim
    | trailing _ => rw [hb] at hfrom; exact hfrom.elim
  have hlive : ((x.desk.enter e.order).book N m e stopLoss takeProfit).objects.Live
      x.orders.objects.next := (Heap.live_alloc _ _ _).mpr (Or.inr rfl)
  have hget : ((x.desk.enter e.order).book N m e stopLoss takeProfit).objects.get
      x.orders.objects.next = e.order := Heap.get_alloc_next _ _
  have hkept := Order.along_trace
    (fun o => o.status = .filled ∧ o.filledPrice = e.order.filledPrice)
    (fun o o' ho hmoves => by
      have hsettled := hmoves.settled (ho.1.symm ▸ by decide)
      exact ⟨hsettled.1.trans ho.1, hsettled.2.trans ho.2⟩) htrace hlive
    (hget.symm ▸ ⟨h.charged.status, rfl⟩)
  refine ⟨⟨htype, h.taken htype limit hprice⟩, ?_⟩
  have hside : e.order.side = req.side := h.terms.side
  rw [hkept.2.2, h.charged.recorded, hbasis, h.whole, hside]
  rfl

theorem Submits.terms {x' : SimulatedExchange} (h : req.Submits N m x x')
    (hlater : Trace (AnyMove N) x'.desk es d') : d'.objects.Live x.orders.objects.next ∧
    (d'.objects.get x.orders.objects.next).id = orderId x.orders.orderCounter ∧
    (d'.objects.get x.orders.objects.next).orderType = req.orderType ∧
    (d'.objects.get x.orders.objects.next).price = req.price := by
  obtain ⟨d, hrest, hsubmitted⟩ := h
  have hkept : ∀ o : Order, d.objects.Live x.orders.objects.next →
      d.objects.get x.orders.objects.next = o → o.id = orderId x.orders.orderCounter →
      (req.plainOrder o.id x.exchangeId).SameTerms o → _ := fun o hlive hget hid hterms =>
    Order.along_trace (fun o => o.id = orderId x.orders.orderCounter ∧ o.orderType = req.orderType ∧
        o.price = req.price)
      (fun o o' ho hmoves => ⟨hmoves.terms.id.trans ho.1, hmoves.terms.orderType.trans ho.2.1,
        hmoves.terms.price.trans ho.2.2⟩)
      ((Move.any hrest).trans_left hlater) hlive (hget.symm ▸ ⟨hid, hterms.orderType, hterms.price⟩)
  rcases hsubmitted with ⟨o, henters, rfl⟩ | ⟨e, hfills, rfl⟩
  · exact hkept o ((Heap.live_alloc _ _ _).mpr (Or.inr rfl)) (Heap.get_alloc_next _ _) henters.number
      henters.terms
  · exact hkept e.order ((Heap.live_alloc _ _ _).mpr (Or.inr rfl)) (Heap.get_alloc_next _ _)
      hfills.number hfills.terms

/-- An order that is filled some time after its submission is recorded no worse than its limit exactly
when its request records the limit. -/
theorem Submits.notWorse_iff {x' : SimulatedExchange} (h : req.Submits N m x x')
    (hlimit : req.limit = some limit) (hgrid : N.roundPrice limit = limit)
    (hlater : Trace (AnyMove N) x'.desk es d')
    (hfilled : (d'.objects.get x.orders.objects.next).status = .filled) :
    req.side.NotWorse limit (d'.objects.get x.orders.objects.next).filledPrice ↔
      req.RecordsLimit N m x limit := by
  obtain ⟨d, hrest, ⟨o, henters, rfl⟩ | ⟨e, hfills, rfl⟩⟩ := h
  · obtain ⟨hwaits, hrecorded⟩ :=
      henters.recorded hlimit hgrid ((Move.any hrest).trans_left hlater) hfilled
    rw [hrecorded]
    by_cases hiceberg : req.orderType = .iceberg
    · rw [if_pos hiceberg]
      constructor
      · exact fun hzero => ⟨fun htype htaken => absurd htaken (hwaits htype), fun _ => hzero⟩
      · exact fun hkeeps => hkeeps.2 hiceberg
    · rw [if_neg hiceberg]
      exact iff_of_true (.refl _ _) ⟨fun htype htaken => absurd htaken (hwaits htype),
        fun htype => absurd htype hiceberg⟩
  · obtain ⟨⟨htype, htaken⟩, hrecorded⟩ := hfills.recorded hlimit ((Move.any hrest).trans_left hlater)
    rw [hrecorded]
    constructor
    · refine fun hkept => ⟨fun _ _ => hkept, fun hiceberg => ?_⟩
      rw [htype] at hiceberg
      cases hiceberg
    · exact fun hkeeps => hkeeps.1 htype htaken

theorem RecordsLimit.of_keepsLimit (h : req.KeepsLimit m x limit) (hgrid : N.roundPrice limit = limit) :
    req.RecordsLimit N m x limit := by
  refine ⟨fun htype htaken => ?_, h.2⟩
  rw [averagePrice, if_pos (h.1 htype htaken), hgrid]
  exact .refl _ _

/-- A rounding that moves prices by little keeps the limit only where the average exceeds it by
little. -/
theorem RecordsLimit.average {ε : ℚ} (h : req.RecordsLimit N m x limit) (htype : req.orderType = .limit)
    (htaken : req.FillsAtOnce m x limit) (hε : ∀ price, |N.roundPrice price - price| ≤ ε) :
    req.side.NotWorse limit (averagePrice limit req.side req.quantity - req.side.signed ε) := by
  have hkept := h.1 htype htaken
  have hnear := abs_le.mp (hε (averagePrice limit req.side req.quantity))
  cases hside : req.side with
  | buy =>
    simp only [hside, Side.NotWorse, Side.signed] at hkept hnear ⊢
    linarith
  | sell =>
    simp only [hside, Side.NotWorse, Side.signed] at hkept hnear ⊢
    linarith

end OrderRequest

/-! ### Runs -/

namespace SimulatedExchange

/-- An order and its slices are recorded no worse than the limit exactly when its request records it. -/
theorem Sound.notWorse_iff {N : Numerics} {x y : SimulatedExchange} {opening limit : ℚ}
    {later : List (MarketView × Operation)} {m : MarketView} {req : OrderRequest}
    {es : List Execution} (hx : x.Sound opening)
    (hy : y = Foundations.run (SimulatedExchange.step N) (x.step N (m, .submitOrder req)) later)
    (hnumbered : y.desk.Numbered) (hat : y.desk.SlicesAtLimit N es) (hlimit : req.limit = some limit)
    (hgrid : N.roundPrice limit = limit)
    (hfilled : (y.orders.get x.orders.objects.next).status = .filled) :
    (req.side.NotWorse limit (y.orders.get x.orders.objects.next).filledPrice ∧
      ∀ e ∈ es, e.parentOrder = some (y.orders.get x.orders.objects.next).id →
        req.side.NotWorse limit e.order.filledPrice) ↔ req.RecordsLimit N m x limit := by
  obtain ⟨es', hlater⟩ := (hx.step (m, .submitOrder req)).executes_run (N := N) later
  rw [← hy] at hlater
  have hsubmits : req.Submits N m x (x.step N (m, .submitOrder req)) := submits_submitOrder x req
  obtain ⟨hlive, hid, htype, hprice⟩ := hsubmits.terms hlater
  have hslices : ∀ e ∈ es, e.parentOrder = some (y.orders.get x.orders.objects.next).id →
      e.order.filledPrice = limit := by
    intro e he hparent
    obtain ⟨r, hrlive, hrid, hrtype, hrprice⟩ := hat e he _ hparent
    have hsame : r = x.orders.objects.next :=
      hnumbered.unique r _ _ hrlive hlive (hrid.trans hid) hid
    rw [hsame] at hrtype hrprice
    have hiceberg : req.orderType = .iceberg := htype.symm.trans hrtype
    have hreq : req.price = some limit := by
      rw [OrderRequest.limit, hiceberg] at hlimit
      exact hlimit
    exact (hrprice limit (hprice.trans hreq)).trans hgrid
  have hown := hsubmits.notWorse_iff hlimit hgrid hlater hfilled
  refine Iff.trans (and_iff_left fun e he hparent => ?_) hown
  rw [hslices e he hparent]
  exact .refl _ _

variable (N : Numerics) (exchangeId currency : String)
  (feePct slippageBps initialBalance leverage : ℚ)

/-- In every run an order that was submitted with a limit on the grid and is filled, with its slices, is
recorded no worse than the limit if its request keeps the limit. An iceberg is only then, and a limit order
filled at once only if `round_price` may move its average back to the limit. -/
theorem limit_protected_of_keepsLimit (calls later : List (MarketView × Operation)) (m : MarketView)
    (req : OrderRequest) (limit : ℚ) (hlimit : req.limit = some limit)
    (hgrid : N.roundPrice limit = limit) :
    let x := after N exchangeId currency feePct slippageBps initialBalance leverage calls
    let y := after N exchangeId currency feePct slippageBps initialBalance leverage
      (calls ++ (m, .submitOrder req) :: later)
    let o := y.orders.get x.orders.objects.next
    o.status = .filled →
    ∃ es, (init exchangeId feePct slippageBps initialBalance leverage currency).ExecutesOver N es y ∧
      let kept := req.side.NotWorse limit o.filledPrice ∧
        ∀ e ∈ es, e.parentOrder = some o.id → req.side.NotWorse limit e.order.filledPrice
      (req.KeepsLimit m x limit → kept) ∧
      (kept → (req.orderType = .iceberg → req.side.NotWorse limit 0) ∧
        ∀ ε, (∀ price, |N.roundPrice price - price| ≤ ε) → req.orderType = .limit →
          req.FillsAtOnce m x limit →
          req.side.NotWorse limit (averagePrice limit req.side req.quantity - req.side.signed ε)) := by
  intro x y o hfilled
  have hx : x.Sound initialBalance :=
    sound_after N exchangeId currency feePct slippageBps initialBalance leverage calls
  have hy : y = Foundations.run (step N) (x.step N (m, .submitOrder req)) later :=
    run_append (step N) _ calls ((m, .submitOrder req) :: later)
  obtain ⟨es, hes⟩ := (sound_init exchangeId feePct slippageBps initialBalance leverage
    currency).executes_run (N := N) (calls ++ (m, .submitOrder req) :: later)
  have hat : y.desk.SlicesAtLimit N es :=
    hes.history (Desk.SlicesAtLimit N) (fun _ _ _ _ h ⟨_, hmove⟩ => h.move hmove)
      fun _ he => absurd he List.not_mem_nil
  have hnumbered : y.desk.Numbered :=
    (desk_balanced N exchangeId currency feePct slippageBps initialBalance leverage _).numbered
  have hrecorded := hx.notWorse_iff hy hnumbered hat hlimit hgrid hfilled
  refine ⟨es, hes, fun hkeeps => hrecorded.mpr (.of_keepsLimit hkeeps hgrid), fun hkept => ?_⟩
  have hrecords := hrecorded.mp hkept
  exact ⟨hrecords.2, fun ε hε htype htaken => hrecords.average htype htaken hε⟩

/-- A purchase of two thousand units with a limit. -/
def limitPurchase (limit : ℚ) : OrderRequest where
  symbol := "BTC"
  side := .buy
  quantity := 2000
  orderType := .limit
  price := some limit

/-- With the market above its limit it rests, and a sweep fills it at the limit. -/
theorem limit_protected_resting :
    let x := after Numerics.decimal "binance" "USDT" (1 / 10) 5 1000000 10 []
    let y := after Numerics.decimal "binance" "USDT" (1 / 10) 5 1000000 10
      ([] ++ (flatMarket 102, .submitOrder (limitPurchase 100)) ::
        [(flatMarket 99, .checkAdvancedOrders)])
    let o := y.orders.get x.orders.objects.next
    o.status = .filled ∧ Side.NotWorse .buy 100 o.filledPrice := by
  intro x y o
  have hfilled : o.status = .filled := by decide +kernel
  have hwaits : ¬ (limitPurchase 100).FillsAtOnce (flatMarket 102) x 100 := by
    intro htaken
    exact absurd htaken.1 (by decide +kernel)
  obtain ⟨es, -, hkeeps, -⟩ := limit_protected_of_keepsLimit Numerics.decimal "binance" "USDT" (1 / 10) 5
    1000000 10 [] [(flatMarket 99, .checkAdvancedOrders)] (flatMarket 102) (limitPurchase 100) 100 rfl
    (by decide +kernel) hfilled
  exact ⟨hfilled, (hkeeps ⟨fun _ htaken => absurd htaken hwaits, fun htype => by cases htype⟩).1⟩

/-- With the market below its limit it is filled at once, at a price above the limit. -/
theorem not_limit_protected_immediate :
    let x := after Numerics.decimal "binance" "USDT" (1 / 10) 5 1000000 10
      [(flatMarket 99, .submitOrder (limitPurchase 100))]
    Numerics.decimal.roundPrice 100 = 100 ∧ (x.orders.get 0).price = some 100 ∧
      (x.orders.get 0).status = .filled ∧ (x.orders.get 0).filledPrice = 10006 / 100 ∧
      ¬ Side.NotWorse .buy 100 (x.orders.get 0).filledPrice := by
  decide +kernel

end SimulatedExchange

end TradingSim.Exchange
