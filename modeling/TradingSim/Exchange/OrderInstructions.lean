import TradingSim.Exchange.Operations

/-!
# What a call does to the orders of an exchange

An order's type, its group, its time in force, its expiry and post-only come with the request. What
an exchange does later writes the status and the bookkeeping of its orders, their class fields and
nothing else.
-/

namespace TradingSim.Exchange

open Foundations

def Order.instructions (o : Order) : OrderType × Option String × String × Option ℚ × Bool :=
  (o.orderType, o.ocoGroupId, o.timeInForce, o.expireTs, o.postOnly)

namespace OrderTable

/-- Every order of one table is in the other with the same instructions, left alone or cancelled unless it
may be written; one that was returned by a submission still is. No order enters a pending book but those
that may. -/
structure Writes (written enters : Ref → Prop) (t t' : OrderTable) : Prop where
  order : ∀ r, t.objects.Live r →
    t'.objects.Live r ∧ (t'.get r).instructions = (t.get r).instructions ∧
      (¬ written r → t'.get r = t.get r ∨ t'.get r = { t.get r with status := .cancelled })
  accepted : t.accepted ⊆ t'.accepted
  entry : ∀ book, ∀ e ∈ (t'.pending book).entries, e ∈ (t.pending book).entries ∨ enters e.2

/-- No order enters a book. -/
def Nobody (_ : Ref) : Prop := False

variable {t t' t'' : OrderTable} {W W' E E' : Ref → Prop} {r r' : Ref}

theorem Writes.refl (t : OrderTable) : Writes W E t t :=
  ⟨fun _ hr => ⟨hr, rfl, fun _ => Or.inl rfl⟩, List.Subset.refl _, fun _ _ he => Or.inl he⟩

theorem Writes.trans (h : Writes W E t t') (h' : Writes W E t' t'') : Writes W E t t'' where
  order := by
    intro r hr
    obtain ⟨hlive, heq, hkept⟩ := h.order r hr
    obtain ⟨hlive', heq', hkept'⟩ := h'.order r hlive
    refine ⟨hlive', heq'.trans heq, fun hW => ?_⟩
    have hagain := hkept' hW
    rcases hkept hW with hget | hget
    · rwa [hget] at hagain
    · rw [hget] at hagain
      exact Or.inr (hagain.elim id id)
  accepted := fun _ hr => h'.accepted (h.accepted hr)
  entry := fun book e he => (h'.entry book e he).elim (h.entry book e) Or.inr

theorem Writes.mono (h : Writes W E t t') (hW : ∀ r, t.objects.Live r → W r → W' r)
    (hE : ∀ r, E r → E' r) : Writes W' E' t t' where
  order := fun r hr =>
    have ⟨hlive, heq, hkept⟩ := h.order r hr
    ⟨hlive, heq, fun hnot => hkept fun hr' => hnot (hW r hr hr')⟩
  accepted := h.accepted
  entry := fun book e he => (h.entry book e he).imp_right (hE e.2)

theorem Writes.kept (h : Writes W E t t') (hr : t.objects.Live r) (hW : ¬ W r) :
    t'.get r = t.get r ∨ t'.get r = { t.get r with status := .cancelled } := (h.order r hr).2.2 hW

/-- If it ends up with another status than cancelled, it was left alone. -/
theorem Writes.get_eq (h : Writes W E t t') (hr : t.objects.Live r) (hW : ¬ W r)
    (hstatus : (t'.get r).status ≠ .cancelled) : t'.get r = t.get r := by
  rcases h.kept hr hW with hget | hget
  · exact hget
  · rw [hget] at hstatus
    exact absurd rfl hstatus

theorem Writes.of_objects (hobjects : t'.objects = t.objects) (haccepted : t.accepted ⊆ t'.accepted)
    (hpending : t'.pending = t.pending) : Writes W E t t' where
  order := by
    intro r hr
    rw [get, get, hobjects]
    exact ⟨hr, rfl, fun _ => Or.inl rfl⟩
  accepted := haccepted
  entry := fun book e he => Or.inl (hpending ▸ he)

theorem Writes.of_modify {f : Order → Order} (hobjects : t'.objects = t.objects.modify r f)
    (haccepted : t'.accepted = t.accepted) (hpending : t'.pending = t.pending)
    (hf : ∀ o : Order, (f o).instructions = o.instructions)
    (hW : ¬ W r → ∀ o, f o = { o with status := .cancelled }) : Writes W E t t' where
  order := by
    intro r' hr'
    rw [get, get, hobjects]
    refine ⟨(Heap.live_modify _ _ _ _).mpr hr', ?_⟩
    by_cases heq : r' = r
    · subst heq
      rw [Heap.get_modify_self _ hr', hf]
      exact ⟨rfl, fun hnot => Or.inr (hW hnot _)⟩
    · rw [Heap.get_modify_of_ne _ heq]
      exact ⟨rfl, fun _ => Or.inl rfl⟩
  accepted := by rw [haccepted]; exact List.Subset.refl _
  entry := fun book e he => Or.inl (hpending ▸ he)

/-- A new order leaves the others alone. -/
theorem Writes.of_alloc {o : Order} (hobjects : t'.objects = t.objects.alloc o)
    (haccepted : t'.accepted = t.accepted) (hpending : t'.pending = t.pending) : Writes W E t t' where
  order := by
    intro r hr
    rw [get, get, hobjects, Heap.get_alloc_of_live _ _ hr]
    exact ⟨(Heap.live_alloc _ _ _).mpr (Or.inl hr), rfl, fun _ => Or.inl rfl⟩
  accepted := by rw [haccepted]; exact List.Subset.refl _
  entry := fun book e he => Or.inl (hpending ▸ he)

theorem Writes.foldl {σ α : Type*} (table : σ → OrderTable) {step : σ → α → σ} {as : List α}
    (hstep : ∀ s, ∀ a ∈ as, Writes W E (table s) (table (step s a))) (s : σ) :
    Writes W E (table s) (table (as.foldl step s)) := by
  induction as generalizing s with
  | nil => exact .refl _
  | cons a rest ih =>
    exact (hstep s a List.mem_cons_self).trans
      (ih (fun s a ha => hstep s a (List.mem_cons_of_mem _ ha)) (step s a))

/-! ### The operations of a table -/

theorem writes_create (t : OrderTable) (o : Order) : Writes W E t (t.create o) := .of_alloc rfl rfl rfl

theorem writes_issue (t : OrderTable) (o : Order) : Writes W E t (t.issue o) := .of_alloc rfl rfl rfl

theorem writes_update (t : OrderTable) (hr : W r) {f : Order → Order}
    (hf : ∀ o : Order, (f o).instructions = o.instructions) : Writes W E t (t.update r f) :=
  .of_modify rfl rfl rfl hf (absurd hr)

theorem writes_cancel (t : OrderTable) (r : Ref) : Writes W E t (t.setStatus r .cancelled) :=
  .of_modify rfl rfl rfl (fun _ => rfl) fun _ _ => rfl

theorem writes_conclude (t : OrderTable) (hr : W r) (status : OrderStatus) (reason : String) :
    Writes W E t (t.conclude r status reason) :=
  .of_modify (objects_conclude t r status reason) rfl rfl (fun _ => rfl) (absurd hr)

theorem writes_fill (t : OrderTable) (hr : W r) (status : OrderStatus) {f : Order → Order}
    (hf : ∀ o : Order, (f o).instructions = o.instructions) :
    Writes W E t ((t.setStatus r status).update r f) :=
  .of_modify (objects_update_setStatus _ _ _ _) rfl rfl (fun _ => hf _) (absurd hr)

theorem writes_popPending (t : OrderTable) (book : PendingBook) (id : String) :
    Writes W E t (t.popPending book id) where
  order := fun _ hr => ⟨hr, rfl, fun _ => Or.inl rfl⟩
  accepted := List.Subset.refl _
  entry := by
    intro book' e he
    change e ∈ (Function.update t.pending book ((t.pending book).erase id) book').entries at he
    left
    by_cases heq : book' = book
    · subst heq
      rw [Function.update_self, Dict.mem_erase_entries] at he
      exact he.2
    · rwa [Function.update_of_ne heq] at he

theorem writes_record (t : OrderTable) (r : Ref) : Writes W E t (t.record r) :=
  .of_objects rfl (List.Subset.refl _) rfl

theorem writes_accept (t : OrderTable) (r : Ref) : Writes W E t (t.accept r) :=
  .of_objects rfl (List.subset_append_left _ _) rfl

theorem writes_rest (t : OrderTable) (hr : W r) (hE : E r) (book : PendingBook) :
    Writes W E t (t.rest r book) where
  order :=
    have hstatus : Writes W E t (t.setStatus r .pending) :=
      .of_modify rfl rfl rfl (fun _ => rfl) (absurd hr)
    hstatus.order
  accepted := List.Subset.refl _
  entry := by
    intro book' e he
    change e ∈ (Function.update t.pending book ((t.pending book).insert _ r) book').entries at he
    by_cases heq : book' = book
    · subst heq
      rw [Function.update_self, Dict.mem_insert_entries] at he
      exact (he.imp (fun hnew => hnew.2 ▸ hE) And.right).symm
    · rw [Function.update_of_ne heq] at he
      exact Or.inl he

theorem writes_joinGroup (t : OrderTable) (r : Ref) : Writes W E t (t.joinGroup r) := by
  unfold joinGroup
  split
  · exact .refl t
  · exact .of_objects rfl (List.Subset.refl _) rfl

theorem writes_resolveOco (t : OrderTable) (r : Ref) : Writes W E t (t.resolveOco r) := by
  have hpop : ∀ (t : OrderTable) (r' : Ref), Writes W E t (t.popEverywhere r') :=
    fun t r' => .foldl id (fun t' book _ => t'.writes_popPending book _) t
  have hpops : ∀ (rs : List Ref) (t : OrderTable), Writes W E t (rs.foldl popEverywhere t) :=
    fun rs t => .foldl id (fun t r' _ => hpop t r') t
  unfold resolveOco
  split
  · exact .refl t
  · split
    · exact .refl t
    · split
      · exact .refl t
      · rename_i group _ _
        have hcancel : ∀ (acc : OrderTable × List Ref), ∀ r' ∈ group.orders,
            Writes W E acc.1 (cancelSibling (t.get r).id acc r').1 := by
          intro acc r' _
          unfold cancelSibling
          split
          · exact writes_cancel _ _
          · exact .refl _
        refine (Writes.foldl Prod.fst hcancel (t, [])).trans (Writes.trans ?_ (hpops _ _))
        exact .of_objects rfl (List.Subset.refl _) rfl

end OrderTable

namespace SimulatedExchange

open OrderTable (Writes)

variable {N : Numerics} {m : MarketView} {W E : Ref → Prop} {r : Ref}

/-! ### Submissions -/

theorem instructions_applyPartialFill (N : Numerics) (fillPrice midPrice : ℚ) (side : Side)
    (quantity : ℚ) (o : Order) :
    (applyPartialFill N fillPrice midPrice side quantity o).instructions = o.instructions := by
  unfold applyPartialFill
  split
  · rfl
  · dsimp only
    split
    · rfl
    · rfl

variable (x : SimulatedExchange) (s : Sweep)

theorem writes_fillMarketOrder (hr : W r) (req : OrderRequest) (marketFillPrice midPrice : ℚ) :
    Writes W E x.orders (x.fillMarketOrder N m r req marketFillPrice midPrice).orders := by
  unfold fillMarketOrder
  dsimp only
  split
  · exact OrderTable.writes_conclude _ hr _ _
  · apply Writes.trans _ (OrderTable.writes_resolveOco _ _)
    apply Writes.trans _ (OrderTable.writes_record _ _)
    exact OrderTable.writes_fill _ hr _ fun o => instructions_applyPartialFill ..

theorem instructions_startTrail (side : Side) (midPrice : ℚ) (o : Order) :
    (startTrail side midPrice o).instructions = o.instructions := by
  unfold startTrail
  split
  · rfl
  · rfl

/-- The order is placed to rest: no market order, and a limit order only where its limit says so. -/
def Rests (x : SimulatedExchange) (m : MarketView) (r : Ref) (req : OrderRequest) : Prop :=
  req.orderType ≠ .market ∧ (req.orderType = .limit → ∃ price,
    decideLimit m (x.orders.get r) price
      (x.calculateFillPrice (m.price req.symbol) req.side req.quantity) = .rest)

theorem writes_placeOrder {x y : SimulatedExchange} {req : OrderRequest}
    (h : x.placeOrder N m r req = some y) (hr : W r) (hE : x.Rests m r req → E r) :
    Writes W E x.orders y.orders := by
  cases placing_of_placeOrder h with
  | conclude => exact OrderTable.writes_conclude _ hr _ _
  | fill => exact writes_fillMarketOrder _ hr _ _ _
  | rest hbook _ hwaits =>
    have hmarket : req.orderType ≠ .market := fun htype => by
      rw [htype] at hbook
      cases hbook
    refine OrderTable.writes_rest _ hr (hE ⟨hmarket, fun htype => ?_⟩) _
    obtain ⟨price, -, hrest⟩ := hwaits htype
    exact ⟨price, hrest⟩
  | trail htype =>
    apply Writes.trans _ (OrderTable.writes_rest _ hr (hE (by simp [Rests, htype])) _)
    exact OrderTable.writes_update _ hr (instructions_startTrail req.side (m.price req.symbol))

theorem writes_enter (t : OrderTable) (o : Order) (r : Ref) :
    Writes W E t ((t.issue o).joinGroup r) :=
  (OrderTable.writes_issue t o).trans (OrderTable.writes_joinGroup _ _)

theorem writes_submitOrder (req : OrderRequest) (hE : ∀ r, req.orderType ≠ .market → E r) :
    Writes W E x.orders (x.submitOrder N m req).1.orders := by
  apply Writes.mono (W := fun r => ¬ x.orders.objects.Live r) (E := E) _
    (fun r hr hnot => absurd hr hnot) fun _ => id
  have hnew : ¬ x.orders.objects.Live x.orders.objects.next := fun hlive => hlive.ne_next rfl
  unfold submitOrder
  dsimp only
  split
  · apply Writes.trans _ (OrderTable.writes_accept _ _)
    exact (OrderTable.writes_issue _ _).trans (OrderTable.writes_conclude _ hnew _ _)
  · rename_i order _
    split
    · apply Writes.trans _ (OrderTable.writes_accept _ _)
      exact (writes_enter _ order _).trans (OrderTable.writes_conclude _ hnew _ _)
    · split
      · rename_i placed hplaced
        apply Writes.trans _ (OrderTable.writes_accept _ _)
        apply (writes_enter x.orders order x.orders.objects.next).trans
        exact writes_placeOrder hplaced hnew fun hrests => hE _ hrests.1
      · exact writes_enter _ _ _

/-! ### Sweeps -/

theorem writes_executeLimitOrder (hr : W r) (price : ℚ) :
    Writes W E x.orders (x.executeLimitOrder N m r price).orders := by
  unfold executeLimitOrder
  split
  · exact OrderTable.writes_conclude _ hr _ _
  · apply Writes.trans _ (OrderTable.writes_resolveOco _ r)
    exact OrderTable.writes_fill _ hr _ fun _ => rfl

theorem writes_executeMarketOrder (hr : W r) (price : ℚ) :
    Writes W E x.orders (x.executeMarketOrder N m r price).orders := by
  unfold executeMarketOrder
  dsimp only
  split
  · exact OrderTable.writes_conclude _ hr _ _
  · apply Writes.trans _ (OrderTable.writes_resolveOco _ r)
    exact OrderTable.writes_fill _ hr _ fun _ => rfl

theorem writes_executeIcebergSlice (hr : W r) (hslice : W x.orders.objects.next)
    (fields : IcebergFields) (price : ℚ) :
    Writes W E x.orders (x.executeIcebergSlice N m r fields price).1.orders := by
  have hcreate : Writes W E x.orders (x.orders.create _) := OrderTable.writes_create x.orders
    (x.createIcebergSliceOrder N (x.orders.get r) fields price)
  unfold executeIcebergSlice
  dsimp only
  split
  · exact hcreate.trans (OrderTable.writes_conclude _ hslice _ _)
  · generalize x.orders.create _ = created at hcreate
    have hshow : Writes W E created
        (created.update r fun o => { o with kind := .iceberg fields.afterSlice }) :=
      OrderTable.writes_update _ hr fun _ => rfl
    apply (hcreate.trans hshow).trans
    exact .of_modify (OrderTable.objects_update_setStatus _ _ _ _) rfl rfl (fun _ => rfl)
      (absurd hslice)

theorem writes_checkLimit (id : String) (hr : W r) :
    Writes W E s.exchange.orders (s.checkLimit N m r id).exchange.orders := by
  unfold Sweep.checkLimit
  dsimp only
  split
  · exact OrderTable.writes_fill _ hr _ fun _ => rfl
  · split
    · exact .refl _
    · split
      · exact .refl _
      · split
        · exact writes_executeLimitOrder _ hr _
        · exact .refl _

theorem writes_checkStopLimit (id : String) (hr : W r) :
    Writes W E s.exchange.orders (s.checkStopLimit N m r id).exchange.orders := by
  unfold Sweep.checkStopLimit
  dsimp only
  split
  · exact .refl _
  · split
    · split
      · apply Writes.trans _ (writes_executeLimitOrder _ hr _)
        exact OrderTable.writes_update _ hr fun _ => rfl
      · exact OrderTable.writes_update _ hr fun _ => rfl
    · exact .refl _

theorem writes_checkTrailingStop (id : String) (hr : W r) :
    Writes W E s.exchange.orders (s.checkTrailingStop N m r id).exchange.orders := by
  unfold Sweep.checkTrailingStop
  dsimp only
  split
  · exact .refl _
  · split
    · split
      · apply Writes.trans _ (writes_executeMarketOrder _ hr _)
        exact OrderTable.writes_update _ hr fun _ => rfl
      · exact OrderTable.writes_update _ hr fun _ => rfl
    · exact .refl _

theorem writes_finishIceberg (id : String) (hr : W r) :
    Writes W E s.exchange.orders (s.finishIceberg r id).exchange.orders := by
  unfold Sweep.finishIceberg
  split
  · split
    · apply Writes.trans _ (OrderTable.writes_resolveOco _ r)
      exact OrderTable.writes_fill _ hr _ fun _ => rfl
    · exact .refl _
  · exact .refl _

theorem writes_checkIceberg (id : String) (hr : W r) :
    Writes W E s.exchange.orders (s.checkIceberg N m r id).exchange.orders := by
  unfold Sweep.checkIceberg
  dsimp only
  split
  · exact .refl _
  · split
    · split
      · split
        · exact .refl _
        · rename_i fields _ _ _ price _
          -- the order of the slice is a new one
          have hnew : ¬ s.exchange.orders.objects.Live s.exchange.orders.objects.next :=
            fun hlive => hlive.ne_next rfl
          have hslice := writes_executeIcebergSlice (N := N) (m := m) (E := E)
            (W := fun r => W r ∨ ¬ s.exchange.orders.objects.Live r) s.exchange (Or.inl hr)
            (Or.inr hnew) fields price
          apply (hslice.mono (fun r hlive hr => hr.resolve_right (not_not_intro hlive))
            fun _ hE => hE).trans
          exact writes_finishIceberg { s with
            exchange := (s.exchange.executeIcebergSlice N m r fields price).1
            filledOrders := s.filledOrders ++ [(s.exchange.executeIcebergSlice N m r fields price).2] }
            id hr
      · exact .refl _
    · exact .refl _

theorem writes_checkEntry (book : PendingBook) {entry : String × Ref} (hr : W entry.2) :
    Writes W E s.exchange.orders (s.checkEntry N m book entry).exchange.orders := by
  unfold Sweep.checkEntry
  split
  · exact .refl _
  · cases book with
    | limits => exact writes_checkLimit s _ hr
    | stopLimits => exact writes_checkStopLimit s _ hr
    | trailingStops => exact writes_checkTrailingStop s _ hr
    | icebergs => exact writes_checkIceberg s _ hr

/-- So does the visit of several. -/
theorem writes_foldl_checkEntry (book : PendingBook) {entries : List (String × Ref)}
    (hW : ∀ e ∈ entries, W e.2) : Writes W E s.exchange.orders
      (entries.foldl (Sweep.checkEntry N m book) s).exchange.orders :=
  .foldl (fun s : Sweep => s.exchange.orders) (fun s e he => writes_checkEntry s book (hW e he)) s

theorem writes_checkBook (book : PendingBook)
    (hW : ∀ e ∈ (s.exchange.orders.pending book).entries, W e.2) :
    Writes W E s.exchange.orders (s.checkBook N m book).exchange.orders := by
  apply (writes_foldl_checkEntry (N := N) (m := m) { s with toRemove := [] } book hW).trans
  exact Writes.foldl id (fun t id _ => t.writes_popPending book id) _

theorem writes_checkAdvancedOrders (hW : ∀ r, W r) :
    Writes W E x.orders (x.checkAdvancedOrders N m).1.orders :=
  .foldl (fun s : Sweep => s.exchange.orders)
    (fun s book _ => writes_checkBook s book fun e _ => hW e.2) { exchange := x }

/-! ### Calls -/

theorem writes_cancelOrder (id : String) : Writes W E x.orders (x.cancelOrder id).1.orders := by
  unfold cancelOrder
  split
  · exact .refl _
  · exact (OrderTable.writes_popPending _ _ _).trans (OrderTable.writes_cancel _ _)

theorem writes_cancelAllOrders (symbol : Option String) :
    Writes W E x.orders (x.cancelAllOrders symbol).1.orders := by
  have hbook : ∀ (acc : OrderTable × List Ref), ∀ book ∈ PendingBook.all,
      Writes W E acc.1 (cancelBook symbol acc book).1 :=
    fun acc book _ => .foldl Prod.fst (fun acc e _ =>
      (OrderTable.writes_popPending acc.1 book e.1).trans (OrderTable.writes_cancel _ _)) acc
  exact .foldl Prod.fst hbook (x.orders, [])

theorem submitOrder_returned {x : SimulatedExchange} {req : OrderRequest}
    (h : (x.submitOrder N m req).2 = some r) : r = x.orders.objects.next := by
  unfold submitOrder at h
  dsimp only at h
  split at h
  · exact (Option.some.inj h).symm
  · split at h
    · exact (Option.some.inj h).symm
    · split at h
      · exact (Option.some.inj h).symm
      · cases h

theorem orders_foldl_markAndCheck (positions : List Ref)
    (acc : SimulatedExchange × List (Ref × CloseTrigger × ℚ)) :
    (positions.foldl (markAndCheck N m) acc).1.orders = acc.1.orders := by
  induction positions generalizing acc with
  | nil => rfl
  | cons r rest ih =>
    rw [List.foldl_cons, ih]
    unfold markAndCheck
    dsimp only
    split
    · rfl
    · rfl

theorem writes_closeTriggeredPosition (acc : SimulatedExchange × List Ref)
    (entry : Ref × CloseTrigger × ℚ) :
    Writes W E acc.1.orders (closeTriggeredPosition N m acc entry).1.orders := by
  apply Writes.mono (W := fun r => ¬ acc.1.orders.objects.Live r) (E := E) _
    (fun r hr hnot => absurd hr hnot) fun _ => id
  obtain ⟨req, htype, horders⟩ := orders_closeTriggeredPosition N m acc entry
  have hsubmit := writes_submitOrder (N := N) (m := m) (E := E)
    (W := fun r => ¬ acc.1.orders.objects.Live r) acc.1 req fun r hother => absurd htype hother
  obtain horders | ⟨r, hreturned, horders⟩ := horders
  · rw [horders]
    exact hsubmit
  · rw [horders]
    apply hsubmit.trans
    refine OrderTable.writes_update _ (fun hlive => ?_) fun _ => rfl
    exact hlive.ne_next (submitOrder_returned hreturned)

theorem writes_checkStopLossTakeProfit :
    Writes W E x.orders (x.checkStopLossTakeProfit N m).1.orders := by
  unfold checkStopLossTakeProfit
  have hmarked := orders_foldl_markAndCheck (N := N) (m := m) x.ledger.account.positions (x, [])
  generalize x.ledger.account.positions.foldl (markAndCheck N m) (x, []) = marked at hmarked ⊢
  rw [← hmarked]
  exact .foldl (fun acc : SimulatedExchange × List Ref => acc.1.orders)
    (fun acc entry _ => writes_closeTriggeredPosition acc entry) (marked.1, [])

/-- No call rewrites the instructions of an order. Every call but a sweep of the pending books leaves
the orders alone that are there, or cancels them, and only a submission enters one into a book. -/
theorem writes_step (call : MarketView × Operation) :
    Writes (fun _ => call.2 = .checkAdvancedOrders) (fun _ => ∃ req, call.2 = .submitOrder req)
      x.orders (x.step N call).orders := by
  obtain ⟨m, op⟩ := call
  cases op with
  | submitOrder req => exact writes_submitOrder x req fun _ _ => ⟨req, rfl⟩
  | checkAdvancedOrders => exact writes_checkAdvancedOrders x fun _ => rfl
  | checkStopLossTakeProfit => exact writes_checkStopLossTakeProfit x
  | cancelOrder id => exact writes_cancelOrder x id
  | cancelAllOrders symbol => exact writes_cancelAllOrders x symbol
  | chargeFunding rate => exact .of_objects rfl (List.Subset.refl _) rfl

theorem writes_run (calls : List (MarketView × Operation)) :
    Writes (fun _ => True) (fun _ => True) x.orders (run (step N) x calls).orders :=
  .foldl orders (fun x call _ => (writes_step x call).mono (fun _ _ _ => trivial) fun _ _ => trivial) x

end SimulatedExchange

end TradingSim.Exchange
