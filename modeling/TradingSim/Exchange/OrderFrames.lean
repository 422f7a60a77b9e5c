import TradingSim.Exchange.Expiry

/-!
# What a sweep and a submission do to the order that they are about

A sweep of the pending books visits the entry of an order that rests, unless the order is cancelled
before. A submission that is not turned down has placed its order, and nothing else enters a pending
book.
-/

namespace TradingSim.Exchange

open Foundations

namespace OrderTable

variable {t t' : OrderTable} {r : Ref}

theorem status_conclude (hr : t.objects.Live r) (status : OrderStatus) (reason : String) :
    ((t.conclude r status reason).get r).status = status := by
  rw [get, objects_conclude, Heap.get_modify_self _ hr]

theorem entered_issue (t : OrderTable) (o : Order) :
    let joined := (t.issue o).joinGroup t.objects.next
    joined.objects.Live t.objects.next ∧ joined.get t.objects.next = o ∧ joined.pending = t.pending ∧
      joined.resolved t.objects.next = (o.ocoGroupId.bind t.filledOrderOf).isSome := by
  obtain ⟨groups, hjoined, hfilled, -⟩ := (t.issue o).joinGroup_eq t.objects.next
  have hget : ((t.issue o).joinGroup t.objects.next).get t.objects.next = o := by
    rw [hjoined]
    exact Heap.get_alloc_next _ _
  refine ⟨?_, hget, ?_, ?_⟩
  · rw [hjoined]
    exact (Heap.live_alloc _ _ _).mpr (Or.inr rfl)
  · rw [hjoined]
    rfl
  · rw [resolved, hget]
    congr 2
    funext g
    rw [hjoined]
    exact hfilled g

/-- The order is settled, with its class fields as they were. -/
def Settles (t t' : OrderTable) (r : Ref) : Prop :=
  t'.objects.Live r ∧ (t'.get r).status ≠ .pending ∧ (t'.get r).kind = (t.get r).kind

theorem settles_conclude (hlive : t.objects.Live r) {status : OrderStatus} (reason : String)
    (hstatus : status ≠ .pending) : t.Settles (t.conclude r status reason) r := by
  refine ⟨?_, ?_, ?_⟩
  · rw [objects_conclude]
    exact (Heap.live_modify _ _ _ _).mpr hlive
  · rw [status_conclude hlive]
    exact hstatus
  · rw [get, objects_conclude, Heap.get_modify_self _ hlive]
    rfl

theorem settles_fill (hlive : t.objects.Live r) {f : Order → Order}
    (hf : ∀ o, (f o).status = o.status ∧ (f o).kind = o.kind) :
    t.Settles (((t.setStatus r .filled).update r f).resolveOco r) r := by
  have hget := get_update_setStatus hlive .filled f
  have hlive' : ((t.setStatus r .filled).update r f).objects.Live r :=
    (Heap.live_modify _ _ _ _).mpr ((Heap.live_modify _ _ _ _).mpr hlive)
  obtain ⟨hlive'', -, hkept⟩ := (writes_resolveOco (W := Nobody) (E := Nobody) _ r).order r hlive'
  replace hkept := hkept id
  refine ⟨hlive'', ?_, ?_⟩
  · rcases hkept with hsame | hcancelled
    · rw [hsame, hget, (hf _).1]
      intro hc
      cases hc
    · rw [hcancelled]
      intro hc
      cases hc
  · rcases hkept with hsame | hcancelled
    · rw [hsame, hget, (hf _).2]
    · rw [hcancelled, hget]
      exact (hf _).2

end OrderTable

namespace SimulatedExchange

open OrderTable (Writes Nobody)

variable {N : Numerics} {m : MarketView} {r : Ref}

/-! ### Sweeps -/

/-- Sweeps of other books than its own leave an order alone or cancel it. -/
theorem writes_foldl_checkBook {start : SimulatedExchange} {book : PendingBook}
    (books : List PendingBook) (hbooks : book ∉ books) {s : Sweep}
    (h : Progress N False False start noneStale s.exchange) (hlive : s.exchange.orders.objects.Live r)
    (hbook : (s.exchange.orders.get r).orderType.book = some book) :
    Writes (· ≠ r) Nobody s.exchange.orders (books.foldl (Sweep.checkBook N m) s).exchange.orders := by
  induction books generalizing s with
  | nil => exact .refl _
  | cons other rest ih =>
    have hne : ∀ e ∈ (s.exchange.orders.pending other).entries, e.2 ≠ r := by
      rintro e he rfl
      obtain ⟨-, -, hrests, -⟩ := h.orders.booked other e.1 e.2 ((Dict.mem_entries_iff _ _ _).mp he)
      exact hbooks (Option.some.inj (hbook.symm.trans hrests.2.1) ▸ List.mem_cons_self)
    have hswept := (Progress.refl (N := N) h.orders h.exclusive).checkBook (m := m) False.elim other
    obtain ⟨hlive', hev⟩ := hswept.evolves r hlive
    rw [List.foldl_cons]
    exact (writes_checkBook s other hne).trans
      (ih (fun hmem => hbooks (List.mem_cons_of_mem _ hmem)) (h.checkBook False.elim other) hlive'
        (hev.orderType ▸ hbook))

theorem checkBook_entry {s : Sweep} {book : PendingBook} (h : s.exchange.orders.Consistent)
    (hr : r ∈ s.exchange.orders.accepted) (hpending : (s.exchange.orders.get r).status = .pending)
    (hbook : (s.exchange.orders.get r).orderType.book = some book) :
    ((s.checkBook N m book).exchange.orders.get r).status = .cancelled ∨
      ∃ s' : Sweep, s'.exchange.orders.objects.Live r ∧
        s'.exchange.orders.get r = s.exchange.orders.get r ∧ (s.checkBook N m book).exchange.orders.get r =
          (s'.checkPending N m book r (s.exchange.orders.get r).id).exchange.orders.get r := by
  obtain ⟨book', hfind⟩ := h.resting r hr hpending
  obtain ⟨⟨hlive, -⟩, -, hrests, -⟩ := h.booked book' _ r hfind
  obtain rfl : book' = book := Option.some.inj (hrests.2.1.symm.trans hbook)
  obtain ⟨before, after, hsplit, hentries⟩ := split_entries h hfind
  have hothers : ∀ e ∈ before ++ after, e.2 ≠ r := fun e he => (hentries e he).1.symm
  rw [List.forall_mem_append] at hothers
  have hswept : (s.checkBook N m book').exchange.orders.get r =
      (after.foldl (Sweep.checkEntry N m book') (Sweep.checkEntry N m book'
        (before.foldl (Sweep.checkEntry N m book') { s with toRemove := [] })
        ((s.exchange.orders.get r).id, r))).exchange.orders.get r := by
    rw [← List.foldl_cons (f := Sweep.checkEntry N m book'), ← List.foldl_append, ← hsplit]
    exact get_foldl_popPending book' _ _ r
  have hbefore := writes_foldl_checkEntry (N := N) (m := m) (W := (· ≠ r)) (E := Nobody)
    { s with toRemove := [] } book' hothers.1
  generalize before.foldl (Sweep.checkEntry N m book') { s with toRemove := [] } = s' at hswept hbefore
  have hafter := writes_foldl_checkEntry (N := N) (m := m) (W := (· ≠ r)) (E := Nobody)
    (Sweep.checkEntry N m book' s' ((s.exchange.orders.get r).id, r)) book' hothers.2
  have hlive' := (hbefore.order r hlive).1
  rw [hswept]
  rcases hbefore.kept hlive (not_not_intro rfl) with hsame | hcancelled
  · change s'.exchange.orders.get r = s.exchange.orders.get r at hsame
    have hvisit : Sweep.checkEntry N m book' s' ((s.exchange.orders.get r).id, r) =
        s'.checkPending N m book' r (s.exchange.orders.get r).id := by
      unfold Sweep.checkEntry
      rw [if_neg (not_not.mpr (hsame ▸ hpending))]
    rw [hvisit] at hafter ⊢
    have hvisited : (s'.checkPending N m book' r
        (s.exchange.orders.get r).id).exchange.orders.objects.Live r := by
      rw [← hvisit]
      exact ((writes_checkEntry (W := fun _ => True) (E := Nobody) s' book' trivial).order r hlive').1
    by_cases hfinal : ((after.foldl (Sweep.checkEntry N m book') (s'.checkPending N m book' r
        (s.exchange.orders.get r).id)).exchange.orders.get r).status = .cancelled
    · exact Or.inl hfinal
    · exact Or.inr ⟨s', hlive', hsame, hafter.get_eq hvisited (not_not_intro rfl) hfinal⟩
  · -- the order has been cancelled: its entry is only noted for removal
    refine Or.inl ?_
    have hstatus : (s'.exchange.orders.get r).status = .cancelled := by rw [hcancelled]
    have hvisit : Sweep.checkEntry N m book' s' ((s.exchange.orders.get r).id, r) =
        s'.remove (s.exchange.orders.get r).id := by
      unfold Sweep.checkEntry
      rw [if_pos (by rw [hstatus]; exact fun hc => nomatch hc)]
    rw [hvisit] at hafter ⊢
    rcases hafter.kept hlive' (not_not_intro rfl) with hsame | hagain
    · rw [hsame]
      exact hstatus
    · rw [hagain]

theorem checkAdvancedOrders_entry {x : SimulatedExchange} {book : PendingBook}
    (h : x.orders.Consistent) (hr : r ∈ x.orders.accepted) (hpending : (x.orders.get r).status = .pending)
    (hbook : (x.orders.get r).orderType.book = some book) :
    ((x.checkAdvancedOrders N m).1.orders.get r).status = .cancelled ∨
      ∃ s : Sweep, s.exchange.orders.objects.Live r ∧ s.exchange.orders.get r = x.orders.get r ∧
        (x.checkAdvancedOrders N m).1.orders.get r =
          (s.checkPending N m book r (x.orders.get r).id).exchange.orders.get r := by
  obtain ⟨first, last, hall, hfirst, hlast⟩ : ∃ first last, PendingBook.all = first ++ book :: last ∧
      book ∉ first ∧ book ∉ last := by
    cases book with
    | limits => exact ⟨[], [.stopLimits, .trailingStops, .icebergs], rfl, by decide, by decide⟩
    | stopLimits => exact ⟨[.limits], [.trailingStops, .icebergs], rfl, by decide, by decide⟩
    | trailingStops => exact ⟨[.limits, .stopLimits], [.icebergs], rfl, by decide, by decide⟩
    | icebergs => exact ⟨[.limits, .stopLimits, .trailingStops], [], rfl, by decide, by decide⟩
  have hlive : x.orders.objects.Live r := (h.acceptedIssued r hr).1
  have hstart : Progress N False False x noneStale x := .refl h False.elim
  have hprogress : ∀ (books : List PendingBook) (s : Sweep),
      Progress N False False x noneStale s.exchange →
      Progress N False False x noneStale (books.foldl (Sweep.checkBook N m) s).exchange := by
    intro books
    induction books with
    | nil => exact fun _ hs => hs
    | cons other rest ih => exact fun s hs => ih _ (hs.checkBook False.elim other)
  have hbefore := writes_foldl_checkBook (m := m) first hfirst
    (s := { exchange := x }) hstart hlive hbook
  have hmiddle := hprogress first { exchange := x } hstart
  unfold checkAdvancedOrders
  rw [hall, List.foldl_append, List.foldl_cons]
  dsimp only
  generalize first.foldl (Sweep.checkBook N m) { exchange := x } = s at hbefore hmiddle ⊢
  have hr' : r ∈ s.exchange.orders.accepted := hbefore.accepted hr
  obtain ⟨hlive', hev⟩ := hmiddle.evolves r hlive
  have hown := hmiddle.checkBook (m := m) False.elim book
  obtain ⟨hlive'', -⟩ := hown.evolves r hlive
  have hafter := writes_foldl_checkBook (m := m) last hlast hown hlive''
    ((hown.evolves r hlive).2.orderType ▸ hbook)
  -- a cancelled order stays cancelled
  have hdone : ∀ t : OrderTable, Writes (· ≠ r) Nobody t
      (last.foldl (Sweep.checkBook N m) (s.checkBook N m book)).exchange.orders →
      t.objects.Live r → (t.get r).status = .cancelled →
      ((last.foldl (Sweep.checkBook N m) (s.checkBook N m book)).exchange.orders.get r).status =
        .cancelled := by
    intro t hkept ht hcancelled
    rcases hkept.kept ht (not_not_intro rfl) with hsame | hagain
    · rw [hsame]
      exact hcancelled
    · rw [hagain]
  rcases hbefore.kept hlive (not_not_intro rfl) with hsame | hcancelled
  · change s.exchange.orders.get r = x.orders.get r at hsame
    rw [← hsame] at hpending hbook ⊢
    rcases checkBook_entry (N := N) (m := m) hmiddle.orders hr' hpending hbook with
      hgone | ⟨s', hs', hget, hvisited⟩
    · exact Or.inl (hdone _ hafter hlive'' hgone)
    · by_cases hfinal : ((last.foldl (Sweep.checkBook N m)
          (s.checkBook N m book)).exchange.orders.get r).status = .cancelled
      · exact Or.inl hfinal
      · exact Or.inr ⟨s', hs', hget, (hafter.get_eq hlive'' (not_not_intro rfl) hfinal).trans hvisited⟩
  · refine Or.inl (hdone _ hafter hlive'' ?_)
    have hstatus : (s.exchange.orders.get r).status = .cancelled := by
      rw [hcancelled]
    have hfrozen := ((Progress.refl (N := N) hmiddle.orders False.elim).checkBook (m := m) False.elim
      book).evolves r hlive'
    rw [(hfrozen.2.frozen (by rw [hstatus]; exact fun hc => nomatch hc)).1, hstatus]

/-! ### Submissions -/

theorem submitOrder_placed {x : SimulatedExchange} {req : OrderRequest} (hreturned : (x.submitOrder N m req).2 = some r)
    (hrejected : ((x.submitOrder N m req).1.orders.get r).status ≠ .rejected)
    (hcancelled : ((x.submitOrder N m req).1.orders.get r).status ≠ .cancelled) :
    ∃ o joined placed, req.screen N (orderId x.orders.orderCounter) x.exchangeId = .ok o ∧
      joined = x.withOrders ((x.orders.issue o).joinGroup r) ∧ joined.orders.objects.Live r ∧
      joined.orders.get r = o ∧ joined.placeOrder N m r req = some placed ∧
      (x.submitOrder N m req).1 = placed.accept r := by
  obtain rfl := submitOrder_returned hreturned
  revert hreturned hrejected hcancelled
  unfold submitOrder
  dsimp only
  cases hscreen : req.screen N (orderId x.orders.orderCounter) x.exchangeId with
  | error refused =>
    intro _ hrejected
    exact absurd (OrderTable.status_conclude ((Heap.live_alloc _ _ _).mpr (Or.inr rfl)) _ _) hrejected
  | ok o =>
    obtain ⟨hlive, hget, -, -⟩ := x.orders.entered_issue o
    dsimp only
    generalize hjoined : (x.orders.issue o).joinGroup x.orders.objects.next = joined at hlive hget ⊢
    split
    · intro _ _ hcancelled
      exact absurd (OrderTable.status_conclude hlive _ _) hcancelled
    · cases hplaced : (x.withOrders joined).placeOrder N m x.orders.objects.next req with
      | none =>
        intro hreturned
        cases hreturned
      | some placed =>
        intro _ _ _
        exact ⟨o, _, placed, rfl, by rw [hjoined], hlive, hget, hplaced, rfl⟩

/-- A new entry of the books is the order of the submission, with the instructions of the request. -/
theorem mem_pending_submitOrder {x : SimulatedExchange} {req : OrderRequest} {book : PendingBook}
    {e : String × Ref} (he : e ∈ ((x.submitOrder N m req).1.orders.pending book).entries) :
    e ∈ (x.orders.pending book).entries ∨ e.2 = x.orders.objects.next ∧ ∃ o,
        req.screen N (orderId x.orders.orderCounter) x.exchangeId = .ok o ∧
        ((x.submitOrder N m req).1.orders.get e.2).instructions = o.instructions ∧
        req.orderType ≠ .market ∧ (req.orderType = .limit → ∃ price, decideLimit m o price
          (x.calculateFillPrice (m.price req.symbol) req.side req.quantity) = .rest) := by
  revert he
  unfold submitOrder
  dsimp only
  cases hscreen : req.screen N (orderId x.orders.orderCounter) x.exchangeId with
  | error refused => exact Or.inl
  | ok o =>
    obtain ⟨hlive, hget, hpending, -⟩ := x.orders.entered_issue o
    dsimp only
    generalize (x.orders.issue o).joinGroup x.orders.objects.next = joined at hlive hget hpending ⊢
    rw [← hpending]
    split
    · exact Or.inl
    · cases hplaced : (x.withOrders joined).placeOrder N m x.orders.objects.next req with
      | none => exact Or.inl
      | some placed =>
        intro he
        have hplacing := writes_placeOrder (W := (· = x.orders.objects.next))
          (E := fun r => r = x.orders.objects.next ∧
            (x.withOrders joined).Rests m x.orders.objects.next req) hplaced rfl fun h => ⟨rfl, h⟩
        obtain hold | ⟨hnew, htype, hrests⟩ := hplacing.entry book e he
        · exact Or.inl hold
        · right
          change (req.orderType = .limit → ∃ price, decideLimit m (joined.get _) price
            (x.calculateFillPrice (m.price req.symbol) req.side req.quantity) = .rest) at hrests
          rw [hget] at hrests
          have hsame := (hplacing.order x.orders.objects.next hlive).2.1
          refine ⟨hnew, o, rfl, ?_, htype, hrests⟩
          rw [hnew]
          exact hsame.trans (congrArg Order.instructions hget)

end SimulatedExchange

end TradingSim.Exchange
