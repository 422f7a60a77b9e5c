import TradingSim.Exchange.SweepProgress

/-!
# The four sweeps

Each kind of entry is checked soundly, so a sweep over a snapshot of its book is, and so is
`check_advanced_orders`. An iceberg's slice is the one execution that leaves its order
pending; it is handled together with the test whether the iceberg is finished.
-/

namespace TradingSim.Exchange

open Foundations

namespace SimulatedExchange

variable {N : Numerics} {m : MarketView} {strict admits : Prop} {start x : SimulatedExchange}
  {stale : PendingBook → String → Prop} {book : PendingBook} {ids : List String} {r : Ref}

/-- Rewriting the class fields of a resting order. -/
theorem Progress.touchKind (h : Progress N strict admits start (staleIn book ids) x)
    (hr : x.Resting book r) (kind : OrderKind) (hkind : (x.orders.get r).kind.Evolves kind) :
    Progress N strict admits start (staleIn book ids)
        (x.withOrders (x.orders.update r fun o => { o with kind := kind })) ∧
      (x.withOrders (x.orders.update r fun o => { o with kind := kind })).Resting book r ∧
      ((x.withOrders (x.orders.update r fun o => { o with kind := kind })).orders.get r).id =
        (x.orders.get r).id := by
  have hevolves : (x.orders.get r).Evolves { x.orders.get r with kind := kind } :=
    ⟨rfl, rfl, rfl, rfl, rfl, rfl, rfl, hkind, fun _ => ⟨rfl, rfl⟩⟩
  obtain ⟨hn, hvalid⟩ := h.orders.touch (f := fun o => { o with kind := kind }) hr.issued.1
    hevolves rfl
  have hget : (x.orders.update r fun o => { o with kind := kind }).get r =
      { x.orders.get r with kind := kind } := by
    rw [OrderTable.get, OrderTable.update, Heap.get_modify_self _ hr.issued.1]
    rfl
  refine ⟨h.carry hvalid (hn.carries rfl), ⟨(hn.issued_iff r).mpr hr.issued, ?_, ?_⟩,
    (hn.order r hr.issued.1).id⟩
  · exact hget ▸ hr.pending
  · exact hget ▸ hr.rests.evolves hevolves

/-- Exclusivity survives an execution of an order in no group. -/
theorem Exclusive.fillUngrouped {x' : SimulatedExchange} (h : x.Exclusive)
    (hvalid : x.orders.Valid stale) (hr : x.orders.Issued r)
    (hgroup : (x.orders.get r).ocoGroupId = none) (hc : x.orders.Carries x'.orders)
    {fill : Fill} (hfills : x'.ledger.fills = x.ledger.fills ++ [fill])
    (howner : fill.owner = (x.orders.get r).id) : x'.Exclusive := by
  obtain ⟨hlive, n, hid⟩ := hr
  have hbound := hvalid.idBound r n hlive hid
  refine ⟨?_, ?_, ?_⟩
  · intro fill' hfill'
    rw [hc.counter]
    rcases List.mem_append.mp (hfills ▸ hfill') with hold | hnew
    · exact h.owned fill' hold
    · rw [List.mem_singleton.mp hnew, howner]
      exact ⟨n, hbound, hid⟩
  · intro fill' hfill' r' g hr' hid' hgroup'
    have hx := hc.issued r' hr'
    have hev := (hc.evolves r' hx.1).2
    rw [hc.filledOrderOf]
    rcases List.mem_append.mp (hfills ▸ hfill') with hold | hnew
    · exact h.claimed fill' hold r' g hx (hev.id.symm.trans hid') (hev.group.symm.trans hgroup')
    · rw [List.mem_singleton.mp hnew, howner] at hid'
      have heq := hvalid.idUnique r' r hx ⟨hlive, n, hid⟩ (hev.id.symm.trans hid')
      rw [heq] at hev hgroup'
      rw [hev.group, hgroup] at hgroup'
      cases hgroup'
  · intro g winner hwinner r' hr' hgroup' hpending
    have hx := hc.issued r' hr'
    have hev := (hc.evolves r' hx.1).2
    rw [hc.filledOrderOf] at hwinner
    exact h.closed g winner hwinner r' hx (hev.group.symm.trans hgroup')
      (hev.pending_of_pending hpending)

/-- No book has an order under an id that was not issued. -/
theorem find?_ne_of_not_orderId {t : OrderTable} {stale : PendingBook → String → Prop}
    (h : t.Valid stale) (hid : ∀ n, (t.get r).id ≠ orderId n) (book : PendingBook) (k : String) :
    (t.pending book).find? k ≠ some r := by
  intro hfind
  obtain ⟨⟨-, n, hn⟩, -⟩ := h.booked book k r hfind
  exact hid n hn

/-- The order side after a slice of an iceberg was created and filled. -/
theorem Progress.showSlice (h : Progress N strict admits start (staleIn book ids) x)
    (hr : x.Resting book r) {fields : IcebergFields}
    (hkind : (x.orders.get r).kind = .iceberg fields) (hhidden : 0 < fields.hiddenQuantity)
    {slice : Order} (hslice : ∀ n, slice.id ≠ orderId n) (hstatus : slice.status = .pending) (price : ℚ) :
    let t := (((x.orders.create slice).update r fun o =>
      { o with kind := .iceberg fields.afterSlice }).setStatus x.orders.objects.next
        .filled).update x.orders.objects.next fun o =>
          { o with filledPrice := price, filledQuantity := fields.sliceQuantity }
    x.orders.Carries t ∧ t.Valid (staleIn book ids) ∧
      t.get r = { x.orders.get r with kind := .iceberg fields.afterSlice } ∧
      t.get x.orders.objects.next = { slice with
        status := .filled
        filledPrice := price
        filledQuantity := fields.sliceQuantity } := by
  intro t
  have hne : r ≠ x.orders.objects.next := hr.issued.1.ne_next
  have hcreated := h.orders.create hslice
  have hcarried := OrderTable.carries_create x.orders hslice
  have hget : (x.orders.create slice).get r = x.orders.get r :=
    OrderTable.get_of_alloc rfl hr.issued.1
  have hlive : (x.orders.create slice).objects.Live r := (hcarried.evolves r hr.issued.1).1
  have hnext : (x.orders.create slice).get x.orders.objects.next = slice :=
    Heap.get_alloc_next _ _
  have hsmaller : fields.afterSlice.hiddenQuantity ≤ fields.hiddenQuantity := by
    have hvisible := hr.rests.2.2 fields hkind
    have hquantity : 0 < fields.sliceQuantity := lt_min hvisible hhidden
    rw [fields.afterSlice_eq.2]
    linarith
  have hshow : ((x.orders.create slice).get r).Evolves
      { (x.orders.create slice).get r with kind := .iceberg fields.afterSlice } := by
    refine ⟨rfl, rfl, rfl, rfl, rfl, rfl, rfl, ?_, fun _ => ⟨rfl, rfl⟩⟩
    rw [hget, hkind]
    exact ⟨fields.afterSlice_eq.1, hsmaller⟩
  obtain ⟨hn, hvalid⟩ := hcreated.touch hlive
    (f := fun o => { o with kind := .iceberg fields.afterSlice }) hshow rfl
  set shown := (x.orders.create slice).update r fun o =>
    { o with kind := .iceberg fields.afterSlice }
  have hshownNext : shown.get x.orders.objects.next = slice := by
    rw [← hnext]
    exact Heap.get_modify_of_ne _ hne.symm _
  have hshownRef : shown.get r = { x.orders.get r with kind := .iceberg fields.afterSlice } := by
    rw [← hget]
    exact Heap.get_modify_self _ hlive _
  have hliveNext : shown.objects.Live x.orders.objects.next :=
    (hn.live _).mpr ((Heap.live_alloc _ _ _).mpr (Or.inr rfl))
  have hobjects := OrderTable.objects_update_setStatus shown x.orders.objects.next .filled
    fun o => { o with filledPrice := price, filledQuantity := fields.sliceQuantity }
  obtain ⟨hn', hvalid'⟩ := hvalid.finish t hliveNext hobjects
    (by
      rw [hshownNext]
      exact OrderTable.evolves_of_pending hstatus ⟨rfl, rfl, rfl, rfl, rfl, rfl, rfl⟩ (.refl _))
    (fun hc => by cases hc) rfl rfl rfl rfl
  refine ⟨(hcarried.trans (hn.carries rfl)).trans (hn'.carries rfl), ?_, ?_, ?_⟩
  · apply hvalid'.stale_congr
    intro book' k r' hfind
    apply or_iff_left
    apply find?_ne_of_not_orderId hvalid
    rw [hshownNext]
    exact hslice
  · rw [← hshownRef]
    change t.objects.get r = _
    rw [hobjects, Heap.get_modify_of_ne _ hne]
    rfl
  · change t.objects.get _ = _
    rw [hobjects, Heap.get_modify_self _ hliveNext]
    rw [show shown.objects.get x.orders.objects.next = slice from hshownNext]

/-- A slice is refused. -/
theorem Progress.refuseSlice (h : Progress N strict admits start (staleIn book ids) x)
    (hr : x.Resting book r) {slice : Order} (hslice : ∀ n, slice.id ≠ orderId n)
    (hstatus : slice.status = .pending) (reason : String) :
    let t := (x.orders.create slice).conclude x.orders.objects.next .rejected reason
    Progress N strict admits start (staleIn book ids) (x.withOrders t) ∧ t.get r = x.orders.get r := by
  intro t
  have hcreated := h.orders.create hslice
  have hnext : (x.orders.create slice).get x.orders.objects.next = slice :=
    Heap.get_alloc_next _ _
  have hlive : (x.orders.create slice).objects.Live x.orders.objects.next :=
    (Heap.live_alloc _ _ _).mpr (Or.inr rfl)
  obtain ⟨hn, hvalid⟩ := hcreated.conclude hlive (by rw [hnext]; exact hstatus)
    (show OrderStatus.rejected ≠ .pending by decide) reason
  refine ⟨h.carry (hvalid.stale_congr ?_)
    ((OrderTable.carries_create x.orders hslice).trans (hn.carries rfl)), ?_⟩
  · intro book' k r' hfind
    apply or_iff_left
    apply find?_ne_of_not_orderId hcreated
    rw [hnext]
    exact hslice
  · change t.objects.get r = _
    rw [OrderTable.objects_conclude, Heap.get_modify_of_ne _ hr.issued.1.ne_next]
    exact OrderTable.get_of_alloc rfl hr.issued.1

/-- The next slice of an iceberg, up to the test whether the iceberg is finished. -/
theorem Progress.sliceAndFinish {s : Sweep} {id : String}
    (h : Progress N strict admits start (staleIn book s.toRemove) s.exchange)
    (hr : s.exchange.Resting book r) (hid : (s.exchange.orders.get r).id = id)
    {fields : IcebergFields} (hkind : (s.exchange.orders.get r).kind = .iceberg fields)
    (hhidden : 0 < fields.hiddenQuantity) (price : ℚ)
    (hlast : strict → (s.exchange.orders.get r).ocoGroupId ≠ none →
      fields.hiddenQuantity ≤ fields.visibleQuantity) :
    let sliced := s.exchange.executeIcebergSlice N m r fields price
    let s' := Sweep.finishIceberg { s with
      exchange := sliced.1
      filledOrders := s.filledOrders ++ [sliced.2] } r id
    Progress N strict admits start (staleIn book s'.toRemove) s'.exchange := by
  have hslice : ∀ n, (s.exchange.createIcebergSliceOrder N (s.exchange.orders.get r) fields
      price).id ≠ orderId n := fun n heq => orderId_ne_slice n _ _ heq.symm
  unfold executeIcebergSlice
  simp only
  cases s.exchange.checkMargin N (s.exchange.createIcebergSliceOrder N (s.exchange.orders.get r)
      fields price) price with
  | some reason =>
    obtain ⟨hrefused, hget⟩ := h.refuseSlice hr hslice rfl reason
    have hkind' : ((s.exchange.withOrders ((s.exchange.orders.create
        (s.exchange.createIcebergSliceOrder N (s.exchange.orders.get r) fields price)).conclude
          s.exchange.orders.objects.next .rejected reason)).orders.get r).kind = .iceberg fields :=
      (congrArg Order.kind hget).trans hkind
    simp only [Sweep.finishIceberg, hkind', if_neg (not_le.mpr hhidden)]
    exact hrefused
  | none =>
    obtain ⟨hc, hvalid, hget, hgetSlice⟩ := h.showSlice hr hkind hhidden hslice rfl
      (N.roundPrice price)
    generalize (((s.exchange.orders.create (s.exchange.createIcebergSliceOrder N
      (s.exchange.orders.get r) fields price)).update r fun o =>
        { o with kind := .iceberg fields.afterSlice }).setStatus s.exchange.orders.objects.next
          .filled).update s.exchange.orders.objects.next (fun o =>
            { o with
              filledPrice := N.roundPrice price
              filledQuantity := fields.sliceQuantity }) = t at hc hvalid hget hgetSlice ⊢
    have hvisible := hr.rests.2.2 fields hkind
    have hquantity : 0 < fields.sliceQuantity := lt_min hvisible hhidden
    have hkind' : (((s.exchange.withOrders t).finalizeIcebergExecution N m
        s.exchange.orders.objects.next r price).orders.get r).kind = .iceberg fields.afterSlice :=
      congrArg Order.kind hget
    have hslicefill : 0 < (t.get s.exchange.orders.objects.next).filledQuantity := by
      rw [hgetSlice]
      exact hquantity
    have hsymbol : (t.get r).symbol = (t.get s.exchange.orders.objects.next).symbol := by
      rw [hget, hgetSlice]
      rfl
    have hfillid : (t.get r).id = (s.exchange.orders.get r).id := by rw [hget]
    simp only [Sweep.finishIceberg, hkind']
    by_cases hdone : fields.afterSlice.hiddenQuantity ≤ 0
    · -- the last slice: the iceberg is filled and its group is resolved
      rw [if_pos hdone]
      have hpending : (t.get r).status = .pending := by
        rw [hget]
        exact hr.pending
      have hevolves : (t.get r).Evolves { t.get r with
          status := .filled
          filledQuantity := (t.get r).quantity } :=
        OrderTable.evolves_of_pending hpending ⟨rfl, rfl, rfl, rfl, rfl, rfl, rfl⟩ (.refl _)
      have hshown : Progress N strict admits start (staleIn book s.toRemove)
          (s.exchange.withOrders t) := h.carry hvalid hc
      have hr' : (s.exchange.withOrders t).Resting book r :=
        ⟨hr.issued.evolves hc.evolves, hpending, hr.rests.evolves (hc.evolves r hr.issued.1).2⟩
      obtain ⟨hfinished, hcollected, hfilled⟩ := hshown.finishEntry hr'
        ((t.setStatus r .filled).update r fun o => { o with filledQuantity := o.quantity })
        (OrderTable.objects_update_setStatus _ _ _ _) hevolves (fun hc => by cases hc)
        rfl rfl rfl rfl
      have hfilledid : ((s.exchange.withOrders t).orders.get r).id = id := hfillid.trans hid
      rw [hfilledid] at hcollected
      exact h.fill hr.issued hr.pending hcollected (hc.trans hfinished)
        (by rw [hfilled]; exact fun hc => by cases hc) m
        (t.get s.exchange.orders.objects.next)
        { orderId := (t.get s.exchange.orders.objects.next).id
          parentOrder := some (t.get r).id
          symbol := (t.get r).symbol
          side := (t.get s.exchange.orders.objects.next).side
          quantity := (t.get s.exchange.orders.objects.next).filledQuantity }
        hslicefill hsymbol rfl hfillid (t.get s.exchange.orders.objects.next).fee
        (price * (t.get s.exchange.orders.objects.next).filledQuantity) false none none
    · -- a partial execution: the iceberg stays pending
      rw [if_neg hdone]
      refine ⟨hvalid, h.evolves.trans hc.evolves, h.known_of_carries hc.issued,
        h.ledger.tail (.fill m _ _ _ _ false none none _ hslicefill hsymbol rfl), fun hstrict => ?_⟩
      by_cases hgroup : (s.exchange.orders.get r).ocoGroupId = none
      · exact (h.exclusive hstrict).fillUngrouped h.orders hr.issued hgroup hc
          (Ledger.fills_bookFill _ _ _ _ _ _ _ _ _ _) hfillid
      · have hle := hlast hstrict hgroup
        have hwhole : fields.sliceQuantity = fields.hiddenQuantity := min_eq_right hle
        rw [fields.afterSlice_eq.2, hwhole, sub_self] at hdone
        exact absurd le_rfl hdone

end SimulatedExchange

end TradingSim.Exchange
