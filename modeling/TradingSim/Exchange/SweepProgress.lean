import TradingSim.Exchange.SubmissionProgress

/-!
# A sweep is sound

The entries that a sweep has dealt with are stale until it deletes them. Each visited entry is
skipped, retired because its order is done with, or executed, which makes just this entry stale.
Deleting the collected ids at the end of the sweep leaves none.
-/

namespace TradingSim.Exchange

open Foundations

/-- If the next slice of the order would execute, it is the last one. -/
def Order.CompletesSlice (m : MarketView) (o : Order) : Prop :=
  match o.kind with
  | .iceberg fields =>
    m.currentPrice o.symbol ≠ 0 → 0 < fields.hiddenQuantity →
      icebergPrice o (m.currentPrice o.symbol) ≠ none →
      fields.hiddenQuantity ≤ fields.visibleQuantity
  | _ => True

instance (m : MarketView) (o : Order) : Decidable (o.CompletesSlice m) :=
  match hkind : o.kind with
  | .iceberg fields =>
    decidable_of_iff (m.currentPrice o.symbol ≠ 0 → 0 < fields.hiddenQuantity →
      icebergPrice o (m.currentPrice o.symbol) ≠ none →
      fields.hiddenQuantity ≤ fields.visibleQuantity) (by rw [Order.CompletesSlice, hkind])
  | .plain => isTrue (by rw [Order.CompletesSlice, hkind]; trivial)
  | .stopLimit _ => isTrue (by rw [Order.CompletesSlice, hkind]; trivial)
  | .trailingStop _ => isTrue (by rw [Order.CompletesSlice, hkind]; trivial)

/-- No pending iceberg of an OCO group is about to execute in part only. -/
def OrderTable.SlicesComplete (m : MarketView) (t : OrderTable) : Prop :=
  ∀ o ∈ t.objects.cells, o.status = .pending → o.ocoGroupId ≠ none → o.CompletesSlice m

instance (m : MarketView) (t : OrderTable) : Decidable (t.SlicesComplete m) :=
  inferInstanceAs (Decidable (∀ o ∈ t.objects.cells, _ → _ → _))

theorem Order.CompletesSlice.evolves {m : MarketView} {o o' : Order} (h : o.CompletesSlice m)
    (hev : o.Evolves o') : o'.CompletesSlice m := by
  have hkind := hev.kind
  unfold CompletesSlice
  cases hk' : o'.kind with
  | iceberg fields' =>
    rw [hk'] at hkind
    cases hk : o.kind with
    | iceberg fields =>
      rw [hk] at hkind
      rw [CompletesSlice, hk] at h
      intro hprice hhidden hmarket
      rw [hev.symbol] at hprice hmarket
      have hsame : ∀ p, icebergPrice o' p = icebergPrice o p := by
        intro p
        rw [icebergPrice, icebergPrice, hev.price, hev.side]
      rw [hsame] at hmarket
      have hle := h hprice (hhidden.trans_le hkind.2) hmarket
      rw [hkind.1]
      exact hkind.2.trans hle
    | plain => rw [hk] at hkind; exact hkind.elim
    | stopLimit _ => rw [hk] at hkind; exact hkind.elim
    | trailingStop _ => rw [hk] at hkind; exact hkind.elim
  | plain => trivial
  | stopLimit _ => trivial
  | trailingStop _ => trivial

theorem IcebergFields.afterSlice_eq (fields : IcebergFields) :
    fields.afterSlice.visibleQuantity = fields.visibleQuantity ∧
      fields.afterSlice.hiddenQuantity = fields.hiddenQuantity - fields.sliceQuantity := by
  unfold afterSlice onFill
  simp only
  split <;> exact ⟨rfl, rfl⟩

/-- The entries of one book under the collected ids. -/
def staleIn (book : PendingBook) (ids : List String) : PendingBook → String → Prop :=
  fun book' k => book' = book ∧ k ∈ ids

namespace OrderTable

variable {stale : PendingBook → String → Prop} {t : OrderTable} {r : Ref}

/-- The entry of a resting order is the one under its id in the book of its type. -/
theorem Valid.entry_iff (h : t.Valid stale) (hr : t.Issued r) {book book' : PendingBook}
    (hrests : (t.get r).Rests book) {k : String} {r' : Ref} (hfind : (t.pending book').find? k = some r') :
    (t.pending book').find? k = some r ↔ book' = book ∧ k = (t.get r).id := by
  constructor
  · intro hfind'
    obtain ⟨-, hid, hrests', -⟩ := h.booked book' k r hfind'
    have hbook := hrests'.2.1
    rw [hrests.2.1, Option.some.injEq] at hbook
    exact ⟨hbook.symm, hid.symm⟩
  · intro ⟨_, hk⟩
    rw [hfind, h.entry_unique hr hk.symm hfind]

/-- Once its order is done with, the entry of a resting order may be collected. -/
theorem Valid.collect {ids : List String} {book : PendingBook}
    (h : t.Valid (staleIn book ids)) (hr : t.Issued r) (hdone : (t.get r).status ≠ .pending) :
    t.Valid (staleIn book (ids ++ [(t.get r).id])) := by
  apply h.stale_congr
  intro book' k r' hfind
  unfold staleIn
  rw [List.mem_append, List.mem_singleton]
  constructor
  · exact fun ⟨hbook, hmem⟩ => ⟨hbook, Or.inl hmem⟩
  · intro ⟨hbook, hmem⟩
    rcases hmem with hold | hnew
    · exact ⟨hbook, hold⟩
    · obtain ⟨-, -, -, hstatus⟩ := h.booked book' k r' hfind
      rw [h.entry_unique hr hnew.symm hfind] at hstatus
      by_contra hfresh
      exact hdone (hstatus.mpr hfresh)

theorem Valid.deleteIds {ids : List String} {book : PendingBook} (h : t.Valid (staleIn book ids)) :
    t.Carries (ids.foldl (fun t' id => t'.popPending book id) t) ∧
      (ids.foldl (fun t' id => t'.popPending book id) t).Consistent := by
  have heq : ∀ (ids : List String) (t : OrderTable),
      ids.foldl (fun t' id => t'.popPending book id) t =
        { t with pending := Function.update t.pending book ((t.pending book).eraseAll ids) } := by
    intro ids
    induction ids with
    | nil =>
      intro t
      simp [Dict.eraseAll]
    | cons id rest ih =>
      intro t
      rw [List.foldl_cons, ih]
      simp [popPending, Dict.eraseAll]
  rw [heq]
  have hfind : ∀ book' k r, (Function.update t.pending book
      ((t.pending book).eraseAll ids) book').find? k = some r ↔
      (t.pending book').find? k = some r ∧ ¬ staleIn book ids book' k := by
    intro book' k r
    unfold staleIn
    by_cases hbook : book' = book
    · subst hbook
      rw [Function.update_self, ← Dict.mem_entries_iff, Dict.mem_eraseAll_entries,
        Dict.mem_entries_iff]
      simp [and_comm]
    · simp [hbook]
  have hn : t.Narrows
      { t with pending := Function.update t.pending book ((t.pending book).eraseAll ids) } := by
    refine ⟨fun _ => Iff.rfl, fun _ _ => .refl _, rfl, rfl, ?_, ?_, fun _ => rfl⟩
    · exact fun book' k r hfound => ((hfind book' k r).mp hfound).1
    · intro book' k r _ hfound hpending
      obtain ⟨-, -, -, hstatus⟩ := h.booked book' k r hfound
      exact (hfind book' k r).mpr ⟨hfound, hstatus.mp hpending⟩
  refine ⟨hn.carries rfl, h.narrow hn ?_⟩
  intro book' k r hfound
  obtain ⟨hold, hfresh⟩ := (hfind book' k r).mp hfound
  obtain ⟨-, -, -, hstatus⟩ := h.booked book' k r hold
  change (t.get r).status = .pending ↔ ¬ False
  rw [hstatus]
  exact ⟨fun _ hfalse => hfalse, fun _ => hfresh⟩

end OrderTable

namespace SimulatedExchange

variable {N : Numerics} {m : MarketView} {strict admits : Prop} {start x y : SimulatedExchange}
  {stale stale' : PendingBook → String → Prop} {r : Ref}

theorem Progress.trans (hxy : Progress N strict admits start stale x)
    (hyz : Progress N strict admits x stale' y) : Progress N strict admits start stale' y where
  orders := hyz.orders
  evolves := hxy.evolves.trans hyz.evolves
  known := by
    rcases hyz.known with hadmits | hknown
    · exact Or.inl hadmits
    · exact hxy.known_of_carries hknown
  ledger := hxy.ledger.trans hyz.ledger
  exclusive := hyz.exclusive

/-- A pending order that rests in a book. -/
structure Resting (x : SimulatedExchange) (book : PendingBook) (r : Ref) : Prop where
  issued : x.orders.Issued r
  pending : (x.orders.get r).status = .pending
  rests : (x.orders.get r).Rests book

variable {book : PendingBook} {ids : List String}

theorem Progress.finishEntry (h : Progress N strict admits start (staleIn book ids) x)
    (hr : x.Resting book r) (t : OrderTable) {f : Order → Order}
    (hobjects : t.objects = x.orders.objects.modify r f)
    (hf : (x.orders.get r).Evolves (f (x.orders.get r))) (hdone : (f (x.orders.get r)).status ≠ .pending)
    (hcounter : t.orderCounter = x.orders.orderCounter)
    (haccepted : t.accepted = x.orders.accepted) (hpending : t.pending = x.orders.pending)
    (hgroups : t.ocoGroups = x.orders.ocoGroups) :
    x.orders.Carries t ∧ t.Valid (staleIn book (ids ++ [(x.orders.get r).id])) ∧
      t.get r = f (x.orders.get r) := by
  obtain ⟨hn, hvalid⟩ := h.orders.finish t hr.issued.1 hobjects hf hdone hcounter haccepted hpending
    hgroups
  refine ⟨hn.carries hgroups, ?_, ?_⟩
  · apply hvalid.stale_congr
    intro book' k r' hfind
    rw [hpending] at hfind
    rw [h.orders.entry_iff hr.issued hr.rests hfind]
    unfold staleIn
    rw [List.mem_append, List.mem_singleton]
    tauto
  · rw [OrderTable.get, hobjects, Heap.get_modify_self _ hr.issued.1]
    rfl

theorem Progress.refuse (h : Progress N strict admits start (staleIn book ids) x)
    (hr : x.Resting book r) {status : OrderStatus} (hstatus : status ≠ .pending) (reason : String) :
    Progress N strict admits start (staleIn book (ids ++ [(x.orders.get r).id]))
      (x.withOrders (x.orders.conclude r status reason)) := by
  obtain ⟨hc, hvalid, -⟩ := h.finishEntry hr _ (OrderTable.objects_conclude _ _ _ _)
    (OrderTable.evolves_of_pending hr.pending ⟨rfl, rfl, rfl, rfl, rfl, rfl, rfl⟩ (.refl _))
    hstatus rfl rfl rfl rfl
  exact h.carry hvalid hc

theorem Progress.execute (h : Progress N strict admits start (staleIn book ids) x)
    (hr : x.Resting book r) {f : Order → Order} {price slippage fee : ℚ}
    (happly : f { x.orders.get r with status := .filled } = { x.orders.get r with
      status := .filled
      filledPrice := price
      filledQuantity := (x.orders.get r).quantity
      slippage := slippage
      fee := fee }) (fillPrice : ℚ) :
    Progress N strict admits start (staleIn book (ids ++ [(x.orders.get r).id]))
      ((x.withOrders ((x.orders.setStatus r .filled).update r f)).finalizeOrderExecution N m r
        fillPrice) := by
  obtain ⟨hevolves, hdone⟩ := evolves_filled hr.pending happly
  obtain ⟨hc, hvalid, hget⟩ := h.finishEntry hr ((x.orders.setStatus r .filled).update r f)
    (OrderTable.objects_update_setStatus _ _ _ _) hevolves hdone rfl rfl rfl rfl
  rw [← hget] at hdone
  rw [happly] at hget
  generalize (x.orders.setStatus r .filled).update r f = t at hc hvalid hget hdone ⊢
  exact h.fill hr.issued hr.pending hvalid hc hdone m (t.get r)
    { orderId := (t.get r).id
      symbol := (t.get r).symbol
      side := (t.get r).side
      quantity := (t.get r).quantity }
    (by rw [hget]; exact hr.rests.1) rfl (by rw [hget]; rfl) (by rw [hget]; rfl)
    (t.get r).fee (fillPrice * (t.get r).filledQuantity) false none none

theorem Progress.executeLimitOrder (h : Progress N strict admits start (staleIn book ids) x)
    (hr : x.Resting book r) (price : ℚ) :
    Progress N strict admits start (staleIn book (ids ++ [(x.orders.get r).id]))
      (x.executeLimitOrder N m r price) := by
  unfold SimulatedExchange.executeLimitOrder
  split
  · exact h.refuse hr (by decide) _
  · exact h.execute hr rfl price

theorem Progress.executeMarketOrder (h : Progress N strict admits start (staleIn book ids) x)
    (hr : x.Resting book r) (price : ℚ) :
    Progress N strict admits start (staleIn book (ids ++ [(x.orders.get r).id]))
      (x.executeMarketOrder N m r price) := by
  unfold SimulatedExchange.executeMarketOrder
  simp only
  split
  · exact h.refuse hr (by decide) _
  · exact h.execute hr rfl _

end SimulatedExchange

end TradingSim.Exchange
