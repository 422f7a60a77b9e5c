import TradingSim.Exchange.Operations

/-!
# Which orders a call tells of

A call on the exchange returns orders, and its caller announces those and no others. `Tells` says
that a call has left the status of every accepted order alone but for the returned ones, and has put
no other order into a book.

Resolving an OCO group is where a call may say too little: the orders it cancels are returned by
nobody.
-/

namespace TradingSim.Exchange

open Foundations

namespace OrderTable

/-- `get_pending_orders`: all resting orders, book after book. -/
def pendingOrders (t : OrderTable) : List Ref :=
  PendingBook.all.flatMap fun book => (t.pending book).values

/-- A pending order of a group, other than the one with the given id. -/
def Rival (t : OrderTable) (id : String) (group : Option String) (r : Ref) : Prop :=
  (t.get r).id ≠ id ∧ (t.get r).status = .pending ∧ group ≠ none ∧ (t.get r).ocoGroupId = group

/-- No other order of the group rests in a book. -/
def Unrivalled (t : OrderTable) (id : String) (group : Option String) : Prop :=
  ∀ r ∈ t.pendingOrders, ¬ t.Rival id group r

instance (t : OrderTable) (id : String) (group : Option String) : Decidable (t.Unrivalled id group) :=
  inferInstanceAs (Decidable (∀ r ∈ _, ¬ (_ ∧ _ ∧ _ ∧ _)))

theorem mem_pendingOrders (t : OrderTable) (r : Ref) :
    r ∈ t.pendingOrders ↔ ∃ book k, (t.pending book).find? k = some r := by
  have hvalues : ∀ book, r ∈ (t.pending book).values ↔ ∃ k, (t.pending book).find? k = some r := by
    intro book
    simp only [Dict.values, List.mem_map, Prod.exists, exists_eq_right, Dict.mem_entries_iff]
  rw [pendingOrders, List.mem_flatMap]
  constructor
  · rintro ⟨book, -, hmem⟩
    exact ⟨book, (hvalues book).mp hmem⟩
  · rintro ⟨book, k, hfind⟩
    exact ⟨book, by cases book <;> decide, (hvalues book).mpr ⟨k, hfind⟩⟩

/-- An accepted order in a group without a resting order is no rival. -/
theorem Valid.not_rival {stale : PendingBook → String → Prop} {t : OrderTable} (h : t.Valid stale)
    {id : String} {group : Option String} (halone : t.Unrivalled id group) {r : Ref}
    (hr : r ∈ t.accepted) : ¬ t.Rival id group r := by
  intro hrival
  obtain ⟨book, hfind⟩ := h.resting r hr hrival.2.1
  exact halone r ((t.mem_pendingOrders r).mpr ⟨book, _, hfind⟩) hrival

theorem Valid.touches_resolveOco {stale : PendingBook → String → Prop} {t : OrderTable}
    (h : t.Valid stale) {r : Ref} (r' : Ref) : ((t.resolveOco r).get r').exchange = (t.get r').exchange ∧
      (¬ t.Rival (t.get r).id (t.get r).ocoGroupId r' → (t.resolveOco r).get r' = t.get r') := by
  unfold OrderTable.resolveOco
  cases hgroup : (t.get r).ocoGroupId with
  | none => exact ⟨rfl, fun _ => rfl⟩
  | some g =>
    simp only
    cases hfind : t.ocoGroups.find? g with
    | none => exact ⟨rfl, fun _ => rfl⟩
    | some group =>
      simp only
      split
      · exact ⟨rfl, fun _ => rfl⟩
      · obtain ⟨hcancels, -⟩ := foldl_cancelSibling (t.get r).id group.orders t []
          fun a ha => (h.grouped g group hfind a ha).1.1
        simp only [onFill, foldl_popEverywhere]
        generalize group.orders.foldl (cancelSibling (t.get r).id) (t, []) = swept at hcancels ⊢
        by_cases hsibling : r' ∈ group.orders ∧ t.Sibling (t.get r).id r'
        · have hget := hcancels.get_cancelled r' hsibling
          refine ⟨?_, fun hrival => ?_⟩
          · change (swept.1.get r').exchange = _
            rw [hget]
          · have hnamed := (h.grouped g group hfind r' hsibling.1).2
            exact absurd ⟨hsibling.2.1, hsibling.2.2, Option.some_ne_none g, hnamed⟩ hrival
        · have hget : swept.1.get r' = t.get r' := hcancels.get_other r' hsibling
          refine ⟨?_, fun _ => hget⟩
          change (swept.1.get r').exchange = _
          rw [hget]

end OrderTable

namespace SimulatedExchange

/-- Every order object names the exchange that created it. -/
def Named (x : SimulatedExchange) : Prop :=
  ∀ r, x.orders.objects.Live r → (x.orders.get r).exchange = x.exchangeId

/-- To a later moment, no accepted order but the told ones has changed its status, and no other order was
accepted or put into a book. -/
structure Tells (told : List Ref) (x x' : SimulatedExchange) : Prop where
  exchangeId : x'.exchangeId = x.exchangeId
  named : x.Named → x'.Named
  status : ∀ r ∈ x.orders.accepted, r ∉ told → (x'.orders.get r).status = (x.orders.get r).status
  accepted : ∀ r ∈ x.orders.accepted, r ∈ x'.orders.accepted
  answered : ∀ r ∈ x'.orders.accepted, r ∈ x.orders.accepted ∨ r ∈ told
  booked : ∀ book k r, (x'.orders.pending book).find? k = some r →
    (x.orders.pending book).find? k = some r ∨ r ∈ told

/-- The orders have reached a final status. -/
def Concluded (x : SimulatedExchange) (told : List Ref) : Prop :=
  ∀ r ∈ told, x.orders.objects.Live r ∧ (x.orders.get r).status ≠ .pending

variable {N : Numerics} {m : MarketView} {x x' x'' : SimulatedExchange} {told told' : List Ref}
  {r : Ref} {stale : PendingBook → String → Prop}

namespace Tells

theorem refl (x : SimulatedExchange) : Tells told x x :=
  ⟨rfl, id, fun _ _ _ => rfl, fun _ hr => hr, fun _ hr => Or.inl hr, fun _ _ _ h => Or.inl h⟩

theorem trans (h : Tells told x x') (h' : Tells told' x' x'') : Tells (told ++ told') x x'' where
  exchangeId := h'.exchangeId.trans h.exchangeId
  named hx := h'.named (h.named hx)
  status := by
    intro r hr hnot
    rw [List.mem_append, not_or] at hnot
    exact (h'.status r (h.accepted r hr) hnot.2).trans (h.status r hr hnot.1)
  accepted r hr := h'.accepted r (h.accepted r hr)
  answered := by
    intro r hr
    rw [List.mem_append]
    rcases h'.answered r hr with hold | hnew
    · exact (h.answered r hold).imp_right Or.inl
    · exact Or.inr (Or.inr hnew)
  booked := by
    intro book k r hfind
    rw [List.mem_append]
    rcases h'.booked book k r hfind with hold | hnew
    · exact (h.booked book k r hold).imp_right Or.inl
    · exact Or.inr (Or.inr hnew)

/-- More orders may be told of. -/
theorem mono (h : Tells told x x') (hsub : ∀ r ∈ told, r ∈ told') : Tells told' x x' where
  exchangeId := h.exchangeId
  named := h.named
  status r hr hnot := h.status r hr fun hmem => hnot (hsub r hmem)
  accepted := h.accepted
  answered r hr := (h.answered r hr).imp_right (hsub r)
  booked book k r hfind := (h.booked book k r hfind).imp_right (hsub r)

/-- Two parts of a call that tell of the same orders. -/
theorem tail (h : Tells told x x') (h' : Tells told x' x'') : Tells told x x'' :=
  (h.trans h').mono fun _ hr => (List.mem_append.mp hr).elim id id

/-- Only the order side matters. -/
theorem congr (h : Tells told x x') (hid : x''.exchangeId = x'.exchangeId)
    (horders : x''.orders = x'.orders) : Tells told x x'' where
  exchangeId := hid.trans h.exchangeId
  named hx := by
    unfold Named
    rw [horders, hid]
    exact h.named hx
  status := horders ▸ h.status
  accepted := horders ▸ h.accepted
  answered := horders ▸ h.answered
  booked := horders ▸ h.booked

/-- An update of an order that is told of, that was not accepted, or that keeps its status. -/
theorem modify {t : OrderTable} {f : Order → Order} (hobjects : t.objects = x.orders.objects.modify r f)
    (hexchange : ∀ o, (f o).exchange = o.exchange) (hstatus : r ∈ told ∨ r ∉ x.orders.accepted ∨
      (f (x.orders.get r)).status = (x.orders.get r).status)
    (haccepted : t.accepted = x.orders.accepted) (hpending : t.pending = x.orders.pending) :
    Tells told x (x.withOrders t) where
  exchangeId := rfl
  named := by
    intro hx r' hlive
    change t.objects.Live r' at hlive
    change (t.objects.get r').exchange = x.exchangeId
    rw [hobjects, Heap.live_modify] at hlive
    rw [hobjects]
    by_cases heq : r' = r
    · rw [heq] at hlive ⊢
      rw [Heap.get_modify_self _ hlive, hexchange]
      exact hx r hlive
    · rw [Heap.get_modify_of_ne _ heq]
      exact hx r' hlive
  status := by
    intro r' hr' hnot
    change (t.objects.get r').status = (x.orders.objects.get r').status
    rw [hobjects]
    by_cases heq : r' = r
    · rw [heq] at hr' hnot ⊢
      by_cases hlive : x.orders.objects.Live r
      · rw [Heap.get_modify_self _ hlive]
        exact (hstatus.resolve_left hnot).resolve_left fun hfresh => hfresh hr'
      · rw [Heap.modify_of_not_live _ hlive]
    · rw [Heap.get_modify_of_ne _ heq]
  accepted r' hr' := by rwa [show (x.withOrders t).orders.accepted = x.orders.accepted from haccepted]
  answered r' hr' := Or.inl (haccepted ▸ hr')
  booked book k r' hfind := Or.inl (hpending ▸ hfind)

theorem withOrders {t : OrderTable} (hobjects : t.objects = x.orders.objects)
    (haccepted : t.accepted = x.orders.accepted) (hbooked : ∀ book k r, (t.pending book).find? k = some r →
      (x.orders.pending book).find? k = some r ∨ r ∈ told) : Tells told x (x.withOrders t) where
  exchangeId := rfl
  named hx := by
    intro r hlive
    change t.objects.Live r at hlive
    change (t.objects.get r).exchange = x.exchangeId
    rw [hobjects] at hlive ⊢
    exact hx r hlive
  status r _ _ := by
    change (t.objects.get r).status = (x.orders.objects.get r).status
    rw [hobjects]
  accepted r hr := by rwa [show (x.withOrders t).orders.accepted = x.orders.accepted from haccepted]
  answered r hr := Or.inl (haccepted ▸ hr)
  booked := hbooked

/-- A new order object. -/
theorem create (hvalid : x.orders.Valid stale) {o : Order} (ho : o.exchange = x.exchangeId) :
    Tells told x (x.withOrders (x.orders.create o)) where
  exchangeId := rfl
  named := by
    intro hx r hlive
    change ((x.orders.objects.alloc o).get r).exchange = x.exchangeId
    rcases (Heap.live_alloc _ _ _).mp hlive with hold | rfl
    · rw [Heap.get_alloc_of_live _ _ hold]
      exact hx r hold
    · rw [Heap.get_alloc_next, ho]
  status r hr _ := by
    change ((x.orders.objects.alloc o).get r).status = (x.orders.objects.get r).status
    rw [Heap.get_alloc_of_live _ _ (hvalid.acceptedIssued r hr).1]
  accepted _ hr := hr
  answered _ hr := Or.inl hr
  booked _ _ _ hfind := Or.inl hfind

/-- Deleting an entry. -/
theorem popPending (book : PendingBook) (key : String) :
    Tells told x (x.withOrders (x.orders.popPending book key)) := by
  refine .withOrders rfl rfl fun book' k r hfind => Or.inl ?_
  change (Function.update x.orders.pending book _ book').find? k = some r at hfind
  by_cases hbook : book' = book
  · subst hbook
    rw [Function.update_self, Dict.find?_erase] at hfind
    split at hfind
    · cases hfind
    · exact hfind
  · rwa [Function.update_of_ne hbook] at hfind

theorem deleteIds (book : PendingBook) (ids : List String) (t : OrderTable) : Tells told (x.withOrders t)
      (x.withOrders (ids.foldl (fun t' id => t'.popPending book id) t)) := by
  induction ids generalizing t with
  | nil => exact .refl _
  | cons id rest ih => exact (popPending (x := x.withOrders t) book id).tail (ih _)

theorem resolveOco (hvalid : x.orders.Valid stale) (hr : x.orders.Issued r)
    (hfree : ∀ r' ∈ x.orders.accepted, r' ∉ told →
      ¬ x.orders.Rival (x.orders.get r).id (x.orders.get r).ocoGroupId r') :
    Tells told x (x.withOrders (x.orders.resolveOco r)) where
  exchangeId := rfl
  named := by
    intro hx r' hlive
    change ((x.orders.resolveOco r).get r').exchange = x.exchangeId
    rw [(hvalid.touches_resolveOco r').1]
    exact hx r' (((hvalid.resolveOco hr).1.narrows.live r').mp hlive)
  status r' hr' hnot := by
    change ((x.orders.resolveOco r).get r').status = _
    rw [(hvalid.touches_resolveOco r').2 (hfree r' hr' hnot)]
  accepted r' hr' := (hvalid.resolveOco hr).1.narrows.accepted ▸ hr'
  answered r' hr' := Or.inl ((hvalid.resolveOco hr).1.narrows.accepted ▸ hr')
  booked book k r' hfind := Or.inl ((hvalid.resolveOco hr).1.narrows.shrinks book k r' hfind)

end Tells

/-- Filling an order and resolving its group, in which no other accepted order is pending. -/
theorem tells_fill (hvalid : x.orders.Valid stale) (hr : x.orders.Issued r) (t : OrderTable)
    {f : Order → Order} (hobjects : t.objects = x.orders.objects.modify r f)
    (hexchange : ∀ o, (f o).exchange = o.exchange)
    (hevolves : (x.orders.get r).Evolves (f (x.orders.get r)))
    (hdone : (f (x.orders.get r)).status ≠ .pending) (hcounter : t.orderCounter = x.orders.orderCounter)
    (haccepted : t.accepted = x.orders.accepted) (hpending : t.pending = x.orders.pending)
    (hgroups : t.ocoGroups = x.orders.ocoGroups) (hfree : ∀ r' ∈ x.orders.accepted,
      ¬ x.orders.Rival (x.orders.get r).id (x.orders.get r).ocoGroupId r') :
    Tells [r] x (x.withOrders (t.resolveOco r)) ∧ (x.withOrders (t.resolveOco r)).Concluded [r] := by
  obtain ⟨hn, hvalid'⟩ := hvalid.finish t hr.1 hobjects hevolves hdone hcounter haccepted hpending
    hgroups
  have hissued : t.Issued r := (hn.issued_iff r).mpr hr
  have hget : t.get r = f (x.orders.get r) := by
    rw [OrderTable.get, hobjects, Heap.get_modify_self _ hr.1]
    rfl
  obtain ⟨hresolves, -⟩ := hvalid'.resolveOco hissued
  have hfilled : Tells [r] x (x.withOrders t) :=
    .modify hobjects hexchange (Or.inl List.mem_cons_self) haccepted hpending
  have hresolved : Tells [r] (x.withOrders t) (x.withOrders (t.resolveOco r)) := by
    refine .resolveOco (x := x.withOrders t) hvalid' hissued ?_
    intro r' hr' hne hrival
    have hother : t.get r' = x.orders.get r' := by
      rw [OrderTable.get, hobjects]
      exact Heap.get_modify_of_ne _ (fun heq => hne (List.mem_singleton.mpr heq)) _
    refine hfree r' (haccepted ▸ hr') ?_
    change (t.get r').id ≠ (t.get r).id ∧ (t.get r').status = _ ∧ (t.get r).ocoGroupId ≠ _ ∧
      (t.get r').ocoGroupId = (t.get r).ocoGroupId at hrival
    rwa [hother, hget, hevolves.id, hevolves.group] at hrival
  refine ⟨hfilled.tail hresolved, ?_⟩
  intro r' hr'
  rw [List.mem_singleton.mp hr']
  refine ⟨(hresolves.narrows.live r).mpr hissued.1, ?_⟩
  change ((t.resolveOco r).get r).status ≠ .pending
  rw [hresolves.get_self, hget]
  exact hdone

/-- Giving an order a final status. -/
theorem tells_finish (hlive : x.orders.objects.Live r) {t : OrderTable} {f : Order → Order}
    (hobjects : t.objects = x.orders.objects.modify r f)
    (hexchange : ∀ o, (f o).exchange = o.exchange) (hdone : ∀ o, (f o).status ≠ .pending)
    (haccepted : t.accepted = x.orders.accepted) (hpending : t.pending = x.orders.pending) :
    Tells [r] x (x.withOrders t) ∧ (x.withOrders t).Concluded [r] := by
  refine ⟨.modify hobjects hexchange (Or.inl List.mem_cons_self) haccepted hpending, ?_⟩
  intro r' hr'
  rw [List.mem_singleton.mp hr']
  change t.objects.Live r ∧ (t.objects.get r).status ≠ .pending
  rw [hobjects, Heap.get_modify_self _ hlive]
  exact ⟨(Heap.live_modify _ _ _ _).mpr hlive, hdone _⟩

end SimulatedExchange

end TradingSim.Exchange
