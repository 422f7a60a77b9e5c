import TradingSim.Exchange.Liquidation

/-!
# What may happen to an order

An order keeps its identity, its terms and its OCO group for good, the hidden part of an iceberg
only shrinks, and an order that has left `pending` keeps status and executed quantity.

`OrderTable.Valid` ties the pending books, the OCO groups and the accepted orders together. A sweep
breaks it for the entries it has dealt with and not yet deleted; `stale` names them, and is empty
between calls.
-/

namespace TradingSim.Exchange

open Foundations

/-- A later state of an order's class fields. -/
def OrderKind.Evolves : OrderKind → OrderKind → Prop
  | .plain, .plain => True
  | .stopLimit _, .stopLimit _ => True
  | .trailingStop _, .trailingStop _ => True
  | .iceberg fields, .iceberg fields' =>
    fields'.visibleQuantity = fields.visibleQuantity ∧ fields'.hiddenQuantity ≤ fields.hiddenQuantity
  | _, _ => False

theorem OrderKind.Evolves.refl (kind : OrderKind) : kind.Evolves kind := by
  cases kind with
  | plain => trivial
  | stopLimit _ => trivial
  | trailingStop _ => trivial
  | iceberg _ => exact ⟨rfl, le_rfl⟩

theorem OrderKind.Evolves.trans {a b c : OrderKind} (hab : a.Evolves b) (hbc : b.Evolves c) :
    a.Evolves c := by
  cases a <;> cases b <;> cases c <;>
    first
    | exact hab.elim
    | exact hbc.elim
    | trivial
    | exact ⟨hbc.1.trans hab.1, hbc.2.trans hab.2⟩

/-- A later state of the same order. -/
structure Order.Evolves (o o' : Order) : Prop where
  id : o'.id = o.id
  symbol : o'.symbol = o.symbol
  side : o'.side = o.side
  orderType : o'.orderType = o.orderType
  quantity : o'.quantity = o.quantity
  price : o'.price = o.price
  group : o'.ocoGroupId = o.ocoGroupId
  kind : o.kind.Evolves o'.kind
  frozen : o.status ≠ .pending → o'.status = o.status ∧ o'.filledQuantity = o.filledQuantity

namespace Order.Evolves

theorem refl (o : Order) : o.Evolves o :=
  ⟨rfl, rfl, rfl, rfl, rfl, rfl, rfl, .refl _, fun _ => ⟨rfl, rfl⟩⟩

theorem trans {a b c : Order} (hab : a.Evolves b) (hbc : b.Evolves c) : a.Evolves c where
  id := hbc.id.trans hab.id
  symbol := hbc.symbol.trans hab.symbol
  side := hbc.side.trans hab.side
  orderType := hbc.orderType.trans hab.orderType
  quantity := hbc.quantity.trans hab.quantity
  price := hbc.price.trans hab.price
  group := hbc.group.trans hab.group
  kind := hab.kind.trans hbc.kind
  frozen := by
    intro hstatus
    obtain ⟨hs, hq⟩ := hab.frozen hstatus
    obtain ⟨hs', hq'⟩ := hbc.frozen (by rwa [hs])
    exact ⟨hs'.trans hs, hq'.trans hq⟩

theorem pending_of_pending {o o' : Order} (h : o.Evolves o') (hpending : o'.status = .pending) :
    o.status = .pending := by
  by_contra hne
  exact hne ((h.frozen hne).1.symm.trans hpending)

end Order.Evolves

/-- The order has the type and the class of the orders that rest in a book. -/
def Order.Rests (o : Order) (book : PendingBook) : Prop :=
  0 < o.quantity ∧ o.orderType.book = some book ∧
    ∀ fields, o.kind = .iceberg fields → 0 < fields.visibleQuantity

theorem Order.Rests.evolves {o o' : Order} {book : PendingBook} (h : o.Rests book)
    (hev : o.Evolves o') : o'.Rests book := by
  obtain ⟨hquantity, hbook, hvisible⟩ := h
  refine ⟨hev.quantity ▸ hquantity, hev.orderType ▸ hbook, ?_⟩
  intro fields' hkind'
  have hkind := hev.kind
  rw [hkind'] at hkind
  cases hk : o.kind with
  | iceberg fields =>
    rw [hk] at hkind
    rw [hkind.1]
    exact hvisible fields hk
  | plain => rw [hk] at hkind; exact hkind.elim
  | stopLimit _ => rw [hk] at hkind; exact hkind.elim
  | trailingStop _ => rw [hk] at hkind; exact hkind.elim

namespace OrderTable

/-- Every order of one table is in a later state in the other. -/
def Evolves (t t' : OrderTable) : Prop :=
  ∀ r, t.objects.Live r → t'.objects.Live r ∧ (t.get r).Evolves (t'.get r)

theorem Evolves.refl (t : OrderTable) : t.Evolves t := fun _ hr => ⟨hr, .refl _⟩

theorem Evolves.trans {a b c : OrderTable} (hab : a.Evolves b) (hbc : b.Evolves c) : a.Evolves c := by
  intro r hr
  obtain ⟨hlive, hev⟩ := hab r hr
  obtain ⟨hlive', hev'⟩ := hbc r hlive
  exact ⟨hlive', hev.trans hev'⟩

/-- The order was created by a submission. -/
def Issued (t : OrderTable) (r : Ref) : Prop := t.objects.Live r ∧ ∃ n, (t.get r).id = orderId n

theorem Issued.evolves {t t' : OrderTable} {r : Ref} (h : t.Issued r) (hev : t.Evolves t') :
    t'.Issued r := by
  obtain ⟨hlive, n, hid⟩ := h
  exact ⟨(hev r hlive).1, n, (hev r hlive).2.id.trans hid⟩

/-- The invariant of the order side, up to the entries that a sweep is about to delete. -/
structure Valid (stale : PendingBook → String → Prop) (t : OrderTable) : Prop where
  idBound : ∀ r n, t.objects.Live r → (t.get r).id = orderId n → n < t.orderCounter
  idUnique : ∀ r r', t.Issued r → t.Issued r' → (t.get r).id = (t.get r').id → r = r'
  acceptedIssued : ∀ r ∈ t.accepted, t.Issued r
  booked : ∀ book k r, (t.pending book).find? k = some r →
    t.Issued r ∧ (t.get r).id = k ∧ (t.get r).Rests book ∧
      ((t.get r).status = .pending ↔ ¬ stale book k)
  resting : ∀ r ∈ t.accepted, (t.get r).status = .pending →
    ∃ book, (t.pending book).find? (t.get r).id = some r
  grouped : ∀ g group, t.ocoGroups.find? g = some group → ∀ r ∈ group.orders,
    t.Issued r ∧ (t.get r).ocoGroupId = some g
  enrolled : ∀ r g, t.Issued r → (t.get r).ocoGroupId = some g →
    ∃ group, t.ocoGroups.find? g = some group ∧ r ∈ group.orders

/-- The invariant between calls, with no entry left to delete. -/
abbrev Consistent (t : OrderTable) : Prop := t.Valid fun _ _ => False

theorem Valid.stale_congr {stale stale' : PendingBook → String → Prop} {t : OrderTable} (h : t.Valid stale)
    (hiff : ∀ book k r, (t.pending book).find? k = some r → (stale book k ↔ stale' book k)) :
    t.Valid stale' :=
  { h with
    booked := by
      intro book k r hfind
      obtain ⟨hissued, hid, hrests, hstatus⟩ := h.booked book k r hfind
      exact ⟨hissued, hid, hrests, by rw [hstatus, hiff book k r hfind]⟩ }

/-- The orders are the same, later, and the books have lost no pending order. -/
structure Narrows (t t' : OrderTable) : Prop where
  live : ∀ r, t'.objects.Live r ↔ t.objects.Live r
  order : ∀ r, t.objects.Live r → (t.get r).Evolves (t'.get r)
  counter : t'.orderCounter = t.orderCounter
  accepted : t'.accepted = t.accepted
  shrinks : ∀ book k r, (t'.pending book).find? k = some r → (t.pending book).find? k = some r
  keeps : ∀ book k r, t.objects.Live r → (t.pending book).find? k = some r →
    (t'.get r).status = .pending → (t'.pending book).find? k = some r
  groups : ∀ g, (t'.ocoGroups.find? g).map (·.orders) = (t.ocoGroups.find? g).map (·.orders)

namespace Narrows

theorem refl (t : OrderTable) : t.Narrows t :=
  ⟨fun _ => Iff.rfl, fun _ _ => .refl _, rfl, rfl, fun _ _ _ h => h, fun _ _ _ _ h _ => h,
    fun _ => rfl⟩

theorem evolves {t t' : OrderTable} (h : t.Narrows t') : t.Evolves t' :=
  fun r hr => ⟨(h.live r).mpr hr, h.order r hr⟩

theorem issued_iff {t t' : OrderTable} (h : t.Narrows t') (r : Ref) : t'.Issued r ↔ t.Issued r := by
  constructor
  · intro ⟨hlive, n, hid⟩
    have hlive' := (h.live r).mp hlive
    exact ⟨hlive', n, (h.order r hlive').id.symm.trans hid⟩
  · exact fun hissued => hissued.evolves h.evolves

/-- An update of one order that evolves it. -/
theorem of_modify {t t' : OrderTable} {r : Ref} {f : Order → Order}
    (hobjects : t'.objects = t.objects.modify r f) (hf : (t.get r).Evolves (f (t.get r)))
    (hcounter : t'.orderCounter = t.orderCounter) (haccepted : t'.accepted = t.accepted)
    (hpending : t'.pending = t.pending) (hgroups : t'.ocoGroups = t.ocoGroups) : t.Narrows t' where
  live r' := by rw [hobjects, Heap.live_modify]
  order r' hr' := by
    rw [get, get, hobjects]
    by_cases heq : r' = r
    · subst heq
      rw [Heap.get_modify_self _ hr']
      exact hf
    · rw [Heap.get_modify_of_ne _ heq]
      exact .refl _
  counter := hcounter
  accepted := haccepted
  shrinks book k r' hfind := by rwa [hpending] at hfind
  keeps book k r' _ hfind _ := by rwa [hpending]
  groups g := by rw [hgroups]

end Narrows

theorem Valid.narrow {stale stale' : PendingBook → String → Prop} {t t' : OrderTable}
    (h : t.Valid stale) (hn : t.Narrows t') (hstale : ∀ book k r, (t'.pending book).find? k = some r →
      ((t'.get r).status = .pending ↔ ¬ stale' book k)) : t'.Valid stale' where
  idBound := by
    intro r n hlive hid
    have hlive' := (hn.live r).mp hlive
    rw [hn.counter]
    exact h.idBound r n hlive' ((hn.order r hlive').id.symm.trans hid)
  idUnique := by
    intro r r' hr hr' hid
    have hissued := (hn.issued_iff r).mp hr
    have hissued' := (hn.issued_iff r').mp hr'
    rw [(hn.order r hissued.1).id, (hn.order r' hissued'.1).id] at hid
    exact h.idUnique r r' hissued hissued' hid
  acceptedIssued := by
    intro r hr
    rw [hn.accepted] at hr
    exact (hn.issued_iff r).mpr (h.acceptedIssued r hr)
  booked := by
    intro book k r hfind
    obtain ⟨hissued, hid, hrests, -⟩ := h.booked book k r (hn.shrinks book k r hfind)
    have hev := hn.order r hissued.1
    exact ⟨(hn.issued_iff r).mpr hissued, hev.id.trans hid, hrests.evolves hev,
      hstale book k r hfind⟩
  resting := by
    intro r hr hpending
    rw [hn.accepted] at hr
    have hissued := h.acceptedIssued r hr
    have hev := hn.order r hissued.1
    obtain ⟨book, hfind⟩ := h.resting r hr (hev.pending_of_pending hpending)
    exact ⟨book, hev.id ▸ hn.keeps book _ r hissued.1 hfind hpending⟩
  grouped := by
    intro g group' hfind' r hr
    have hgroups := hn.groups g
    rw [hfind'] at hgroups
    cases hfind : t.ocoGroups.find? g with
    | none => rw [hfind] at hgroups; cases hgroups
    | some group =>
      rw [hfind] at hgroups
      simp only [Option.map_some, Option.some.injEq] at hgroups
      obtain ⟨hissued, hgroup⟩ := h.grouped g group hfind r (hgroups ▸ hr)
      exact ⟨(hn.issued_iff r).mpr hissued, (hn.order r hissued.1).group.trans hgroup⟩
  enrolled := by
    intro r g hr hgroup'
    have hissued := (hn.issued_iff r).mp hr
    have hgroup := (hn.order r hissued.1).group.symm.trans hgroup'
    obtain ⟨group, hfind, hmem⟩ := h.enrolled r g hissued hgroup
    have hgroups := hn.groups g
    rw [hfind] at hgroups
    cases hfind' : t'.ocoGroups.find? g with
    | none => rw [hfind'] at hgroups; cases hgroups
    | some group' =>
      rw [hfind'] at hgroups
      simp only [Option.map_some, Option.some.injEq] at hgroups
      exact ⟨group', rfl, hgroups ▸ hmem⟩

theorem Valid.entry_unique {stale : PendingBook → String → Prop} {t : OrderTable}
    (h : t.Valid stale) {r r' : Ref} {book : PendingBook} {k : String} (hr : t.Issued r)
    (hid : (t.get r).id = k) (hfind : (t.pending book).find? k = some r') : r' = r := by
  obtain ⟨hissued, hid', -, -⟩ := h.booked book k r' hfind
  exact h.idUnique r' r hissued hr (hid'.trans hid.symm)

end OrderTable

end TradingSim.Exchange
