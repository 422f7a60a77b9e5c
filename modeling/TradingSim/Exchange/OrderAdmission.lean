import TradingSim.Exchange.OrderSteps

/-!
# New orders

A submitted order takes the next number, so its id is new, and enters its OCO group
before it rests anywhere. The slice of an iceberg is an order object as well, with an id
that no submitted order can have, in no group and in no book.
-/

namespace TradingSim.Exchange

open Foundations

namespace OrderTable

variable {stale : PendingBook → String → Prop} {t t' : OrderTable} {r : Ref} {o : Order}

/-- Creating an order leaves the existing ones alone. -/
theorem get_of_alloc (hobjects : t'.objects = t.objects.alloc o) {r : Ref}
    (hr : t.objects.Live r) : t'.get r = t.get r := by
  rw [get, hobjects, Heap.get_alloc_of_live _ _ hr]
  rfl

theorem evolves_of_alloc (hobjects : t'.objects = t.objects.alloc o) : t.Evolves t' := by
  intro r hr
  refine ⟨by rw [hobjects]; exact (Heap.live_alloc _ _ _).mpr (Or.inl hr), ?_⟩
  rw [get_of_alloc hobjects hr]
  exact .refl _

theorem issued_of_alloc (hobjects : t'.objects = t.objects.alloc o) (hr : t.objects.Live r) :
    t'.Issued r ↔ t.Issued r := by
  unfold Issued
  rw [get_of_alloc hobjects hr, hobjects, Heap.live_alloc]
  exact and_congr_left fun _ => ⟨fun _ => hr, Or.inl⟩

theorem Valid.create (h : t.Valid stale) (ho : ∀ n, o.id ≠ orderId n) : (t.create o).Valid stale := by
  have hobjects : (t.create o).objects = t.objects.alloc o := rfl
  have hnext : (t.create o).get t.objects.next = o := Heap.get_alloc_next _ _
  have hold : ∀ r, (t.create o).objects.Live r → (∃ n, ((t.create o).get r).id = orderId n) →
      t.objects.Live r := by
    intro r hlive ⟨n, hid⟩
    rcases (Heap.live_alloc _ _ _).mp hlive with hlive' | rfl
    · exact hlive'
    · rw [hnext] at hid
      exact absurd hid (ho n)
  refine ⟨?_, ?_, ?_, ?_, ?_, ?_, ?_⟩
  · intro r n hlive hid
    have hlive' := hold r hlive ⟨n, hid⟩
    rw [get_of_alloc hobjects hlive'] at hid
    exact h.idBound r n hlive' hid
  · intro r r' hr hr' hid
    have hlive := hold r hr.1 hr.2
    have hlive' := hold r' hr'.1 hr'.2
    rw [get_of_alloc hobjects hlive, get_of_alloc hobjects hlive'] at hid
    exact h.idUnique r r' ((issued_of_alloc hobjects hlive).mp hr)
      ((issued_of_alloc hobjects hlive').mp hr') hid
  · exact fun r hr => (h.acceptedIssued r hr).evolves (evolves_of_alloc hobjects)
  · intro book k r hfind
    obtain ⟨hissued, hbooked⟩ := h.booked book k r hfind
    rw [get_of_alloc hobjects hissued.1]
    exact ⟨hissued.evolves (evolves_of_alloc hobjects), hbooked⟩
  · intro r hr
    rw [get_of_alloc hobjects (h.acceptedIssued r hr).1]
    exact h.resting r hr
  · intro g group hfind r hr
    obtain ⟨hissued, hgroup⟩ := h.grouped g group hfind r hr
    rw [get_of_alloc hobjects hissued.1]
    exact ⟨hissued.evolves (evolves_of_alloc hobjects), hgroup⟩
  · intro r g hr hgroup
    have hlive := hold r hr.1 hr.2
    rw [get_of_alloc hobjects hlive] at hgroup
    exact h.enrolled r g ((issued_of_alloc hobjects hlive).mp hr) hgroup

/-- The table right after an order was issued and entered into its group. -/
structure Admits (t t' : OrderTable) (o : Order) : Prop where
  valid : t'.Consistent
  evolves : t.Evolves t'
  live : ∀ r, t'.objects.Live r ↔ t.objects.Live r ∨ r = t.objects.next
  get_next : t'.get t.objects.next = o
  get_old : ∀ r, t.objects.Live r → t'.get r = t.get r
  issued : t'.Issued t.objects.next
  counter : t'.orderCounter = t.orderCounter + 1
  accepted : t'.accepted = t.accepted
  unbooked : ∀ book k, (t'.pending book).find? k ≠ some t.objects.next
  filledOrderOf : ∀ g, t'.filledOrderOf g = t.filledOrderOf g

theorem joinGroup_eq (t : OrderTable) (r : Ref) :
    ∃ groups, t.joinGroup r = { t with ocoGroups := groups } ∧
      (∀ g, (groups.find? g).bind (·.filledOrderId) = t.filledOrderOf g) ∧
      ∀ g r', (∃ group, groups.find? g = some group ∧ r' ∈ group.orders) ↔
        (∃ group, t.ocoGroups.find? g = some group ∧ r' ∈ group.orders) ∨
          (t.get r).ocoGroupId = some g ∧ r' = r := by
  unfold joinGroup
  cases hgroup : (t.get r).ocoGroupId with
  | none => exact ⟨t.ocoGroups, rfl, fun _ => rfl, fun g r' => by simp⟩
  | some groupId =>
    refine ⟨_, rfl, ?_, ?_⟩
    · intro g
      rw [Dict.find?_insert, filledOrderOf]
      by_cases heq : g = groupId
      · subst heq
        rw [if_pos rfl]
        cases t.ocoGroups.find? g <;> rfl
      · rw [if_neg heq]
    · intro g r'
      rw [Dict.find?_insert]
      by_cases heq : g = groupId
      · subst heq
        cases t.ocoGroups.find? g with
        | none => simp [OCOGroup.addOrder]
        | some group => simp [OCOGroup.addOrder]
      · have hne : ¬ some groupId = some g := fun hsome => heq (Option.some.inj hsome).symm
        rw [if_neg heq]
        exact (or_iff_left fun hnew => hne hnew.1).symm

theorem Valid.enter (h : t.Consistent) (hid : o.id = orderId t.orderCounter) :
    t.Admits ((t.issue o).joinGroup t.objects.next) o := by
  have hnext : (t.issue o).get t.objects.next = o := Heap.get_alloc_next _ _
  have hobjects : (t.issue o).objects = t.objects.alloc o := rfl
  obtain ⟨groups, heq, hfilled, horders⟩ := joinGroup_eq (t.issue o) t.objects.next
  rw [heq]
  rw [hnext] at horders
  have hold : ∀ r, t.objects.Live r → (t.issue o).get r = t.get r :=
    fun r hr => get_of_alloc hobjects hr
  have hsplit : ∀ r, (t.issue o).objects.Live r → t.objects.Live r ∨ r = t.objects.next :=
    fun r hr => (Heap.live_alloc _ _ _).mp hr
  have hissued : ∀ r, t.objects.Live r → (t.issue o).Issued r → t.Issued r :=
    fun r hr => (issued_of_alloc hobjects hr).mp
  have hkeep : ∀ r, t.Issued r → (t.issue o).Issued r :=
    fun r hr => hr.evolves (evolves_of_alloc hobjects)
  have hself : (t.issue o).Issued t.objects.next :=
    ⟨(Heap.live_alloc _ _ _).mpr (Or.inr rfl), t.orderCounter, by rw [hnext, hid]⟩
  have hfresh : ∀ r, t.Issued r → (t.get r).id ≠ o.id := by
    intro r hr heq'
    rw [hid] at heq'
    exact Nat.lt_irrefl _ (h.idBound r _ hr.1 heq')
  refine ⟨⟨?_, ?_, ?_, ?_, ?_, ?_, ?_⟩, evolves_of_alloc hobjects, Heap.live_alloc _ _, hnext, hold,
    hself, rfl, rfl, ?_, hfilled⟩
  · intro r n hlive hid'
    change ((t.issue o).get r).id = orderId n at hid'
    rcases hsplit r hlive with hlive' | rfl
    · rw [hold r hlive'] at hid'
      exact Nat.lt_succ_of_lt (h.idBound r n hlive' hid')
    · rw [hnext, hid] at hid'
      rw [orderId_injective hid'.symm]
      exact Nat.lt_succ_self _
  · intro r r' hr hr' hid'
    change ((t.issue o).get r).id = ((t.issue o).get r').id at hid'
    rcases hsplit r hr.1 with hlive | rfl
    · rcases hsplit r' hr'.1 with hlive' | rfl
      · rw [hold r hlive, hold r' hlive'] at hid'
        exact h.idUnique r r' (hissued r hlive hr) (hissued r' hlive' hr') hid'
      · rw [hold r hlive, hnext] at hid'
        exact absurd hid' (hfresh r (hissued r hlive hr))
    · rcases hsplit r' hr'.1 with hlive' | rfl
      · rw [hold r' hlive', hnext] at hid'
        exact absurd hid'.symm (hfresh r' (hissued r' hlive' hr'))
      · rfl
  · exact fun r hr => hkeep r (h.acceptedIssued r hr)
  · intro book k r hfind
    obtain ⟨hissued', hbooked⟩ := h.booked book k r hfind
    change (t.issue o).Issued r ∧ ((t.issue o).get r).id = k ∧ ((t.issue o).get r).Rests book ∧
      (((t.issue o).get r).status = .pending ↔ ¬ False)
    rw [hold r hissued'.1]
    exact ⟨hkeep r hissued', hbooked⟩
  · intro r hr hpending
    change ((t.issue o).get r).status = .pending at hpending
    have hlive := (h.acceptedIssued r hr).1
    rw [hold r hlive] at hpending
    obtain ⟨book, hfind⟩ := h.resting r hr hpending
    refine ⟨book, ?_⟩
    change (t.pending book).find? ((t.issue o).get r).id = some r
    rw [hold r hlive]
    exact hfind
  · intro g group hfind r hr
    change (t.issue o).Issued r ∧ ((t.issue o).get r).ocoGroupId = some g
    obtain ⟨group', hfind', hmem⟩ | ⟨hgroup, rfl⟩ := (horders g r).mp ⟨group, hfind, hr⟩
    · obtain ⟨hissued', hgroup⟩ := h.grouped g group' hfind' r hmem
      rw [hold r hissued'.1]
      exact ⟨hkeep r hissued', hgroup⟩
    · rw [hnext]
      exact ⟨hself, hgroup⟩
  · intro r g hr hgroup
    change ((t.issue o).get r).ocoGroupId = some g at hgroup
    apply (horders g r).mpr
    rcases hsplit r hr.1 with hlive | rfl
    · rw [hold r hlive] at hgroup
      exact Or.inl (h.enrolled r g (hissued r hlive hr) hgroup)
    · rw [hnext] at hgroup
      exact Or.inr ⟨hgroup, rfl⟩
  · intro book k hfind
    exact Heap.not_live_next _ (h.booked book k _ hfind).1.1

theorem Valid.rest (h : t.Consistent) (hr : t.Issued r) (hpending : (t.get r).status = .pending)
    {book : PendingBook} (hrests : (t.get r).Rests book) :
    t.Evolves (t.rest r book) ∧ (t.rest r book).Consistent ∧ (∀ r', (t.rest r book).get r' = t.get r') ∧
      ((t.rest r book).pending book).find? (t.get r).id = some r := by
  have hget : ∀ r', (t.rest r book).get r' = t.get r' := by
    intro r'
    change (t.setStatus r .pending).get r' = t.get r'
    rw [get_setStatus hr.1]
    by_cases heq : r' = r
    · rw [if_pos heq, heq, ← hpending]
    · rw [if_neg heq]
  have hlive : ∀ r', (t.rest r book).objects.Live r' ↔ t.objects.Live r' :=
    fun r' => Heap.live_modify _ _ _ _
  have hissued : ∀ r', (t.rest r book).Issued r' ↔ t.Issued r' := by
    intro r'
    rw [Issued, Issued, hget, hlive]
  have hfind : ∀ book' k, ((t.rest r book).pending book').find? k =
      if book' = book ∧ k = (t.get r).id then some r else (t.pending book').find? k := by
    intro book' k
    change (Function.update t.pending book _ book').find? k = _
    by_cases hbook : book' = book
    · subst hbook
      rw [Function.update_self, Dict.find?_insert]
      by_cases hk : k = (t.get r).id
      · rw [if_pos hk, if_pos ⟨rfl, hk⟩]
      · rw [if_neg hk, if_neg fun hc => hk hc.2]
        rfl
    · rw [Function.update_of_ne hbook, if_neg fun hc => hbook hc.1]
  refine ⟨fun r' hr' => ⟨(hlive r').mpr hr', by rw [hget]; exact .refl _⟩,
    ⟨?_, ?_, ?_, ?_, ?_, ?_, ?_⟩, hget, by rw [hfind, if_pos ⟨rfl, rfl⟩]⟩
  · intro r' n hlive' hid
    rw [hget] at hid
    exact h.idBound r' n ((hlive r').mp hlive') hid
  · intro r' r'' hr' hr'' hid
    rw [hget, hget] at hid
    exact h.idUnique r' r'' ((hissued r').mp hr') ((hissued r'').mp hr'') hid
  · exact fun r' hr' => (hissued r').mpr (h.acceptedIssued r' hr')
  · intro book' k r' hfind'
    rw [hfind] at hfind'
    rw [hissued, hget]
    by_cases hnew : book' = book ∧ k = (t.get r).id
    · rw [if_pos hnew, Option.some.injEq] at hfind'
      subst hfind'
      rw [hnew.1, hnew.2]
      exact ⟨hr, rfl, hrests, by simp [hpending]⟩
    · rw [if_neg hnew] at hfind'
      exact h.booked book' k r' hfind'
  · intro r' hr' hpending'
    rw [hget] at hpending' ⊢
    obtain ⟨book', hold⟩ := h.resting r' hr' hpending'
    refine ⟨book', ?_⟩
    rw [hfind]
    by_cases hnew : book' = book ∧ (t.get r').id = (t.get r).id
    · rw [if_pos hnew, h.idUnique r' r (h.acceptedIssued r' hr') hr hnew.2]
    · rw [if_neg hnew]
      exact hold
  · intro g group hfind' r' hr'
    rw [hissued, hget]
    exact h.grouped g group hfind' r' hr'
  · intro r' g hr' hgroup
    rw [hget] at hgroup
    exact h.enrolled r' g ((hissued r').mp hr') hgroup

/-- Returning an order from its submission. -/
theorem Valid.accept (h : t.Consistent) (hr : t.Issued r) (hbooked : (t.get r).status = .pending →
      ∃ book, (t.pending book).find? (t.get r).id = some r) : (t.accept r).Consistent where
  idBound := h.idBound
  idUnique := h.idUnique
  acceptedIssued r' hr' := by
    rcases List.mem_append.mp hr' with hold | hnew
    · exact h.acceptedIssued r' hold
    · rw [List.mem_singleton.mp hnew]
      exact hr
  booked := h.booked
  resting r' hr' := by
    rcases List.mem_append.mp hr' with hold | hnew
    · exact h.resting r' hold
    · rw [List.mem_singleton.mp hnew]
      exact hbooked
  grouped := h.grouped
  enrolled := h.enrolled

end OrderTable

end TradingSim.Exchange
