import TradingSim.Exchange.OrderEvolution

/-!
# What the operations do to the order side

One lemma per operation: the invariant it leaves behind, and the entries that become
stale. An operation that finishes an order makes exactly that order's entry stale;
resolving an OCO group deletes the entries of the orders it cancels and makes none stale.
-/

namespace TradingSim.Exchange

open Foundations

theorem orderId_ne_slice (n k : ℕ) (parent : String) : orderId n ≠ parent ++ "_slice_" ++ toString k := by
  intro heq
  apply underscore_not_mem_paddedHex 8 n
  rw [show paddedHex 8 n = parent ++ "_slice_" ++ toString k from heq]
  simp

theorem orderId_injective : Function.Injective orderId := paddedHex_injective 8

namespace OrderTable

variable {stale : PendingBook → String → Prop} {t : OrderTable} {r : Ref}

/-! ### Frames -/

@[simp] theorem get_record (t : OrderTable) (r r' : Ref) : (t.record r).get r' = t.get r' := rfl

@[simp] theorem get_accept (t : OrderTable) (r r' : Ref) : (t.accept r).get r' = t.get r' := rfl

theorem get_setStatus (hr : t.objects.Live r) (status : OrderStatus) (r' : Ref) :
    (t.setStatus r status).get r' = if r' = r then { t.get r' with status := status } else t.get r' :=
  Heap.get_modify _ hr r' _

theorem objects_conclude (t : OrderTable) (r : Ref) (status : OrderStatus) (reason : String) :
    (t.conclude r status reason).objects = t.objects.modify r fun o =>
      { o with status := status, rejectionReason := some reason } :=
  Heap.modify_modify _ _ _ _

theorem objects_update_setStatus (t : OrderTable) (r : Ref) (status : OrderStatus)
    (f : Order → Order) : ((t.setStatus r status).update r f).objects =
      t.objects.modify r fun o => f { o with status := status } :=
  Heap.modify_modify _ _ _ _

theorem get_update_setStatus {t : OrderTable} {r : Ref} (hlive : t.objects.Live r)
    (status : OrderStatus) (f : Order → Order) :
    ((t.setStatus r status).update r f).get r = f { t.get r with status := status } := by
  rw [get, objects_update_setStatus, Heap.get_modify_self _ hlive]
  rfl

theorem evolves_of_pending {o o' : Order} (hpending : o.status = .pending)
    (hstatic : o'.id = o.id ∧ o'.symbol = o.symbol ∧ o'.side = o.side ∧
      o'.orderType = o.orderType ∧ o'.quantity = o.quantity ∧ o'.price = o.price ∧
      o'.ocoGroupId = o.ocoGroupId) (hkind : o.kind.Evolves o'.kind) : o.Evolves o' := by
  obtain ⟨hid, hsymbol, hside, htype, hquantity, hprice, hgroup⟩ := hstatic
  exact ⟨hid, hsymbol, hside, htype, hquantity, hprice, hgroup, hkind,
    fun hne => absurd hpending hne⟩

/-! ### Finishing an order -/

/-- An update that takes an order out of `pending` makes its entry stale. -/
theorem Valid.finish {f : Order → Order} (h : t.Valid stale) (t' : OrderTable) (hr : t.objects.Live r)
    (hobjects : t'.objects = t.objects.modify r f) (hf : (t.get r).Evolves (f (t.get r)))
    (hdone : (f (t.get r)).status ≠ .pending) (hcounter : t'.orderCounter = t.orderCounter)
    (haccepted : t'.accepted = t.accepted) (hpending : t'.pending = t.pending)
    (hgroups : t'.ocoGroups = t.ocoGroups) :
    t.Narrows t' ∧ t'.Valid fun book k => stale book k ∨ (t.pending book).find? k = some r := by
  have hn : t.Narrows t' := .of_modify hobjects hf hcounter haccepted hpending hgroups
  refine ⟨hn, h.narrow hn ?_⟩
  intro book k r' hfind
  rw [hpending] at hfind
  obtain ⟨hissued, -, -, hstatus⟩ := h.booked book k r' hfind
  rw [get, hobjects, Heap.get_modify _ hr]
  by_cases heq : r' = r
  · subst heq
    rw [if_pos rfl]
    exact ⟨fun hp => absurd hp hdone, fun hns => absurd (Or.inr hfind) hns⟩
  · rw [if_neg heq, hfind]
    have hne : ¬ some r' = some r := fun hsome => heq (Option.some.inj hsome)
    rw [or_iff_left hne]
    exact hstatus

/-- An update of an order that keeps its status keeps the invariant. -/
theorem Valid.touch {f : Order → Order} (h : t.Valid stale) (hr : t.objects.Live r)
    (hf : (t.get r).Evolves (f (t.get r))) (hstatus : (f (t.get r)).status = (t.get r).status) :
    t.Narrows (t.update r f) ∧ (t.update r f).Valid stale := by
  have hn : t.Narrows (t.update r f) := .of_modify rfl hf rfl rfl rfl rfl
  refine ⟨hn, h.narrow hn ?_⟩
  intro book k r' hfind
  obtain ⟨-, -, -, hiff⟩ := h.booked book k r' hfind
  rw [← hiff, get, update, Heap.get_modify _ hr]
  by_cases heq : r' = r
  · subst heq
    rw [if_pos rfl, show t.objects.get r' = t.get r' from rfl, hstatus]
  · rw [if_neg heq]
    rfl

/-- Giving a pending order its final status. -/
theorem Valid.conclude (h : t.Valid stale) (hr : t.objects.Live r)
    (hpending : (t.get r).status = .pending) {status : OrderStatus} (hstatus : status ≠ .pending)
    (reason : String) : t.Narrows (t.conclude r status reason) ∧ (t.conclude r status reason).Valid
      fun book k => stale book k ∨ (t.pending book).find? k = some r := by
  have hf : (t.get r).Evolves
      { t.get r with status := status, rejectionReason := some reason } :=
    evolves_of_pending hpending ⟨rfl, rfl, rfl, rfl, rfl, rfl, rfl⟩ (.refl _)
  exact h.finish _ hr (objects_conclude t r status reason) hf hstatus rfl rfl rfl rfl

/-! ### Resolving an OCO group -/

/-- The pending orders of a group other than the one that filled. -/
def Sibling (t : OrderTable) (filledOrderId : String) (r : Ref) : Prop :=
  (t.get r).id ≠ filledOrderId ∧ (t.get r).status = .pending

/-- One table is the other with the orders of a set cancelled. -/
structure Cancels (t t' : OrderTable) (cancelled : Ref → Prop) : Prop where
  live : ∀ r, t'.objects.Live r ↔ t.objects.Live r
  get_cancelled : ∀ r, cancelled r → t'.get r = { t.get r with status := .cancelled }
  get_other : ∀ r, ¬ cancelled r → t'.get r = t.get r
  counter : t'.orderCounter = t.orderCounter
  accepted : t'.accepted = t.accepted
  pending : t'.pending = t.pending
  groups : t'.ocoGroups = t.ocoGroups

theorem Cancels.id {t t' : OrderTable} {cancelled : Ref → Prop} (h : t.Cancels t' cancelled)
    (r : Ref) : (t'.get r).id = (t.get r).id := by
  by_cases hc : cancelled r
  · rw [h.get_cancelled r hc]
  · rw [h.get_other r hc]

theorem Cancels.evolves {t t' : OrderTable} {cancelled : Ref → Prop} (h : t.Cancels t' cancelled)
    (hpending : ∀ r, cancelled r → (t.get r).status = .pending) (r : Ref) :
    (t.get r).Evolves (t'.get r) := by
  by_cases hc : cancelled r
  · rw [h.get_cancelled r hc]
    exact evolves_of_pending (hpending r hc) ⟨rfl, rfl, rfl, rfl, rfl, rfl, rfl⟩ (.refl _)
  · rw [h.get_other r hc]
    exact .refl _

theorem Cancels.find?_erased {t t' : OrderTable} {cancelled : Ref → Prop}
    (h : t.Cancels t' cancelled) (hvalid : t.Valid stale)
    (hissued : ∀ r, cancelled r → t.Issued r) {orders : List Ref}
    (horders : ∀ r, r ∈ orders ↔ cancelled r) (book : PendingBook) (k : String) (r : Ref) :
    ((t'.pending book).eraseAll (orders.map fun a => (t'.get a).id)).find? k = some r ↔
      (t.pending book).find? k = some r ∧ ¬ cancelled r := by
  rw [← Dict.mem_entries_iff, Dict.mem_eraseAll_entries, Dict.mem_entries_iff, h.pending, and_comm]
  apply and_congr_right
  intro hfind
  obtain ⟨hr, hid, -⟩ := hvalid.booked book k r hfind
  rw [not_iff_not, List.mem_map]
  constructor
  · rintro ⟨a, ha, hida⟩
    rw [horders] at ha
    rw [h.id, ← hid] at hida
    exact hvalid.idUnique a r (hissued a ha) hr hida ▸ ha
  · intro hc
    exact ⟨r, (horders r).mpr hc, (h.id r).trans hid⟩

theorem foldl_cancelSibling (filledOrderId : String) (orders : List Ref) (t : OrderTable)
    (collected : List Ref) (hlive : ∀ r ∈ orders, t.objects.Live r) :
    let swept := orders.foldl (cancelSibling filledOrderId) (t, collected)
    t.Cancels swept.1 (fun r => r ∈ orders ∧ t.Sibling filledOrderId r) ∧
      ∀ r, r ∈ swept.2 ↔ r ∈ collected ∨ (r ∈ orders ∧ t.Sibling filledOrderId r) := by
  induction orders generalizing t collected with
  | nil =>
    refine ⟨⟨fun _ => Iff.rfl, ?_, fun _ _ => rfl, rfl, rfl, rfl, rfl⟩, ?_⟩
    · intro r hr
      exact absurd hr.1 List.not_mem_nil
    · intro r
      simp
  | cons a rest ih =>
    have hlivea : t.objects.Live a := hlive a List.mem_cons_self
    rw [List.foldl_cons]
    by_cases ha : t.Sibling filledOrderId a
    · have hstep : cancelSibling filledOrderId (t, collected) a =
          (t.setStatus a .cancelled, collected ++ [a]) := if_pos ha
      rw [hstep]
      have hget := get_setStatus hlivea .cancelled
      have hsibling : ∀ r, (t.setStatus a .cancelled).Sibling filledOrderId r ↔
          r ≠ a ∧ t.Sibling filledOrderId r := by
        intro r
        unfold Sibling
        rw [hget]
        by_cases heq : r = a
        · simp [heq]
        · simp [heq]
      obtain ⟨hcancels, hmem⟩ := ih (t.setStatus a .cancelled) (collected ++ [a]) fun r hr =>
        (Heap.live_modify _ _ _ _).mpr (hlive r (List.mem_cons_of_mem a hr))
      refine ⟨⟨fun r => (hcancels.live r).trans (Heap.live_modify _ _ _ _), ?_, ?_,
        hcancels.counter, hcancels.accepted, hcancels.pending, hcancels.groups⟩, ?_⟩
      · intro r hr
        by_cases heq : r = a
        · rw [hcancels.get_other r fun hc => ((hsibling r).mp hc.2).1 heq, hget, if_pos heq]
        · have hrest := (List.mem_cons.mp hr.1).resolve_left heq
          rw [hcancels.get_cancelled r ⟨hrest, (hsibling r).mpr ⟨heq, hr.2⟩⟩, hget, if_neg heq]
      · intro r hr
        have heq : r ≠ a := fun heq => hr ⟨heq ▸ List.mem_cons_self, heq ▸ ha⟩
        rw [hcancels.get_other r fun hc =>
          hr ⟨List.mem_cons_of_mem a hc.1, ((hsibling r).mp hc.2).2⟩, hget, if_neg heq]
      · intro r
        rw [hmem, hsibling, List.mem_append, List.mem_singleton, List.mem_cons]
        by_cases heq : r = a
        · simp [heq, ha]
        · simp [heq]
    · have hstep : cancelSibling filledOrderId (t, collected) a = (t, collected) := if_neg ha
      rw [hstep]
      obtain ⟨hcancels, hmem⟩ := ih t collected fun r hr => hlive r (List.mem_cons_of_mem a hr)
      have hset : ∀ r, (r ∈ a :: rest ∧ t.Sibling filledOrderId r) ↔
          (r ∈ rest ∧ t.Sibling filledOrderId r) := by
        intro r
        by_cases heq : r = a
        · simp [heq, ha]
        · simp [heq]
      simp only [hset]
      exact ⟨hcancels, hmem⟩

/-- Popping an order from the four books erases its id from each. -/
theorem popEverywhere_eq (t : OrderTable) (r : Ref) : t.popEverywhere r =
      { t with pending := fun book => (t.pending book).erase (t.get r).id } := by
  rw [popEverywhere]
  simp only [PendingBook.all, List.foldl_cons, List.foldl_nil, popPending, mk.injEq, true_and,
    and_true]
  funext book
  cases book <;> rfl

/-- Popping a list of orders erases their ids from each book. -/
theorem foldl_popEverywhere (orders : List Ref) (t : OrderTable) : orders.foldl popEverywhere t = { t with
      pending := fun book => (t.pending book).eraseAll (orders.map fun r => (t.get r).id) } := by
  induction orders generalizing t with
  | nil => rfl
  | cons a rest ih =>
    rw [List.foldl_cons, ih, popEverywhere_eq]
    rfl

/-- What resolving the group of a filled order does. -/
structure Resolves (t t' : OrderTable) (r : Ref) : Prop where
  narrows : t.Narrows t'
  get_self : t'.get r = t.get r
  filledOrderOf : ∀ g, t'.filledOrderOf g =
    if (t.get r).ocoGroupId = some g then some ((t.filledOrderOf g).getD (t.get r).id)
    else t.filledOrderOf g
  closed : ∀ g, (t.get r).ocoGroupId = some g → t.filledOrderOf g = none →
    ∀ r', t.Issued r' → (t.get r').ocoGroupId = some g → r' ≠ r → (t'.get r').status ≠ .pending

/-- Resolving a group keeps the invariant: the entries of cancelled orders are deleted. -/
theorem Valid.resolveOco (h : t.Valid stale) (hr : t.Issued r) :
    t.Resolves (t.resolveOco r) r ∧ (t.resolveOco r).Valid stale := by
  unfold OrderTable.resolveOco
  cases hgroup : (t.get r).ocoGroupId with
  | none =>
    exact ⟨⟨.refl t, rfl, fun g => by simp [hgroup], fun g hg => by simp [hgroup] at hg⟩, h⟩
  | some g =>
    obtain ⟨group, hfind, hmem⟩ := h.enrolled r g hr hgroup
    simp only [hfind]
    cases hfilled : group.filledOrderId with
    | some winner =>
      have hof : t.filledOrderOf g = some winner := by
        rw [filledOrderOf, hfind]
        exact hfilled
      refine ⟨⟨.refl t, rfl, fun g' => ?_, fun g' hg' hnone => ?_⟩, h⟩
      · rw [hgroup]
        by_cases heq : g = g'
        · subst heq
          simp [hof]
        · simp [heq]
      · rw [hgroup, Option.some.injEq] at hg'
        rw [← hg', hof] at hnone
        cases hnone
    | none =>
      have hlive : ∀ r' ∈ group.orders, t.objects.Live r' :=
        fun r' hr' => (h.grouped g group hfind r' hr').1.1
      obtain ⟨hcancels, hcollected⟩ :=
        foldl_cancelSibling (t.get r).id group.orders t [] hlive
      simp only [Option.isSome_none, Bool.false_eq_true, if_false, onFill, foldl_popEverywhere]
      generalize group.orders.foldl (cancelSibling (t.get r).id) (t, []) = swept
        at hcancels hcollected ⊢
      have hof : t.filledOrderOf g = none := by
        rw [filledOrderOf, hfind]
        exact hfilled
      have hfound := hcancels.find?_erased h (fun r' hc => (h.grouped g group hfind r' hc.1).1)
        (fun r' => (hcollected r').trans (or_iff_right List.not_mem_nil))
      have hn : t.Narrows { swept.1 with
          ocoGroups := swept.1.ocoGroups.insert g { group with
            filledOrderId := some (t.get r).id
            cancelledOrderIds := group.cancelledOrderIds ++ swept.2.map fun a => (t.get a).id }
          pending := fun book =>
            (swept.1.pending book).eraseAll (swept.2.map fun a => (swept.1.get a).id) } := by
        refine ⟨hcancels.live, fun r' _ => hcancels.evolves (fun r' hc => hc.2.2) r',
          hcancels.counter, hcancels.accepted, ?_, ?_, ?_⟩
        · intro book k r' hfind'
          exact ((hfound book k r').mp hfind').1
        · intro book k r' _ hfind' hpending
          refine (hfound book k r').mpr ⟨hfind', fun hc => ?_⟩
          change (swept.1.get r').status = .pending at hpending
          rw [hcancels.get_cancelled r' hc] at hpending
          cases hpending
        · intro g'
          rw [hcancels.groups, Dict.find?_insert]
          by_cases heq : g' = g
          · rw [if_pos heq, heq, hfind]
            rfl
          · rw [if_neg heq]
      refine ⟨⟨hn, hcancels.get_other r fun hc => hc.2.1 rfl, ?_, ?_⟩, h.narrow hn ?_⟩
      · intro g'
        rw [hgroup, filledOrderOf, hcancels.groups, Dict.find?_insert]
        by_cases heq : g' = g
        · subst heq
          simp [hof]
        · have hne : ¬ some g = some g' := fun hsome => heq (Option.some.inj hsome).symm
          rw [if_neg heq, if_neg hne]
          rfl
      · intro g' hg' _ r' hr' hgroup' hne
        rw [hgroup, Option.some.injEq] at hg'
        subst hg'
        obtain ⟨group', hfind', hmem'⟩ := h.enrolled r' g hr' hgroup'
        obtain rfl : group = group' := Option.some.inj (hfind.symm.trans hfind')
        change (swept.1.get r').status ≠ .pending
        have hid : (t.get r').id ≠ (t.get r).id := fun hid => hne (h.idUnique r' r hr' hr hid)
        by_cases hpending : (t.get r').status = .pending
        · rw [hcancels.get_cancelled r' ⟨hmem', hid, hpending⟩]
          exact fun hc => by cases hc
        · rw [hcancels.get_other r' fun hc => hpending hc.2.2]
          exact hpending
      · intro book k r' hfind'
        change (swept.1.get r').status = .pending ↔ _
        obtain ⟨hold, hkept⟩ := (hfound book k r').mp hfind'
        obtain ⟨-, -, -, hstatus⟩ := h.booked book k r' hold
        rw [hcancels.get_other r' hkept]
        exact hstatus

end OrderTable

end TradingSim.Exchange
