import TradingSim.Exchange.Announcements
import TradingSim.Exchange.OrderInstructions

/-!
# The expiry of resting limit orders

A sweep of the limit orders cancels an order from the instant on that the order names, and not
before. What the sweep does with the entries before and after it does not touch an order that is in
no group.
-/

namespace TradingSim.Exchange

open Foundations

namespace OrderTable

variable {stale : PendingBook → String → Prop} {t : OrderTable} {r : Ref}

/-- Resolving a group leaves an order alone that is in no group. -/
theorem Valid.get_resolveOco (h : t.Valid stale) (hgroup : (t.get r).ocoGroupId = none) (r' : Ref) :
    (t.resolveOco r').get r = t.get r := by
  apply (h.touches_resolveOco r).2
  intro ⟨_, _, hnamed, hsame⟩
  exact hnamed (hsame.symm.trans hgroup)

end OrderTable

namespace SimulatedExchange

variable {N : Numerics} {m : MarketView} {start x : SimulatedExchange}
  {stale : PendingBook → String → Prop} {book : PendingBook} {r r' : Ref} {s : Sweep} {id : String}

theorem executeLimitOrder_cases (h : x.orders.Valid stale) (hr : x.Resting book r) (price : ℚ) :
    (∃ reason, (x.executeLimitOrder N m r price).orders = x.orders.conclude r .rejected reason) ∨
      ∃ t f stale', (x.executeLimitOrder N m r price).orders = t.resolveOco r ∧
        x.orders.Narrows t ∧ t.Valid stale' ∧ t.objects = x.orders.objects.modify r f ∧
        ∀ o : Order, (f o).status = .filled := by
  unfold executeLimitOrder
  split
  · exact Or.inl ⟨_, rfl⟩
  · have hobjects := OrderTable.objects_update_setStatus x.orders r .filled fun o => { o with
      filledPrice := N.roundPrice price
      filledQuantity := o.quantity
      fee := N.round (price * o.quantity * x.feePct / 100) 4 }
    obtain ⟨hn, hvalid⟩ := h.finish _ hr.issued.1 hobjects
      (OrderTable.evolves_of_pending hr.pending ⟨rfl, rfl, rfl, rfl, rfl, rfl, rfl⟩ (.refl _))
      (fun hc => by cases hc) rfl rfl rfl rfl
    exact Or.inr ⟨_, _, _, rfl, hn, hvalid, hobjects, fun _ => rfl⟩

theorem get_executeLimitOrder (h : x.orders.Valid stale) (hr' : x.Resting book r') (hne : r ≠ r')
    (hgroup : (x.orders.get r).ocoGroupId = none) (price : ℚ) :
    (x.executeLimitOrder N m r' price).orders.get r = x.orders.get r := by
  rcases executeLimitOrder_cases (N := N) (m := m) h hr' price with
    ⟨reason, horders⟩ | ⟨t, f, stale', horders, -, hvalid, hobjects, -⟩
  · rw [horders, OrderTable.get, OrderTable.objects_conclude, Heap.get_modify_of_ne _ hne]
    rfl
  · have hget : t.get r = x.orders.get r := by
      rw [OrderTable.get, hobjects, Heap.get_modify_of_ne _ hne]
      rfl
    rw [horders, hvalid.get_resolveOco (hget ▸ hgroup) r', hget]

theorem status_executeLimitOrder (h : x.orders.Valid stale) (hr : x.Resting book r) (price : ℚ) :
    ((x.executeLimitOrder N m r price).orders.get r).status ≠ .cancelled := by
  rcases executeLimitOrder_cases (N := N) (m := m) h hr price with
    ⟨reason, horders⟩ | ⟨t, f, stale', horders, hn, hvalid, hobjects, hf⟩
  · rw [horders, OrderTable.get, OrderTable.objects_conclude, Heap.get_modify_self _ hr.issued.1]
    exact fun hc => by cases hc
  · obtain ⟨hresolves, -⟩ := hvalid.resolveOco ((hn.issued_iff r).mpr hr.issued)
    rw [horders, hresolves.get_self, OrderTable.get, hobjects,
      Heap.get_modify_self _ hr.issued.1, hf]
    exact fun hc => by cases hc

/-- Cancelling an expired order leaves the others alone. -/
theorem get_expired_of_ne (t : OrderTable) (hne : r ≠ r') : ((t.setStatus r' .cancelled).update r' fun o =>
      { o with rejectionReason := some "GTD_EXPIRED" }).get r = t.get r := by
  rw [OrderTable.get, OrderTable.objects_update_setStatus, Heap.get_modify_of_ne _ hne]
  rfl

theorem get_expired {t : OrderTable} (hlive : t.objects.Live r) :
    (((t.setStatus r .cancelled).update r fun o =>
      { o with rejectionReason := some "GTD_EXPIRED" }).get r).status = .cancelled := by
  rw [OrderTable.get_update_setStatus hlive]

/-- One entry of the limit orders leaves the other orders alone that are in no group. -/
theorem get_checkEntry {entry : String × Ref} (h : s.exchange.orders.Valid stale)
    (hissued : s.exchange.orders.Issued entry.2)
    (hrests : (s.exchange.orders.get entry.2).Rests .limits) (hne : r ≠ entry.2)
    (hgroup : (s.exchange.orders.get r).ocoGroupId = none) :
    (s.checkEntry N m .limits entry).exchange.orders.get r = s.exchange.orders.get r := by
  unfold Sweep.checkEntry
  split
  · rfl
  · rename_i hstatus
    have hr' : s.exchange.Resting .limits entry.2 := ⟨hissued, not_not.mp hstatus, hrests⟩
    change (s.checkLimit N m entry.2 entry.1).exchange.orders.get r = _
    unfold Sweep.checkLimit
    dsimp only
    split
    · exact get_expired_of_ne s.exchange.orders hne
    · split
      · rfl
      · split
        · rfl
        · split
          · exact get_executeLimitOrder h hr' hne hgroup _
          · rfl

theorem entries_evolve {y : SimulatedExchange} {entries : List (String × Ref)}
    (hentries : ∀ e ∈ entries, start.orders.Issued e.2 ∧ (x.orders.get e.2).id = e.1 ∧
      (x.orders.get e.2).Rests book) (hstart : start.orders.Evolves x.orders)
    (hev : x.orders.Evolves y.orders) :
    ∀ e ∈ entries, start.orders.Issued e.2 ∧ (y.orders.get e.2).id = e.1 ∧
      (y.orders.get e.2).Rests book := by
  intro e he
  obtain ⟨hissued, hid, hrests⟩ := hentries e he
  have hlater := (hev e.2 (hissued.evolves hstart).1).2
  exact ⟨hissued, hlater.id.trans hid, hrests.evolves hlater⟩

theorem get_foldl_checkEntry (entries : List (String × Ref)) {s : Sweep}
    (h : Progress N False False start (staleIn .limits s.toRemove) s.exchange)
    (hentries : ∀ e ∈ entries, start.orders.Issued e.2 ∧ (s.exchange.orders.get e.2).id = e.1 ∧
      (s.exchange.orders.get e.2).Rests .limits) (hne : ∀ e ∈ entries, r ≠ e.2)
    (hgroup : (s.exchange.orders.get r).ocoGroupId = none) :
    (entries.foldl (Sweep.checkEntry N m .limits) s).exchange.orders.get r = s.exchange.orders.get r := by
  induction entries generalizing s with
  | nil => rfl
  | cons e rest ih =>
    obtain ⟨hissued, hid, hrests⟩ := hentries e List.mem_cons_self
    have hget := get_checkEntry (N := N) (m := m) h.orders (hissued.evolves h.evolves) hrests
      (hne e List.mem_cons_self) hgroup
    have hhead : Progress N False False s.exchange
        (staleIn .limits (s.checkEntry N m .limits e).toRemove)
        (s.checkEntry N m .limits e).exchange :=
      (Progress.refl h.orders h.exclusive).checkEntry (hissued.evolves h.evolves) hid hrests
        False.elim
    have hrest := entries_evolve (fun e' he' => hentries e' (List.mem_cons_of_mem e he')) h.evolves
      hhead.evolves
    rw [List.foldl_cons, ih (h.trans hhead) hrest
      (fun e' he' => hne e' (List.mem_cons_of_mem e he')) (hget ▸ hgroup), hget]

theorem status_checkEntry_iff (h : s.exchange.orders.Valid stale)
    (hr : s.exchange.Resting .limits r) {expiry : ℚ}
    (hexpiry : (s.exchange.orders.get r).expireTs = some expiry) :
    ((s.checkEntry N m .limits (id, r)).exchange.orders.get r).status = .cancelled ↔ expiry ≤ m.now := by
  unfold Sweep.checkEntry
  rw [if_neg (not_not.mpr hr.pending)]
  change ((s.checkLimit N m r id).exchange.orders.get r).status = _ ↔ _
  unfold Sweep.checkLimit
  dsimp only
  rw [hexpiry, Option.any_some]
  have hkept : (s.exchange.orders.get r).status ≠ .cancelled := by
    rw [hr.pending]
    exact fun hc => by cases hc
  split
  · rename_i hdue
    have hdue' : expiry ≤ m.now := by simpa using hdue
    exact iff_of_true (get_expired hr.issued.1) hdue'
  · rename_i hearly
    have hearly' : ¬ expiry ≤ m.now := by simpa using hearly
    refine iff_of_false ?_ hearly'
    split
    · exact hkept
    · split
      · exact hkept
      · split
        · exact status_executeLimitOrder h hr _
        · exact hkept

/-- Deleting entries leaves the orders alone. -/
theorem get_foldl_popPending (book : PendingBook) (ids : List String) (t : OrderTable) (r : Ref) :
    (ids.foldl (fun t' id => t'.popPending book id) t).get r = t.get r := by
  induction ids generalizing t with
  | nil => rfl
  | cons id rest ih => exact ih (t.popPending book id)

theorem split_entries (h : x.orders.Consistent) {id : String}
    (hfind : (x.orders.pending book).find? id = some r) :
    ∃ before after, (x.orders.pending book).entries = before ++ (id, r) :: after ∧
      ∀ e ∈ before ++ after, r ≠ e.2 ∧ x.orders.Issued e.2 ∧ (x.orders.get e.2).id = e.1 ∧
        (x.orders.get e.2).Rests book := by
  obtain ⟨before, after, hsplit⟩ := List.append_of_mem ((Dict.mem_entries_iff _ _ _).mpr hfind)
  have hnodup := (x.orders.pending book).nodup
  rw [hsplit, List.map_append, List.map_cons, List.nodup_middle, List.nodup_cons,
    ← List.map_append] at hnodup
  refine ⟨before, after, hsplit, ?_⟩
  intro e he
  have hmem : e ∈ (x.orders.pending book).entries := by
    rw [hsplit]
    rcases List.mem_append.mp he with hbefore | hafter
    · exact List.mem_append_left _ hbefore
    · exact List.mem_append_right _ (List.mem_cons_of_mem _ hafter)
  obtain ⟨hissued, hid, hrests, -⟩ := h.booked book e.1 e.2 ((Dict.mem_entries_iff _ _ _).mp hmem)
  refine ⟨?_, hissued, hid, hrests⟩
  rintro rfl
  apply hnodup.1
  rw [← (h.booked book id e.2 hfind).2.1, hid]
  exact List.mem_map_of_mem he

/-- A sweep of the limit orders cancels an order that rests in no group exactly if the instant has
come at which it expires. -/
theorem status_checkBook_limits_iff (h : x.orders.Consistent) (hr : r ∈ x.orders.accepted)
    (hpending : (x.orders.get r).status = .pending) (htype : (x.orders.get r).orderType = .limit)
    (hgroup : (x.orders.get r).ocoGroupId = none) {expiry : ℚ}
    (hexpiry : (x.orders.get r).expireTs = some expiry) :
    ((Sweep.checkBook N m { exchange := x } .limits).exchange.orders.get r).status = .cancelled ↔
      expiry ≤ m.now := by
  obtain ⟨book, hfind⟩ := h.resting r hr hpending
  obtain ⟨hissued, -, hrests, -⟩ := h.booked book _ r hfind
  have hbook : book = .limits := by
    have hof := hrests.2.1
    rw [htype] at hof
    exact (Option.some.inj hof).symm
  subst hbook
  -- The sweep visits the entries before the order's own, this one, and those after it.
  obtain ⟨before, after, hsplit, hentries⟩ := split_entries h hfind
  rw [List.forall_mem_append] at hentries
  obtain ⟨hbefore, hafter⟩ := hentries
  have hclean : Progress N False False x noneStale x := .refl h False.elim
  have hfrom : Progress N False False x (staleIn .limits []) x :=
    hclean.stale_congr fun _ _ _ _ => by simp [staleIn]
  have hstart : Progress N False False x (staleIn .limits (before.foldl
      (Sweep.checkEntry N m .limits) { exchange := x }).toRemove) (before.foldl
      (Sweep.checkEntry N m .limits) { exchange := x }).exchange :=
    Progress.foldl_checkEntry before hfrom (fun e he => (hbefore e he).2) False.elim
  have hget : (before.foldl (Sweep.checkEntry N m .limits) { exchange := x }).exchange.orders.get r =
      x.orders.get r :=
    get_foldl_checkEntry before hfrom (fun e he => (hbefore e he).2)
      (fun e he => (hbefore e he).1) hgroup
  have hswept : ((Sweep.checkBook N m { exchange := x } .limits).exchange.orders.get r) =
      ((before ++ ((x.orders.get r).id, r) :: after).foldl (Sweep.checkEntry N m .limits)
        { exchange := x }).exchange.orders.get r := by
    rw [← hsplit]
    exact get_foldl_popPending _ _ _ r
  rw [hswept, List.foldl_append, List.foldl_cons]
  generalize before.foldl (Sweep.checkEntry N m .limits) { exchange := x } = s at hstart hget
  have hr' : s.exchange.Resting .limits r :=
    ⟨hissued.evolves hstart.evolves, hget ▸ hpending, hget ▸ hrests⟩
  have hid : (s.exchange.orders.get r).id = (x.orders.get r).id := by rw [hget]
  have hentry : Progress N False False s.exchange
      (staleIn .limits (s.checkEntry N m .limits ((x.orders.get r).id, r)).toRemove)
      (s.checkEntry N m .limits ((x.orders.get r).id, r)).exchange :=
    (Progress.refl hstart.orders False.elim).checkEntry hr'.issued hid hr'.rests False.elim
  have hgroup' : ((s.checkEntry N m .limits ((x.orders.get r).id, r)).exchange.orders.get
      r).ocoGroupId = none := by
    rw [(hentry.evolves r hr'.issued.1).2.group, hget, hgroup]
  rw [get_foldl_checkEntry after (hstart.trans hentry)
    (entries_evolve (fun e he => (hafter e he).2) (.refl _) (hstart.trans hentry).evolves)
    (fun e he => (hafter e he).1) hgroup']
  exact status_checkEntry_iff hstart.orders hr' (hget ▸ hexpiry)

/-! ### From the submission on -/

theorem Sound.submitOrder {y : SimulatedExchange} {req : OrderRequest} {opening : ℚ}
    (h : x.Sound opening) (hsubmitted : x.submitOrder N m req = (y, some r)) :
    y.Sound opening ∧ y.orders.Issued r := by
  constructor
  · have hstep := h.step (N := N) (m, .submitOrder req)
    simp only [SimulatedExchange.step, hsubmitted] at hstep
    exact hstep
  · have hstart : Progress N False True x noneStale x := .refl h.orders False.elim
    have hreturned := (hstart.submitOrder (m := m) req).2
    rw [hsubmitted] at hreturned
    exact hreturned r rfl

theorem submitOrder_pending {y : SimulatedExchange} {req : OrderRequest}
    (h : x.submitOrder N m req = (y, some r)) (hpending : (y.orders.get r).status = .pending) :
    r ∈ y.orders.accepted ∧ (y.orders.get r).instructions =
        (req.orderType, req.group, req.timeInForce, req.expireTs, req.postOnly) ∧
      (req.timeInForce = "GTD" → req.expireTs.isSome) := by
  -- A concluded order is not pending.
  have hconcluded : ∀ (t : OrderTable) (r : Ref) (status : OrderStatus) (reason : String),
      t.objects.Live r → (((t.conclude r status reason).accept r).get r).status = status := by
    intro t r status reason hlive
    rw [OrderTable.get_accept, OrderTable.get, OrderTable.objects_conclude,
      Heap.get_modify_self _ hlive]
  unfold submitOrder at h
  dsimp only at h
  split at h
  · obtain ⟨rfl, hr⟩ := Prod.mk.inj h
    cases hr
    have hlive : ∀ o, (x.orders.issue o).objects.Live x.orders.objects.next :=
      fun o => (Heap.live_alloc _ _ _).mpr (Or.inr rfl)
    change (((x.orders.issue _).conclude _ _ _).accept _ |>.get _).status = _ at hpending
    rw [hconcluded _ _ _ _ (hlive _)] at hpending
    cases hpending
  · rename_i order hscreen
    obtain ⟨-, hdated, kind, -, hcreated⟩ := OrderRequest.screen_eq_ok hscreen
    have hinstructions : order.instructions =
        (req.orderType, req.group, req.timeInForce, req.expireTs, req.postOnly) := by
      rw [hcreated]
      rfl
    obtain ⟨groups, hjoin, -⟩ := OrderTable.joinGroup_eq (x.orders.issue order) x.orders.objects.next
    have hlive : ((x.orders.issue order).joinGroup x.orders.objects.next).objects.Live
        x.orders.objects.next := by
      rw [hjoin]
      exact (Heap.live_alloc _ _ _).mpr (Or.inr rfl)
    have hget : ((x.orders.issue order).joinGroup x.orders.objects.next).get x.orders.objects.next =
        order := by
      rw [hjoin]
      exact Heap.get_alloc_next _ _
    generalize (x.orders.issue order).joinGroup x.orders.objects.next = joined at h hlive hget
    split at h
    · obtain ⟨rfl, hr⟩ := Prod.mk.inj h
      cases hr
      change ((joined.conclude _ _ _).accept _ |>.get _).status = _ at hpending
      rw [hconcluded _ _ _ _ hlive] at hpending
      cases hpending
    · split at h
      · rename_i placed hplaced
        obtain ⟨rfl, hr⟩ := Prod.mk.inj h
        cases hr
        have hsame := (writes_placeOrder (W := fun _ => True) (E := fun _ => True) hplaced trivial
          fun _ => trivial).order _ hlive
        refine ⟨List.mem_append_right _ (List.mem_singleton_self _), ?_, hdated⟩
        exact (hsame.2.1.trans (congrArg Order.instructions hget)).trans hinstructions
      · cases h

/-- The sweep of the limit orders cancels an order from an instant on, and not before, up to a
tolerance. -/
def LivesUntil (N : Numerics) (x : SimulatedExchange) (r : Ref) (instant tolerance : ℚ) : Prop :=
  ∀ (calls : List (MarketView × Operation)) (m : MarketView),
    ((run (step N) x calls).orders.get r).status = .pending →
      let swept := (Sweep.checkBook N m { exchange := run (step N) x calls } .limits).exchange
      (instant + tolerance ≤ m.now → (swept.orders.get r).status = .cancelled) ∧
        (m.now < instant - tolerance → (swept.orders.get r).status ≠ .cancelled)

theorem livesUntil_iff {opening expiry instant tolerance : ℚ} (h : x.Sound opening)
    (hr : r ∈ x.orders.accepted) (hpending : (x.orders.get r).status = .pending)
    (htype : (x.orders.get r).orderType = .limit) (hgroup : (x.orders.get r).ocoGroupId = none)
    (hexpiry : (x.orders.get r).expireTs = some expiry) :
    x.LivesUntil N r instant tolerance ↔ |expiry - instant| ≤ tolerance := by
  have hlive := (h.orders.acceptedIssued r hr).1
  have hswept : ∀ (calls : List (MarketView × Operation)) (m : MarketView),
      ((run (step N) x calls).orders.get r).status = .pending →
        (((Sweep.checkBook N m { exchange := run (step N) x calls } .limits).exchange.orders.get
          r).status = .cancelled ↔ expiry ≤ m.now) := by
    intro calls m hstill
    have hsame := writes_run (N := N) x calls
    obtain ⟨-, hinstructions, -⟩ := hsame.order r hlive
    simp only [Order.instructions, Prod.mk.injEq] at hinstructions
    obtain ⟨htype', hgroup', -, hexpiry', -⟩ := hinstructions
    exact status_checkBook_limits_iff (h.run calls).orders (hsame.accepted hr) hstill
      (htype'.trans htype) (hgroup'.trans hgroup) (hexpiry'.trans hexpiry)
  rw [abs_sub_le_iff]
  constructor
  · intro hlives
    have hat : ∀ now : ℚ, (instant + tolerance ≤ now → expiry ≤ now) ∧
        (now < instant - tolerance → ¬ expiry ≤ now) := by
      intro now
      have hnow := hlives [] ⟨[], fun _ => 0, fun _ => none, now⟩ hpending
      have hiff := hswept [] ⟨[], fun _ => 0, fun _ => none, now⟩ hpending
      exact ⟨fun hlate => hiff.mp (hnow.1 hlate), fun hearly hdue => hnow.2 hearly (hiff.mpr hdue)⟩
    constructor
    · linarith [(hat (instant + tolerance)).1 le_rfl]
    · by_contra hlong
      have hearly : expiry < instant - tolerance := by linarith
      exact (hat expiry).2 hearly le_rfl
  · rintro ⟨hlate, hearly⟩ calls m hstill
    have hiff := hswept calls m hstill
    constructor
    · intro hnow
      exact hiff.mpr (by linarith)
    · intro hnow hcancelled
      linarith [hiff.mp hcancelled]

end SimulatedExchange

end TradingSim.Exchange
