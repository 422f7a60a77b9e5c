import TradingSim.Exchange.SweepSteps

/-!
# Every call is sound

The sweeps, the clients' cancels, the forced closes and the funding charge, each from a
consistent exchange to a consistent one.
-/

namespace TradingSim.Exchange

open Foundations

namespace SimulatedExchange

variable {N : Numerics} {m : MarketView} {strict admits : Prop} {start x : SimulatedExchange}
  {book : PendingBook} {r : Ref} {s : Sweep} {id : String}

/-! ### One entry of a sweep -/

theorem Progress.checkLimit (h : Progress N strict admits start (staleIn book s.toRemove) s.exchange)
    (hr : s.exchange.Resting book r) (hid : (s.exchange.orders.get r).id = id) :
    Progress N strict admits start (staleIn book (s.checkLimit N m r id).toRemove)
      (s.checkLimit N m r id).exchange := by
  unfold Sweep.checkLimit
  simp only
  split
  · obtain ⟨hc, hvalid, -⟩ := h.finishEntry hr
      ((s.exchange.orders.setStatus r .cancelled).update r fun o =>
        { o with rejectionReason := some "GTD_EXPIRED" })
      (OrderTable.objects_update_setStatus _ _ _ _)
      (OrderTable.evolves_of_pending hr.pending ⟨rfl, rfl, rfl, rfl, rfl, rfl, rfl⟩ (.refl _))
      (fun hc => by cases hc) rfl rfl rfl rfl
    rw [hid] at hvalid
    exact h.carry hvalid hc
  · split
    · exact h
    · split
      · exact h
      · split
        · rw [← hid]
          exact h.executeLimitOrder hr _
        · exact h

theorem Progress.checkStopLimit (h : Progress N strict admits start (staleIn book s.toRemove) s.exchange)
    (hr : s.exchange.Resting book r) (hid : (s.exchange.orders.get r).id = id) :
    Progress N strict admits start (staleIn book (s.checkStopLimit N m r id).toRemove)
      (s.checkStopLimit N m r id).exchange := by
  unfold Sweep.checkStopLimit
  simp only
  split
  · exact h
  · cases hkind : (s.exchange.orders.get r).kind with
    | stopLimit fields =>
      simp only
      obtain ⟨htouched, hr', hid'⟩ := h.touchKind hr
        (.stopLimit (fields.checkTrigger (s.exchange.orders.get r).side
          (m.currentPrice (s.exchange.orders.get r).symbol))) (by rw [hkind]; trivial)
      split
      · have hexecuted := htouched.executeLimitOrder (m := m) hr' fields.limitPrice
        rw [hid', hid] at hexecuted
        exact hexecuted
      · exact htouched
    | plain => exact h
    | trailingStop _ => exact h
    | iceberg _ => exact h

theorem Progress.checkTrailingStop
    (h : Progress N strict admits start (staleIn book s.toRemove) s.exchange)
    (hr : s.exchange.Resting book r) (hid : (s.exchange.orders.get r).id = id) :
    Progress N strict admits start (staleIn book (s.checkTrailingStop N m r id).toRemove)
      (s.checkTrailingStop N m r id).exchange := by
  unfold Sweep.checkTrailingStop
  simp only
  split
  · exact h
  · cases hkind : (s.exchange.orders.get r).kind with
    | trailingStop fields =>
      simp only
      obtain ⟨htouched, hr', hid'⟩ := h.touchKind hr
        (.trailingStop (fields.updateStopPrice (s.exchange.orders.get r).side
          (m.currentPrice (s.exchange.orders.get r).symbol))) (by rw [hkind]; trivial)
      split
      · have hexecuted := htouched.executeMarketOrder (m := m) hr'
          (m.currentPrice (s.exchange.orders.get r).symbol)
        rw [hid', hid] at hexecuted
        exact hexecuted
      · exact htouched
    | plain => exact h
    | stopLimit _ => exact h
    | iceberg _ => exact h

theorem Progress.checkIceberg (h : Progress N strict admits start (staleIn book s.toRemove) s.exchange)
    (hr : s.exchange.Resting book r) (hid : (s.exchange.orders.get r).id = id)
    (hcomplete : strict → (s.exchange.orders.get r).ocoGroupId ≠ none →
      (s.exchange.orders.get r).CompletesSlice m) :
    Progress N strict admits start (staleIn book (s.checkIceberg N m r id).toRemove)
      (s.checkIceberg N m r id).exchange := by
  unfold Sweep.checkIceberg
  simp only
  split
  · exact h
  · rename_i hprice
    cases hkind : (s.exchange.orders.get r).kind with
    | iceberg fields =>
      simp only
      split
      · rename_i hhidden
        split
        · exact h
        · rename_i price hmarket
          apply h.sliceAndFinish hr hid hkind hhidden price
          intro hstrict hgroup
          have hcompletes := hcomplete hstrict hgroup
          rw [Order.CompletesSlice, hkind] at hcompletes
          exact hcompletes hprice hhidden (by rw [hmarket]; exact fun hc => by cases hc)
      · exact h
    | plain => exact h
    | stopLimit _ => exact h
    | trailingStop _ => exact h

theorem Progress.checkEntry {entry : String × Ref}
    (h : Progress N strict admits start (staleIn book s.toRemove) s.exchange)
    (hissued : s.exchange.orders.Issued entry.2) (hid : (s.exchange.orders.get entry.2).id = entry.1)
    (hrests : (s.exchange.orders.get entry.2).Rests book)
    (hcomplete : strict → (s.exchange.orders.get entry.2).status = .pending →
      (s.exchange.orders.get entry.2).ocoGroupId ≠ none →
      (s.exchange.orders.get entry.2).CompletesSlice m) :
    Progress N strict admits start (staleIn book (s.checkEntry N m book entry).toRemove)
      (s.checkEntry N m book entry).exchange := by
  unfold Sweep.checkEntry
  split
  · rename_i hdone
    have hvalid := h.orders.collect hissued hdone
    rw [hid] at hvalid
    exact ⟨hvalid, h.evolves, h.known, h.ledger, h.exclusive⟩
  · rename_i hstatus
    have hpending := not_not.mp hstatus
    have hr : s.exchange.Resting book entry.2 := ⟨hissued, hpending, hrests⟩
    cases book with
    | limits => exact h.checkLimit hr hid
    | stopLimits => exact h.checkStopLimit hr hid
    | trailingStops => exact h.checkTrailingStop hr hid
    | icebergs => exact h.checkIceberg hr hid fun hstrict => hcomplete hstrict hpending

/-! ### A whole sweep -/

theorem SlicesComplete.order {t t' : OrderTable} (h : t.SlicesComplete m) (hev : t.Evolves t')
    {r : Ref} (hlive : t.objects.Live r) (hpending : (t'.get r).status = .pending)
    (hgroup : (t'.get r).ocoGroupId ≠ none) : (t'.get r).CompletesSlice m := by
  obtain ⟨-, hevolves⟩ := hev r hlive
  exact (h _ (Heap.get_mem_cells _ hlive) (hevolves.pending_of_pending hpending)
    (hevolves.group ▸ hgroup)).evolves hevolves

theorem Progress.foldl_checkEntry (entries : List (String × Ref)) {s : Sweep}
    (h : Progress N strict False start (staleIn book s.toRemove) s.exchange)
    (hentries : ∀ e ∈ entries, start.orders.Issued e.2 ∧ (s.exchange.orders.get e.2).id = e.1 ∧
      (s.exchange.orders.get e.2).Rests book) (hcomplete : strict → start.orders.SlicesComplete m) :
    Progress N strict False start (staleIn book (entries.foldl (Sweep.checkEntry N m book) s).toRemove)
      (entries.foldl (Sweep.checkEntry N m book) s).exchange := by
  induction entries generalizing s with
  | nil => exact h
  | cons e rest ih =>
    obtain ⟨hissued, hid, hrests⟩ := hentries e List.mem_cons_self
    have hhead : Progress N strict False s.exchange
        (staleIn book (s.checkEntry N m book e).toRemove)
        (s.checkEntry N m book e).exchange :=
      (Progress.refl h.orders h.exclusive).checkEntry (hissued.evolves h.evolves) hid hrests
        fun hstrict hpending hgroup =>
          SlicesComplete.order (hcomplete hstrict) h.evolves hissued.1 hpending hgroup
    apply ih (h.trans hhead)
    intro e' he'
    obtain ⟨hissued', hid', hrests'⟩ := hentries e' (List.mem_cons_of_mem e he')
    have hev := (hhead.evolves e'.2 (hissued'.evolves h.evolves).1).2
    exact ⟨hissued', hev.id.trans hid', hrests'.evolves hev⟩

theorem Progress.checkBook {s : Sweep} (h : Progress N strict False start noneStale s.exchange)
    (hcomplete : strict → start.orders.SlicesComplete m) (book : PendingBook) :
    Progress N strict False start noneStale (s.checkBook N m book).exchange := by
  have hfrom : Progress N strict False start (staleIn book []) s.exchange :=
    h.stale_congr fun _ _ _ _ => by simp [staleIn]
  have hknown := h.known.resolve_left id
  have hentries : ∀ e ∈ (s.exchange.orders.pending book).entries,
      start.orders.Issued e.2 ∧ (s.exchange.orders.get e.2).id = e.1 ∧
        (s.exchange.orders.get e.2).Rests book := by
    intro e he
    obtain ⟨hissued, hid, hrests, -⟩ :=
      h.orders.booked book e.1 e.2 ((Dict.mem_entries_iff _ _ _).mp he)
    exact ⟨hknown e.2 hissued, hid, hrests⟩
  have hswept := Progress.foldl_checkEntry (s := { s with toRemove := [] })
    (s.exchange.orders.pending book).entries hfrom hentries hcomplete
  obtain ⟨hc, hvalid⟩ := hswept.orders.deleteIds
  exact hswept.carry hvalid hc

theorem Progress.checkAdvancedOrders (hvalid : x.orders.Consistent)
    (hexclusive : strict → x.Exclusive) (hcomplete : strict → x.orders.SlicesComplete m) :
    Progress N strict False x noneStale (x.checkAdvancedOrders N m).1 := by
  have hfold : ∀ (books : List PendingBook) (s : Sweep),
      Progress N strict False x noneStale s.exchange →
      Progress N strict False x noneStale (books.foldl (Sweep.checkBook N m) s).exchange := by
    intro books
    induction books with
    | nil => exact fun _ h => h
    | cons book rest ih => exact fun s h => ih _ (h.checkBook hcomplete book)
  exact hfold PendingBook.all { exchange := x } (.refl hvalid hexclusive)

end SimulatedExchange

end TradingSim.Exchange
