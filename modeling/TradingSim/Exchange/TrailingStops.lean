import TradingSim.Exchange.LimitPrices
import TradingSim.Exchange.OrderFrames

/-!
# Trailing stops

A trailing stop follows the best price that it has seen: its level is that price less the trail for a
seller, and more for a buyer. The submission notes the price at which the trail starts, but the first
check starts the trail again at its own price.
-/

namespace TradingSim.Exchange

open Foundations

/-- The best of a first price and later ones: the highest for a seller, the lowest for a buyer. -/
def Side.best (side : Side) (first : ℚ) (later : List ℚ) : ℚ :=
  match side with
  | .buy => later.foldl min first
  | .sell => later.foldl max first

/-- A stop at the second price is as near to the market as one at the first, or nearer. -/
def Side.Tightens (side : Side) (before after : ℚ) : Prop :=
  match side with
  | .buy => after ≤ before
  | .sell => before ≤ after

namespace TrailingStopFields

/-- The stop of a trail at a price: the price less the trail for a seller, and more for a buyer. -/
def level (fields : TrailingStopFields) (side : Side) (price : ℚ) : ℚ :=
  match side with
  | .buy =>
    if fields.trailPercentage then price * (1 + fields.trailAmount / 100)
    else price + fields.trailAmount
  | .sell =>
    if fields.trailPercentage then price * (1 - fields.trailAmount / 100)
    else price - fields.trailAmount

/-- The stop trails behind a best price. -/
structure Trails (fields : TrailingStopFields) (side : Side) (best : ℚ) : Prop where
  activated : fields.activated = true
  stopPrice : fields.stopPrice = fields.level side best
  lowest : side = .buy → fields.lowestPrice = best
  highest : side = .sell → fields.highestPrice = best

variable {fields fields' : TrailingStopFields} {side : Side} {best price : ℚ}

theorem level_updateStopPrice (fields : TrailingStopFields) (side : Side) (price : ℚ) :
    (fields.updateStopPrice side price).level = fields.level := by
  have htrail : (fields.updateStopPrice side price).trailAmount = fields.trailAmount ∧
      (fields.updateStopPrice side price).trailPercentage = fields.trailPercentage := by
    unfold updateStopPrice
    cases side with
    | buy =>
      dsimp only
      split
      · split
        · exact ⟨rfl, rfl⟩
        · exact ⟨rfl, rfl⟩
      · exact ⟨rfl, rfl⟩
    | sell =>
      dsimp only
      split
      · split
        · exact ⟨rfl, rfl⟩
        · exact ⟨rfl, rfl⟩
      · exact ⟨rfl, rfl⟩
  unfold level
  rw [htrail.1, htrail.2]

theorem trails_activate (hstart : fields.activated = false) (hprice : price ≠ 0) :
    (fields.updateStopPrice side price).Trails side price := by
  have hidle : ¬ fields.activated = true := by
    rw [hstart]
    exact Bool.false_ne_true
  have hlevel := level_updateStopPrice fields side price
  unfold updateStopPrice at hlevel ⊢
  rw [if_neg hidle] at hlevel ⊢
  refine ⟨rfl, ?_, fun _ => rfl, fun _ => rfl⟩
  rw [hlevel]
  unfold level
  cases side with
  | buy =>
    dsimp only
    split
    · rfl
    · field_simp
  | sell =>
    dsimp only
    split
    · rfl
    · field_simp

/-- A later price moves the stop if it is better. -/
theorem Trails.update (h : fields.Trails side best) (price : ℚ) :
    (fields.updateStopPrice side price).Trails side (side.best best [price]) := by
  have hlevel := level_updateStopPrice fields side price
  unfold updateStopPrice at hlevel ⊢
  rw [if_pos h.activated] at hlevel ⊢
  cases side with
  | buy =>
    have hlowest : fields.lowestPrice = best := h.lowest rfl
    rw [hlowest] at hlevel ⊢
    by_cases hbetter : price < best
    · rw [if_pos hbetter] at hlevel ⊢
      rw [show Side.buy.best best [price] = price from min_eq_right hbetter.le]
      exact ⟨h.activated, rfl, fun _ => rfl, fun hc => nomatch hc⟩
    · rw [if_neg hbetter] at hlevel ⊢
      rw [show Side.buy.best best [price] = best from min_eq_left (not_lt.mp hbetter)]
      exact h
  | sell =>
    have hhighest : fields.highestPrice = best := h.highest rfl
    rw [hhighest] at hlevel ⊢
    by_cases hbetter : best < price
    · rw [if_pos hbetter] at hlevel ⊢
      rw [show Side.sell.best best [price] = price from max_eq_right hbetter.le]
      exact ⟨h.activated, rfl, fun hc => (nomatch hc), fun _ => rfl⟩
    · rw [if_neg hbetter] at hlevel ⊢
      rw [show Side.sell.best best [price] = best from max_eq_left (not_lt.mp hbetter)]
      exact h

/-- Moving the stop with one price after the other. -/
def follow (fields : TrailingStopFields) (side : Side) (prices : List ℚ) : TrailingStopFields :=
  prices.foldl (fun moved price => moved.updateStopPrice side price) fields

theorem follow_append (fields : TrailingStopFields) (side : Side) (prices : List ℚ) (price : ℚ) :
    fields.follow side (prices ++ [price]) = (fields.follow side prices).updateStopPrice side price :=
  List.foldl_concat ..

theorem level_follow (fields : TrailingStopFields) (side : Side) (prices : List ℚ) :
    (fields.follow side prices).level = fields.level := by
  induction prices generalizing fields with
  | nil => rfl
  | cons price rest ih => exact (ih _).trans (level_updateStopPrice fields side price)

end TrailingStopFields

theorem Side.best_append (side : Side) (first : ℚ) (prices : List ℚ) (price : ℚ) :
    side.best first (prices ++ [price]) = side.best (side.best first prices) [price] := by
  cases side with
  | buy => exact List.foldl_append
  | sell => exact List.foldl_append

theorem Side.notWorse_iff_best (side : Side) (first price : ℚ) :
    side.NotWorse first price ↔ side.best first [price] = price := by
  cases side with
  | buy => exact min_eq_right_iff.symm
  | sell => exact max_eq_right_iff.symm

/-- The first price matters only if it is better than the next. -/
theorem Side.best_cons_of_notWorse {side : Side} {first price : ℚ} (h : side.NotWorse first price)
    (prices : List ℚ) : side.best first (price :: prices) = side.best price prices := by
  cases side with
  | buy => exact congrArg (fun start => prices.foldl min start) (min_eq_right h)
  | sell => exact congrArg (fun start => prices.foldl max start) (max_eq_right h)

namespace TrailingStopFields

variable {fields : TrailingStopFields} {side : Side}

/-- After any prices the stop trails the best of them. -/
theorem trails_follow (hstart : fields.activated = false) {price : ℚ} (hprice : price ≠ 0)
    (prices : List ℚ) : (fields.follow side (price :: prices)).Trails side (side.best price prices) := by
  induction prices using List.reverseRecOn with
  | nil =>
    have hfirst : side.best price [] = price := by
      cases side with
      | buy => rfl
      | sell => rfl
    rw [hfirst]
    exact trails_activate hstart hprice
  | append_singleton prices last ih =>
    rw [← List.cons_append, follow_append, Side.best_append]
    exact ih.update last

theorem level_injective (hsmall : fields.trailPercentage = true → fields.trailAmount < 100)
    (hpositive : 0 < fields.trailAmount) {price price' : ℚ}
    (h : fields.level side price = fields.level side price') : price = price' := by
  unfold level at h
  cases side with
  | buy =>
    dsimp only at h
    split at h
    · have hfactor : (1 + fields.trailAmount / 100) ≠ 0 := by linarith
      exact mul_right_cancel₀ hfactor h
    · exact add_right_cancel h
  | sell =>
    dsimp only at h
    split at h
    · rename_i hpercentage
      have htrail := hsmall hpercentage
      have hfactor : (1 - fields.trailAmount / 100) ≠ 0 := by linarith
      exact mul_right_cancel₀ hfactor h
    · exact sub_left_inj.mp h

theorem tightens_level (hsmall : fields.trailPercentage = true → fields.trailAmount < 100)
    (hpositive : 0 < fields.trailAmount) (best price : ℚ) :
    side.Tightens (fields.level side best) (fields.level side (side.best best [price])) := by
  unfold level
  cases side with
  | buy =>
    have hbest : Side.buy.best best [price] ≤ best := min_le_left best price
    dsimp only [Side.Tightens]
    split
    · exact mul_le_mul_of_nonneg_right hbest (by linarith)
    · linarith
  | sell =>
    have hbest : best ≤ Side.sell.best best [price] := le_max_left best price
    dsimp only [Side.Tightens]
    split
    · rename_i hpercentage
      have htrail := hsmall hpercentage
      exact mul_le_mul_of_nonneg_right hbest (by linarith)
    · linarith

end TrailingStopFields

namespace SimulatedExchange

variable {N : Numerics} {m : MarketView} {x : SimulatedExchange} {r : Ref} {fields : TrailingStopFields}

/-! ### One check -/

theorem settles_executeMarketOrder (hlive : x.orders.objects.Live r) (price : ℚ) :
    x.orders.Settles (x.executeMarketOrder N m r price).orders r := by
  unfold executeMarketOrder
  dsimp only
  split
  · exact OrderTable.settles_conclude hlive _ (fun hc => nomatch hc)
  · exact OrderTable.settles_fill hlive fun _ => ⟨rfl, rfl⟩

/-- What a check at a price makes of a trailing stop: it moves the stop, and executes the order if the
price has reached it, unless the order is cancelled. -/
def Order.Checked (o o' : Order) (fields : TrailingStopFields) (price : ℚ) : Prop :=
  o'.status = .cancelled ∨
    (o'.kind = .trailingStop (fields.updateStopPrice o.side price) ∧
      (o'.status = .pending ↔ (fields.updateStopPrice o.side price).reached o.side price = false))

theorem checked_checkTrailingStop {s : Sweep} (id : String) (hlive : s.exchange.orders.objects.Live r)
    (hpending : (s.exchange.orders.get r).status = .pending)
    (hkind : (s.exchange.orders.get r).kind = .trailingStop fields)
    (hprice : m.currentPrice (s.exchange.orders.get r).symbol ≠ 0) :
    let after := (s.checkTrailingStop N m r id).exchange.orders
    after.objects.Live r ∧ Order.Checked (s.exchange.orders.get r) (after.get r) fields
      (m.currentPrice (s.exchange.orders.get r).symbol) := by
  unfold Sweep.checkTrailingStop
  rw [if_neg hprice, hkind]
  dsimp only
  generalize hmoved : fields.updateStopPrice (s.exchange.orders.get r).side
    (m.currentPrice (s.exchange.orders.get r).symbol) = moved
  generalize htrailed : s.exchange.orders.update r (fun o =>
    { o with kind := .trailingStop moved }) = trailed
  have hlive' : trailed.objects.Live r := by
    rw [← htrailed]
    exact (Heap.live_modify _ _ _ _).mpr hlive
  have hget : trailed.get r = { s.exchange.orders.get r with kind := .trailingStop moved } := by
    rw [← htrailed]
    exact Heap.get_modify_self _ hlive _
  unfold Order.Checked
  rw [hmoved]
  split
  · rename_i hreached
    obtain ⟨hlive'', hstatus, hkind'⟩ := settles_executeMarketOrder (N := N) (m := m)
      (x := s.exchange.withOrders trailed) hlive' (m.currentPrice (s.exchange.orders.get r).symbol)
    refine ⟨hlive'', Or.inr ⟨hkind'.trans (congrArg Order.kind hget), ?_⟩⟩
    refine iff_of_false hstatus ?_
    rw [hreached]
    exact fun hc => nomatch hc
  · rename_i hmissed
    refine ⟨hlive', Or.inr ⟨congrArg Order.kind hget, ?_⟩⟩
    exact iff_of_true ((congrArg Order.status hget).trans hpending) (Bool.not_eq_true _ ▸ hmissed)

theorem checked_checkAdvancedOrders (h : x.orders.Consistent) (hr : r ∈ x.orders.accepted)
    (hpending : (x.orders.get r).status = .pending) (htype : (x.orders.get r).orderType = .trailingStop)
    (hkind : (x.orders.get r).kind = .trailingStop fields)
    (hprice : m.currentPrice (x.orders.get r).symbol ≠ 0) :
    Order.Checked (x.orders.get r) ((x.checkAdvancedOrders N m).1.orders.get r) fields
      (m.currentPrice (x.orders.get r).symbol) := by
  have hbook : (x.orders.get r).orderType.book = some .trailingStops := by
    rw [htype]
    rfl
  rcases checkAdvancedOrders_entry (N := N) (m := m) h hr hpending hbook with
    hcancelled | ⟨s, hlive, hget, hvisited⟩
  · exact Or.inl hcancelled
  · rw [hvisited, ← hget]
    rw [← hget] at hpending hkind hprice
    exact (checked_checkTrailingStop _ hlive hpending hkind hprice).2

/-! ### The submission -/

theorem submitOrder_trailingStop {req : OrderRequest} {trail : ℚ} (htype : req.orderType = .trailingStop)
    (htrail : req.trailAmount = some trail) (hreturned : (x.submitOrder N m req).2 = some r)
    (hpending : ((x.submitOrder N m req).1.orders.get r).status = .pending) :
    let o := (x.submitOrder N m req).1.orders.get r
    r ∈ (x.submitOrder N m req).1.orders.accepted ∧ o.symbol = req.symbol ∧ o.side = req.side ∧
      o.orderType = .trailingStop ∧ ∃ fields, o.kind = .trailingStop fields ∧
        fields.activated = false ∧ fields.trailAmount = trail ∧
        fields.trailPercentage = req.trailPercentage := by
  obtain ⟨o, joined, placed, hscreen, -, hlive, hget, hplaced, hafter⟩ := submitOrder_placed hreturned
    (by rw [hpending]; exact fun hc => nomatch hc) (by rw [hpending]; exact fun hc => nomatch hc)
  obtain ⟨-, -, kind, hkind, ho⟩ := OrderRequest.screen_eq_ok hscreen
  rw [hafter] at hpending ⊢
  change (placed.orders.get r).status = .pending at hpending
  unfold placeOrder at hplaced
  rw [htype] at hplaced
  dsimp only at hplaced
  split at hplaced
  · cases hplaced
    rw [withOrders, OrderTable.status_conclude hlive] at hpending
    cases hpending
  · cases hplaced
    have hrested : (((joined.orders.update r (startTrail req.side (m.price req.symbol))).rest r
        .trailingStops).get r) = { startTrail req.side (m.price req.symbol) o with
          status := .pending } := by
      change (Heap.modify (Heap.modify _ _ _) _ _).get r = _
      rw [Heap.modify_modify, Heap.get_modify_self _ hlive]
      change { startTrail req.side (m.price req.symbol) (joined.orders.get r) with
        status := .pending } = _
      rw [hget]
    have hfields : kind = .trailingStop
        { trailAmount := trail, trailPercentage := req.trailPercentage } := by
      unfold OrderRequest.createKind at hkind
      rw [htype, htrail] at hkind
      dsimp only at hkind
      split at hkind
      · cases hkind
      · exact (Option.some.inj hkind).symm
    refine ⟨List.mem_append_right _ (List.mem_singleton_self _), ?_⟩
    change (((joined.orders.update r (startTrail req.side (m.price req.symbol))).rest r
        .trailingStops).get r).symbol = _ ∧ (((joined.orders.update r (startTrail req.side
        (m.price req.symbol))).rest r .trailingStops).get r).side = _ ∧ (((joined.orders.update r
        (startTrail req.side (m.price req.symbol))).rest r .trailingStops).get r).orderType = _ ∧
      ∃ fields, (((joined.orders.update r (startTrail req.side (m.price req.symbol))).rest r
        .trailingStops).get r).kind = _ ∧ _
    rw [hrested, ho, hfields]
    exact ⟨rfl, rfl, htype, _, rfl, rfl, rfl, rfl⟩

/-! ### Runs -/

/-- The prices of a symbol that the checks of a run see. -/
def seenPrices (symbol : String) (calls : List (MarketView × Operation)) : List ℚ :=
  calls.filterMap fun call =>
    if call.2 = .checkAdvancedOrders then some (call.1.currentPrice symbol) else none

theorem seenPrices_append (symbol : String) (calls : List (MarketView × Operation))
    (call : MarketView × Operation) : seenPrices symbol (calls ++ [call]) = seenPrices symbol calls ++
        if call.2 = .checkAdvancedOrders then [call.1.currentPrice symbol] else [] := by
  unfold seenPrices
  rw [List.filterMap_append]
  congr 1
  split <;> rename_i hcall <;> simp [hcall]

theorem step_checkAdvancedOrders (x : SimulatedExchange) (m : MarketView) :
    step N x (m, .checkAdvancedOrders) = (x.checkAdvancedOrders N m).1 := rfl

theorem follows_of_pending {opening : ℚ} (h : x.Sound opening) (hr : r ∈ x.orders.accepted)
    (htype : (x.orders.get r).orderType = .trailingStop)
    (hkind : (x.orders.get r).kind = .trailingStop fields) (calls : List (MarketView × Operation))
    (hprices : ∀ price ∈ seenPrices (x.orders.get r).symbol calls, price ≠ 0)
    (hpending : ((run (step N) x calls).orders.get r).status = .pending) :
    ((run (step N) x calls).orders.get r).kind = .trailingStop (fields.follow (x.orders.get r).side
      (seenPrices (x.orders.get r).symbol calls)) := by
  have hlive : x.orders.objects.Live r := (h.orders.acceptedIssued r hr).1
  induction calls using List.reverseRecOn with
  | nil => exact hkind
  | append_singleton calls call ih =>
    rw [run_append] at hpending ⊢
    change ((step N (run (step N) x calls) call).orders.get r).status = .pending at hpending
    change ((step N (run (step N) x calls) call).orders.get r).kind = _
    have hz := h.run (N := N) calls
    have hev := (h.evolves (N := N) calls r hlive)
    have hsame := writes_run (N := N) x calls
    rw [seenPrices_append] at hprices ⊢
    have hbefore := ih (fun price hprice => hprices price (List.mem_append_left _ hprice))
    generalize run (step N) x calls = z at hpending hz hev hsame hbefore ⊢
    have hopen : (z.orders.get r).status = .pending :=
      ((step_progress (N := N) False call hz.orders False.elim False.elim).evolves r
        hev.1).2.pending_of_pending hpending
    by_cases hcall : call.2 = .checkAdvancedOrders
    · rw [if_pos hcall] at hprices ⊢
      obtain ⟨m, op⟩ := call
      obtain rfl : op = .checkAdvancedOrders := hcall
      have hchecked := checked_checkAdvancedOrders (N := N) (m := m) hz.orders (hsame.accepted hr)
        hopen (hev.2.orderType.trans htype) (hbefore hopen)
        (by rw [hev.2.symbol]; exact hprices _ (List.mem_append_right _ (List.mem_singleton_self _)))
      rw [step_checkAdvancedOrders] at hpending ⊢
      rcases hchecked with hcancelled | ⟨hmoved, -⟩
      · rw [hpending] at hcancelled
        cases hcancelled
      · rw [hev.2.side, hev.2.symbol] at hmoved
        rw [TrailingStopFields.follow_append]
        exact hmoved
    · rw [if_neg hcall, List.append_nil]
      rw [← hbefore hopen]
      exact congrArg Order.kind ((writes_step z call).get_eq hev.1 hcall
        (by rw [hpending]; exact fun hc => nomatch hc))

/-- At this check the order, if it is pending and not cancelled, has its stop at the level of the best price
since the submission, no looser than before, and is executed exactly if the price has reached it. -/
def RatchetsAt (N : Numerics) (y : SimulatedExchange) (r : Ref) (first : ℚ)
    (before : List (MarketView × Operation)) (m : MarketView) : Prop :=
  let z := run (step N) y before
  let o := z.orders.get r
  let o' := (z.checkAdvancedOrders N m).1.orders.get r
  o.status = .pending → o'.status ≠ .cancelled →
    ∃ fields, o'.kind = .trailingStop fields ∧
      fields.stopPrice = fields.level o.side
        (o.side.best first (seenPrices o.symbol before ++ [m.currentPrice o.symbol])) ∧
      o.side.Tightens (fields.level o.side (o.side.best first (seenPrices o.symbol before)))
        fields.stopPrice ∧
      (o'.status ≠ .pending ↔ fields.reached o.side (m.currentPrice o.symbol) = true)

/-- At the first check that the order sees, the price is no worse for its side than a given one. -/
def FirstNotWorse (N : Numerics) (y : SimulatedExchange) (r : Ref) (first : ℚ)
    (before : List (MarketView × Operation)) (m : MarketView) : Prop :=
  let z := run (step N) y before
  let o := z.orders.get r
  o.status = .pending → ((z.checkAdvancedOrders N m).1.orders.get r).status ≠ .cancelled →
    seenPrices o.symbol before = [] → o.side.NotWorse first (m.currentPrice o.symbol)

theorem checked_of_follows {opening : ℚ} (h : x.Sound opening) (hr : r ∈ x.orders.accepted)
    (htype : (x.orders.get r).orderType = .trailingStop)
    (hkind : (x.orders.get r).kind = .trailingStop fields) (hstart : fields.activated = false)
    (calls : List (MarketView × Operation))
    (hprices : ∀ price ∈ seenPrices (x.orders.get r).symbol (calls ++ [(m, .checkAdvancedOrders)]),
      price ≠ 0) (hpending : ((run (step N) x calls).orders.get r).status = .pending)
    (hkept : (((run (step N) x calls).checkAdvancedOrders N m).1.orders.get r).status ≠ .cancelled) :
    let side := (x.orders.get r).side
    let price := m.currentPrice (x.orders.get r).symbol
    let o' := ((run (step N) x calls).checkAdvancedOrders N m).1.orders.get r
    ∃ first later moved, seenPrices (x.orders.get r).symbol calls ++ [price] = first :: later ∧
      o'.kind = .trailingStop moved ∧ moved.level = fields.level ∧
      moved.stopPrice = fields.level side (side.best first later) ∧
      (o'.status ≠ .pending ↔ moved.reached side price = true) := by
  have hlive : x.orders.objects.Live r := (h.orders.acceptedIssued r hr).1
  rw [seenPrices_append, if_pos rfl, List.forall_mem_append, List.forall_mem_singleton] at hprices
  have hfollows := follows_of_pending (N := N) h hr htype hkind calls hprices.1 hpending
  have hz := h.run (N := N) calls
  have hev := h.evolves (N := N) calls r hlive
  have hsame := writes_run (N := N) x calls
  generalize run (step N) x calls = z at hpending hkept hfollows hz hev hsame ⊢
  have hchecked := (checked_checkAdvancedOrders (N := N) (m := m) hz.orders (hsame.accepted hr)
    hpending (hev.2.orderType.trans htype) hfollows (by rw [hev.2.symbol]; exact hprices.2)).resolve_left
      hkept
  rw [hev.2.symbol, hev.2.side, ← TrailingStopFields.follow_append] at hchecked
  have hsplit : ∃ first later, seenPrices (x.orders.get r).symbol calls ++
      [m.currentPrice (x.orders.get r).symbol] = first :: later := by
    cases seenPrices (x.orders.get r).symbol calls with
    | nil => exact ⟨_, _, rfl⟩
    | cons price rest => exact ⟨price, rest ++ [_], rfl⟩
  obtain ⟨first, later, hseen⟩ := hsplit
  have hfirst : first ≠ 0 := by
    have hmem : first ∈ seenPrices (x.orders.get r).symbol calls ++
        [m.currentPrice (x.orders.get r).symbol] := by
      rw [hseen]
      exact List.mem_cons_self
    rcases List.mem_append.mp hmem with hbefore | hlast
    · exact hprices.1 first hbefore
    · rw [List.mem_singleton.mp hlast]
      exact hprices.2
  rw [hseen] at hchecked
  have htrails : (fields.follow (x.orders.get r).side (first :: later)).Trails _ _ :=
    TrailingStopFields.trails_follow hstart hfirst later
  refine ⟨first, later, _, hseen, hchecked.1, TrailingStopFields.level_follow _ _ _, ?_, ?_⟩
  · rw [htrails.stopPrice, TrailingStopFields.level_follow]
  · rw [ne_eq, hchecked.2, Bool.not_eq_false]

theorem seenPrices_eq_cons {symbol : String} {calls : List (MarketView × Operation)} {first : ℚ}
    {later : List ℚ} (h : seenPrices symbol calls = first :: later) :
    ∃ before m rest, calls = before ++ (m, .checkAdvancedOrders) :: rest ∧
      seenPrices symbol before = [] ∧ m.currentPrice symbol = first := by
  obtain ⟨before, ⟨m, op⟩, rest, hcalls, hbefore, hfirst, -⟩ := List.filterMap_eq_cons_iff.mp h
  dsimp only at hfirst
  split at hfirst
  · rename_i hop
    obtain rfl : op = .checkAdvancedOrders := hop
    exact ⟨before, m, rest, hcalls, List.filterMap_eq_nil_iff.mpr hbefore, Option.some.inj hfirst⟩
  · cases hfirst

theorem pending_at_check {opening : ℚ} (h : x.Sound opening) (hlive : x.orders.objects.Live r)
    {before rest : List (MarketView × Operation)}
    (hpending : ((run (step N) x (before ++ (m, .checkAdvancedOrders) :: rest)).orders.get r).status =
      .pending) : ((run (step N) x before).orders.get r).status = .pending ∧
      (((run (step N) x before).checkAdvancedOrders N m).1.orders.get r).status = .pending := by
  have hsound := h.run (N := N) before
  have hlive' := (h.evolves (N := N) before r hlive).1
  rw [run_append, run_cons] at hpending
  generalize run (step N) x before = z at hpending hsound hlive' ⊢
  have hcheck := (step_progress (N := N) False (m, .checkAdvancedOrders) hsound.orders False.elim
    False.elim).evolves r hlive'
  have hafter : ((step N z (m, .checkAdvancedOrders)).orders.get r).status = .pending :=
    ((hsound.step (N := N) (m, .checkAdvancedOrders)).evolves rest r hcheck.1).2.pending_of_pending
      hpending
  exact ⟨hcheck.2.pending_of_pending hafter, hafter⟩

/-- Along a run a trailing stop is a ratchet from its submission on exactly if the first price that it
sees is no worse for it than the price at the submission. -/
theorem ratchets_iff_of_idle {opening : ℚ} (h : x.Sound opening) (hr : r ∈ x.orders.accepted)
    (htype : (x.orders.get r).orderType = .trailingStop)
    (hkind : (x.orders.get r).kind = .trailingStop fields) (hstart : fields.activated = false)
    (hpositive : 0 < fields.trailAmount)
    (hsmall : fields.trailPercentage = true → fields.trailAmount < 100)
    (later : List (MarketView × Operation))
    (hprices : ∀ price ∈ seenPrices (x.orders.get r).symbol later, price ≠ 0) (first : ℚ) :
    (∀ before m, before ++ [(m, .checkAdvancedOrders)] <+: later → x.RatchetsAt N r first before m) ↔
      ∀ before m, before ++ [(m, .checkAdvancedOrders)] <+: later →
        x.FirstNotWorse N r first before m := by
  have hlive : x.orders.objects.Live r := (h.orders.acceptedIssued r hr).1
  have hseen : ∀ {part : List (MarketView × Operation)}, part <+: later →
      ∀ price ∈ seenPrices (x.orders.get r).symbol part, price ≠ 0 := by
    intro part hpart price hprice
    exact hprices price ((hpart.filterMap _).subset hprice)
  have hterms : ∀ calls, ((run (step N) x calls).orders.get r).symbol = (x.orders.get r).symbol ∧
      ((run (step N) x calls).orders.get r).side = (x.orders.get r).side :=
    fun calls => ⟨(h.evolves calls r hlive).2.symbol, (h.evolves calls r hlive).2.side⟩
  constructor
  · intro hratchets before m hpart hpending hkept hnone
    obtain ⟨first', later', moved, hsplit, hmoved, hlevel, hstop, -⟩ :=
      checked_of_follows (N := N) h hr htype hkind hstart before (hseen hpart) hpending hkept
    obtain ⟨fields', hfields, hratchet, -, -⟩ := hratchets before m hpart hpending hkept
    obtain rfl := OrderKind.trailingStop.inj (hmoved.symm.trans hfields)
    rw [(hterms before).1] at hnone hratchet ⊢
    rw [(hterms before).2] at hratchet ⊢
    rw [hnone, List.nil_append, List.cons.injEq] at hsplit
    obtain ⟨rfl, rfl⟩ := hsplit
    rw [hnone, List.nil_append, hstop, hlevel] at hratchet
    have hbest := TrailingStopFields.level_injective hsmall hpositive hratchet
    have hsingle : (x.orders.get r).side.best (m.currentPrice (x.orders.get r).symbol) [] =
        m.currentPrice (x.orders.get r).symbol := by
      cases (x.orders.get r).side with
      | buy => rfl
      | sell => rfl
    rw [hsingle] at hbest
    exact (Side.notWorse_iff_best _ _ _).mpr hbest.symm
  · intro hfirst before m hpart hpending hkept
    obtain ⟨first', later', moved, hsplit, hmoved, hlevel, hstop, hexecuted⟩ :=
      checked_of_follows (N := N) h hr htype hkind hstart before (hseen hpart) hpending hkept
    have hnotWorse : (x.orders.get r).side.NotWorse first first' := by
      cases hbefore : seenPrices (x.orders.get r).symbol before with
      | nil =>
        have hnow := hfirst before m hpart hpending hkept
        rw [(hterms before).1, (hterms before).2] at hnow
        rw [hbefore, List.nil_append, List.cons.injEq] at hsplit
        rw [← hsplit.1]
        exact hnow hbefore
      | cons price prices =>
        -- the order was pending at the first check, and after it
        obtain ⟨early, m', rest, hcalls, hnone, hprice⟩ := seenPrices_eq_cons hbefore
        rw [hbefore, List.cons_append, List.cons.injEq] at hsplit
        have hearly : early ++ [(m', .checkAdvancedOrders)] <+: before :=
          ⟨rest, by rw [hcalls, List.append_assoc]; rfl⟩
        rw [hcalls] at hpending
        obtain ⟨hopen, hstill⟩ := pending_at_check h hlive hpending
        have hnow := hfirst early m'
          (hearly.trans ((List.prefix_append before [(m, .checkAdvancedOrders)]).trans hpart)) hopen
          (by rw [hstill]; exact fun hc => nomatch hc)
        rw [(hterms early).1, (hterms early).2] at hnow
        rw [← hsplit.1, ← hprice]
        exact hnow hnone
    have hbest : (x.orders.get r).side.best first (seenPrices (x.orders.get r).symbol before ++
        [m.currentPrice (x.orders.get r).symbol]) = (x.orders.get r).side.best first' later' := by
      rw [hsplit, Side.best_cons_of_notWorse hnotWorse]
    refine ⟨moved, hmoved, ?_, ?_, ?_⟩
    · rw [(hterms before).1, (hterms before).2, hbest, hstop, hlevel]
    · rw [(hterms before).1, (hterms before).2, hstop, hlevel, ← hbest, Side.best_append]
      exact TrailingStopFields.tightens_level hsmall hpositive _ _
    · rw [(hterms before).1, (hterms before).2]
      exact hexecuted

variable (N : Numerics) (exchangeId currency : String)
  (feePct slippageBps initialBalance leverage : ℚ)

/-- In every run a trailing stop that rests after its submission is a ratchet from the submission on
exactly if the first price that it sees is no worse for it than the price at the submission. -/
theorem trailing_ratchets_iff (calls later : List (MarketView × Operation)) (m₀ : MarketView)
    (req : OrderRequest) (trail : ℚ) (r : Ref) (htype : req.orderType = .trailingStop)
    (htrail : req.trailAmount = some trail) (hpositive : 0 < trail)
    (hsmall : req.trailPercentage = true → trail < 100)
    (hprices : ∀ price ∈ seenPrices req.symbol later, 0 < price) :
    let x := after N exchangeId currency feePct slippageBps initialBalance leverage calls
    let y := (x.submitOrder N m₀ req).1
    (x.submitOrder N m₀ req).2 = some r → (y.orders.get r).status = .pending →
      ((∀ before m, before ++ [(m, .checkAdvancedOrders)] <+: later →
          y.RatchetsAt N r (m₀.price req.symbol) before m) ↔
        ∀ before m, before ++ [(m, .checkAdvancedOrders)] <+: later →
          y.FirstNotWorse N r (m₀.price req.symbol) before m) := by
  intro x y hreturned hpending
  have hsound : y.Sound initialBalance :=
    (sound_after N exchangeId currency feePct slippageBps initialBalance leverage calls).step
      (m₀, .submitOrder req)
  obtain ⟨hr, hsymbol, -, hstop, fields, hkind, hstart, hamount, hpercentage⟩ :=
    submitOrder_trailingStop htype htrail hreturned hpending
  refine ratchets_iff_of_idle hsound hr hstop hkind hstart (hamount ▸ hpositive) ?_ later ?_ _
  · rw [hamount, hpercentage]
    exact hsmall
  · intro price hprice
    rw [hsymbol] at hprice
    exact (hprices price hprice).ne'

/-- A sale that trails the market by five per cent. -/
def trailingSale : OrderRequest where
  symbol := "BTC"
  side := .sell
  quantity := 1
  orderType := .trailingStop
  trailAmount := some 5

/-- The market rises until the first check, and falls to the stop at the third. -/
theorem trailing_ratchets_iff_rising :
    let x := after Numerics.decimal "binance" "USDT" (1 / 10) 5 10000 10 []
    let y := (x.submitOrder Numerics.decimal (flatMarket 100) trailingSale).1
    let later := [(flatMarket 110, Operation.checkAdvancedOrders),
      (flatMarket 108, Operation.checkAdvancedOrders), (flatMarket 104, Operation.checkAdvancedOrders)]
    (y.orders.get 0).status = .pending ∧
    ((run (step Numerics.decimal) y later).orders.get 0).status = .filled ∧
    ((∀ before m, before ++ [(m, .checkAdvancedOrders)] <+: later →
        y.RatchetsAt Numerics.decimal 0 100 before m) ↔
      ∀ before m, before ++ [(m, .checkAdvancedOrders)] <+: later →
        y.FirstNotWorse Numerics.decimal 0 100 before m) := by
  intro x y later
  have hpending : (y.orders.get 0).status = .pending := by decide +kernel
  refine ⟨hpending, by decide +kernel, ?_⟩
  exact trailing_ratchets_iff Numerics.decimal "binance" "USDT" (1 / 10) 5 10000 10 [] later
    (flatMarket 100) trailingSale 5 0 rfl rfl (by norm_num) (fun _ => by norm_num)
    (by decide +kernel) (by decide +kernel) hpending

/-- The market falls to 97 before the first check: the stop of a sale submitted at 100 is then at 92.15
instead of 95. -/
theorem not_trailing_ratchets_falling :
    let x := after Numerics.decimal "binance" "USDT" (1 / 10) 5 10000 10 []
    let y := (x.submitOrder Numerics.decimal (flatMarket 100) trailingSale).1
    let later := [(flatMarket 97, Operation.checkAdvancedOrders)]
    (y.orders.get 0).status = .pending ∧
    ¬ ∀ before m, before ++ [(m, .checkAdvancedOrders)] <+: later →
      y.RatchetsAt Numerics.decimal 0 100 before m := by
  intro x y later
  have hpending : (y.orders.get 0).status = .pending := by decide +kernel
  have hkept : ((y.checkAdvancedOrders Numerics.decimal (flatMarket 97)).1.orders.get 0).status =
      .pending := by decide +kernel
  have hkind : ((y.checkAdvancedOrders Numerics.decimal (flatMarket 97)).1.orders.get 0).kind =
      .trailingStop ⟨5, true, 9215 / 100, 97, 97, true⟩ := by decide +kernel
  have hside : (y.orders.get 0).side = .sell := by decide +kernel
  have hprice : (flatMarket 97).currentPrice (y.orders.get 0).symbol = 97 := by decide +kernel
  clear_value y
  refine ⟨hpending, fun hratchets => ?_⟩
  obtain ⟨fields, hfields, hstop, -⟩ := hratchets [] (flatMarket 97) (List.prefix_refl _) hpending
    (by rw [run_nil, hkept]; exact fun hc => nomatch hc)
  rw [run_nil, hkind] at hfields
  obtain rfl := OrderKind.trailingStop.inj hfields
  rw [run_nil, hside, hprice] at hstop
  change (9215 / 100 : ℚ) = TrailingStopFields.level _ Side.sell (Side.sell.best 100 [97]) at hstop
  exact absurd hstop (by decide +kernel)

end SimulatedExchange

end TradingSim.Exchange
