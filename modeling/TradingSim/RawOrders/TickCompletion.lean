import TradingSim.RawOrders.Soundness

/-!
# Ticks complete on sound exchanges

The sweep of a book holds the orders of its snapshot in hand, so that each of them still fits when its
turn comes. The forced closes submit market orders in no group, which raise nowhere.
-/

namespace TradingSim.RawOrders

open Foundations
open Exchange (CloseTrigger PendingBook Side orderId)
open Floats (Positive divide isZero lit lt)
open Foundations.Action
open SimulatedExchange (Sound)

variable {F : Type} [Floats F] {rt : Runtime F} {m : MarketView F}
  {inHand : List (PendingBook × Ref)} {r : Ref} {book : PendingBook}

/-! ### The sweeps -/

variable {entry : String × Ref}

/-- The check of an entry completes if that of its kind does. -/
theorem completes_checkPending {check : Order F → F → Sweep → Call F Sweep} (hr : (book, entry.2) ∈ inHand)
    (hcheck : ∀ order currentPrice acc, order.Fits book → isZero currentPrice = false →
      Completes (Sound rt inHand) (check order currentPrice acc) fun _ => Sound rt inHand) (acc : Sweep) :
    Completes (Sound rt inHand) (checkPending m check acc entry) fun _ => Sound rt inHand := by
  refine triple_readOrder_bind fun x hx => triple_ite (fun _ => triple_pure fun _ h => h) fun _ => ?_
  have hfits := (hx.inHand _ hr).2
  obtain ⟨s, hs⟩ := hfits.symbol
  have hprice : m.currentPrice (x.orders.get entry.2).symbol =
      .ok (if s ∈ m.symbols then m.price s else lit 0) := by
    rw [hs]
    rfl
  rw [lift_bind_of_ok hprice]
  exact triple_ite (fun _ => triple_pure fun _ h => h) fun hzero =>
    hcheck _ _ acc hfits (Bool.not_eq_true _ ▸ hzero)

/-- A sweep goes on after an execution. -/
theorem completes_executed {c : Call F Unit} (h : Completes (Sound rt inHand) c fun _ => Sound rt inHand)
    (swept : Sweep) : Completes (Sound rt inHand) (do c; return swept) fun _ => Sound rt inHand :=
  triple_bind h fun _ => triple_pure fun _ hs => hs

/-- The check of a limit order completes. -/
theorem completes_checkLimitOrder (hr : (.limits, entry.2) ∈ inHand) (acc : Sweep) :
    Completes (Sound rt inHand) (checkLimitOrder rt m acc entry) fun _ => Sound rt inHand := by
  refine triple_readOrder_bind fun x _ => triple_ite (fun _ => ?_) fun _ => ?_
  · exact completes_executed (triple_modify fun _ h => h.setStatus _ .cancelled) _
  · refine completes_checkPending hr (fun order currentPrice acc hfits _ => ?_) acc
    obtain ⟨price, fillPrice, hprice, hfill⟩ := Value.IsFactor.exists hfits.readable
    rw [lift_bind_of_ok hprice]
    exact triple_ite (fun _ => completes_executed (completes_executeLimitOrder hr hfill) _)
      fun _ => triple_pure fun _ h => h

/-- Comparing with a stop price completes. -/
theorem completes_checkTrigger (hr : (.stopLimits, r) ∈ inHand) {stopPrice limitPrice : Value F}
    (hstop : stopPrice.IsNumber) (hlimit : limitPrice.IsFactor) (side : Side) (triggered : Bool)
    (currentPrice : F) :
    Completes (Sound rt inHand) (checkTrigger r side stopPrice limitPrice triggered currentPrice)
      fun _ => Sound rt inHand := by
  unfold checkTrigger
  obtain ⟨stop, hstop'⟩ := hstop.exists
  rw [lift_bind_of_ok hstop']
  exact triple_ite (fun _ => triple_pure fun _ h => h) fun _ => triple_modify_bind _
    (fun _ h => h.setKind hr (by decide) fun _ _ => ⟨hstop, hlimit⟩) (triple_pure fun _ h => h)

/-- The check of a stop-limit order completes. -/
theorem completes_checkStopLimitOrder (hr : (.stopLimits, entry.2) ∈ inHand) (acc : Sweep) :
    Completes (Sound rt inHand) (checkStopLimitOrder rt m acc entry) fun _ => Sound rt inHand := by
  refine completes_checkPending hr (fun order currentPrice acc hfits _ => ?_) acc
  obtain ⟨stopPrice, limitPrice, triggered, hkind, hstop, hlimit⟩ := hfits.readable.stopLimit
  obtain ⟨limit, fillPrice, hlimit', hfill⟩ := hlimit.exists
  simp only [hkind]
  refine triple_bind (completes_checkTrigger hr hstop hlimit _ _ _) fun reached =>
    triple_ite (fun _ => ?_) fun _ => triple_pure fun _ h => h
  rw [lift_bind_of_ok hlimit']
  exact triple_ite (fun _ => completes_executed (completes_executeLimitOrder hr hfill) _)
    fun _ => triple_pure fun _ h => h

/-- The level of a trail is computed. -/
theorem stopAt_eq_ok (fields : TrailingStop F) (h : fields.trailAmount.IsFactor) (side : Side)
    (currentPrice : F) : ∃ stopPrice, fields.stopAt side currentPrice = .ok stopPrice := by
  obtain ⟨n, trail, hn, htrail⟩ := h.exists
  have htoFloat : fields.trailAmount.toFloat = .ok trail := by
    rw [Value.toFloat, hn]
    exact htrail
  unfold TrailingStop.stopAt
  rw [htoFloat]
  cases fields.trailPercentage <;> cases side <;> exact ⟨_, rfl⟩

/-- The first level of a trail is computed at a price. -/
theorem firstStop_eq_ok (fields : TrailingStop F) (h : fields.trailAmount.IsFactor) (side : Side)
    {currentPrice : F} (hprice : isZero currentPrice = false) :
    ∃ stopPrice, fields.firstStop side currentPrice = .ok stopPrice := by
  unfold TrailingStop.firstStop
  split
  · exact stopAt_eq_ok fields h side currentPrice
  · obtain ⟨n, trail, hn, htrail⟩ := h.exists
    have htoFloat : fields.trailAmount.toFloat = .ok trail := by
      rw [Value.toFloat, hn]
      exact htrail
    have hshare : divide trail currentPrice = .ok (Floats.div trail currentPrice) := by
      rw [divide, hprice]
      rfl
    rw [htoFloat]
    dsimp only [bind, Except.bind]
    rw [hshare]
    cases side <;> exact ⟨_, rfl⟩

/-- Storing a trail completes. -/
theorem completes_putTrail (hr : (.trailingStops, r) ∈ inHand) {fields : TrailingStop F}
    (h : fields.trailAmount.IsFactor) :
    Completes (Sound rt inHand) (putTrail r fields) fun _ => Sound rt inHand :=
  triple_modify fun _ hx => hx.setKind hr (by decide) fun _ _ => h

theorem completes_updateStopPrice (hr : (.trailingStops, r) ∈ inHand) {fields : TrailingStop F}
    (h : fields.trailAmount.IsFactor) (side : Side) {currentPrice : F}
    (hprice : isZero currentPrice = false) :
    Completes (Sound rt inHand) (updateStopPrice r side fields currentPrice) fun _ => Sound rt inHand := by
  refine triple_ite (fun _ => ?_) fun _ => triple_ite (fun _ => ?_) fun _ => triple_pure fun _ h => h
  · refine triple_bind (completes_putTrail hr h) fun _ => ?_
    obtain ⟨stopPrice, hstop⟩ := firstStop_eq_ok { fields with
      activated := true, highestPrice := currentPrice, lowestPrice := currentPrice } h side hprice
    rw [lift_bind_of_ok hstop]
    exact triple_bind (completes_putTrail hr h) fun _ => triple_pure fun _ hx => hx
  · cases side <;> dsimp only
    · refine triple_bind (completes_putTrail hr h) fun _ => ?_
      obtain ⟨stopPrice, hstop⟩ := stopAt_eq_ok { fields with
        lowestPrice := currentPrice } h .buy currentPrice
      rw [lift_bind_of_ok hstop]
      exact triple_bind (completes_putTrail hr h) fun _ => triple_pure fun _ hx => hx
    · refine triple_bind (completes_putTrail hr h) fun _ => ?_
      obtain ⟨stopPrice, hstop⟩ := stopAt_eq_ok { fields with
        highestPrice := currentPrice } h .sell currentPrice
      rw [lift_bind_of_ok hstop]
      exact triple_bind (completes_putTrail hr h) fun _ => triple_pure fun _ hx => hx

/-- The check of a trailing stop completes. -/
theorem completes_checkTrailingStopOrder (hr : (.trailingStops, entry.2) ∈ inHand) (acc : Sweep) :
    Completes (Sound rt inHand) (checkTrailingStopOrder rt m acc entry) fun _ => Sound rt inHand := by
  refine completes_checkPending hr (fun order currentPrice acc hfits hzero => ?_) acc
  obtain ⟨fields, hkind, htrail⟩ := hfits.readable.trailingStop
  simp only [hkind]
  exact triple_bind (completes_updateStopPrice hr htrail _ hzero) fun stopPrice =>
    triple_ite (fun _ => completes_executed (completes_executeMarketOrder hr _) _)
      fun _ => triple_pure fun _ h => h

/-- An iceberg has a price, which is a float if it is there. -/
theorem icebergPrice_eq_ok {order : Order F} (h : order.price.isNull = true ∨ order.price.IsFactor)
    (currentPrice : F) : ∃ price, icebergPrice order currentPrice = .ok price ∧
      ∀ n ∈ price, ∃ fillPrice, n.toFloat = .ok fillPrice := by
  unfold icebergPrice
  split
  · exact ⟨_, rfl, fun n hn => ⟨currentPrice, by rw [← Option.some.inj hn]; rfl⟩⟩
  · rename_i hpriced
    obtain ⟨price, fillPrice, hprice, hfill⟩ := (h.resolve_left hpriced).exists
    rw [hprice]
    refine ⟨_, rfl, fun n hn => ?_⟩
    split at hn
    · exact ⟨fillPrice, by rw [← Option.some.inj hn]; exact hfill⟩
    · cases hn

/-- The check of an iceberg completes. -/
theorem completes_checkIcebergOrder (hr : (.icebergs, entry.2) ∈ inHand) (acc : Sweep) :
    Completes (Sound rt inHand) (checkIcebergOrder rt m acc entry) fun _ => Sound rt inHand := by
  refine completes_checkPending hr (fun order currentPrice acc hfits _ => ?_) acc
  obtain ⟨fields, hkind, hpriced, hvisible⟩ := hfits.readable.iceberg
  simp only [hkind]
  refine triple_ite (fun hhidden => ?_) fun _ => triple_pure fun _ h => h
  obtain ⟨price, hprice, hfactor⟩ := icebergPrice_eq_ok hpriced currentPrice
  rw [lift_bind_of_ok hprice]
  cases price with
  | none => exact triple_pure fun _ h => h
  | some price =>
    obtain ⟨fillPrice, hfill⟩ := hfactor price rfl
    refine triple_bind (completes_executeIcebergSlice hr hhidden (hvisible hhidden) hfill)
      fun slice => triple_ite (fun _ => ?_) fun _ => triple_pure fun _ h => h
    exact triple_modify_bind (Sound rt inHand) (fun _ h => h.updateOrder _ id fun _ hfits =>
      ⟨hfits.2.symbol, hfits.2.quantity, hfits.2.readable⟩)
        (completes_executed (completes_resolveOco _) _)

/-- The sweep of a book completes if the checks do. -/
theorem completes_checkBook {check : Sweep → String × Ref → Call F Sweep}
    (hcheck : ∀ (inHand : List (PendingBook × Ref)) (acc : Sweep) (entry : String × Ref),
      (book, entry.2) ∈ inHand → Completes (Sound rt inHand) (check acc entry) fun _ => Sound rt inHand)
    (filledOrders : List Ref) :
    Completes (Sound rt []) (checkBook book check filledOrders) fun _ => Sound rt [] := by
  refine triple_get_bind_eq fun x hx => ?_
  generalize hhand : (x.pending book).entries.map (fun entry => (book, entry.2)) = inHand
  have hloop := triple_foldlM (S := SimulatedExchange F) (E := PyException)
    (I := fun _ => Sound rt inHand) (R := fun _ _ => False) (f := check) (x.pending book).entries
    (filledOrders, []) fun acc entry hentry => hcheck inHand acc entry
      (hhand ▸ List.mem_map.mpr ⟨entry, hentry, rfl⟩)
  refine triple_bind (hloop.imp (fun s hs => ?_) (fun _ _ h => h) fun _ _ h => h) fun swept => ?_
  · subst hs
    refine ⟨hx.booked, fun e he => ?_, hx.positions, hx.grouped⟩
    rw [← hhand, List.mem_map] at he
    obtain ⟨entry, hentry, rfl⟩ := he
    exact hx.booked book entry.1 entry.2 ((Dict.mem_entries_iff _ _ _).mp hentry)
  · refine triple_modify_bind (Sound rt []) (fun s hs => ?_) (triple_pure fun _ h => h)
    have hempty : Sound rt [] s := ⟨hs.booked, fun _ he => absurd he List.not_mem_nil, hs.positions, hs.grouped⟩
    exact hempty.foldl_popPending book swept.2

theorem completes_checkAdvancedOrders :
    Completes (Sound rt []) (checkAdvancedOrders rt m) fun _ => Sound rt [] :=
  triple_bind (completes_checkBook (fun _ acc _ hr => completes_checkLimitOrder hr acc) [])
    fun filled => triple_bind
      (completes_checkBook (fun _ acc _ hr => completes_checkStopLimitOrder hr acc) filled)
      fun filled => triple_bind
        (completes_checkBook (fun _ acc _ hr => completes_checkTrailingStopOrder hr acc) filled)
        (completes_checkBook fun _ acc _ hr => completes_checkIcebergOrder hr acc)

end TradingSim.RawOrders
