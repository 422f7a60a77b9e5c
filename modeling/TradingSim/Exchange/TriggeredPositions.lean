import TradingSim.Exchange.ForcedCloses

/-!
# Triggered positions are closed

A call of `check_stop_loss_take_profit` finds the trigger of each position at the price that it marks
the position with. The positions with a trigger of a full close are closed and their trades say why,
unless an order of their quantity is refused; and no other position meets a condition of a full close,
but for the rest of one that was liquidated in part.
-/

namespace TradingSim.Exchange

open Foundations

namespace SimulatedExchange

variable {N : Numerics} {m : MarketView} {x y z : SimulatedExchange} {r : Ref}

/-- The price meets a condition on which a position is closed as a whole: its liquidation price, its
stop loss or its take profit. -/
def MustClose (N : Numerics) (x : SimulatedExchange) (position : Position) (currentPrice : ℚ) : Prop :=
  reachesLiquidation position currentPrice
      (x.computeLiqPrices N position x.ledger.account.effectiveLeverage).1 = true ∨
    (checkSlTp position currentPrice).isSome

instance (N : Numerics) (x : SimulatedExchange) (position : Position) (currentPrice : ℚ) :
    Decidable (x.MustClose N position currentPrice) := inferInstanceAs (Decidable (_ ∨ _))

/-- The trigger that the call finds for a position, with the quantity to close. -/
def trigger (N : Numerics) (m : MarketView) (x : SimulatedExchange) (r : Ref) :
    Option (CloseTrigger × ℚ) :=
  x.checkPositionTriggers N (x.ledger.objects.get r) (m.price (x.ledger.objects.get r).symbol)

/-- Afterwards no position meets a condition of a full close but the rest of a partial liquidation, and each
one that met it has a trade that tells its trigger. -/
def ClosesTriggered (N : Numerics) (m : MarketView) (x y : SimulatedExchange) : Prop :=
  (∀ r ∈ y.ledger.account.positions,
    y.MustClose N (y.ledger.objects.get r) (m.price (y.ledger.objects.get r).symbol) →
      (∃ quantity, x.trigger N m r = some (.partialLiquidation, quantity)) ∧
        (y.ledger.objects.get r).quantity < (x.ledger.objects.get r).quantity) ∧
  ∃ trades, y.ledger.account.tradeHistory = x.ledger.account.tradeHistory ++ trades ∧
    ∀ r ∈ x.ledger.account.positions, ∀ trigger quantity,
      x.trigger N m r = some (trigger, quantity) → trigger ≠ .partialLiquidation →
        ∃ trade ∈ trades, trade.symbol = (x.ledger.objects.get r).symbol ∧
          trade.quantity = (x.ledger.objects.get r).quantity ∧ trade.reason = trigger.reason

/-- No quantity to close exceeds the largest quantity of an order, unless it is the part of a position
that meets no condition of a full close. -/
def ClosesAdmitted (N : Numerics) (m : MarketView) (x : SimulatedExchange) : Prop :=
  ∀ r ∈ x.ledger.account.positions, ∀ trigger quantity, x.trigger N m r = some (trigger, quantity) →
    quantity ≤ OrderRequest.maxQuantity ∨ (trigger = .partialLiquidation ∧
      ¬ x.MustClose N (x.ledger.objects.get r) (m.price (x.ledger.objects.get r).symbol))

/-! ### Triggers -/

theorem trigger_marked (x : SimulatedExchange) (p : Position) (pnl currentPrice : ℚ) :
    x.checkPositionTriggers N { p with unrealizedPnl := pnl } currentPrice =
        x.checkPositionTriggers N p currentPrice ∧
      (x.MustClose N { p with unrealizedPnl := pnl } currentPrice ↔
        x.MustClose N p currentPrice) := ⟨rfl, Iff.rfl⟩

/-- A stop loss or a take profit closes the whole position. -/
theorem checkSlTp_some {p : Position} {currentPrice quantity : ℚ} {trigger : CloseTrigger}
    (h : checkSlTp p currentPrice = some (trigger, quantity)) :
    trigger ≠ .partialLiquidation ∧ quantity = p.quantity := by
  have hread : ∀ trigger' : CloseTrigger, trigger' ≠ .partialLiquidation →
      some (trigger', p.quantity) = some (trigger, quantity) →
      trigger ≠ .partialLiquidation ∧ quantity = p.quantity := by
    intro trigger' hne heq
    obtain ⟨rfl, rfl⟩ := Prod.mk.inj (Option.some.inj heq)
    exact ⟨hne, rfl⟩
  unfold checkSlTp at h
  split at h
  · split at h
    · exact hread _ (by decide) h
    · split at h
      · exact hread _ (by decide) h
      · cases h
  · split at h
    · exact hread _ (by decide) h
    · split at h
      · exact hread _ (by decide) h
      · cases h

theorem checkPositionTriggers_cases (N : Numerics) (x : SimulatedExchange) (p : Position)
    (currentPrice : ℚ) :
    (x.checkPositionTriggers N p currentPrice = none ∧ ¬ x.MustClose N p currentPrice) ∨
    x.checkPositionTriggers N p currentPrice =
      some (.partialLiquidation, p.quantity * x.partialLiquidationRatio) ∨
    ∃ trigger, trigger ≠ .partialLiquidation ∧
      x.checkPositionTriggers N p currentPrice = some (trigger, p.quantity) ∧
      x.MustClose N p currentPrice := by
  unfold checkPositionTriggers MustClose
  by_cases hfull : reachesLiquidation p currentPrice
      (x.computeLiqPrices N p x.ledger.account.effectiveLeverage).1 = true
  · rw [if_pos hfull]
    exact Or.inr (Or.inr ⟨.liquidation, by decide, rfl, Or.inl hfull⟩)
  · rw [if_neg hfull]
    by_cases hpartly : reachesLiquidation p currentPrice
        (x.computeLiqPrices N p x.ledger.account.effectiveLeverage).2 = true
    · rw [if_pos hpartly]
      exact Or.inr (Or.inl rfl)
    · rw [if_neg hpartly]
      cases hlevels : checkSlTp p currentPrice with
      | none => exact Or.inl ⟨rfl, fun hc => hc.elim hfull fun hsome => by cases hsome⟩
      | some found =>
        obtain ⟨trigger, quantity⟩ := found
        obtain ⟨hne, rfl⟩ := checkSlTp_some hlevels
        exact Or.inr (Or.inr ⟨trigger, hne, rfl, Or.inr rfl⟩)

/-- A trigger is that of a partial liquidation, or it closes the whole position on one of the conditions. -/
theorem trigger_some {trigger : CloseTrigger} {quantity : ℚ}
    (h : x.trigger N m r = some (trigger, quantity)) : (trigger = .partialLiquidation ∧
      quantity = (x.ledger.objects.get r).quantity * x.partialLiquidationRatio) ∨
    (trigger ≠ .partialLiquidation ∧ quantity = (x.ledger.objects.get r).quantity ∧
      x.MustClose N (x.ledger.objects.get r) (m.price (x.ledger.objects.get r).symbol)) := by
  unfold SimulatedExchange.trigger at h
  rcases checkPositionTriggers_cases N x (x.ledger.objects.get r)
    (m.price (x.ledger.objects.get r).symbol) with ⟨hfree, -⟩ | hpart | ⟨trigger', hne, hfull, hmust⟩
  · rw [hfree] at h
    cases h
  · rw [hpart] at h
    obtain ⟨rfl, rfl⟩ := Prod.mk.inj (Option.some.inj h)
    exact Or.inl ⟨rfl, rfl⟩
  · rw [hfull] at h
    obtain ⟨rfl, rfl⟩ := Prod.mk.inj (Option.some.inj h)
    exact Or.inr ⟨hne, rfl, hmust⟩

theorem exists_trigger_of_mustClose
    (h : x.MustClose N (x.ledger.objects.get r) (m.price (x.ledger.objects.get r).symbol)) :
    ∃ trigger quantity, x.trigger N m r = some (trigger, quantity) := by
  rcases checkPositionTriggers_cases N x (x.ledger.objects.get r)
    (m.price (x.ledger.objects.get r).symbol) with ⟨-, hnot⟩ | hpart | ⟨trigger, -, hfull, -⟩
  · exact absurd h hnot
  · exact ⟨_, _, hpart⟩
  · exact ⟨_, _, hfull⟩

/-! ### Marking -/

/-- The exchange with its positions marked. -/
structure Marked (x y : SimulatedExchange) : Prop where
  rest : ∃ objects, y = { x with ledger := { x.ledger with objects := objects } }
  live : ∀ r, y.ledger.objects.Live r ↔ x.ledger.objects.Live r
  get : ∀ r, ∃ pnl, y.ledger.objects.get r = { x.ledger.objects.get r with unrealizedPnl := pnl }

theorem Marked.refl (x : SimulatedExchange) : x.Marked x :=
  ⟨⟨x.ledger.objects, rfl⟩, fun _ => Iff.rfl, fun r => ⟨(x.ledger.objects.get r).unrealizedPnl, rfl⟩⟩

theorem Marked.trans (hxy : x.Marked y) (hyz : y.Marked z) : x.Marked z := by
  refine ⟨?_, fun r => (hyz.live r).trans (hxy.live r), fun r => ?_⟩
  · obtain ⟨objects, rfl⟩ := hxy.rest
    obtain ⟨objects', rfl⟩ := hyz.rest
    exact ⟨objects', rfl⟩
  · obtain ⟨pnl, hget⟩ := hxy.get r
    obtain ⟨pnl', hget'⟩ := hyz.get r
    rw [hget] at hget'
    exact ⟨pnl', hget'⟩

theorem Marked.trigger_eq (h : x.Marked y) (r : Ref) : y.trigger N m r = x.trigger N m r := by
  obtain ⟨pnl, hget⟩ := h.get r
  obtain ⟨objects, rfl⟩ := h.rest
  unfold trigger
  rw [hget]
  rfl

theorem Marked.valid (h : x.Marked y) (hvalid : x.ledger.Valid) : y.ledger.Valid := by
  obtain ⟨objects, rfl⟩ := h.rest
  refine ⟨fun r hr => (h.live r).mpr (hvalid.live r hr), hvalid.nodup, ?_, ?_, hvalid.small⟩
  · intro symbol r
    obtain ⟨pnl, hget⟩ := h.get r
    rw [hget]
    exact hvalid.indexed symbol r
  · intro r hr
    obtain ⟨pnl, hget⟩ := h.get r
    rw [hget]
    exact hvalid.positive r hr

theorem marked_markPosition (x : SimulatedExchange) (r : Ref) (currentPrice : ℚ) :
    x.Marked { x with ledger := x.ledger.markPosition r currentPrice } := by
  refine ⟨⟨_, rfl⟩, fun r' => Heap.live_modify _ _ _ _, fun r' => ?_⟩
  change ∃ pnl, (x.ledger.objects.modify r _).get r' = _
  by_cases hlive : x.ledger.objects.Live r
  · rw [Heap.get_modify _ hlive]
    by_cases heq : r' = r
    · rw [if_pos heq, heq]
      exact ⟨_, rfl⟩
    · rw [if_neg heq]
      exact ⟨(x.ledger.objects.get r').unrealizedPnl, rfl⟩
  · rw [Heap.modify_of_not_live _ hlive]
    exact ⟨(x.ledger.objects.get r').unrealizedPnl, rfl⟩

/-- The first loop marks the positions and lists those with a trigger. -/
theorem foldl_markAndCheck (positions : List Ref)
    (acc : SimulatedExchange × List (Ref × CloseTrigger × ℚ)) :
    acc.1.Marked (positions.foldl (markAndCheck N m) acc).1 ∧ (positions.foldl (markAndCheck N m) acc).2 =
        acc.2 ++ positions.filterMap fun r => (acc.1.trigger N m r).map (Prod.mk r) := by
  induction positions generalizing acc with
  | nil => exact ⟨.refl _, (List.append_nil _).symm⟩
  | cons r rest ih =>
    have hmark := marked_markPosition acc.1 r (m.price (acc.1.ledger.objects.get r).symbol)
    have hone : acc.1.Marked (markAndCheck N m acc r).1 ∧ (markAndCheck N m acc r).2 =
        acc.2 ++ ((acc.1.trigger N m r).map (Prod.mk r)).toList := by
      have hfound : SimulatedExchange.checkPositionTriggers N { acc.1 with
          ledger := acc.1.ledger.markPosition r (m.price (acc.1.ledger.objects.get r).symbol) }
          ((acc.1.ledger.markPosition r (m.price (acc.1.ledger.objects.get r).symbol)).objects.get r)
          (m.price (acc.1.ledger.objects.get r).symbol) = acc.1.trigger N m r := by
        obtain ⟨pnl, hget⟩ := hmark.get r
        rw [← hmark.trigger_eq r, trigger, hget]
      unfold markAndCheck
      simp only
      rw [hfound]
      cases acc.1.trigger N m r with
      | none => exact ⟨hmark, (List.append_nil _).symm⟩
      | some found => exact ⟨hmark, rfl⟩
    obtain ⟨hmarked, hlist⟩ := ih (markAndCheck N m acc r)
    refine ⟨hone.1.trans hmarked, ?_⟩
    rw [List.foldl_cons, hlist, hone.2, List.append_assoc]
    congr 1
    have hsame : (fun r' => ((markAndCheck N m acc r).1.trigger N m r').map (Prod.mk r')) =
        fun r' => (acc.1.trigger N m r').map (Prod.mk r') := by
      funext r'
      rw [hone.1.trigger_eq r']
    rw [hsame, List.filterMap_cons]
    cases acc.1.trigger N m r with
    | none => rfl
    | some found => rfl

/-! ### The sweep -/

/-- Conditions depend on the settings only. -/
theorem mustClose_congr (hmargin : y.maintenanceMarginRate = x.maintenanceMarginRate)
    (hleverage : y.ledger.account.leverage = x.ledger.account.leverage) (p : Position)
    (currentPrice : ℚ) : y.MustClose N p currentPrice ↔ x.MustClose N p currentPrice := by
  have hlevel : (y.computeLiqPrices N p y.ledger.account.effectiveLeverage).1 =
      (x.computeLiqPrices N p x.ledger.account.effectiveLeverage).1 := by
    unfold computeLiqPrices Account.effectiveLeverage
    rw [hmargin, hleverage]
    split
    · rfl
    · rfl
  unfold MustClose
  rw [hlevel]

theorem mem_triggers (x : SimulatedExchange) (e : Ref × CloseTrigger × ℚ) :
    (e ∈ x.ledger.account.positions.filterMap fun r => (x.trigger N m r).map (Prod.mk r)) ↔
      e.1 ∈ x.ledger.account.positions ∧ x.trigger N m e.1 = some e.2 := by
  rw [List.mem_filterMap]
  constructor
  · intro ⟨r, hr, hfound⟩
    obtain ⟨found, htrigger, rfl⟩ := Option.map_eq_some_iff.mp hfound
    exact ⟨hr, htrigger⟩
  · intro ⟨hr, htrigger⟩
    exact ⟨e.1, hr, by rw [htrigger]; rfl⟩

theorem entry_of_trigger {trigger : CloseTrigger} {quantity : ℚ}
    (hr : r ∈ x.ledger.account.positions) (h : x.trigger N m r = some (trigger, quantity)) :
    (r, trigger, quantity) ∈
      x.ledger.account.positions.filterMap fun r => (x.trigger N m r).map (Prod.mk r) :=
  (mem_triggers x (r, trigger, quantity)).mpr ⟨hr, h⟩

/-- Each position has one entry at most. -/
theorem nodup_triggers (hnodup : x.ledger.account.positions.Nodup) :
    ((x.ledger.account.positions.filterMap fun r => (x.trigger N m r).map (Prod.mk r)).map
      Prod.fst).Nodup := by
  rw [List.map_filterMap]
  apply hnodup.filterMap
  intro r r' b hb hb'
  obtain ⟨e, he, rfl⟩ := Option.map_eq_some_iff.mp hb
  obtain ⟨found, -, rfl⟩ := Option.map_eq_some_iff.mp he
  obtain ⟨e', he', hsame⟩ := Option.map_eq_some_iff.mp hb'
  obtain ⟨found', -, rfl⟩ := Option.map_eq_some_iff.mp he'
  exact hsame.symm

/-- A call between two exchanges: it marks the positions and then processes the triggers that it has
found, one after the other. -/
structure Processed (N : Numerics) (m : MarketView) (x y after : SimulatedExchange)
    (trades : List ClosedTrade) : Prop where
  marked : x.Marked y
  swept : y.ledger.Swept after.ledger
    (x.ledger.account.positions.filterMap fun r => (x.trigger N m r).map (Prod.mk r)) trades
  margin : after.maintenanceMarginRate = x.maintenanceMarginRate

theorem processed_checkStopLossTakeProfit (hvalid : x.ledger.Valid)
    (hratio : x.partialLiquidationRatio = 1 / 2)
    (hprices : ∀ r ∈ x.ledger.account.positions, 0 < m.price (x.ledger.objects.get r).symbol) :
    ∃ y trades, Processed N m x y (x.checkStopLossTakeProfit N m).1 trades := by
  obtain ⟨hmarked, hlist⟩ := foldl_markAndCheck (N := N) (m := m) x.ledger.account.positions (x, [])
  unfold checkStopLossTakeProfit
  generalize x.ledger.account.positions.foldl (markAndCheck N m) (x, []) = marked at hmarked hlist ⊢
  obtain ⟨y, entries⟩ := marked
  rw [List.nil_append] at hlist
  have hpositions : y.ledger.account.positions = x.ledger.account.positions ∧
      y.maintenanceMarginRate = x.maintenanceMarginRate := by
    obtain ⟨objects, rfl⟩ := hmarked.rest
    exact ⟨rfl, rfl⟩
  have hbounds : ∀ e ∈ entries, e.1 ∈ y.ledger.account.positions ∧ 0 < e.2.2 ∧
      e.2.2 ≤ (y.ledger.objects.get e.1).quantity ∧
      m.price (y.ledger.objects.get e.1).symbol ≠ 0 := by
    intro e he
    change entries = _ at hlist
    rw [hlist, mem_triggers] at he
    obtain ⟨hr, htrigger⟩ := he
    obtain ⟨pnl, hget⟩ := hmarked.get e.1
    rw [hpositions.1, hget]
    have hpositive := hvalid.positive e.1 hr
    have hquantity : 0 < e.2.2 ∧ e.2.2 ≤ (x.ledger.objects.get e.1).quantity := by
      rcases trigger_some htrigger with ⟨-, hpart⟩ | ⟨-, hfull, -⟩
      · rw [hpart, hratio]
        constructor
        · linarith
        · linarith
      · rw [hfull]
        exact ⟨hpositive, le_refl _⟩
    exact ⟨hr, hquantity.1, hquantity.2, (hprices e.1 hr).ne'⟩
  have hdistinct : (entries.map Prod.fst).Nodup := by
    change entries = _ at hlist
    rw [hlist]
    exact nodup_triggers hvalid.nodup
  obtain ⟨trades, hswept, hmargin⟩ := swept_foldl_closeTriggeredPosition (N := N) (m := m) entries
    (y, []) (hmarked.valid hvalid) hdistinct hbounds
  exact ⟨y, trades, hmarked, hlist ▸ hswept, hmargin.trans hpositions.2⟩

namespace Processed

variable {after : SimulatedExchange} {trades : List ClosedTrade} {trigger : CloseTrigger} {quantity : ℚ}

/-- Marking leaves the account, the symbols and the quantities alone. -/
theorem account_eq (h : Processed N m x y after trades) : y.ledger.account = x.ledger.account := by
  obtain ⟨objects, rfl⟩ := h.marked.rest
  rfl

theorem symbol_eq (h : Processed N m x y after trades) (r : Ref) :
    (y.ledger.objects.get r).symbol = (x.ledger.objects.get r).symbol := by
  obtain ⟨pnl, hget⟩ := h.marked.get r
  rw [hget]

theorem quantity_eq (h : Processed N m x y after trades) (r : Ref) :
    (y.ledger.objects.get r).quantity = (x.ledger.objects.get r).quantity := by
  obtain ⟨pnl, hget⟩ := h.marked.get r
  rw [hget]

/-- A position that the list has left alone meets the conditions that it met before. -/
theorem mustClose_iff (h : Processed N m x y after trades)
    (hsame : after.ledger.objects.get r = y.ledger.objects.get r) :
    after.MustClose N (after.ledger.objects.get r) (m.price (after.ledger.objects.get r).symbol) ↔
      x.MustClose N (x.ledger.objects.get r) (m.price (x.ledger.objects.get r).symbol) := by
  obtain ⟨pnl, hget⟩ := h.marked.get r
  rw [hsame, hget, mustClose_congr h.margin (h.swept.leverage.trans (congrArg _ h.account_eq))]
  exact (trigger_marked x _ pnl _).2

/-- If nothing is left to close but rests of partial liquidations, all quantities were admitted: a refused
order would have left its position as it was. -/
theorem admitted (h : Processed N m x y after trades)
    (hclosed : x.ClosesTriggered N m after) : x.ClosesAdmitted N m := by
  intro r hr trigger quantity htrigger
  by_contra hbad
  rw [not_or, not_le] at hbad
  obtain ⟨hopen, hsame⟩ := h.swept.refused _ (entry_of_trigger hr htrigger) hbad.1
  have hmust : x.MustClose N (x.ledger.objects.get r)
      (m.price (x.ledger.objects.get r).symbol) := by
    rcases trigger_some htrigger with ⟨hpart, -⟩ | ⟨-, -, hmust⟩
    · by_contra hnot
      exact hbad.2 ⟨hpart, hnot⟩
    · exact hmust
  obtain ⟨-, hless⟩ := hclosed.1 r hopen ((h.mustClose_iff hsame).mpr hmust)
  rw [hsame, h.quantity_eq] at hless
  exact lt_irrefl _ hless

/-- If all quantities were admitted, a position that still meets a condition is the rest of one that was
liquidated in part. -/
theorem rest_of_mustClose (h : Processed N m x y after trades) (hvalid : x.ledger.Valid)
    (hratio : x.partialLiquidationRatio = 1 / 2) (hadmitted : x.ClosesAdmitted N m)
    (hr : r ∈ after.ledger.account.positions) (hmust : after.MustClose N (after.ledger.objects.get r)
      (m.price (after.ledger.objects.get r).symbol)) :
    (∃ quantity, x.trigger N m r = some (.partialLiquidation, quantity)) ∧
      (after.ledger.objects.get r).quantity < (x.ledger.objects.get r).quantity := by
  have hold := h.swept.only r hr
  rw [h.account_eq] at hold
  cases hfound : x.trigger N m r with
  | none =>
    have habsent : ∀ e ∈ x.ledger.account.positions.filterMap
        fun r => (x.trigger N m r).map (Prod.mk r), e.1 ≠ r := by
      rintro e he rfl
      have hsome := ((mem_triggers x e).mp he).2
      rw [hfound] at hsome
      cases hsome
    obtain ⟨-, hsame⟩ := h.swept.others r (h.swept.only r hr) habsent
    obtain ⟨_, _, hsome⟩ := exists_trigger_of_mustClose ((h.mustClose_iff hsame).mp hmust)
    rw [hfound] at hsome
    cases hsome
  | some found =>
    obtain ⟨trigger, quantity⟩ := found
    have hentry := entry_of_trigger hold hfound
    rcases trigger_some hfound with ⟨rfl, hpart⟩ | ⟨hne, hfull, -⟩
    · by_cases hmax : quantity ≤ OrderRequest.maxQuantity
      · have hpositive := hvalid.positive r hold
        have hhalf : quantity < (y.ledger.objects.get r).quantity := by
          rw [h.quantity_eq, hpart, hratio]
          linarith
        obtain ⟨-, -, hquantity⟩ := h.swept.part _ hentry hmax hhalf
        refine ⟨⟨_, rfl⟩, ?_⟩
        rw [hquantity, h.quantity_eq, hpart, hratio]
        linarith
      · obtain ⟨-, hsame⟩ := h.swept.refused _ hentry (not_le.mp hmax)
        rcases hadmitted r hold _ _ hfound with hle | ⟨-, hnot⟩
        · exact absurd hle hmax
        · exact absurd ((h.mustClose_iff hsame).mp hmust) hnot
    · rcases hadmitted r hold _ _ hfound with hle | ⟨rfl, -⟩
      · exact absurd hr (h.swept.whole _ hentry hle (hfull.trans (h.quantity_eq r).symm))
      · exact absurd rfl hne

theorem trade_of_full (h : Processed N m x y after trades) (hadmitted : x.ClosesAdmitted N m)
    (hr : r ∈ x.ledger.account.positions) (htrigger : x.trigger N m r = some (trigger, quantity))
    (hne : trigger ≠ .partialLiquidation) :
    ∃ trade ∈ trades, trade.symbol = (x.ledger.objects.get r).symbol ∧
      trade.quantity = (x.ledger.objects.get r).quantity ∧ trade.reason = trigger.reason := by
  have hmax : quantity ≤ OrderRequest.maxQuantity := by
    rcases hadmitted r hr _ _ htrigger with hle | ⟨rfl, -⟩
    · exact hle
    · exact absurd rfl hne
  have hquantity : quantity = (x.ledger.objects.get r).quantity := by
    rcases trigger_some htrigger with ⟨rfl, -⟩ | ⟨-, hfull, -⟩
    · exact absurd rfl hne
    · exact hfull
  obtain ⟨trade, htrade, htold⟩ := h.swept.told _ (entry_of_trigger hr htrigger) hmax
  rw [h.symbol_eq, hquantity] at htold
  exact ⟨trade, htrade, htold⟩

end Processed

theorem closesTriggered_iff (hvalid : x.ledger.Valid) (hratio : x.partialLiquidationRatio = 1 / 2)
    (hprices : ∀ r ∈ x.ledger.account.positions, 0 < m.price (x.ledger.objects.get r).symbol) :
    x.ClosesTriggered N m (x.checkStopLossTakeProfit N m).1 ↔ x.ClosesAdmitted N m := by
  obtain ⟨y, trades, h⟩ := processed_checkStopLossTakeProfit (N := N) hvalid hratio hprices
  constructor
  · exact h.admitted
  · intro hadmitted
    refine ⟨fun r hr hmust => h.rest_of_mustClose hvalid hratio hadmitted hr hmust, trades, ?_,
      fun r hr _ _ htrigger hne => h.trade_of_full hadmitted hr htrigger hne⟩
    rw [h.swept.history, h.account_eq]

/-! ### Runs -/

/-- No move changes the share of a position that is liquidated in part. -/
theorem ratio_move {d d' : Desk} {es : List Execution} (hmove : Move N m d es d') :
    d'.partialLiquidationRatio = d.partialLiquidationRatio := by
  cases hmove <;> rfl

variable (N : Numerics) (exchangeId currency : String)
  (feePct slippageBps initialBalance leverage : ℚ)

/-- In every reachable exchange with a positive price for each held symbol, the call closes what it must
exactly if all quantities to close are admitted. -/
theorem triggered_closed_iff (calls : List (MarketView × Operation)) (m : MarketView)
    (hprices : ∀ r ∈ (after N exchangeId currency feePct slippageBps initialBalance leverage
        calls).ledger.account.positions,
      0 < m.price ((after N exchangeId currency feePct slippageBps initialBalance leverage
        calls).ledger.objects.get r).symbol) :
    let x := after N exchangeId currency feePct slippageBps initialBalance leverage calls
    x.ClosesTriggered N m (x.checkStopLossTakeProfit N m).1 ↔ x.ClosesAdmitted N m := by
  have hsound := sound_init exchangeId feePct slippageBps initialBalance leverage currency
  obtain ⟨es, htrace⟩ := hsound.executes_run (N := N) calls
  have hratio : (after N exchangeId currency feePct slippageBps initialBalance leverage
      calls).desk.partialLiquidationRatio = 1 / 2 :=
    htrace.invariant (fun d => d.partialLiquidationRatio = 1 / 2)
      (fun _ _ _ h ⟨_, hmove⟩ => (ratio_move hmove).trans h) rfl
  exact closesTriggered_iff (hsound.run calls).ledger.valid hratio hprices

/-- Two resting purchases of a cheap symbol, and a sweep that fills both. -/
def restingPurchases (quantity : ℚ) : List (MarketView × Operation) :=
  let purchase : OrderRequest := {
    symbol := "BTC"
    side := .buy
    quantity := quantity
    orderType := .limit
    price := some (2 / 100000) }
  [(flatMarket (3 / 100000), .submitOrder purchase), (flatMarket (3 / 100000), .submitOrder purchase),
    (flatMarket (2 / 100000), .checkAdvancedOrders)]

/-- A position of 800 million units is closed at its stop loss. -/
theorem triggered_closed_iff_restingPurchases :
    let x := after Numerics.decimal "binance" "USDT" (1 / 10) 5 10000 10 (restingPurchases 400000000)
    (∃ r ∈ x.ledger.account.positions,
      x.trigger Numerics.decimal (flatMarket (19 / 1000000)) r = some (.stopLoss, 800000000)) ∧
    (x.ClosesTriggered Numerics.decimal (flatMarket (19 / 1000000))
        (x.checkStopLossTakeProfit Numerics.decimal (flatMarket (19 / 1000000))).1 ↔
      x.ClosesAdmitted Numerics.decimal (flatMarket (19 / 1000000))) := by
  intro x
  have htrigger : ∃ r ∈ x.ledger.account.positions,
      x.trigger Numerics.decimal (flatMarket (19 / 1000000)) r = some (.stopLoss, 800000000) := by
    decide +kernel
  have hprices : ∀ r ∈ x.ledger.account.positions,
      0 < (flatMarket (19 / 1000000)).price (x.ledger.objects.get r).symbol := by decide +kernel
  exact ⟨htrigger, triggered_closed_iff Numerics.decimal "binance" "USDT" (1 / 10) 5 10000 10
    (restingPurchases 400000000) (flatMarket (19 / 1000000)) hprices⟩

/-- A position of 1200 million units stays open below its stop loss. -/
theorem not_closesTriggered_restingPurchases :
    let x := after Numerics.decimal "binance" "USDT" (1 / 10) 5 10000 10 (restingPurchases 600000000)
    let y := (x.checkStopLossTakeProfit Numerics.decimal (flatMarket (19 / 1000000))).1
    (∃ r ∈ y.ledger.account.positions,
      x.trigger Numerics.decimal (flatMarket (19 / 1000000)) r = some (.stopLoss, 1200000000)) ∧
    ¬ x.ClosesTriggered Numerics.decimal (flatMarket (19 / 1000000)) y := by
  intro x y
  have hopen : ∃ r ∈ y.ledger.account.positions,
      x.trigger Numerics.decimal (flatMarket (19 / 1000000)) r = some (.stopLoss, 1200000000) ∧
      y.MustClose Numerics.decimal (y.ledger.objects.get r)
        ((flatMarket (19 / 1000000)).price (y.ledger.objects.get r).symbol) := by decide +kernel
  obtain ⟨r, hr, htrigger, hmust⟩ := hopen
  refine ⟨⟨r, hr, htrigger⟩, ?_⟩
  intro hcloses
  obtain ⟨quantity, hpart⟩ := (hcloses.1 r hr hmust).1
  rw [htrigger] at hpart
  cases hpart

end SimulatedExchange

end TradingSim.Exchange
