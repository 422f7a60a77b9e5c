import TradingSim.Exchange.Runs

/-!
# One-cancels-the-other groups

A group is meant to let one of its orders execute and to cancel the others. This holds in
every run in which no sweep executes an iceberg of a group in part. A partial slice books
its quantity and leaves the group unresolved, so the siblings stay in their books and may
execute as well.
-/

namespace TradingSim.Exchange

open Foundations

namespace SimulatedExchange

/-- The orders that were entered into a group. -/
def groupOrders (x : SimulatedExchange) (g : String) : List Ref :=
  ((x.orders.ocoGroups.find? g).map (·.orders)).getD []

/-- The order, or a slice of it, has executed a positive quantity. -/
def Executed (x : SimulatedExchange) (r : Ref) : Prop :=
  ∃ fill ∈ x.ledger.fills, fill.owner = (x.orders.get r).id ∧ 0 < fill.quantity

instance (x : SimulatedExchange) (r : Ref) : Decidable (x.Executed r) :=
  inferInstanceAs (Decidable (∃ fill ∈ x.ledger.fills, _ ∧ _))

/-- At most one order of the group has executed, and then no other one rests in a book. -/
def GroupExclusive (x : SimulatedExchange) (g : String) : Prop :=
  ∀ r ∈ x.groupOrders g, x.Executed r → ∀ r' ∈ x.groupOrders g, r' ≠ r →
    ¬ x.Executed r' ∧ ∀ book k, (x.orders.pending book).find? k ≠ some r'

theorem mem_groupOrders {x : SimulatedExchange} (h : x.orders.Consistent) {g : String} {r : Ref}
    (hr : r ∈ x.groupOrders g) : x.orders.Issued r ∧ (x.orders.get r).ocoGroupId = some g := by
  unfold groupOrders at hr
  cases hfind : x.orders.ocoGroups.find? g with
  | none =>
    rw [hfind] at hr
    exact absurd hr List.not_mem_nil
  | some group =>
    rw [hfind] at hr
    exact h.grouped g group hfind r hr

theorem Exclusive.groupExclusive {x : SimulatedExchange} (h : x.Exclusive)
    (hvalid : x.orders.Consistent) (g : String) : x.GroupExclusive g := by
  intro r hr hexecuted r' hr' hne
  obtain ⟨hissued, hgroup⟩ := mem_groupOrders hvalid hr
  obtain ⟨hissued', hgroup'⟩ := mem_groupOrders hvalid hr'
  obtain ⟨fill, hfill, howner, -⟩ := hexecuted
  have hwinner := h.claimed fill hfill r g hissued howner.symm hgroup
  constructor
  · intro ⟨fill', hfill', howner', _⟩
    have hwinner' := h.claimed fill' hfill' r' g hissued' howner'.symm hgroup'
    rw [hwinner, Option.some.injEq, howner, howner'] at hwinner'
    exact hne (hvalid.idUnique r' r hissued' hissued hwinner'.symm)
  · intro book k hfind
    obtain ⟨-, -, -, hstatus⟩ := hvalid.booked book k r' hfind
    exact h.closed g _ hwinner r' hissued' hgroup' (hstatus.mpr not_false)

theorem Sound.exclusive_run {N : Numerics} {opening : ℚ} {x : SimulatedExchange}
    (h : x.Sound opening) (hexclusive : x.Exclusive) {calls : List (MarketView × Operation)}
    (hcomplete : Along (SimulatedExchange.step N) CompletesSlices x calls) :
    (Foundations.run (SimulatedExchange.step N) x calls).Exclusive := by
  have hboth := run_invariant_of_along (fun y : SimulatedExchange => y.Sound opening ∧ y.Exclusive)
    (fun y call hy hguard => ⟨hy.1.step call,
      (step_progress (N := N) True call hy.1.orders (fun _ => hy.2)
        fun _ => hguard).exclusive trivial⟩) ⟨h, hexclusive⟩ hcomplete
  exact hboth.2

/-- Every group is exclusive in every state of a run in which each sweep finds no iceberg of
a group that it would execute in part. -/
theorem group_exclusive_of_complete_slices (N : Numerics) (exchangeId currency : String)
    (feePct slippageBps initialBalance leverage : ℚ) (calls : List (MarketView × Operation))
    (hcomplete : Along (step N) CompletesSlices
      (init exchangeId feePct slippageBps initialBalance leverage currency) calls) (g : String) :
    (after N exchangeId currency feePct slippageBps initialBalance leverage calls).GroupExclusive g := by
  have hsound := sound_init exchangeId feePct slippageBps initialBalance leverage currency
  have hexclusive := exclusive_init exchangeId feePct slippageBps initialBalance leverage currency
  exact (hsound.exclusive_run hexclusive hcomplete).groupExclusive (hsound.run calls).orders g

/-- An iceberg and a lower limit order in one group. -/
def icebergPair (quantity : ℚ) : List (MarketView × Operation) :=
  [(flatMarket 100, .submitOrder {
      symbol := "BTC"
      side := .buy
      quantity := quantity
      orderType := .iceberg
      icebergVisibleQty := some 1
      ocoGroupId := some "g" }),
    (flatMarket 100, .submitOrder {
      symbol := "BTC"
      side := .buy
      quantity := 1
      orderType := .limit
      price := some 90
      ocoGroupId := some "g" }),
    (flatMarket 100, .checkAdvancedOrders), (flatMarket 90, .checkAdvancedOrders)]

/-- An iceberg of one hidden slice cancels its sibling with that slice. -/
theorem group_exclusive_icebergPair : (after Numerics.decimal "binance" "USDT" (1 / 10) 5 10000 10
      (icebergPair 2)).GroupExclusive "g" :=
  group_exclusive_of_complete_slices Numerics.decimal "binance" "USDT" (1 / 10) 5 10000 10
    (icebergPair 2) (by decide +kernel) "g"

/-- An iceberg of two hidden slices executes its first, and then its sibling executes. -/
theorem not_group_exclusive_icebergPair : ¬ (after Numerics.decimal "binance" "USDT" (1 / 10) 5 10000 10
      (icebergPair 3)).GroupExclusive "g" := by
  intro hexclusive
  have hiceberg : (after Numerics.decimal "binance" "USDT" (1 / 10) 5 10000 10
      (icebergPair 3)).Executed 0 := by decide +kernel
  have hlimit : (after Numerics.decimal "binance" "USDT" (1 / 10) 5 10000 10
      (icebergPair 3)).Executed 1 := by decide +kernel
  have hmembers : 0 ∈ (after Numerics.decimal "binance" "USDT" (1 / 10) 5 10000 10
      (icebergPair 3)).groupOrders "g" ∧
      1 ∈ (after Numerics.decimal "binance" "USDT" (1 / 10) 5 10000 10
        (icebergPair 3)).groupOrders "g" := by decide +kernel
  exact (hexclusive 0 hmembers.1 hiceberg 1 hmembers.2 (by decide)).1 hlimit

end SimulatedExchange

end TradingSim.Exchange
