import TradingSim.Exchange.OrderAdmission
import TradingSim.Exchange.LedgerSteps

/-!
# What one call may do

`Progress` relates the exchange at the start of a call to a later moment of it: the order side is
valid up to the stale entries, every order has evolved, the ledger has moved by known movements
only, and the OCO groups are exclusive if they are claimed to be (`strict`; a partial execution of
an iceberg breaks it): whoever executes in a group is recorded as its filled order, and such a group
has no pending one. A call that does not submit is told apart by `admits`.
-/

namespace TradingSim.Exchange

open Foundations

namespace OrderTable

/-- No submission has happened, and the groups have the same filled orders. -/
structure Carries (t t' : OrderTable) : Prop where
  issued : ∀ r, t'.Issued r → t.Issued r
  evolves : t.Evolves t'
  counter : t'.orderCounter = t.orderCounter
  filledOrderOf : ∀ g, t'.filledOrderOf g = t.filledOrderOf g

theorem Carries.trans {a b c : OrderTable} (hab : a.Carries b) (hbc : b.Carries c) : a.Carries c where
  issued r hr := hab.issued r (hbc.issued r hr)
  evolves := hab.evolves.trans hbc.evolves
  counter := hbc.counter.trans hab.counter
  filledOrderOf g := (hbc.filledOrderOf g).trans (hab.filledOrderOf g)

theorem Narrows.carries {t t' : OrderTable} (h : t.Narrows t')
    (hgroups : t'.ocoGroups = t.ocoGroups) : t.Carries t' where
  issued r hr := (h.issued_iff r).mp hr
  evolves := h.evolves
  counter := h.counter
  filledOrderOf g := by rw [filledOrderOf, hgroups]; rfl

theorem carries_create (t : OrderTable) {o : Order} (ho : ∀ n, o.id ≠ orderId n) :
    t.Carries (t.create o) where
  issued r hr := by
    obtain ⟨hlive, n, hid⟩ := hr
    rcases (Heap.live_alloc _ _ _).mp hlive with hold | rfl
    · exact (issued_of_alloc (t := t) (show (t.create o).objects = t.objects.alloc o from rfl) hold).mp ⟨hlive, n, hid⟩
    · rw [show (t.create o).get t.objects.next = o from Heap.get_alloc_next _ _] at hid
      exact absurd hid (ho n)
  evolves := evolves_of_alloc rfl
  counter := rfl
  filledOrderOf _ := rfl

end OrderTable

theorem Ledger.fills_updatePosition (N : Numerics) (m : MarketView) (l : Ledger) (order : Order)
    (stopLoss takeProfit : Option ℚ) (margin : ℚ) :
    (l.updatePosition N m order stopLoss takeProfit margin).fills = l.fills := by
  unfold updatePosition
  cases l.positionsBySymbol.find? order.symbol with
  | none => rfl
  | some r =>
    simp only
    split
    · unfold closePosition
      simp only
      split
      · split
        · rfl
        · split <;> rfl
      · rfl
    · rfl

theorem Ledger.fills_bookFill (N : Numerics) (m : MarketView) (l : Ledger) (order : Order)
    (fee notional : ℚ) (forceClose : Bool) (stopLoss takeProfit : Option ℚ) (fill : Fill) :
    (l.bookFill N m order fee notional forceClose stopLoss takeProfit fill).fills = l.fills ++ [fill] := by
  cases forceClose with
  | true => exact congrArg (· ++ [fill]) (fills_updatePosition _ _ _ _ _ _ _)
  | false => exact congrArg (· ++ [fill]) (fills_updatePosition _ _ _ _ _ _ _)

namespace SimulatedExchange

/-- Executions in a group are by its filled order, and a filled group is done with. -/
structure Exclusive (x : SimulatedExchange) : Prop where
  owned : ∀ fill ∈ x.ledger.fills, ∃ n < x.orders.orderCounter, fill.owner = orderId n
  claimed : ∀ fill ∈ x.ledger.fills, ∀ r g, x.orders.Issued r →
    (x.orders.get r).id = fill.owner → (x.orders.get r).ocoGroupId = some g →
    x.orders.filledOrderOf g = some fill.owner
  closed : ∀ g winner, x.orders.filledOrderOf g = some winner → ∀ r, x.orders.Issued r →
    (x.orders.get r).ocoGroupId = some g → (x.orders.get r).status ≠ .pending

variable {x x' : SimulatedExchange} {t : OrderTable} {r : Ref}

/-- Exclusivity survives whatever submits and fills nothing. -/
theorem Exclusive.carry (h : x.Exclusive) (hc : x.orders.Carries x'.orders)
    (hfills : x'.ledger.fills = x.ledger.fills) : x'.Exclusive where
  owned := by
    rw [hfills, hc.counter]
    exact h.owned
  claimed := by
    intro fill hfill r g hr hid hgroup
    have hissued := hc.issued r hr
    have hev := (hc.evolves r hissued.1).2
    rw [hc.filledOrderOf]
    exact h.claimed fill (hfills ▸ hfill) r g hissued (hev.id.symm.trans hid)
      (hev.group.symm.trans hgroup)
  closed := by
    intro g winner hwinner r hr hgroup hpending
    have hissued := hc.issued r hr
    have hev := (hc.evolves r hissued.1).2
    rw [hc.filledOrderOf] at hwinner
    exact h.closed g winner hwinner r hissued (hev.group.symm.trans hgroup)
      (hev.pending_of_pending hpending)

/-- The group of a pending order has no filled order. -/
theorem Exclusive.unfilled (h : x.Exclusive) (hr : x.orders.Issued r)
    (hpending : (x.orders.get r).status = .pending) {g : String}
    (hgroup : (x.orders.get r).ocoGroupId = some g) : x.orders.filledOrderOf g = none := by
  cases hfilled : x.orders.filledOrderOf g with
  | none => rfl
  | some winner => exact absurd hpending (h.closed g winner hfilled r hr hgroup)

/-- Exclusivity survives an execution whose group is resolved at once. -/
theorem Exclusive.fill {stale : PendingBook → String → Prop} (h : x.Exclusive)
    (hvalid : t.Valid stale) (hr : x.orders.Issued r)
    (hpending : (x.orders.get r).status = .pending) (hc : x.orders.Carries t)
    (hdone : (t.get r).status ≠ .pending) (hresolves : t.Resolves x'.orders r) {fill : Fill}
    (hfills : x'.ledger.fills = x.ledger.fills ++ [fill])
    (howner : fill.owner = (x.orders.get r).id) : x'.Exclusive := by
  have hn := hresolves.narrows
  have hrt : t.Issued r := hr.evolves hc.evolves
  have hid : (t.get r).id = (x.orders.get r).id := (hc.evolves r hr.1).2.id
  have hgroup : (t.get r).ocoGroupId = (x.orders.get r).ocoGroupId := (hc.evolves r hr.1).2.group
  have hopen : ∀ g, (t.get r).ocoGroupId = some g → t.filledOrderOf g = none := by
    intro g hg
    rw [hc.filledOrderOf]
    exact h.unfilled hr hpending (hgroup ▸ hg)
  have hback : ∀ r', x'.orders.Issued r' → t.Issued r' ∧ x.orders.Issued r' ∧
      (x.orders.get r').Evolves (x'.orders.get r') := by
    intro r' hr'
    have ht := (hn.issued_iff r').mp hr'
    have hx := hc.issued r' ht
    exact ⟨ht, hx, (hc.evolves r' hx.1).2.trans (hn.order r' ht.1)⟩
  refine ⟨?_, ?_, ?_⟩
  · intro fill' hfill'
    rw [hn.counter, hc.counter]
    rw [hfills] at hfill'
    rcases List.mem_append.mp hfill' with hold | hnew
    · exact h.owned fill' hold
    · obtain ⟨hlive, n, hn'⟩ := hrt
      rw [List.mem_singleton.mp hnew, howner, ← hc.counter]
      exact ⟨n, hvalid.idBound r n hlive hn', hid.symm.trans hn'⟩
  · intro fill' hfill' r' g hr' hid' hgroup'
    obtain ⟨ht', hx', hev⟩ := hback r' hr'
    rw [hresolves.filledOrderOf]
    rw [hfills] at hfill'
    rcases List.mem_append.mp hfill' with hold | hnew
    · have hclaimed := h.claimed fill' hold r' g hx' (hev.id.symm.trans hid')
        (hev.group.symm.trans hgroup')
      rw [← hc.filledOrderOf] at hclaimed
      by_cases hg : (t.get r).ocoGroupId = some g
      · rw [hopen g hg] at hclaimed
        cases hclaimed
      · rw [if_neg hg]
        exact hclaimed
    · rw [List.mem_singleton.mp hnew] at hid' ⊢
      have heq : r' = r := by
        apply hvalid.idUnique r' r ht' hrt
        rw [hid, ← howner, ← hid', (hn.order r' ht'.1).id]
      subst heq
      have hg : (t.get r').ocoGroupId = some g := (hn.order r' ht'.1).group.symm.trans hgroup'
      rw [if_pos hg, hopen g hg, Option.getD_none, hid, howner]
  · intro g winner hwinner r' hr' hgroup'
    obtain ⟨ht', hx', hev⟩ := hback r' hr'
    rw [hresolves.filledOrderOf] at hwinner
    by_cases hg : (t.get r).ocoGroupId = some g
    · by_cases heq : r' = r
      · rw [heq, hresolves.get_self]
        exact hdone
      · exact hresolves.closed g hg (hopen g hg) r' ht'
          ((hn.order r' ht'.1).group.symm.trans hgroup') heq
    · rw [if_neg hg, hc.filledOrderOf] at hwinner
      intro hpending'
      exact h.closed g winner hwinner r' hx' (hev.group.symm.trans hgroup')
        (hev.pending_of_pending hpending')

/-- Exclusivity survives a submission that does not leave a pending order in a group with a
filled one. -/
theorem Exclusive.enter {o : Order} (h : x.Exclusive) (hadmits : x.orders.Admits t o)
    (hc : t.Carries x'.orders) (hfills : x'.ledger.fills = x.ledger.fills)
    (hnew : ∀ g winner, o.ocoGroupId = some g → x.orders.filledOrderOf g = some winner →
      (x'.orders.get x.orders.objects.next).status ≠ .pending)
    (hid : o.id = orderId x.orders.orderCounter) : x'.Exclusive := by
  have hback : ∀ r, x'.orders.Issued r → r = x.orders.objects.next ∨ (x.orders.Issued r ∧
      (x.orders.get r).Evolves (x'.orders.get r)) := by
    intro r hr
    have ht := hc.issued r hr
    rcases (hadmits.live r).mp ht.1 with hold | hnew
    · have hget := hadmits.get_old r hold
      have hev := (hc.evolves r ht.1).2
      rw [hget] at hev
      exact Or.inr ⟨⟨hold, by rw [← hget]; exact ht.2⟩, hev⟩
    · exact Or.inl hnew
  have hnext : (x'.orders.get x.orders.objects.next).id = o.id ∧
      (x'.orders.get x.orders.objects.next).ocoGroupId = o.ocoGroupId := by
    have hev := (hc.evolves _ hadmits.issued.1).2
    rw [hadmits.get_next] at hev
    exact ⟨hev.id, hev.group⟩
  refine ⟨?_, ?_, ?_⟩
  · intro fill hfill
    obtain ⟨n, hn, howner⟩ := h.owned fill (hfills ▸ hfill)
    rw [hc.counter, hadmits.counter]
    exact ⟨n, Nat.lt_succ_of_lt hn, howner⟩
  · intro fill hfill r g hr hid' hgroup
    rw [hfills] at hfill
    rw [hc.filledOrderOf, hadmits.filledOrderOf]
    rcases hback r hr with rfl | ⟨hx, hev⟩
    · obtain ⟨n, hn, howner⟩ := h.owned fill hfill
      rw [hnext.1, hid, howner] at hid'
      exact absurd (orderId_injective hid') (Nat.ne_of_gt hn)
    · exact h.claimed fill hfill r g hx (hev.id.symm.trans hid') (hev.group.symm.trans hgroup)
  · intro g winner hwinner r hr hgroup
    rw [hc.filledOrderOf, hadmits.filledOrderOf] at hwinner
    rcases hback r hr with rfl | ⟨hx, hev⟩
    · exact hnew g winner (hnext.2.symm.trans hgroup) hwinner
    · intro hpending
      exact h.closed g winner hwinner r hx (hev.group.symm.trans hgroup)
        (hev.pending_of_pending hpending)

/-- What has become of an exchange since the start of a call. -/
structure Progress (N : Numerics) (strict admits : Prop) (start : SimulatedExchange)
    (stale : PendingBook → String → Prop) (x : SimulatedExchange) : Prop where
  orders : x.orders.Valid stale
  evolves : start.orders.Evolves x.orders
  known : admits ∨ ∀ r, x.orders.Issued r → start.orders.Issued r
  ledger : Relation.ReflTransGen (Ledger.LedgerStep N) start.ledger x.ledger
  exclusive : strict → x.Exclusive

variable {N : Numerics} {strict admits : Prop} {start : SimulatedExchange}
  {stale stale' : PendingBook → String → Prop}

theorem Progress.refl (hvalid : x.orders.Valid stale) (hexclusive : strict → x.Exclusive) :
    Progress N strict admits x stale x :=
  ⟨hvalid, .refl _, Or.inr fun _ hr => hr, .refl, hexclusive⟩

theorem Progress.known_of_carries (h : Progress N strict admits start stale x) {t : OrderTable}
    (hissued : ∀ r, t.Issued r → x.orders.Issued r) : admits ∨ ∀ r, t.Issued r → start.orders.Issued r :=
  h.known.imp_right fun hknown r hr => hknown r (hissued r hr)

/-- A change of the order side that submits and fills nothing. -/
theorem Progress.carry (h : Progress N strict admits start stale x) {t : OrderTable}
    (hvalid : t.Valid stale') (hc : x.orders.Carries t) :
    Progress N strict admits start stale' (x.withOrders t) where
  orders := hvalid
  evolves := h.evolves.trans hc.evolves
  known := h.known_of_carries hc.issued
  ledger := h.ledger
  exclusive := fun hstrict => (h.exclusive hstrict).carry hc rfl

theorem Progress.stale_congr (h : Progress N strict admits start stale x)
    (hiff : ∀ book k r, (x.orders.pending book).find? k = some r →
      (stale book k ↔ stale' book k)) : Progress N strict admits start stale' x where
  orders := h.orders.stale_congr hiff
  evolves := h.evolves
  known := h.known
  ledger := h.ledger
  exclusive := h.exclusive

/-- A movement of the ledger that executes nothing. -/
theorem Progress.move (h : Progress N strict admits start stale x) {l : Ledger}
    (hstep : Ledger.LedgerStep N x.ledger l) (hfills : l.fills = x.ledger.fills) :
    Progress N strict admits start stale { x with ledger := l } where
  orders := h.orders
  evolves := h.evolves
  known := h.known
  ledger := h.ledger.tail hstep
  exclusive := fun hstrict =>
    { owned := by
        intro fill hfill
        exact (h.exclusive hstrict).owned fill (hfills ▸ hfill)
      claimed := by
        intro fill hfill
        exact (h.exclusive hstrict).claimed fill (hfills ▸ hfill)
      closed := (h.exclusive hstrict).closed }


/-- An execution: a pending order is filled, its quantity is booked, its group is resolved. -/
theorem Progress.fill (h : Progress N strict admits start stale x) (hr : x.orders.Issued r)
    (hpending : (x.orders.get r).status = .pending) (hvalid : t.Valid stale')
    (hc : x.orders.Carries t) (hdone : (t.get r).status ≠ .pending) (m : MarketView)
    (order : Order) (fill : Fill) (hfilled : 0 < order.filledQuantity)
    (hsymbol : fill.symbol = order.symbol) (hsigned : fill.signedQuantity = order.signedFilled)
    (howner : fill.owner = (x.orders.get r).id) (fee notional : ℚ) (forceClose : Bool)
    (stopLoss takeProfit : Option ℚ) : Progress N strict admits start stale' { x with
      ledger := x.ledger.bookFill N m order fee notional forceClose stopLoss takeProfit fill
      orders := t.resolveOco r } := by
  obtain ⟨hresolves, hvalid'⟩ := hvalid.resolveOco (hr.evolves hc.evolves)
  refine ⟨hvalid', (h.evolves.trans hc.evolves).trans hresolves.narrows.evolves,
    h.known_of_carries fun r' hr' => hc.issued r' ((hresolves.narrows.issued_iff r').mp hr'),
    h.ledger.tail (.fill m _ order fee notional forceClose stopLoss takeProfit fill hfilled hsymbol
      hsigned), fun hstrict => ?_⟩
  exact (h.exclusive hstrict).fill hvalid hr hpending hc hdone hresolves
    (Ledger.fills_bookFill _ _ _ _ _ _ _ _ _ _) howner

end SimulatedExchange

end TradingSim.Exchange
