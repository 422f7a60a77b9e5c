import TradingSim.Exchange.RunTraces
import TradingSim.Exchange.Runs

/-!
# What an iceberg executes

An iceberg is split when it is created: the visible part is what a slice may execute at most, and the
rest is hidden. Slices are taken from the hidden part only, and the iceberg is marked filled once that
is used up.
-/

namespace TradingSim.Exchange

open Foundations

/-- The audit entries of the slices of an order. -/
def slicesOf (fills : List Fill) (id : String) : List Fill :=
  fills.filter fun fill => fill.parentOrder = some id

/-- The quantity that the slices of an order have executed. -/
def sliceTotal (fills : List Fill) (id : String) : ℚ := ((slicesOf fills id).map (·.quantity)).sum

/-- What the slices and the fields of an iceberg say of each other. -/
structure IcebergBalance (fills : List Fill) (o : Order) (fields : IcebergFields) : Prop where
  orderType : o.orderType = .iceberg
  numbered : ∃ n, o.id = orderId n
  visible : 0 < fields.visibleQuantity
  split : fields.visibleQuantity < o.quantity
  hidden : 0 ≤ fields.hiddenQuantity
  executed : sliceTotal fills o.id + fields.hiddenQuantity = o.quantity - fields.visibleQuantity
  bounded : ∀ fill ∈ slicesOf fills o.id, fill.quantity ≤ fields.visibleQuantity

/-- An order keeps the balance if it is an iceberg, and is filled as an iceberg only in full. -/
structure Order.Balanced (fills : List Fill) (o : Order) : Prop where
  iceberg : ∀ fields, o.kind = .iceberg fields → IcebergBalance fills o fields
  filled : o.orderType = .iceberg → o.status = .filled → o.filledQuantity = o.quantity ∧
    ∃ fields, o.kind = .iceberg fields ∧ fields.hiddenQuantity ≤ 0

/-- Submitted orders have numbers of their own, below the counter. -/
structure Desk.Numbered (d : Desk) : Prop where
  below : ∀ r n, d.objects.Live r → (d.objects.get r).id = orderId n → n < d.orderCounter
  unique : ∀ r r' n, d.objects.Live r → d.objects.Live r' → (d.objects.get r).id = orderId n →
    (d.objects.get r').id = orderId n → r = r'

/-- Slices name a submitted order, and every order keeps its balance. -/
structure Desk.Balanced (d : Desk) : Prop where
  numbered : d.Numbered
  known : ∀ fill ∈ d.ledger.fills, ∀ id, fill.parentOrder = some id →
    ∃ n < d.orderCounter, id = orderId n
  orders : ∀ r, d.objects.Live r → (d.objects.get r).Balanced d.ledger.fills

/-! ### The slices of one order -/

theorem slicesOf_append (fills : List Fill) (fill : Fill) (id : String) : slicesOf (fills ++ [fill]) id =
      slicesOf fills id ++ if fill.parentOrder = some id then [fill] else [] := by
  unfold slicesOf
  rw [List.filter_append]
  by_cases h : fill.parentOrder = some id
  · rw [if_pos h, List.filter_cons_of_pos (by simpa using h)]
    rfl
  · rw [if_neg h, List.filter_cons_of_neg (by simpa using h)]
    rfl

theorem slicesOf_append_of_ne {fills : List Fill} {fill : Fill} {id : String}
    (h : fill.parentOrder ≠ some id) : slicesOf (fills ++ [fill]) id = slicesOf fills id := by
  rw [slicesOf_append, if_neg h, List.append_nil]

/-- The balance of an iceberg depends on its own slices alone. -/
theorem Order.Balanced.congr {fills fills' : List Fill} {o : Order} (h : o.Balanced fills)
    (hslices : ∀ fields, o.kind = .iceberg fields → slicesOf fills' o.id = slicesOf fills o.id) :
    o.Balanced fills' where
  iceberg := by
    intro fields hfields
    have hslices := hslices fields hfields
    obtain ⟨htype, hnumber, hvisible, hsplit, hhidden, hexecuted, hbounded⟩ := h.iceberg fields hfields
    refine ⟨htype, hnumber, hvisible, hsplit, hhidden, ?_, ?_⟩
    · rw [sliceTotal, hslices]
      exact hexecuted
    · rw [hslices]
      exact hbounded
  filled := h.filled

theorem Order.balanced_of_not_iceberg {fills : List Fill} {o : Order}
    (htype : o.orderType ≠ .iceberg) (hkind : ∀ fields, o.kind ≠ .iceberg fields) : o.Balanced fills :=
  ⟨fun fields hfields => absurd hfields (hkind fields), fun hc => absurd hc htype⟩

theorem Order.Balanced.amend {fills : List Fill} {o o' : Order} (h : o.Balanced fills)
    (hamends : o.Amends o') : o'.Balanced fills where
  iceberg := by
    intro fields hfields
    have hkeeps := hamends.kind
    have hkind : o.kind = .iceberg fields := by
      rw [hfields] at hkeeps
      cases hk : o.kind with
      | iceberg fields' =>
        rw [hk] at hkeeps
        rw [show fields = fields' from hkeeps]
      | plain => rw [hk] at hkeeps; exact hkeeps.elim
      | stopLimit _ => rw [hk] at hkeeps; exact hkeeps.elim
      | trailingStop _ => rw [hk] at hkeeps; exact hkeeps.elim
    obtain ⟨htype, hnumber, hvisible, hsplit, hhidden, hexecuted, hbounded⟩ := h.iceberg fields hkind
    rw [← hamends.terms.id] at hnumber hexecuted hbounded
    rw [← hamends.terms.quantity] at hsplit hexecuted
    exact ⟨hamends.terms.orderType.trans htype, hnumber, hvisible, hsplit, hhidden, hexecuted, hbounded⟩
  filled := by
    intro htype hstatus
    have hold : o.status = .filled := by
      rcases hamends.status with hsame | ⟨-, hopen⟩
      · exact hsame.symm.trans hstatus
      · exact absurd hstatus hopen
    obtain ⟨hquantity, fields, hkind, hhidden⟩ :=
      h.filled (hamends.terms.orderType.symm.trans htype) hold
    refine ⟨?_, fields, ?_, hhidden⟩
    · rw [hamends.filledQuantity, hquantity, hamends.terms.quantity]
    · have hkeeps := hamends.kind
      rw [hkind] at hkeeps
      cases hk : o'.kind with
      | iceberg fields' =>
        rw [hk] at hkeeps
        rw [show fields' = fields from hkeeps]
      | plain => rw [hk] at hkeeps; exact hkeeps.elim
      | stopLimit _ => rw [hk] at hkeeps; exact hkeeps.elim
      | trailingStop _ => rw [hk] at hkeeps; exact hkeeps.elim

/-! ### Moves -/

namespace Desk

variable {N : Numerics} {m : MarketView} {d : Desk} {r : Ref} {o : Order}

theorem Numbered.rewrite (h : d.Numbered) (hlive : d.objects.Live r)
    (hid : o.id = (d.objects.get r).id) : (d.rewrite r o).Numbered := by
  have hsame : ∀ r', ((d.rewrite r o).objects.get r').id = (d.objects.get r').id := by
    intro r'
    rw [get_rewrite hlive]
    by_cases heq : r' = r
    · rw [if_pos heq, heq, hid]
    · rw [if_neg heq]
  have hback : ∀ r', (d.rewrite r o).objects.Live r' → d.objects.Live r' :=
    fun r' => (Heap.live_modify _ _ _ _).mp
  constructor
  · intro r' n hr' hn
    rw [hsame] at hn
    exact h.below r' n (hback r' hr') hn
  · intro a b n ha hb hna hnb
    rw [hsame] at hna hnb
    exact h.unique a b n (hback a ha) (hback b hb) hna hnb

/-- Allocating an order that is not a submission. -/
theorem Numbered.create (h : d.Numbered) (hid : ∀ n, o.id ≠ orderId n) : (d.create o).Numbered := by
  constructor
  · intro r n hr hn
    rcases d.get_alloc_cases o hr with ⟨-, hnew⟩ | ⟨hold, hget⟩
    · rw [hnew] at hn
      exact absurd hn (hid n)
    · rw [hget] at hn
      exact h.below r n hold hn
  · intro a b n ha hb hna hnb
    rcases d.get_alloc_cases o ha with ⟨-, hnew⟩ | ⟨holda, hgeta⟩
    · rw [hnew] at hna
      exact absurd hna (hid n)
    · rcases d.get_alloc_cases o hb with ⟨-, hnew⟩ | ⟨holdb, hgetb⟩
      · rw [hnew] at hnb
        exact absurd hnb (hid n)
      · rw [hgeta] at hna
        rw [hgetb] at hnb
        exact h.unique a b n holda holdb hna hnb

/-- Allocating the order of a submission. -/
theorem Numbered.enter (h : d.Numbered) (hid : o.id = orderId d.orderCounter) : (d.enter o).Numbered := by
  have hfresh : ∀ r, d.objects.Live r → (d.objects.get r).id ≠ orderId d.orderCounter :=
    fun r hr heq => Nat.lt_irrefl _ (h.below r _ hr heq)
  constructor
  · intro r n hr hn
    change (((d.create o).objects).get r).id = orderId n at hn
    rcases d.get_alloc_cases o hr with ⟨-, hnew⟩ | ⟨hold, hget⟩
    · rw [hnew, hid] at hn
      rw [← orderId_injective hn]
      exact Nat.lt_succ_self _
    · rw [hget] at hn
      exact Nat.lt_succ_of_lt (h.below r n hold hn)
  · intro a b n ha hb hna hnb
    change (((d.create o).objects).get a).id = orderId n at hna
    change (((d.create o).objects).get b).id = orderId n at hnb
    rcases d.get_alloc_cases o ha with ⟨hnexta, hnewa⟩ | ⟨holda, hgeta⟩
    · rcases d.get_alloc_cases o hb with ⟨hnextb, -⟩ | ⟨holdb, hgetb⟩
      · exact hnexta.trans hnextb.symm
      · rw [hnewa, hid] at hna
        rw [hgetb, ← hna] at hnb
        exact absurd hnb (hfresh b holdb)
    · rcases d.get_alloc_cases o hb with ⟨-, hnewb⟩ | ⟨holdb, hgetb⟩
      · rw [hnewb, hid] at hnb
        rw [hgeta, ← hnb] at hna
        exact absurd hna (hfresh a holda)
      · rw [hgeta] at hna
        rw [hgetb] at hnb
        exact h.unique a b n holda holdb hna hnb

theorem Balanced.rewrite (h : d.Balanced) (hlive : d.objects.Live r)
    (hid : o.id = (d.objects.get r).id) (ho : o.Balanced d.ledger.fills) : (d.rewrite r o).Balanced := by
  exact ⟨h.numbered.rewrite hlive hid, h.known, forall_rewrite (fun _ o => o.Balanced _) h.orders hlive ho⟩

theorem Balanced.create (h : d.Balanced) (hid : ∀ n, o.id ≠ orderId n)
    (ho : o.Balanced d.ledger.fills) : (d.create o).Balanced := by
  exact ⟨h.numbered.create hid, h.known, forall_create (fun _ o => o.Balanced _) h.orders fun _ => ho⟩

theorem Balanced.enter (h : d.Balanced) (hid : o.id = orderId d.orderCounter)
    (ho : o.Balanced d.ledger.fills) : (d.enter o).Balanced := by
  refine ⟨h.numbered.enter hid, ?_, forall_create (fun _ o => o.Balanced _) h.orders fun _ => ho⟩
  intro fill hfill id hparent
  obtain ⟨n, hn, heq⟩ := h.known fill hfill id hparent
  exact ⟨n, Nat.lt_succ_of_lt hn, heq⟩

theorem Balanced.book (h : d.Balanced) {e : Execution} (hparent : e.parentOrder = none)
    (stopLoss takeProfit : Option ℚ) : (d.book N m e stopLoss takeProfit).Balanced := by
  have hnone : ∀ id, e.fill.parentOrder ≠ some id := by
    intro id
    change e.parentOrder ≠ some id
    rw [hparent]
    exact fun hc => by cases hc
  refine ⟨⟨h.numbered.below, h.numbered.unique⟩, ?_, ?_⟩
  · intro fill hfill id hid
    rw [fills_book] at hfill
    rcases List.mem_append.mp hfill with hold | hnew
    · exact h.known fill hold id hid
    · rw [List.mem_singleton.mp hnew] at hid
      exact absurd hid (hnone id)
  · intro r hr
    apply (h.orders r hr).congr
    intro _ _
    rw [fills_book]
    exact slicesOf_append_of_ne (hnone _)

/-- The order of a submission that is not executed starts without slices. -/
theorem Balanced.entered (h : d.Balanced) (hid : o.id = orderId d.orderCounter)
    (hentered : o.Entered) : o.Balanced d.ledger.fills := by
  refine ⟨?_, fun _ hfilled => absurd hfilled hentered.status⟩
  intro fields hfields
  obtain ⟨htype, hvisible, hsplit, hhidden⟩ := hentered.iceberg fields hfields
  have hnone : slicesOf d.ledger.fills o.id = [] := by
    rw [slicesOf, List.filter_eq_nil_iff]
    intro fill hfill hparent
    obtain ⟨n, hn, heq⟩ := h.known fill hfill o.id (by simpa using hparent)
    rw [hid] at heq
    exact absurd (orderId_injective heq) (Nat.ne_of_gt hn)
  refine ⟨htype, ⟨_, hid⟩, hvisible, hsplit, ?_, ?_, ?_⟩
  · rw [hhidden]
    exact sub_nonneg.mpr hsplit.le
  · rw [sliceTotal, hnone, hhidden]
    exact zero_add _
  · rw [hnone]
    exact fun _ hfill => absurd hfill List.not_mem_nil

/-- A slice moves its quantity from the hidden part to the executed one. -/
theorem Balanced.slice (h : d.Balanced) {fields : IcebergFields} {e : Execution}
    (hlive : d.objects.Live r) (hpending : (d.objects.get r).status = .pending)
    (hkind : (d.objects.get r).kind = .iceberg fields) (hid : ∀ n, e.order.id ≠ orderId n) (hplain : e.order.kind = .plain)
    (horderType : e.order.orderType = .market) (hparent : e.parentOrder = some (d.objects.get r).id)
    (hquantity : e.order.filledQuantity = fields.sliceQuantity) :
    (((d.rewrite r { d.objects.get r with kind := .iceberg fields.afterSlice }).create
      e.order).book N m e none none).Balanced := by
  obtain ⟨htype, ⟨n, hn⟩, hvisible, hsplit, -, hexecuted, hbounded⟩ :=
    (h.orders r hlive).iceberg fields hkind
  obtain ⟨hvisible', hhidden'⟩ := fields.afterSlice_eq
  have hother : ∀ o : Order, o.Balanced d.ledger.fills → o.id ≠ (d.objects.get r).id ∨
      (∀ fields, o.kind ≠ .iceberg fields) → o.Balanced (d.ledger.fills ++ [e.fill]) := by
    intro o ho hne
    apply ho.congr
    intro fields' hfields'
    apply slicesOf_append_of_ne
    change e.parentOrder ≠ _
    rw [hparent]
    rcases hne with hne | hne
    · exact fun heq => hne (Option.some.inj heq).symm
    · exact absurd hfields' (hne fields')
  have hself : Order.Balanced (d.ledger.fills ++ [e.fill]) { d.objects.get r with
      kind := .iceberg fields.afterSlice } := by
    have hslices : slicesOf (d.ledger.fills ++ [e.fill]) (d.objects.get r).id =
        slicesOf d.ledger.fills (d.objects.get r).id ++ [e.fill] := by
      rw [slicesOf_append, if_pos (show e.fill.parentOrder = _ from hparent)]
    have htotal : sliceTotal (d.ledger.fills ++ [e.fill]) (d.objects.get r).id =
        sliceTotal d.ledger.fills (d.objects.get r).id + fields.sliceQuantity := by
      rw [sliceTotal, hslices, List.map_append, List.sum_append, List.map_singleton,
        List.sum_singleton]
      exact congrArg _ hquantity
    have hpart : fields.sliceQuantity ≤ fields.hiddenQuantity := min_le_right _ _
    refine ⟨?_, fun _ hfilled => ?_⟩
    · intro fields' hfields'
      obtain rfl := OrderKind.iceberg.inj hfields'
      refine ⟨htype, ⟨n, hn⟩, hvisible' ▸ hvisible, hvisible' ▸ hsplit, ?_, ?_, ?_⟩
      · rw [hhidden']
        exact sub_nonneg.mpr hpart
      · rw [htotal, hhidden', hvisible', ← hexecuted]
        ring
      · intro fill hfill
        rw [hslices] at hfill
        rw [hvisible']
        rcases List.mem_append.mp hfill with hold | hnew
        · exact hbounded fill hold
        · rw [List.mem_singleton.mp hnew]
          change e.order.filledQuantity ≤ _
          rw [hquantity]
          exact min_le_left _ _
    · rw [hpending] at hfilled
      cases hfilled
  set shown : Order := { d.objects.get r with kind := .iceberg fields.afterSlice }
  have hnumbered : ((d.rewrite r shown).create e.order).Numbered :=
    (h.numbered.rewrite (o := shown) hlive rfl).create hid
  refine ⟨⟨hnumbered.below, hnumbered.unique⟩, ?_, ?_⟩
  · intro fill hfill id hfillid
    rw [fills_book] at hfill
    rcases List.mem_append.mp hfill with hold | hnew
    · exact h.known fill hold id hfillid
    · rw [List.mem_singleton.mp hnew] at hfillid
      change e.parentOrder = some id at hfillid
      rw [hparent, Option.some.injEq] at hfillid
      exact ⟨n, h.numbered.below r n hlive hn, hfillid ▸ hn⟩
  · intro r' hr'
    rw [fills_book]
    change (((d.rewrite r shown).create e.order).objects.get r').Balanced (d.ledger.fills ++ [e.fill])
    rcases (d.rewrite r shown).get_alloc_cases e.order hr' with ⟨-, hnew⟩ | ⟨hold, hget⟩
    · rw [hnew]
      apply Order.balanced_of_not_iceberg
      · rw [horderType]
        decide
      · rw [hplain]
        exact fun _ hc => by cases hc
    · rw [hget, get_rewrite hlive]
      have hlive' : d.objects.Live r' := (Heap.live_modify _ _ _ _).mp hold
      by_cases heq : r' = r
      · rw [if_pos heq]
        exact hself
      · rw [if_neg heq]
        apply hother _ (h.orders r' hlive')
        by_cases hsame : (d.objects.get r').id = (d.objects.get r).id
        · exact absurd (h.numbered.unique r' r n hlive' hlive (hsame.trans hn) hn) heq
        · exact Or.inl hsame

theorem Balanced.move (h : d.Balanced) {es : List Execution} {d' : Desk} (hmove : Move N m d es d') :
    d'.Balanced := by
  cases hmove with
  | enter o hid hentered => exact h.enter hid (h.entered hid hentered)
  | fillEntered e stopLoss takeProfit hid hcharged hparent hbook hkind hbasis hquoted =>
    have hplain : e.order.Balanced d.ledger.fills := by
      apply Order.balanced_of_not_iceberg
      · rcases hbook with hnone | hlimit
        · intro htype
          rw [htype] at hnone
          cases hnone
        · rw [hlimit]
          decide
      · rw [hkind]
        exact fun _ hc => by cases hc
    exact (h.enter hid hplain).book hparent stopLoss takeProfit
  | amend r o hlive hamends =>
    exact h.rewrite hlive hamends.terms.id ((h.orders r hlive).amend hamends)
  | execute r e hlive hpending hterms hkind hcharged hparent hbasis hquoted =>
    have htype : (d.objects.get r).orderType ≠ .iceberg := by
      intro htype
      cases hb : e.basis with
      | market _ => rw [hb] at hbasis; exact hbasis.elim
      | limit _ => rw [hb] at hbasis; exact hbasis.elim
      | resting price =>
        rw [hb] at hbasis
        rcases hbasis with ⟨hlimit, -⟩ | ⟨hstop, -⟩
        · rw [htype] at hlimit
          cases hlimit
        · rw [htype] at hstop
          cases hstop
      | trailing price =>
        rw [hb] at hbasis
        change (d.objects.get r).orderType = .trailingStop at hbasis
        rw [htype] at hbasis
        cases hbasis
    have hplain : e.order.Balanced d.ledger.fills := by
      apply Order.balanced_of_not_iceberg
      · rw [hterms.orderType]
        exact htype
      · intro fields hfields
        exact htype ((h.orders r hlive).iceberg fields (hkind ▸ hfields)).orderType
    exact (h.rewrite hlive hterms.id hplain).book hparent none none
  | slice r fields e hlive hpending htype hkind hhidden hid hplain horderType hside hcharged hparent
      hquantity price hbasis hprice =>
    exact h.slice hlive hpending hkind hid hplain horderType hparent hquantity
  | refuseSlice o hid hentered hplain horderType =>
    refine h.create hid (Order.balanced_of_not_iceberg ?_ ?_)
    · rw [horderType]
      decide
    · rw [hplain]
      exact fun _ hc => by cases hc
  | finish r fields hlive hpending htype hkind hhidden =>
    refine h.rewrite hlive rfl ⟨?_, fun _ _ => ⟨rfl, fields, hkind, hhidden⟩⟩
    intro fields' hfields'
    obtain ⟨htype, hnumber, hvisible, hsplit, hhidden, hexecuted, hbounded⟩ :=
      (h.orders r hlive).iceberg fields' hfields'
    exact ⟨htype, hnumber, hvisible, hsplit, hhidden, hexecuted, hbounded⟩
  | money l hstep hfills =>
    refine ⟨⟨h.numbered.below, h.numbered.unique⟩, ?_, ?_⟩
    · rw [hfills]
      exact h.known
    · rw [hfills]
      exact h.orders

end Desk

/-! ### Runs -/

namespace SimulatedExchange

variable (N : Numerics) (exchangeId currency : String)
  (feePct slippageBps initialBalance leverage : ℚ)

theorem desk_balanced (calls : List (MarketView × Operation)) :
    (after N exchangeId currency feePct slippageBps initialBalance leverage calls).desk.Balanced := by
  obtain ⟨es, htrace⟩ := (sound_init exchangeId feePct slippageBps initialBalance leverage
    currency).executes_run (N := N) calls
  apply htrace.invariant Desk.Balanced fun _ _ _ h ⟨_, hmove⟩ => h.move hmove
  refine ⟨⟨?_, ?_⟩, ?_, ?_⟩
  · exact fun r _ hlive => absurd hlive (Nat.not_lt_zero r)
  · exact fun r _ _ hlive => absurd hlive (Nat.not_lt_zero r)
  · exact fun _ hfill => absurd hfill List.not_mem_nil
  · exact fun r hlive => absurd hlive (Nat.not_lt_zero r)

/-- The slices of an iceberg come to its quantity and to the quantity it reports, and none of them
exceeds the visible quantity. -/
def IcebergComplete (x : SimulatedExchange) (o : Order) (fields : IcebergFields) : Prop :=
  sliceTotal x.ledger.fills o.id = o.quantity ∧
    sliceTotal x.ledger.fills o.id = o.filledQuantity ∧
    ∀ fill ∈ slicesOf x.ledger.fills o.id, fill.quantity ≤ fields.visibleQuantity

/-- In every run the slices of a filled iceberg lack the visible quantity, all of which the iceberg
reports as filled, so no filled iceberg is complete. -/
theorem filled_iceberg_lacks_visible (calls : List (MarketView × Operation)) (r : Ref)
    (hlive : (after N exchangeId currency feePct slippageBps initialBalance leverage
      calls).orders.objects.Live r) :
    let x := after N exchangeId currency feePct slippageBps initialBalance leverage calls
    let o := x.orders.get r
    ∀ fields, o.kind = .iceberg fields → o.status = .filled →
      sliceTotal x.ledger.fills o.id = o.quantity - fields.visibleQuantity ∧
      o.filledQuantity = o.quantity ∧
      (∀ fill ∈ slicesOf x.ledger.fills o.id, fill.quantity ≤ fields.visibleQuantity) ∧
      ¬ x.IcebergComplete o fields := by
  intro x o fields hkind hfilled
  have hbalanced : o.Balanced x.ledger.fills :=
    (desk_balanced N exchangeId currency feePct slippageBps initialBalance leverage calls).orders r
      hlive
  have hbalance := hbalanced.iceberg fields hkind
  obtain ⟨hquantity, fields', hkind', hused⟩ := hbalanced.filled hbalance.orderType hfilled
  have hfields : fields' = fields := OrderKind.iceberg.inj (hkind'.symm.trans hkind)
  have hhidden : fields.hiddenQuantity = 0 := le_antisymm (hfields ▸ hused) hbalance.hidden
  have htotal : sliceTotal x.ledger.fills o.id = o.quantity - fields.visibleQuantity := by
    have hexecuted := hbalance.executed
    rwa [hhidden, add_zero] at hexecuted
  refine ⟨htotal, hquantity, hbalance.bounded, ?_⟩
  intro hcomplete
  have hvisible := hbalance.visible
  have hquantity := htotal.symm.trans hcomplete.1
  linarith

/-- An iceberg that shows one unit, and sweeps that find it marketable. -/
def icebergRun (quantity : ℚ) (price : Option ℚ) (sweeps : ℕ) : List (MarketView × Operation) :=
  (flatMarket 100, .submitOrder {
    symbol := "BTC"
    side := .buy
    quantity := quantity
    orderType := .iceberg
    price := price
    icebergVisibleQty := some 1 }) :: List.replicate sweeps (flatMarket 100, .checkAdvancedOrders)

/-- An iceberg of three units is filled with two slices of one unit each. -/
theorem filled_iceberg_lacks_visible_icebergRun :
    let x := after Numerics.decimal "binance" "USDT" (1 / 10) 5 10000 10
      (icebergRun 3 (some 110) 2)
    let o := x.orders.get 0
    let fields : IcebergFields := ⟨1, 0, 1, 0, 0, 2⟩
    (o.kind = .iceberg fields ∧ o.status = .filled) ∧
    sliceTotal x.ledger.fills o.id = o.quantity - fields.visibleQuantity ∧
    o.filledQuantity = o.quantity ∧
    (∀ fill ∈ slicesOf x.ledger.fills o.id, fill.quantity ≤ fields.visibleQuantity) ∧
    ¬ x.IcebergComplete o fields := by
  intro x o fields
  have hlive : x.orders.objects.Live 0 := by decide +kernel
  have hkind : o.kind = .iceberg fields := by decide +kernel
  have hfilled : o.status = .filled := by decide +kernel
  exact ⟨⟨hkind, hfilled⟩, filled_iceberg_lacks_visible Numerics.decimal "binance" "USDT" (1 / 10) 5
    10000 10 (icebergRun 3 (some 110) 2) 0 hlive fields hkind hfilled⟩

/-- An iceberg of two units is filled with one slice of one unit and reports two. -/
theorem not_icebergComplete_icebergRun :
    let x := after Numerics.decimal "binance" "USDT" (1 / 10) 5 10000 10 (icebergRun 2 none 1)
    let o := x.orders.get 0
    let fields : IcebergFields := ⟨1, 0, 1, 0, 0, 1⟩
    o.kind = .iceberg fields ∧ o.status = .filled ∧ o.quantity = 2 ∧ o.filledQuantity = 2 ∧
      sliceTotal x.ledger.fills o.id = 1 ∧ ¬ x.IcebergComplete o fields := by
  unfold IcebergComplete
  decide +kernel

end SimulatedExchange

end TradingSim.Exchange
