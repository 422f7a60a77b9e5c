import TradingSim.Exchange.LedgerInvariant
import Mathlib.Logic.Relation

/-!
# Every movement of the ledger

`update_position` moves exactly the margin it is given and the executed quantity, whether
it opens, averages, reduces, closes or flips a position. A booked fill takes that margin
out of the balance first, so no movement changes what the ledger holds in excess of what
it has booked, and each fill's quantity arrives in the position of its symbol.

`LedgerStep` lists all that the exchange ever does to its ledger.
-/

namespace TradingSim.Exchange

open Foundations

namespace Ledger

variable {N : Numerics} {m : MarketView} {l : Ledger} {order : Order}

theorem Valid.openNewPosition (h : l.Valid)
    (hnone : l.positionsBySymbol.find? order.symbol = none) (hfilled : 0 < order.filledQuantity)
    (stopLoss takeProfit : Option ℚ) (margin : ℚ) :
    l.Moves (l.openNewPosition m order stopLoss takeProfit margin) margin order.symbol
      order.signedFilled := by
  exact h.addPosition (p := _) hnone hfilled

theorem Valid.openResidualPosition (h : l.Valid)
    (hnone : l.positionsBySymbol.find? order.symbol = none) {quantity : ℚ}
    (hquantity : 0 < quantity) (margin : ℚ) :
    l.Moves (l.openResidualPosition m order quantity margin) margin order.symbol
      (order.side.signed quantity) := by
  exact h.addPosition (p := _) hnone hquantity

theorem Valid.increasePosition (h : l.Valid) {r : Ref} (hr : r ∈ l.account.positions)
    (hsymbol : (l.objects.get r).symbol = order.symbol)
    (hside : (l.objects.get r).side = order.side) (hfilled : 0 < order.filledQuantity) (margin : ℚ) :
    l.Moves (l.increasePosition r order margin) margin order.symbol order.signedFilled := by
  have hpositive := h.positive r hr
  have hmoves := h.modify (l.increasePosition r order margin) margin hr rfl rfl rfl rfl rfl rfl
    (add_pos hpositive hfilled) (by
      rw [← add_assoc]
      rfl)
  have hquantity : (l.objects.get r).side.signed
        ((l.objects.get r).quantity + order.filledQuantity) -
      (l.objects.get r).side.signed (l.objects.get r).quantity = order.signedFilled := by
    rw [Side.signed_add, hside, Order.signedFilled]
    ring
  rw [← hquantity, ← hsymbol]
  exact hmoves

/-- Settling a part of a position returns the margin share of that part of the order. -/
theorem Valid.settleClose (h : l.Valid) {r : Ref} (hr : r ∈ l.account.positions) (order : Order)
    (closeQty margin : ℚ) :
    l.Moves (l.settleClose N r order closeQty margin) (margin * (closeQty / order.filledQuantity))
      (l.objects.get r).symbol 0 := by
  have hmoves := h.modify (l.settleClose N r order closeQty margin)
    (margin * (closeQty / order.filledQuantity)) hr rfl rfl rfl rfl rfl rfl (h.positive r hr) (by
      simp only [Ledger.settleClose]
      ring)
  rw [show (0 : ℚ) = (l.objects.get r).signedQuantity - (l.objects.get r).signedQuantity by ring]
  exact hmoves

/-- Recording a residual that opens no position. -/
theorem Valid.drop (h : l.Valid) (residual : Residual)
    (hsmall : 0 < residual.quantity ∧ residual.quantity ≤ residualTolerance) :
    l.Moves { l with dropped := l.dropped ++ [residual] } residual.margin residual.symbol
      residual.signedQuantity := by
  refine ⟨⟨h.live, h.nodup, h.indexed, h.positive, ?_⟩, ?_, ?_, rfl⟩
  · intro residual' hmem
    rcases List.mem_append.mp hmem with hold | hnew
    · exact h.small residual' hold
    · rw [List.mem_singleton.mp hnew]
      exact hsmall
  · have hlost : Ledger.lostMargin { l with dropped := l.dropped ++ [residual] } =
        l.lostMargin + residual.margin := by
      simp [lostMargin]
    have hlocked : Ledger.lockedMargin { l with dropped := l.dropped ++ [residual] } =
        l.lockedMargin := rfl
    rw [unexplained, unexplained, hlost, hlocked]
    ring
  · intro s
    have hdiscarded : Ledger.discarded { l with dropped := l.dropped ++ [residual] } s =
        l.discarded s + if s = residual.symbol then residual.signedQuantity else 0 := by
      unfold discarded
      by_cases heq : s = residual.symbol
      · simp [heq]
      · simp [heq, Ne.symm heq]
    rw [hdiscarded, ← add_assoc]
    rfl

theorem Valid.closePosition (h : l.Valid) {r : Ref}
    (hfind : l.positionsBySymbol.find? order.symbol = some r)
    (hside : (l.objects.get r).side ≠ order.side) (hfilled : 0 < order.filledQuantity) (margin : ℚ) :
    l.Moves (l.closePosition N m r order margin) margin order.symbol order.signedFilled := by
  obtain ⟨hr, hsymbol⟩ := (h.indexed order.symbol r).mp hfind
  have hlive := h.live r hr
  have hpositive := h.positive r hr
  set p := l.objects.get r with hp
  set closeQty := min order.filledQuantity p.quantity with hcloseQty
  have hsettled := h.settleClose (N := N) hr order closeQty margin
  rw [← hp, hsymbol] at hsettled
  have hget : (l.settleClose N r order closeQty margin).objects.get r =
      { p with margin := p.margin - p.margin * (closeQty / p.quantity) } :=
    Heap.get_modify_self _ hlive _
  have hopposite : ∀ quantity, p.side.signed quantity = order.side.signed (-quantity) :=
    Side.signed_of_ne hside
  unfold Ledger.closePosition
  simp only [← hp, ← hcloseQty]
  by_cases hwhole : p.quantity ≤ closeQty
  · rw [if_pos hwhole]
    have hclose : closeQty = p.quantity := le_antisymm (min_le_right _ _) hwhole
    have hmargin : ((l.settleClose N r order closeQty margin).objects.get r).margin = 0 := by
      rw [hget, hclose, div_self hpositive.ne', mul_one, sub_self]
    obtain ⟨hremoved, hnone⟩ := hsettled.valid.removePosition order.symbol hfind hmargin
    have hclosed := hsettled.trans hremoved
    rw [show ((l.settleClose N r order closeQty margin).objects.get r).signedQuantity =
      p.side.signed p.quantity by rw [hget]; rfl, add_zero, zero_add] at hclosed
    set removed := (l.settleClose N r order closeQty margin).removePosition r order.symbol
    set residual := order.filledQuantity - closeQty with hresidual
    have hquantity : -p.side.signed p.quantity + order.side.signed residual =
        order.signedFilled := by
      rw [hopposite, Order.signedFilled, hresidual, hclose]
      cases order.side <;> simp only [Side.signed] <;> ring
    by_cases hopens : residualTolerance < residual
    · rw [if_pos hopens]
      have htolerance : (0 : ℚ) < residualTolerance := by unfold residualTolerance; norm_num
      have hmoves := hclosed.trans (b := removed)
        (hremoved.valid.openResidualPosition (m := m) hnone (htolerance.trans hopens)
          (margin - margin * (closeQty / order.filledQuantity)))
      rw [hquantity, add_sub_cancel] at hmoves
      exact hmoves
    · rw [if_neg hopens]
      by_cases hleft : 0 < residual
      · rw [if_pos hleft]
        have hmoves := hclosed.trans (b := removed) (hremoved.valid.drop {
          symbol := order.symbol
          side := order.side
          quantity := residual
          margin := margin - margin * (closeQty / order.filledQuantity) }
          ⟨hleft, not_lt.mp hopens⟩)
        rw [Residual.signedQuantity, hquantity, add_sub_cancel] at hmoves
        exact hmoves
      · rw [if_neg hleft]
        have hexact : closeQty = order.filledQuantity := by
          have hle : closeQty ≤ order.filledQuantity := min_le_left _ _
          linarith
        have hzero : residual = 0 := by rw [hresidual, hexact, sub_self]
        rw [hzero, Side.signed_zero, add_zero] at hquantity
        rw [hquantity, hexact, div_self hfilled.ne', mul_one] at hclosed
        exact hclosed
  · rw [if_neg hwhole]
    have hclose : closeQty = order.filledQuantity := by
      rcases min_choice order.filledQuantity p.quantity with hmin | hmin
      · exact hmin
      · exact absurd (hmin ▸ le_rfl) hwhole
    have hrest : 0 < p.quantity - closeQty := by linarith [not_le.mp hwhole]
    have hreduced := hsettled.valid.modify (r := r)
      { l.settleClose N r order closeQty margin with
        objects := (l.settleClose N r order closeQty margin).objects.modify r
          fun p => { p with quantity := p.quantity - closeQty } }
      0 hr rfl rfl rfl rfl rfl rfl (by rw [hget]; exact hrest) (by simp)
    have hquantity : p.side.signed (p.quantity - closeQty) - p.side.signed p.quantity =
        order.signedFilled := by
      rw [hopposite, hopposite, Order.signedFilled, hclose]
      cases order.side <;> simp only [Side.signed] <;> ring
    rw [hget, hsymbol, Position.signedQuantity, Position.signedQuantity, hquantity] at hreduced
    have hmoves := hsettled.trans hreduced
    rw [hclose, div_self hfilled.ne', mul_one, add_zero, zero_add] at hmoves
    rw [hclose]
    exact hmoves

theorem Valid.updatePosition (h : l.Valid) (hfilled : 0 < order.filledQuantity)
    (stopLoss takeProfit : Option ℚ) (margin : ℚ) :
    l.Moves (l.updatePosition N m order stopLoss takeProfit margin) margin order.symbol
      order.signedFilled := by
  unfold Ledger.updatePosition
  cases hfind : l.positionsBySymbol.find? order.symbol with
  | none => exact h.openNewPosition hfind hfilled stopLoss takeProfit margin
  | some r =>
    obtain ⟨hr, hsymbol⟩ := (h.indexed order.symbol r).mp hfind
    simp only
    by_cases hside : (l.objects.get r).side = order.side
    · rw [if_neg fun hne => hne hside]
      exact h.increasePosition hr hsymbol hside hfilled margin
    · rw [if_pos hside]
      exact h.closePosition hfind hside hfilled margin

/-- Everything the exchange does to its ledger. -/
inductive LedgerStep (N : Numerics) : Ledger → Ledger → Prop
  | fill (m : MarketView) (l : Ledger) (order : Order) (fee notional : ℚ) (forceClose : Bool)
      (stopLoss takeProfit : Option ℚ) (fill : Fill) (hfilled : 0 < order.filledQuantity)
      (hsymbol : fill.symbol = order.symbol)
      (hsigned : fill.signedQuantity = order.signedFilled) :
      LedgerStep N l (l.bookFill N m order fee notional forceClose stopLoss takeProfit fill)
  | mark (l : Ledger) (r : Ref) (price : ℚ) : LedgerStep N l (l.markPosition r price)
  | cover (l : Ledger) : LedgerStep N l l.handleInsuranceFundDeficit
  | relabel (l : Ledger) (orderId reason : String) : LedgerStep N l (l.relabelTrade orderId reason)
  | fund (l : Ledger) (payment : ℚ) : LedgerStep N l { l with
      account := { l.account with balance := l.account.balance + payment }
      funding := l.funding ++ [payment] }

/-- The ledger is sound relative to its opening balance. -/
structure Sound (opening : ℚ) (l : Ledger) : Prop where
  valid : l.Valid
  money : l.unexplained = opening
  position : ∀ s, l.signedPosition s + l.discarded s = l.executed s

theorem sound_new (account : Account) (hempty : account.positions = [] ∧ account.totalPnl = 0 ∧
    account.totalFees = 0) : Sound account.balance { account := account } := by
  obtain ⟨hpositions, hpnl, hfees⟩ := hempty
  refine ⟨⟨?_, ?_, ?_, ?_, fun _ hmem => absurd hmem List.not_mem_nil⟩, ?_, fun _ => add_zero _⟩
  · simp [hpositions]
  · simp [hpositions]
  · simp [hpositions]
  · simp [hpositions]
  · simp [unexplained, lockedMargin, lostMargin, Heap.total, hpositions, hpnl, hfees]

theorem executed_logFilled (l : Ledger) (fill : Fill) (s : String) : (l.logFilled fill).executed s =
      l.executed s + if s = fill.symbol then fill.signedQuantity else 0 := by
  unfold executed logFilled
  by_cases heq : s = fill.symbol
  · simp [heq]
  · simp [heq, Ne.symm heq]

/-- Changes that touch neither positions nor fills, and no money on balance, keep a ledger
sound. -/
theorem Sound.of_frame {opening : ℚ} {l l' : Ledger} (h : l.Sound opening)
    (hobjects : l'.objects = l.objects) (hpositions : l'.account.positions = l.account.positions)
    (hindex : l'.positionsBySymbol = l.positionsBySymbol) (hdropped : l'.dropped = l.dropped)
    (hfills : l'.fills = l.fills) (hmoney : l'.unexplained = l.unexplained) : l'.Sound opening where
  valid := by
    refine ⟨?_, ?_, ?_, ?_, ?_⟩
    · rw [hobjects, hpositions]
      exact h.valid.live
    · rw [hpositions]
      exact h.valid.nodup
    · rw [hobjects, hpositions, hindex]
      exact h.valid.indexed
    · rw [hobjects, hpositions]
      exact h.valid.positive
    · rw [hdropped]
      exact h.valid.small
  money := hmoney.trans h.money
  position := by
    intro s
    rw [signedPosition, discarded, executed, hobjects, hindex, hdropped, hfills]
    exact h.position s

theorem Moves.logged {opening margin : ℚ} {l l' : Ledger} {fill : Fill} {symbol : String}
    (h : l.Moves l' margin symbol fill.signedQuantity) (hsymbol : fill.symbol = symbol)
    (hmoney : l.unexplained + margin = opening)
    (hposition : ∀ s, l.signedPosition s + l.discarded s = l.executed s) :
    (l'.logFilled fill).Sound opening where
  valid := ⟨h.valid.live, h.valid.nodup, h.valid.indexed, h.valid.positive, h.valid.small⟩
  money := h.money.trans hmoney
  position := by
    intro s
    rw [executed_logFilled, hsymbol, executed, h.fills]
    exact (h.position s).trans (congrArg (· + _) (hposition s))

theorem Sound.bookFill {opening : ℚ} (h : l.Sound opening) (hfilled : 0 < order.filledQuantity)
    {fill : Fill} (hsymbol : fill.symbol = order.symbol)
    (hsigned : fill.signedQuantity = order.signedFilled) (fee notional : ℚ) (forceClose : Bool)
    (stopLoss takeProfit : Option ℚ) :
    (l.bookFill N m order fee notional forceClose stopLoss takeProfit fill).Sound opening := by
  have hcharged : (l.chargeFee fee).Sound opening :=
    h.of_frame rfl rfl rfl rfl rfl (by
      simp only [unexplained, chargeFee, lockedMargin, lostMargin]
      ring)
  cases forceClose with
  | true =>
    have hmoves := hcharged.valid.updatePosition (N := N) (m := m) hfilled stopLoss takeProfit 0
    rw [← hsigned] at hmoves
    exact hmoves.logged hsymbol (by rw [hcharged.money, add_zero]) hcharged.position
  | false =>
    have hvalid : ((l.chargeFee fee).lockMargin notional).Valid :=
      ⟨hcharged.valid.live, hcharged.valid.nodup, hcharged.valid.indexed, hcharged.valid.positive,
        hcharged.valid.small⟩
    have hlocked : ((l.chargeFee fee).lockMargin notional).unexplained +
        (l.chargeFee fee).marginFor notional = opening := by
      rw [← hcharged.money]
      simp only [unexplained, lockMargin, lockedMargin, lostMargin]
      ring
    have hmoves := hvalid.updatePosition (N := N) (m := m) hfilled stopLoss takeProfit
      ((l.chargeFee fee).marginFor notional)
    rw [← hsigned] at hmoves
    exact hmoves.logged hsymbol hlocked hcharged.position

theorem Sound.markPosition {opening : ℚ} (h : l.Sound opening) (r : Ref) (price : ℚ) :
    (l.markPosition r price).Sound opening := by
  have hread : ∀ {β : Type} (f : Position → β), (∀ p, f (p.updatePnl price) = f p) →
      ∀ r', f ((l.markPosition r price).objects.get r') = f (l.objects.get r') := by
    intro β f hf r'
    by_cases hlive : l.objects.Live r
    · change f ((l.objects.modify r _).get r') = _
      rw [Heap.get_modify _ hlive]
      by_cases heq : r' = r
      · rw [if_pos heq, hf]
      · rw [if_neg heq]
    · have hsame : (l.markPosition r price).objects = l.objects :=
        Heap.modify_of_not_live _ hlive _
      rw [hsame]
  have hsymbol := hread (·.symbol) fun _ => rfl
  have hquantity := hread (·.quantity) fun _ => rfl
  have hmargin := hread (·.margin) fun _ => rfl
  have hsigned := hread (·.signedQuantity) fun _ => rfl
  refine ⟨⟨?_, h.valid.nodup, ?_, ?_, h.valid.small⟩, ?_, ?_⟩
  · exact fun r' hr' => (Heap.live_modify _ _ _ _).mpr (h.valid.live r' hr')
  · intro s r'
    rw [hsymbol]
    exact h.valid.indexed s r'
  · intro r' hr'
    rw [hquantity]
    exact h.valid.positive r' hr'
  · have hlocked : (l.markPosition r price).lockedMargin = l.lockedMargin :=
      Heap.total_congr fun r' _ => hmargin r'
    rw [← h.money, unexplained, unexplained, hlocked]
    rfl
  · intro s
    have hposition : (l.markPosition r price).signedPosition s = l.signedPosition s := by
      rw [signedPosition, signedPosition]
      simp only [hsigned]
      rfl
    rw [hposition]
    exact h.position s

/-- Every movement of the ledger keeps its equation. -/
theorem Sound.step {opening : ℚ} {l' : Ledger} (h : l.Sound opening)
    (hstep : LedgerStep N l l') : l'.Sound opening := by
  cases hstep with
  | fill m l order fee notional forceClose stopLoss takeProfit fill hfilled hsymbol hsigned =>
    exact h.bookFill hfilled hsymbol hsigned fee notional forceClose stopLoss takeProfit
  | mark l r price => exact h.markPosition r price
  | cover l =>
    unfold handleInsuranceFundDeficit
    by_cases hdeficit : l.account.balance < 0
    · rw [if_pos hdeficit]
      refine h.of_frame rfl rfl rfl rfl rfl ?_
      simp only [unexplained, lockedMargin, lostMargin, abs_of_neg hdeficit]
      ring
    · rw [if_neg hdeficit]
      exact h
  | relabel l orderId reason => exact h.of_frame rfl rfl rfl rfl rfl rfl
  | fund l payment =>
    refine h.of_frame rfl rfl rfl rfl rfl ?_
    simp only [unexplained, lockedMargin, lostMargin, List.sum_append, List.sum_singleton]
    ring

/-- So do any number of movements. -/
theorem Sound.chain {opening : ℚ} {l l' : Ledger} (h : l.Sound opening)
    (hchain : Relation.ReflTransGen (LedgerStep N) l l') : l'.Sound opening := by
  induction hchain with
  | refl => exact h
  | tail _ hlast ih => exact ih.step hlast

end Ledger

end TradingSim.Exchange
