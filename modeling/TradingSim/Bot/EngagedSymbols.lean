import TradingSim.Bot.SinglePositions

/-!
# Engaged symbols

`active_symbols_` is meant to hold the symbols that have a position or a pending order. Three operations
take a position off the book, and none of them gets it right when the symbol has a pending order as well.
A closing fill keeps the symbol for the pending order and then erases that order; a reconciliation and a
local close release the symbol although its order is still pending.
-/

namespace TradingSim.Bot

open Foundations
open Exchange (Side OrderStatus)

/-- An operation on the local book. A side other than `BUY` is a sale, and a status other than `PENDING`
and `FILLED` ends the order. -/
inductive BookOperation
  | addPendingOrder (signal : Signal) (quantity : ℚ) (exchange : String)
  | cancelPending (symbol : String)
  | clearPendingOrders
  | applyFill (symbol : String) (side : Side) (filledQty price fee : ℚ) (status : OrderStatus)
  | syncPosition (exchange : String) (report : PositionManager.PositionReport)
  | reconcilePositions (exchangeSymbols : List String) (exchange : String)
  | closePosition (symbol : String) (exitPrice : ℚ)

/-- A fill on this side closes the position in full. -/
def Position.ClosedBy (pos : Position) (side : Side) (filledQty : ℚ) : Prop :=
  pos.side ≠ side ∧ pos.quantity ≤ filledQty + 1 / 10 ^ 12

instance (pos : Position) (side : Side) (filledQty : ℚ) : Decidable (pos.ClosedBy side filledQty) :=
  inferInstanceAs (Decidable (_ ∧ _))

namespace PositionManager

def step (m : PositionManager) : BookOperation → PositionManager
  | .addPendingOrder signal quantity exchange => m.addPendingOrder signal quantity exchange
  | .cancelPending symbol => m.cancelPending symbol
  | .clearPendingOrders => m.clearPendingOrders
  | .applyFill symbol side filledQty price fee status =>
    (m.applyFill symbol side filledQty price fee status).2
  | .syncPosition exchange report => m.syncPosition exchange report
  | .reconcilePositions exchangeSymbols exchange => (m.reconcilePositions exchangeSymbols exchange).2
  | .closePosition symbol exitPrice => (m.closePosition symbol exitPrice).2

/-- The symbol is active exactly when it has an open position or a pending order. -/
def EngagedAt (m : PositionManager) (symbol : String) : Prop :=
  symbol ∈ m.activeSymbols ↔
    (m.position? symbol).isSome ∨ (m.pendingOrders.find? symbol).isSome

/-- The bookkeeping of the engaged symbols is right. -/
structure Orderly (m : PositionManager) : Prop where
  engaged : ∀ symbol, m.EngagedAt symbol
  single : m.Single
  positive : ∀ pos ∈ m.positions, 0 < pos.quantity

/-- The operation takes the position of a symbol off the book. -/
def Drops (m : PositionManager) : BookOperation → String → Prop
  | .applyFill s side filledQty price _ status, symbol =>
    symbol = s ∧ status = .filled ∧ 0 < filledQty ∧ 0 < price ∧
      ∃ pos ∈ m.position? s, pos.ClosedBy side filledQty
  | .reconcilePositions exchangeSymbols exchange, symbol =>
    ∃ pos ∈ m.position? symbol, pos.exchange = exchange ∧ symbol ∉ exchangeSymbols ∧
      syncMissLimit ≤ m.misses symbol + 1
  | .closePosition s _, symbol => symbol = s ∧ (m.position? s).isSome
  | _, _ => False

/-- A symbol whose position the operation takes off the book has no pending order. -/
def Unburdened (m : PositionManager) (op : BookOperation) : Prop :=
  ∀ symbol, m.Drops op symbol → m.pendingOrders.find? symbol = none

variable {m : PositionManager} {symbol : String}

/-! ### Positions found -/

variable {pos : Position} {m' : PositionManager}

theorem position?_remove (h : m.Single)
    (hpositions : m'.positions = KeyedList.remove Position.symbol m.positions symbol) (s : String) :
    m'.position? s = if symbol = s then none else m.position? s := by
  rw [position?_eq, position?_eq, hpositions, KeyedList.under_remove]
  split
  · have hone := h s
    rw [List.head?_eq_none_iff, ← List.length_eq_zero_iff, List.length_tail]
    rw [positionsOf] at hone
    omega
  · rfl

theorem position?_push
    (hpositions : m'.positions = m.positions ++ [pos]) (hnone : m.position? pos.symbol = none)
    (s : String) : m'.position? s = if pos.symbol = s then some pos else m.position? s := by
  rw [position?_eq, hpositions, positionsOf_push]
  split
  · rename_i hsame
    rw [← hsame, positionsOf_eq_nil hnone]
    rfl
  · exact (position?_eq m s).symm

/-! ### Pending orders -/

theorem engagedAt_addPendingOrder (h : m.EngagedAt symbol) (signal : Signal) (quantity : ℚ)
    (exchange : String) : (m.addPendingOrder signal quantity exchange).EngagedAt symbol := by
  unfold addPendingOrder
  split
  · change symbol ∈ insert signal.symbol m.activeSymbols ↔
      (m.position? symbol).isSome ∨ ((m.pendingOrders.insert signal.symbol _).find? symbol).isSome
    rw [Finset.mem_insert, Dict.find?_insert]
    by_cases heq : symbol = signal.symbol
    · simp [heq]
    · rw [if_neg heq, or_iff_right heq]
      exact h
  · exact h

theorem engagedAt_cancelPending (h : m.EngagedAt symbol) (s : String) :
    (m.cancelPending s).EngagedAt symbol := by
  change symbol ∈ (if (m.position? s).isSome then m.activeSymbols else m.activeSymbols.erase s) ↔
    (m.position? symbol).isSome ∨ ((m.pendingOrders.erase s).find? symbol).isSome
  rw [Dict.find?_erase]
  by_cases heq : symbol = s
  · subst heq
    split
    · rename_i hheld
      have hactive : symbol ∈ m.activeSymbols := h.mpr (Or.inl hheld)
      simp [hheld, hactive]
    · rename_i hflat
      simp [hflat]
  · split
    · exact h
    · rw [Finset.mem_erase, and_iff_right heq]
      exact h

theorem engagedAt_clearPendingOrders (h : m.EngagedAt symbol) : m.clearPendingOrders.EngagedAt symbol := by
  change symbol ∈ (m.activeSymbols.filter fun s =>
      ¬ (s ∈ m.pendingOrders.keys ∧ (m.position? s).isNone)) ↔
    (m.position? symbol).isSome ∨ ((Dict.empty : Dict String PendingOrder).find? symbol).isSome
  unfold EngagedAt at h
  rw [Finset.mem_filter, h, Dict.find?_empty, Dict.mem_keys_iff, ← Option.isSome_iff_exists]
  cases m.position? symbol with
  | none =>
    cases m.pendingOrders.find? symbol with
    | none => simp
    | some order => simp
  | some pos => simp

/-! ### Broadcasts -/

theorem engagedAt_syncPosition (h : m.EngagedAt symbol) (exchange : String) (report : PositionReport) :
    (m.syncPosition exchange report).EngagedAt symbol := by
  unfold syncPosition
  split
  · exact h
  · split
    · rename_i pos hpos
      unfold EngagedAt
      rw [position?_setPosition]
      split
      · rename_i hsymbol
        have hown : pos.symbol = symbol := hsymbol
        rw [← symbol_of_position? hpos, hown] at hpos
        have hactive : symbol ∈ m.activeSymbols := h.mpr (Or.inl (by rw [hpos]; rfl))
        exact iff_of_true hactive (Or.inl rfl)
      · exact h
    · rename_i hnone
      split
      · exact h
      · unfold EngagedAt
        rw [position?_push (m := m) rfl hnone, Finset.mem_insert]
        by_cases heq : symbol = report.symbol
        · simp [heq]
        · rw [if_neg (Ne.symm heq), or_iff_right heq]
          exact h

theorem reconcileOne_at (exchangeSymbols : List String) (exchange : String)
    (acc : List String × PositionManager) (pos : Position) :
    let after := (reconcileOne exchangeSymbols exchange acc pos).2
    if pos.exchange = exchange ∧ pos.symbol ∉ exchangeSymbols ∧
        syncMissLimit ≤ acc.2.misses pos.symbol + 1 then
      after.positionsOf pos.symbol = acc.2.positionsOf pos.symbol ∧
        after.activeSymbols = acc.2.activeSymbols.erase pos.symbol
    else
      after.positionsOf pos.symbol = acc.2.positionsOf pos.symbol ++ [pos] ∧
        after.activeSymbols = acc.2.activeSymbols := by
  obtain ⟨removed, m⟩ := acc
  have hpush := m.positionsOf_push pos pos.symbol
  rw [if_pos rfl] at hpush
  dsimp only [reconcileOne]
  by_cases hkept : pos.exchange ≠ exchange ∨ pos.symbol ∈ exchangeSymbols
  · have hdrop : ¬ (pos.exchange = exchange ∧ pos.symbol ∉ exchangeSymbols ∧
        syncMissLimit ≤ m.misses pos.symbol + 1) := by
      tauto
    rw [if_pos hkept, if_neg hdrop]
    exact ⟨hpush, rfl⟩
  · rw [if_neg hkept]
    push Not at hkept
    by_cases hfew : m.misses pos.symbol + 1 < syncMissLimit
    · rw [if_pos (show (m.syncMisses.find? pos.symbol).getD 0 + 1 < syncMissLimit from hfew),
        if_neg fun hdrop : _ ∧ _ ∧ _ => not_le.mpr hfew hdrop.2.2]
      exact ⟨hpush, rfl⟩
    · rw [if_neg (show ¬ (m.syncMisses.find? pos.symbol).getD 0 + 1 < syncMissLimit from hfew),
        if_pos ⟨hkept.1, hkept.2, not_lt.mp hfew⟩]
      exact ⟨rfl, rfl⟩

theorem mem_activeSymbols_reconcile (exchangeSymbols : List String) (exchange : String)
    (positions : List Position) (hother : ∀ pos ∈ positions, pos.symbol ≠ symbol)
    (acc : List String × PositionManager) :
    symbol ∈ (positions.foldl (reconcileOne exchangeSymbols exchange) acc).2.activeSymbols ↔
      symbol ∈ acc.2.activeSymbols := by
  induction positions generalizing acc with
  | nil => rfl
  | cons pos rest ih =>
    rw [List.foldl_cons, ih fun b hb => hother b (List.mem_cons_of_mem pos hb)]
    have hne := hother pos List.mem_cons_self
    have hat := reconcileOne_at exchangeSymbols exchange acc pos
    split at hat
    · rw [hat.2, Finset.mem_erase, and_iff_right hne.symm]
    · rw [hat.2]

/-- The position found for a symbol stands alone among those of other symbols. -/
theorem Single.split (h : m.Single) (hpos : m.position? pos.symbol = some pos) :
    ∃ front back, m.positions = front ++ pos :: back ∧
      (∀ b ∈ front, b.symbol ≠ pos.symbol) ∧ ∀ b ∈ back, b.symbol ≠ pos.symbol := by
  rw [position?_eq] at hpos
  obtain ⟨front, back, hsplit, -, -⟩ := KeyedList.split_of_head? hpos
  have hone := h pos.symbol
  rw [positionsOf, hsplit, KeyedList.under_append, KeyedList.under_cons_self, List.length_append,
    List.length_cons] at hone
  have hfront : KeyedList.under Position.symbol pos.symbol front = [] :=
    List.eq_nil_of_length_eq_zero (by omega)
  have hback : KeyedList.under Position.symbol pos.symbol back = [] :=
    List.eq_nil_of_length_eq_zero (by omega)
  exact ⟨front, back, hsplit, KeyedList.under_eq_nil_iff.mp hfront, KeyedList.under_eq_nil_iff.mp hback⟩

/-- Among positions of other symbols the one decides alone what becomes of its symbol. -/
theorem foldl_reconcileOne_at {front back : List Position}
    (hfront : ∀ b ∈ front, b.symbol ≠ pos.symbol) (hback : ∀ b ∈ back, b.symbol ≠ pos.symbol)
    (exchangeSymbols : List String) (exchange : String) (start : PositionManager)
    (hempty : start.positionsOf pos.symbol = []) :
    let after := ((front ++ pos :: back).foldl (reconcileOne exchangeSymbols exchange) ([], start)).2
    if pos.exchange = exchange ∧ pos.symbol ∉ exchangeSymbols ∧
        syncMissLimit ≤ start.misses pos.symbol + 1 then
      after.position? pos.symbol = none ∧ pos.symbol ∉ after.activeSymbols
    else
      after.position? pos.symbol = some pos ∧
        (pos.symbol ∈ after.activeSymbols ↔ pos.symbol ∈ start.activeSymbols) := by
  rw [List.foldl_append, List.foldl_cons]
  have hbefore := spares_reconcile exchangeSymbols exchange front hfront ([], start)
  have hactiveBefore := mem_activeSymbols_reconcile exchangeSymbols exchange front hfront ([], start)
  generalize front.foldl (reconcileOne exchangeSymbols exchange) _ = acc at hbefore hactiveBefore ⊢
  have hafter := spares_reconcile exchangeSymbols exchange back hback
    (reconcileOne exchangeSymbols exchange acc pos)
  have hactiveAfter := mem_activeSymbols_reconcile exchangeSymbols exchange back hback
    (reconcileOne exchangeSymbols exchange acc pos)
  generalize back.foldl (reconcileOne exchangeSymbols exchange) _ = final at hafter hactiveAfter ⊢
  have hat := reconcileOne_at exchangeSymbols exchange acc pos
  have hmisses : acc.2.misses pos.symbol = start.misses pos.symbol := hbefore.misses
  have hnone : acc.2.positionsOf pos.symbol = [] := hbefore.positions.trans hempty
  rw [hmisses, hnone, List.nil_append] at hat
  dsimp only at hat ⊢
  rw [position?_eq, show KeyedList.under Position.symbol pos.symbol final.2.positions = _ from
    hafter.positions, hactiveAfter]
  by_cases hdrop : pos.exchange = exchange ∧ pos.symbol ∉ exchangeSymbols ∧
      syncMissLimit ≤ start.misses pos.symbol + 1
  · rw [if_pos hdrop] at hat ⊢
    rw [hat.1, hat.2]
    exact ⟨rfl, Finset.notMem_erase pos.symbol _⟩
  · rw [if_neg hdrop] at hat ⊢
    rw [hat.1, hat.2, hactiveBefore]
    exact ⟨rfl, Iff.rfl⟩

theorem reconcilePositions_at (h : m.Single) (exchangeSymbols : List String) (exchange symbol : String) :
    let after := (m.reconcilePositions exchangeSymbols exchange).2
    (m.Drops (.reconcilePositions exchangeSymbols exchange) symbol →
      after.position? symbol = none ∧ symbol ∉ after.activeSymbols) ∧
    (¬ m.Drops (.reconcilePositions exchangeSymbols exchange) symbol →
      after.position? symbol = m.position? symbol ∧
        (symbol ∈ after.activeSymbols ↔ symbol ∈ m.activeSymbols)) := by
  set start : PositionManager :=
    { m with positions := [], syncMisses := m.syncMisses.eraseAll exchangeSymbols } with hstart
  cases hpos : m.position? symbol with
  | none =>
    have hnone := positionsOf_eq_nil hpos
    have hother : ∀ pos ∈ m.positions, pos.symbol ≠ symbol := KeyedList.under_eq_nil_iff.mp hnone
    have hspares := spares_reconcile exchangeSymbols exchange m.positions hother ([], start)
    have hactive := mem_activeSymbols_reconcile exchangeSymbols exchange m.positions hother ([], start)
    refine ⟨fun ⟨pos, hheld, _⟩ => absurd (hpos.symm.trans hheld) (by simp), fun _ => ⟨?_, hactive⟩⟩
    rw [position?_eq]
    exact congrArg List.head? hspares.positions
  | some pos =>
    have hown := symbol_of_position? hpos
    subst hown
    obtain ⟨front, back, hsplit, hfront, hback⟩ := h.split hpos
    have hat := foldl_reconcileOne_at hfront hback exchangeSymbols exchange start rfl
    rw [← hsplit] at hat
    have hdrops : (pos.exchange = exchange ∧ pos.symbol ∉ exchangeSymbols ∧
        syncMissLimit ≤ start.misses pos.symbol + 1) ↔
          m.Drops (.reconcilePositions exchangeSymbols exchange) pos.symbol := by
      simp only [Drops, hpos, Option.mem_some_iff, exists_eq_left']
      refine and_congr_right fun _ => and_congr_right fun hunlisted => ?_
      rw [misses, misses, hstart, Dict.find?_eraseAll_of_not_mem _ hunlisted]
    by_cases hdrop : m.Drops (.reconcilePositions exchangeSymbols exchange) pos.symbol
    · rw [if_pos (hdrops.mpr hdrop)] at hat
      exact ⟨fun _ => hat, absurd hdrop⟩
    · rw [if_neg (mt hdrops.mp hdrop)] at hat
      exact ⟨fun h => absurd h hdrop, fun _ => hat⟩

theorem engagedAt_reconcilePositions (h : m.EngagedAt symbol) (hsingle : m.Single)
    (exchangeSymbols : List String) (exchange : String) :
    (m.reconcilePositions exchangeSymbols exchange).2.EngagedAt symbol ↔
      (m.Drops (.reconcilePositions exchangeSymbols exchange) symbol →
        m.pendingOrders.find? symbol = none) := by
  have hpending : (m.reconcilePositions exchangeSymbols exchange).2.pendingOrders = m.pendingOrders :=
    pendingOrders_reconcile exchangeSymbols exchange m.positions _
  obtain ⟨hdropped, hkept⟩ := m.reconcilePositions_at hsingle exchangeSymbols exchange symbol
  unfold EngagedAt
  rw [hpending]
  by_cases hdrop : m.Drops (.reconcilePositions exchangeSymbols exchange) symbol
  · obtain ⟨hnone, hreleased⟩ := hdropped hdrop
    rw [hnone, forall_prop_of_true hdrop]
    simp [hreleased]
  · obtain ⟨hposition, hactive⟩ := hkept hdrop
    rw [hposition, hactive, forall_prop_of_false hdrop, iff_true]
    exact h

/-! ### Closes -/

theorem engagedAt_closePosition (h : m.EngagedAt symbol) (hsingle : m.Single) (s : String)
    (exitPrice : ℚ) : (m.closePosition s exitPrice).2.EngagedAt symbol ↔
      (m.Drops (.closePosition s exitPrice) symbol → m.pendingOrders.find? symbol = none) := by
  unfold closePosition Drops
  cases hpos : m.position? s with
  | none => simp [h, hpos]
  | some pos =>
    unfold EngagedAt
    rw [position?_remove hsingle rfl, Finset.mem_erase]
    by_cases heq : symbol = s
    · subst heq
      simp [hpos]
    · rw [if_neg (Ne.symm heq), and_iff_right heq, forall_prop_of_false (heq ·.1), iff_true]
      exact h

/-! ### Fills -/

theorem activeSymbols_fillPosition (m : PositionManager) (pos : Position) (side : Side)
    (filledQty price fee : ℚ) : (m.fillPosition pos side filledQty price fee).2.activeSymbols =
      if pos.ClosedBy side filledQty ∧ m.pendingOrders.find? pos.symbol = none then
        m.activeSymbols.erase pos.symbol else m.activeSymbols := by
  unfold fillPosition
  by_cases hsame : pos.side = side
  · rw [if_pos hsame, if_neg fun hclosed : pos.ClosedBy side filledQty ∧ _ => hclosed.1.1 hsame]
    rfl
  · rw [if_neg hsame]
    by_cases hpartial : filledQty + 1 / 10 ^ 12 < pos.quantity
    · rw [if_pos hpartial,
        if_neg fun hclosed : pos.ClosedBy side filledQty ∧ _ => not_le.mpr hpartial hclosed.1.2]
      rfl
    · have hclosed : pos.ClosedBy side filledQty := ⟨hsame, not_lt.mp hpartial⟩
      rw [if_neg hpartial]
      change (if (m.pendingOrders.find? pos.symbol).isNone then m.activeSymbols.erase pos.symbol
        else m.activeSymbols) = _
      simp only [hclosed, true_and, Option.isNone_iff_eq_none]

theorem isSome_position?_fillPosition (hsingle : m.Single)
    (hpos : m.position? pos.symbol = some pos) (side : Side) (filledQty price fee : ℚ) :
    ((m.fillPosition pos side filledQty price fee).2.position? symbol).isSome ↔
      (m.position? symbol).isSome ∧ ¬ (symbol = pos.symbol ∧ pos.ClosedBy side filledQty) := by
  have hkept {pos' : Position} (hsymbol : pos'.symbol = pos.symbol) {m' : PositionManager}
      (hpositions : m'.positions = (m.setPosition pos').positions) :
      (m'.position? symbol).isSome ↔ (m.position? symbol).isSome := by
    have hposition : m'.position? symbol = (m.setPosition pos').position? symbol := by
      rw [position?, position?, hpositions]
    rw [hposition, position?_setPosition, hsymbol]
    split
    · rename_i heq
      rw [← heq, hpos]
      simp
    · rfl
  obtain ⟨hsame, -, pos', hpositions, hsymbol, -⟩ | ⟨-, hpartial, -, -, pos', hpositions, hsymbol, -⟩ |
    ⟨hopposite, hfull, -, -, hpositions⟩ := m.fillPosition_cases pos side filledQty price fee
  · rw [hkept hsymbol hpositions, and_iff_left fun hclosed : _ ∧ _ => hclosed.2.1 hsame]
  · rw [hkept hsymbol hpositions,
      and_iff_left fun hclosed : _ ∧ _ => not_le.mpr hpartial hclosed.2.2]
  · have hclosed : pos.ClosedBy side filledQty := ⟨hopposite, hfull⟩
    rw [position?_remove hsingle hpositions]
    by_cases heq : symbol = pos.symbol
    · simp [heq, hclosed]
    · simp [heq, Ne.symm heq]

/-- A fill uses up the pending order, and releases the symbol only when there is none. -/
theorem engagedAt_applyExecution (h : m.EngagedAt symbol) (hsingle : m.Single) (s : String)
    (side : Side) (filledQty price fee : ℚ) :
    (m.applyExecution s side filledQty price fee).2.EngagedAt symbol ↔
      (symbol = s ∧ (∃ pos ∈ m.position? s, pos.ClosedBy side filledQty) →
        m.pendingOrders.find? symbol = none) := by
  have hpendingAfter := m.find?_pendingOrders_applyExecution s side filledQty price fee symbol
  unfold EngagedAt at h ⊢
  rw [hpendingAfter]
  unfold applyExecution
  cases hpos : m.position? s with
  | some pos =>
    have hown := symbol_of_position? hpos
    subst hown
    rw [isSome_position?_fillPosition hsingle hpos, activeSymbols_fillPosition]
    by_cases heq : symbol = pos.symbol
    · subst heq
      have hactive : pos.symbol ∈ m.activeSymbols := h.mpr (Or.inl (by rw [hpos]; rfl))
      by_cases hclosed : pos.ClosedBy side filledQty
      · by_cases hpending : m.pendingOrders.find? pos.symbol = none
        · simp [hclosed, hpending]
        · simp [hclosed, hpending, hactive]
      · simp [hclosed, hpos, hactive]
    · rw [if_neg heq, forall_prop_of_false fun hdropped : _ ∧ _ => heq hdropped.1, iff_true,
        and_iff_left fun hclosed : _ ∧ _ => heq hclosed.1, ← h]
      split
      · rw [Finset.mem_erase, and_iff_right heq]
      · rfl
  | none =>
    have hnodrop : ¬ (symbol = s ∧ ∃ pos ∈ (none : Option Position), pos.ClosedBy side filledQty) := by
      rintro ⟨-, pos, hheld, -⟩
      contradiction
    rw [forall_prop_of_false hnodrop, iff_true]
    cases hpending : m.pendingOrders.find? s with
    | some order =>
      change symbol ∈ m.activeSymbols ↔ _
      rw [position?_push (m := m) rfl hpos, h]
      by_cases heq : symbol = s
      · subst heq
        rw [hpending, hpos]
        simp [Position.updatePnl]
      · have hne : ¬ s = symbol := Ne.symm heq
        simp only [Position.updatePnl, if_neg heq, if_neg hne]
    | none =>
      change symbol ∈ m.activeSymbols ↔ (m.position? symbol).isSome ∨ _
      rw [h]
      split
      · rename_i heq
        rw [heq, hpending]
      · rfl

/-! ### Quantities -/

/-- The quantities of the positions are positive. -/
def Stocked (m : PositionManager) : Prop := ∀ pos ∈ m.positions, 0 < pos.quantity

theorem Stocked.setPosition (h : m.Stocked) (hquantity : 0 < pos.quantity) : (m.setPosition pos).Stocked := by
  intro pos' hmem
  rcases KeyedList.mem_put_push hmem with rfl | hold
  · exact hquantity
  · exact h pos' hold

theorem Stocked.append (h : m.Stocked)
    (hpositions : m'.positions = m.positions ++ [pos]) (hquantity : 0 < pos.quantity) : m'.Stocked := by
  intro pos' hmem
  rw [hpositions, List.mem_append, List.mem_singleton] at hmem
  rcases hmem with hold | rfl
  · exact h pos' hold
  · exact hquantity

theorem Stocked.applyExecution (h : m.Stocked) (symbol : String) (side : Side) {filledQty : ℚ}
    (hfilled : 0 < filledQty) (price fee : ℚ) :
    (m.applyExecution symbol side filledQty price fee).2.Stocked := by
  unfold PositionManager.applyExecution
  cases hpos : m.position? symbol with
  | some pos =>
    have hquantity : 0 < pos.quantity := h pos (List.mem_of_find?_eq_some hpos)
    obtain ⟨-, -, pos', hpositions, -, -, hquantity', -⟩ |
      ⟨-, hpartial, -, -, pos', hpositions, -, -, hquantity', -⟩ |
      ⟨-, -, -, -, hpositions⟩ := m.fillPosition_cases pos side filledQty price fee
    · unfold Stocked
      rw [hpositions]
      apply h.setPosition
      rw [hquantity']
      positivity
    · unfold Stocked
      rw [hpositions]
      apply h.setPosition
      linarith
    · intro pos' hmem
      rw [hpositions] at hmem
      exact h pos' (KeyedList.mem_of_mem_remove hmem)
  | none =>
    cases hpending : m.pendingOrders.find? symbol with
    | none => exact h
    | some order => exact h.append rfl hfilled

theorem Stocked.syncPosition (h : m.Stocked) (exchange : String) (report : PositionReport) :
    (m.syncPosition exchange report).Stocked := by
  unfold PositionManager.syncPosition
  split
  · exact h
  · rename_i hvalid
    have hquantity : 0 < report.quantity := by
      rw [not_or, not_le] at hvalid
      exact hvalid.1
    split
    · exact h.setPosition hquantity
    · split
      · exact h
      · exact h.append rfl hquantity

/-! ### Runs -/

/-- A fill that is not `PENDING` and not valid changes nothing, and one that ends the order cancels it. -/
theorem applyFill_cases (m : PositionManager) (symbol : String) (side : Side)
    (filledQty price fee : ℚ) (status : OrderStatus) :
    let after := (m.applyFill symbol side filledQty price fee status).2
    ((status = .filled ∧ 0 < filledQty ∧ 0 < price) ∧
      after = (m.applyExecution symbol side filledQty price fee).2) ∨
    (¬ (status = .filled ∧ 0 < filledQty ∧ 0 < price) ∧
      (after = m ∨
        after = { m.cancelPending symbol with closingSince := m.closingSince.erase symbol })) := by
  unfold applyFill
  cases status with
  | pending => simp
  | filled =>
    by_cases hinvalid : filledQty ≤ 0 ∨ price ≤ 0
    · rw [if_pos hinvalid]
      right
      refine ⟨fun ⟨_, hfilled, hprice⟩ => ?_, Or.inl rfl⟩
      exact hinvalid.elim (not_le.mpr hfilled) (not_le.mpr hprice)
    · rw [if_neg hinvalid]
      rw [not_or, not_le, not_le] at hinvalid
      exact Or.inl ⟨⟨rfl, hinvalid⟩, rfl⟩
  | rejected => simp
  | cancelled => simp

/-- One operation keeps the right symbols engaged exactly if those whose positions it drops have no
pending orders. -/
theorem engagedAt_step_iff (h : m.Orderly) (op : BookOperation) (symbol : String) :
    (m.step op).EngagedAt symbol ↔ (m.Drops op symbol → m.pendingOrders.find? symbol = none) := by
  have hengaged := h.engaged symbol
  cases op with
  | addPendingOrder signal quantity exchange =>
    exact iff_of_true (engagedAt_addPendingOrder hengaged signal quantity exchange) False.elim
  | cancelPending s => exact iff_of_true (engagedAt_cancelPending hengaged s) False.elim
  | clearPendingOrders => exact iff_of_true (engagedAt_clearPendingOrders hengaged) False.elim
  | applyFill s side filledQty price fee status =>
    obtain ⟨⟨hstatus, hfilled, hprice⟩, hafter⟩ | ⟨hinvalid, hafter⟩ :=
      m.applyFill_cases s side filledQty price fee status
    · rw [step, hafter, engagedAt_applyExecution hengaged h.single]
      simp [Drops, hstatus, hfilled, hprice]
    · have hnodrop : ¬ m.Drops (.applyFill s side filledQty price fee status) symbol :=
        fun hdrop => hinvalid ⟨hdrop.2.1, hdrop.2.2.1, hdrop.2.2.2.1⟩
      rw [step, forall_prop_of_false hnodrop, iff_true]
      rcases hafter with hafter | hafter
      · rw [hafter]
        exact hengaged
      · rw [hafter]
        exact engagedAt_cancelPending hengaged s
  | syncPosition exchange report =>
    exact iff_of_true (engagedAt_syncPosition hengaged exchange report) False.elim
  | reconcilePositions exchangeSymbols exchange =>
    exact engagedAt_reconcilePositions hengaged h.single exchangeSymbols exchange
  | closePosition s exitPrice => exact engagedAt_closePosition hengaged h.single s exitPrice

/-- Every operation keeps at most one position for each symbol. -/
theorem single_step (h : m.Single) (op : BookOperation) : (m.step op).Single := by
  cases op with
  | addPendingOrder signal quantity exchange =>
    apply h.congr
    simp only [step, addPendingOrder]
    split
    · rfl
    · rfl
  | cancelPending s => exact h.congr rfl
  | clearPendingOrders => exact h.congr rfl
  | applyFill s side filledQty price fee status =>
    obtain ⟨-, hafter⟩ | ⟨-, hafter | hafter⟩ := m.applyFill_cases s side filledQty price fee status
    · rw [step, hafter]
      exact h.applyExecution s side filledQty price fee
    · rw [step, hafter]
      exact h
    · rw [step, hafter]
      exact h.congr rfl
  | syncPosition exchange report => exact h.syncPosition report
  | reconcilePositions exchangeSymbols exchange => exact h.reconcilePositions exchangeSymbols
  | closePosition s exitPrice =>
    simp only [step, closePosition]
    cases hpos : m.position? s with
    | none => exact h
    | some pos => exact h.remove rfl

/-- Every operation keeps the quantities positive. -/
theorem stocked_step (h : m.Stocked) (op : BookOperation) : (m.step op).Stocked := by
  cases op with
  | addPendingOrder signal quantity exchange =>
    simp only [step, addPendingOrder]
    split
    · exact h
    · exact h
  | cancelPending s => exact h
  | clearPendingOrders => exact h
  | applyFill s side filledQty price fee status =>
    obtain ⟨⟨-, hfilled, -⟩, hafter⟩ | ⟨-, hafter | hafter⟩ :=
      m.applyFill_cases s side filledQty price fee status
    · rw [step, hafter]
      exact h.applyExecution s side hfilled price fee
    · rw [step, hafter]
      exact h
    · rw [step, hafter]
      exact h
  | syncPosition exchange report => exact h.syncPosition exchange report
  | reconcilePositions exchangeSymbols exchange =>
    intro pos hmem
    exact h pos ((m.reconcilePositions_sublist exchangeSymbols exchange).subset hmem)
  | closePosition s exitPrice =>
    simp only [step, closePosition]
    cases hpos : m.position? s with
    | none => exact h
    | some pos =>
      intro pos' hmem
      exact h pos' (KeyedList.mem_of_mem_remove hmem)

theorem single_run (operations : List BookOperation) : (run step {} operations).Single := by
  have hstep : ∀ (m : PositionManager) (op : BookOperation), m.Single → (m.step op).Single :=
    fun _ op h => single_step h op
  exact run_invariant hstep operations fun _ => Nat.zero_le 1

theorem stocked_run (operations : List BookOperation) : (run step {} operations).Stocked := by
  have hstep : ∀ (m : PositionManager) (op : BookOperation), m.Stocked → (m.step op).Stocked :=
    fun _ op h => stocked_step h op
  exact run_invariant hstep operations (by simp [Stocked])

/-- **Whatever the operations are, no symbol has two positions and every position has a quantity.** -/
theorem positions_wellKept (operations : List BookOperation) :
    (run step {} operations).Single ∧ ∀ pos ∈ (run step {} operations).positions, 0 < pos.quantity :=
  ⟨single_run operations, stocked_run operations⟩

theorem orderly_step_iff (h : m.Orderly) (op : BookOperation) : (m.step op).Orderly ↔ m.Unburdened op := by
  constructor
  · intro hafter symbol
    exact (engagedAt_step_iff h op symbol).mp (hafter.engaged symbol)
  · intro hunburdened
    exact
      { engaged := fun symbol => (engagedAt_step_iff h op symbol).mpr (hunburdened symbol)
        single := single_step h.single op
        positive := stocked_step h.positive op }

/-- **The engaged symbols are in order as long as no position leaves the book beside a pending order.** -/
theorem orderly_iff_unburdened (operations : List BookOperation) :
    Along step (fun m op => (m.step op).Orderly) {} operations ↔ Along step Unburdened {} operations := by
  have hempty : Orderly {} :=
    { engaged := fun symbol => by simp [EngagedAt, position?]
      single := fun symbol => Nat.zero_le 1
      positive := by simp }
  exact along_congr Orderly (fun _ _ _ h => h) (fun m op h => orderly_step_iff h op) operations hempty

/-- A buy is filled, another order is placed, and a sale closes the position. -/
def closedBesidePending : List BookOperation :=
  [ .addPendingOrder { symbol := "BTC/USDT", direction := .long } 1 "binance",
    .applyFill "BTC/USDT" .buy 1 100 0 .filled,
    .addPendingOrder { symbol := "BTC/USDT", direction := .short } 1 "binance",
    .applyFill "BTC/USDT" .sell 1 100 0 .filled ]

/-- The symbol stays active with neither a position nor a pending order. -/
theorem not_orderly_closedBesidePending : ¬ (run step {} closedBesidePending).Orderly := by
  intro h
  have hactive : "BTC/USDT" ∈ (run step {} closedBesidePending).activeSymbols := by decide +kernel
  have hflat : (run step {} closedBesidePending).position? "BTC/USDT" = none := by decide +kernel
  have hfree : (run step {} closedBesidePending).pendingOrders.find? "BTC/USDT" = none := by
    decide +kernel
  have hheld := (h.engaged "BTC/USDT").mp hactive
  rw [hflat, hfree] at hheld
  simp at hheld

end PositionManager

end TradingSim.Bot
