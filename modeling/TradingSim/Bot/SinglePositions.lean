import TradingSim.Bot.ForeignOrders

/-!
# One position a symbol

The local book appends a position only for a symbol that has none, so every symbol has at most one.
A reconciliation keeps it, or counts a miss of it, or drops it at the limit of misses.
-/

namespace TradingSim.Bot

open Foundations
open Exchange (Side)

namespace PositionManager

def positionsOf (m : PositionManager) (symbol : String) : List Position :=
  KeyedList.under Position.symbol symbol m.positions

/-- The book has at most one position for each symbol. -/
def Single (m : PositionManager) : Prop := ∀ symbol, (m.positionsOf symbol).length ≤ 1

variable {m : PositionManager} {exchange symbol : String}

theorem positionsOf_eq_nil (h : m.position? symbol = none) : m.positionsOf symbol = [] := by
  rw [position?_eq, List.head?_eq_none_iff] at h
  exact h

theorem positionsOf_setPosition (m : PositionManager) (pos : Position) (symbol : String) :
    (m.setPosition pos).positionsOf symbol =
      if pos.symbol = symbol then pos :: (m.positionsOf symbol).tail else m.positionsOf symbol := by
  rw [positionsOf, setPosition, KeyedList.under_put KeyedList.joins_push]
  rfl

theorem positionsOf_push (m : PositionManager) (pos : Position) (symbol : String) :
    KeyedList.under Position.symbol symbol (m.positions ++ [pos]) =
      if pos.symbol = symbol then m.positionsOf symbol ++ [pos] else m.positionsOf symbol :=
  KeyedList.joins_push m.positions pos symbol

theorem Single.setPosition (h : m.Single) (pos : Position) : (m.setPosition pos).Single := by
  intro symbol
  have hbefore := h symbol
  rw [positionsOf_setPosition]
  split
  · rw [List.length_cons, List.length_tail]
    omega
  · exact hbefore

theorem Single.remove (h : m.Single) {m' : PositionManager}
    (hpositions : m'.positions = KeyedList.remove Position.symbol m.positions symbol) : m'.Single := by
  intro symbol'
  have hbefore := h symbol'
  rw [positionsOf, hpositions, KeyedList.under_remove]
  split
  · rw [List.length_tail]
    exact (Nat.sub_le _ _).trans hbefore
  · exact hbefore

theorem Single.append (h : m.Single) {m' : PositionManager} {pos : Position}
    (hpositions : m'.positions = m.positions ++ [pos]) (hnone : m.position? pos.symbol = none) :
    m'.Single := by
  intro symbol'
  rw [positionsOf, hpositions, positionsOf_push]
  split
  · rename_i hsame
    rw [← hsame, positionsOf_eq_nil hnone]
    exact le_rfl
  · exact h symbol'

/-- Books with the same positions. -/
theorem Single.congr (h : m.Single) {m' : PositionManager} (hpositions : m'.positions = m.positions) :
    m'.Single := by
  intro symbol'
  rw [positionsOf, hpositions]
  exact h symbol'

theorem Single.applyExecution (h : m.Single) (symbol : String) (side : Side)
    (filledQty price fee : ℚ) : (m.applyExecution symbol side filledQty price fee).2.Single := by
  unfold PositionManager.applyExecution
  cases hpos : m.position? symbol with
  | some pos =>
    obtain ⟨-, -, pos', hpositions, -⟩ | ⟨-, -, -, -, pos', hpositions, -⟩ |
      ⟨-, -, -, -, hpositions⟩ := m.fillPosition_cases pos side filledQty price fee
    · exact (h.setPosition pos').congr hpositions
    · exact (h.setPosition pos').congr hpositions
    · exact h.remove hpositions
  | none =>
    cases hpending : m.pendingOrders.find? symbol with
    | none => exact h
    | some order => exact h.append rfl hpos

theorem Single.syncPosition (h : m.Single) (report : PositionReport) :
    (m.syncPosition exchange report).Single := by
  unfold PositionManager.syncPosition
  split
  · exact h
  · split
    · exact h.setPosition _
    · rename_i hnone
      split
      · exact h
      · exact h.append rfl hnone

theorem Single.reconcilePositions (h : m.Single) (exchangeSymbols : List String) :
    (m.reconcilePositions exchangeSymbols exchange).2.Single := by
  intro symbol'
  have hsublist := m.reconcilePositions_sublist exchangeSymbols exchange
  exact ((hsublist.filter _).length_le).trans (h symbol')

theorem positionsOf_updateAllPnl (m : PositionManager) (prices : Dict String ℚ) (symbol : String) :
    (m.updateAllPnl prices).positionsOf symbol = (m.positionsOf symbol).map fun pos =>
      match prices.find? pos.symbol with
      | some price => pos.updatePnl price
      | none => pos := by
  apply KeyedList.under_map
  intro pos
  split
  · rfl
  · rfl

theorem Single.updateAllPnl (h : m.Single) (prices : Dict String ℚ) : (m.updateAllPnl prices).Single := by
  intro symbol'
  rw [positionsOf_updateAllPnl, List.length_map]
  exact h symbol'

/-! ### Missing a symbol -/

/-- How many broadcasts in a row have not listed a symbol. -/
def misses (m : PositionManager) (symbol : String) : ℕ := (m.syncMisses.find? symbol).getD 0

/-- A symbol has the same positions and misses in two books. -/
structure Spares (symbol : String) (m m' : PositionManager) : Prop where
  positions : m'.positionsOf symbol = m.positionsOf symbol
  misses : m'.misses symbol = m.misses symbol

theorem Spares.refl (symbol : String) (m : PositionManager) : Spares symbol m m := ⟨rfl, rfl⟩

theorem Spares.trans {m' m'' : PositionManager} (h : Spares symbol m m') (h' : Spares symbol m' m'') :
    Spares symbol m m'' :=
  ⟨h'.positions.trans h.positions, h'.misses.trans h.misses⟩

/-- A report of another symbol. -/
theorem spares_syncPosition (m : PositionManager) (exchange : String) {report : PositionReport}
    (hne : report.symbol ≠ symbol) : Spares symbol m (m.syncPosition exchange report) := by
  unfold PositionManager.syncPosition
  split
  · exact .refl symbol m
  · split
    · rename_i pos hpos
      have hsymbol := symbol_of_position? hpos
      refine ⟨?_, rfl⟩
      rw [positionsOf_setPosition, if_neg]
      rwa [hsymbol]
    · split
      · exact .refl symbol m
      · exact ⟨(m.positionsOf_push _ symbol).trans (if_neg hne), rfl⟩

/-- A report of a symbol without a pending order refreshes its position, or adopts the reported
one. -/
theorem positionsOf_syncPosition (m : PositionManager) (exchange : String) {report : PositionReport}
    (hquantity : 0 < report.quantity) (hsymbol : report.symbol ≠ "")
    (hpending : m.pendingOrders.find? report.symbol = none) :
    (m.syncPosition exchange report).positionsOf report.symbol = match m.positionsOf report.symbol with
      | [] => [{
          symbol := report.symbol
          exchange := exchange
          side := report.side
          quantity := report.quantity
          entryPrice := report.entryPrice
          stopLoss := report.stopLoss
          takeProfit := report.takeProfit }]
      | pos :: rest =>
        { pos with quantity := report.quantity, entryPrice := report.entryPrice } :: rest := by
  have hvalid : ¬ (report.quantity ≤ 0 ∨ report.symbol = "") :=
    not_or.mpr ⟨not_le.mpr hquantity, hsymbol⟩
  have hhead : m.position? report.symbol = (m.positionsOf report.symbol).head? :=
    m.position?_eq report.symbol
  unfold PositionManager.syncPosition
  rw [if_neg hvalid]
  cases hof : m.positionsOf report.symbol with
  | nil =>
    rw [hof, List.head?_nil] at hhead
    simp only [hhead, hpending, Option.isSome_none, Bool.false_eq_true, if_false]
    rw [positionsOf, positionsOf_push, if_pos rfl, hof, List.nil_append]
  | cons pos rest =>
    rw [hof, List.head?_cons] at hhead
    have hown := symbol_of_position? hhead
    simp only [hhead]
    rw [positionsOf_setPosition, if_pos hown, hof, List.tail_cons]

theorem positionsOf_applyExecution_of_ne (m : PositionManager) {s : String} (hne : s ≠ symbol)
    (side : Side) (filledQty price fee : ℚ) :
    (m.applyExecution s side filledQty price fee).2.positionsOf symbol = m.positionsOf symbol := by
  unfold PositionManager.applyExecution
  cases hpos : m.position? s with
  | some pos =>
    have hother : pos.symbol ≠ symbol := (symbol_of_position? hpos).trans_ne hne
    rw [positionsOf]
    obtain ⟨-, -, pos', hpositions, hsymbol', -⟩ | ⟨-, -, -, -, pos', hpositions, hsymbol', -⟩ |
      ⟨-, -, -, -, hpositions⟩ := m.fillPosition_cases pos side filledQty price fee
    · rw [hpositions]
      exact (m.positionsOf_setPosition pos' symbol).trans (if_neg (hsymbol'.trans_ne hother))
    · rw [hpositions]
      exact (m.positionsOf_setPosition pos' symbol).trans (if_neg (hsymbol'.trans_ne hother))
    · rw [hpositions, KeyedList.under_remove, if_neg hother]
      rfl
  | none =>
    cases m.pendingOrders.find? s with
    | some order => exact (m.positionsOf_push _ symbol).trans (if_neg hne)
    | none => rfl

theorem positionsOf_applyExecution_eq_nil (hnone : m.positionsOf symbol = [])
    (hpending : m.pendingOrders.find? symbol = none) (s : String) (side : Side) (filledQty price fee : ℚ) :
    (m.applyExecution s side filledQty price fee).2.positionsOf symbol = [] := by
  by_cases hsame : s = symbol
  · subst hsame
    have hposition : m.position? s = none := by
      rw [position?_eq, List.head?_eq_none_iff]
      exact hnone
    unfold PositionManager.applyExecution
    simp only [hposition, hpending]
    exact hnone
  · rw [m.positionsOf_applyExecution_of_ne hsame]
    exact hnone

theorem misses_applyExecution (m : PositionManager) (s : String) (side : Side)
    (filledQty price fee : ℚ) (symbol : String) :
    (m.applyExecution s side filledQty price fee).2.misses symbol = m.misses symbol := by
  unfold PositionManager.applyExecution
  split
  · unfold PositionManager.fillPosition
    split_ifs
    · rfl
    · rfl
    · rfl
  · split
    · rfl
    · rfl

/-- Keeping or dropping a position of another symbol. -/
theorem spares_reconcileOne (exchangeSymbols : List String) (exchange : String)
    (acc : List String × PositionManager) {pos : Position} (hne : pos.symbol ≠ symbol) :
    Spares symbol acc.2 (reconcileOne exchangeSymbols exchange acc pos).2 := by
  obtain ⟨removed, m⟩ := acc
  have hpush := m.positionsOf_push pos symbol
  rw [if_neg hne] at hpush
  simp only [reconcileOne]
  split_ifs
  · exact ⟨hpush, rfl⟩
  · exact ⟨hpush, by rw [misses, Dict.find?_insert_of_ne _ hne.symm]; rfl⟩
  · exact ⟨rfl, by rw [misses, Dict.find?_erase_of_ne _ hne.symm]; rfl⟩

/-- Keeping or dropping positions of other symbols. -/
theorem spares_reconcile (exchangeSymbols : List String) (exchange : String)
    (positions : List Position) (hother : ∀ pos ∈ positions, pos.symbol ≠ symbol)
    (acc : List String × PositionManager) :
    Spares symbol acc.2 (positions.foldl (reconcileOne exchangeSymbols exchange) acc).2 := by
  induction positions generalizing acc with
  | nil => exact .refl symbol acc.2
  | cons pos rest ih =>
    have hhead : Spares symbol acc.2 (reconcileOne exchangeSymbols exchange acc pos).2 :=
      spares_reconcileOne exchangeSymbols exchange acc (hother pos List.mem_cons_self)
    exact hhead.trans (ih (fun b hb => hother b (List.mem_cons_of_mem pos hb)) _)

/-- The position of a symbol that is not listed is kept with one more miss, or dropped at the
limit of misses. -/
theorem reconcileOne_of_unlisted {exchangeSymbols : List String} {pos : Position}
    (hunlisted : pos.symbol ∉ exchangeSymbols) (hexchange : pos.exchange = exchange)
    (acc : List String × PositionManager) (hnone : acc.2.positionsOf pos.symbol = []) :
    (reconcileOne exchangeSymbols exchange acc pos).2.positionsOf pos.symbol = [] ∨
      ((reconcileOne exchangeSymbols exchange acc pos).2.misses pos.symbol = acc.2.misses pos.symbol + 1 ∧
        acc.2.misses pos.symbol + 1 < syncMissLimit) := by
  have hkept : ¬ (pos.exchange ≠ exchange ∨ pos.symbol ∈ exchangeSymbols) := by
    simp [hexchange, hunlisted]
  simp only [reconcileOne, hkept, if_false]
  split_ifs with hfew
  · right
    refine ⟨?_, hfew⟩
    rw [misses, Dict.find?_insert_self]
    rfl
  · left
    exact hnone

theorem reconcilePositions_of_unlisted (h : m.Single) (hon : m.OnlyOn exchange)
    {exchangeSymbols : List String} (hunlisted : symbol ∉ exchangeSymbols) :
    (m.reconcilePositions exchangeSymbols exchange).2.positionsOf symbol = [] ∨
      ((m.reconcilePositions exchangeSymbols exchange).2.misses symbol = m.misses symbol + 1 ∧
        m.misses symbol + 1 < syncMissLimit) := by
  unfold PositionManager.reconcilePositions
  have hstart : ({ m with
      positions := []
      syncMisses := m.syncMisses.eraseAll exchangeSymbols } : PositionManager).misses symbol =
        m.misses symbol := by
    rw [misses, Dict.find?_eraseAll_of_not_mem _ hunlisted]
    rfl
  by_cases hmem : ∃ pos ∈ m.positions, pos.symbol = symbol
  · obtain ⟨pos, hpos, rfl⟩ := hmem
    obtain ⟨front, back, hsplit⟩ := List.append_of_mem hpos
    have hone := h pos.symbol
    rw [positionsOf, hsplit, KeyedList.under_append, KeyedList.under_cons_self, List.length_append,
      List.length_cons] at hone
    have hfront : KeyedList.under Position.symbol pos.symbol front = [] :=
      List.eq_nil_of_length_eq_zero (by omega)
    have hback : KeyedList.under Position.symbol pos.symbol back = [] :=
      List.eq_nil_of_length_eq_zero (by omega)
    rw [hsplit, List.foldl_append, List.foldl_cons]
    have hbefore := spares_reconcile exchangeSymbols exchange front
      (KeyedList.under_eq_nil_iff.mp hfront)
      ([], { m with positions := [], syncMisses := m.syncMisses.eraseAll exchangeSymbols })
    generalize front.foldl (reconcileOne exchangeSymbols exchange) _ = acc at hbefore ⊢
    have hafter := spares_reconcile exchangeSymbols exchange back
      (KeyedList.under_eq_nil_iff.mp hback) (reconcileOne exchangeSymbols exchange acc pos)
    have hmisses := hbefore.misses.trans hstart
    rw [hafter.positions, hafter.misses, ← hmisses]
    exact reconcileOne_of_unlisted hunlisted (hon.positions pos hpos) acc hbefore.positions
  · have hother : ∀ pos ∈ m.positions, pos.symbol ≠ symbol :=
      fun pos hpos hsymbol => hmem ⟨pos, hpos, hsymbol⟩
    exact Or.inl (spares_reconcile exchangeSymbols exchange m.positions hother _).positions

end PositionManager

namespace BotContext

variable {defaultExchange : String}

/-- Whatever happens, a symbol keeps one position at most. -/
theorem single_step {x : BotContext} (h : x.posMgr.Single) (e : BotEvent) :
    (x.step defaultExchange e).posMgr.Single := by
  cases e with
  | submitOrder signal quantity =>
    simp only [step]
    split
    · exact h
    · exact h
  | addPendingOrder signal quantity =>
    apply h.congr
    simp only [step, PositionManager.addPendingOrder]
    split
    · rfl
    · rfl
  | markClosing symbol now => exact h.congr rfl
  | updateAllPnl prices => exact h.updateAllPnl prices
  | fill o =>
    change (x.onFill o).posMgr.Single
    obtain hkept | ⟨-, hexecuted⟩ | hreleased := x.posMgr_onFill_cases o
    · rw [hkept]
      exact h
    · rw [hexecuted]
      exact h.applyExecution _ _ _ _ _
    · rw [hreleased]
      exact h.congr rfl
  | storeBalance balance => exact h
  | syncPosition report => exact h.syncPosition report
  | reconcilePositions exchangeSymbols => exact h.reconcilePositions exchangeSymbols
  | orderCancelled o =>
    apply h.congr
    simp only [step, onOrderCancelled]
    split
    · rfl
    · rfl
  | ordersCancelled orders => exact h.congr rfl

/-- A book in good order: one position a symbol, all of them on the default exchange. -/
structure Tidy (defaultExchange : String) (x : BotContext) : Prop where
  single : x.posMgr.Single
  onlyOn : x.posMgr.OnlyOn defaultExchange

theorem Tidy.step {x : BotContext} (h : x.Tidy defaultExchange) (e : BotEvent) :
    (x.step defaultExchange e).Tidy defaultExchange where
  single := single_step h.single e
  onlyOn := OrderBookkeeping.onlyOn_step (x := ⟨x, Dict.empty⟩) h.onlyOn e

theorem Tidy.run {x : BotContext} (h : x.Tidy defaultExchange) (events : List BotEvent) :
    (Foundations.run (BotContext.step defaultExchange) x events).Tidy defaultExchange := by
  have hstep : ∀ (x : BotContext) (e : BotEvent), x.Tidy defaultExchange →
      (x.step defaultExchange e).Tidy defaultExchange := fun _ e h => h.step e
  exact run_invariant hstep events h

/-- Every book that a bot can reach is in good order. -/
theorem tidy_run (defaultExchange : String) (events : List BotEvent) :
    (Foundations.run (step defaultExchange) {} events).Tidy defaultExchange := by
  have hempty : ({} : BotContext).Tidy defaultExchange :=
    ⟨fun _ => Nat.zero_le 1, PositionManager.onlyOn_empty defaultExchange⟩
  exact hempty.run events

end BotContext

end TradingSim.Bot
