import TradingSim.Bot.EngagedSymbols

/-!
# Ghost positions

A position that the exchange does not list in three broadcasts in a row is dropped as a ghost. The count
of misses belongs to the symbol and not to the position: a position that closes leaves its misses to the
next one of its symbol, which is then dropped too early. The symbol of a dropped position is released even
while an order for it is pending.
-/

namespace TradingSim.Bot

open Foundations
open Exchange (Side OrderStatus)

namespace PositionManager

variable {m : PositionManager} {symbol : String}

/-- The operation puts a position of a symbol on the book that has none. -/
def Opens (m : PositionManager) : BookOperation → String → Prop
  | .applyFill s _ filledQty price _ status, symbol =>
    symbol = s ∧ status = .filled ∧ 0 < filledQty ∧ 0 < price ∧ m.position? s = none ∧
      (m.pendingOrders.find? s).isSome
  | .syncPosition _ report, symbol =>
    symbol = report.symbol ∧ 0 < report.quantity ∧ report.symbol ≠ "" ∧
      m.position? report.symbol = none ∧ m.pendingOrders.find? report.symbol = none
  | _, _ => False

instance (m : PositionManager) (op : BookOperation) (symbol : String) : Decidable (m.Opens op symbol) := by
  cases op <;> unfold Opens <;> infer_instance

/-- No position is opened with misses that were counted before, and no reconciliation drops a position
beside a pending order. -/
def Unhaunted (m : PositionManager) (op : BookOperation) : Prop :=
  (∀ symbol, m.Opens op symbol → m.misses symbol = 0) ∧
    ∀ exchangeSymbols exchange, op = .reconcilePositions exchangeSymbols exchange → m.Unburdened op

/-! ### Operations other than a reconciliation -/

theorem misses_step (op : BookOperation)
    (hop : ∀ exchangeSymbols exchange, op ≠ .reconcilePositions exchangeSymbols exchange)
    (symbol : String) : (m.step op).misses symbol = m.misses symbol := by
  cases op with
  | addPendingOrder signal quantity exchange =>
    simp only [step, addPendingOrder]
    split <;> rfl
  | cancelPending s => rfl
  | clearPendingOrders => rfl
  | applyFill s side filledQty price fee status =>
    obtain ⟨-, hafter⟩ | ⟨-, hafter | hafter⟩ := m.applyFill_cases s side filledQty price fee status
    · rw [step, hafter, misses_applyExecution]
    · rw [step, hafter]
    · rw [step, hafter]
      rfl
  | syncPosition exchange report =>
    simp only [step, syncPosition]
    split
    · rfl
    · split
      · rfl
      · split <;> rfl
  | reconcilePositions exchangeSymbols exchange => exact absurd rfl (hop exchangeSymbols exchange)
  | closePosition s exitPrice =>
    simp only [step, closePosition]
    split <;> rfl

theorem position?_applyExecution_eq_none (hnone : m.position? symbol = none) (s : String) (side : Side)
    (filledQty price fee : ℚ) (hfree : s = symbol → m.pendingOrders.find? s = none) :
    (m.applyExecution s side filledQty price fee).2.position? symbol = none := by
  have hof := positionsOf_eq_nil hnone
  rw [position?_eq, List.head?_eq_none_iff]
  by_cases heq : s = symbol
  · exact positionsOf_applyExecution_eq_nil hof (heq ▸ hfree heq) s side filledQty price fee
  · exact (m.positionsOf_applyExecution_of_ne heq side filledQty price fee).trans hof

theorem position?_syncPosition_eq_none (hnone : m.position? symbol = none) (exchange : String)
    (report : PositionReport) (hopens : ¬ m.Opens (.syncPosition exchange report) symbol) :
    (m.syncPosition exchange report).position? symbol = none := by
  by_cases heq : report.symbol = symbol
  · subst heq
    unfold syncPosition
    split
    · exact hnone
    · rename_i hvalid
      rw [not_or, not_le] at hvalid
      rw [hnone]
      dsimp only
      split
      · exact hnone
      · rename_i hfree
        exact absurd ⟨rfl, hvalid.1, hvalid.2, hnone, by simpa using hfree⟩ hopens
  · have hspares := m.spares_syncPosition exchange heq
    rw [position?_eq, List.head?_eq_none_iff]
    exact hspares.positions.trans (positionsOf_eq_nil hnone)

theorem position?_step_of_not_opens (h : m.Single) (op : BookOperation)
    (hnone : m.position? symbol = none) (hopens : ¬ m.Opens op symbol) :
    (m.step op).position? symbol = none := by
  have hsame {m' : PositionManager} (hpositions : m'.positions = m.positions) :
      m'.position? symbol = none := by
    rw [position?, hpositions]
    exact hnone
  cases op with
  | addPendingOrder signal quantity exchange =>
    simp only [step, addPendingOrder]
    split
    · exact hsame rfl
    · exact hnone
  | cancelPending s => exact hsame rfl
  | clearPendingOrders => exact hsame rfl
  | applyFill s side filledQty price fee status =>
    obtain ⟨⟨hstatus, hfilled, hprice⟩, hafter⟩ | ⟨-, hafter | hafter⟩ :=
      m.applyFill_cases s side filledQty price fee status
    · rw [step, hafter]
      refine position?_applyExecution_eq_none hnone s side filledQty price fee fun heq => ?_
      subst heq
      by_contra hpending
      exact hopens ⟨rfl, hstatus, hfilled, hprice, hnone, Option.isSome_iff_ne_none.mpr hpending⟩
    · rw [step, hafter]
      exact hnone
    · rw [step, hafter]
      exact hsame rfl
  | syncPosition exchange report => exact position?_syncPosition_eq_none hnone exchange report hopens
  | reconcilePositions exchangeSymbols exchange =>
    have hdrops : ¬ m.Drops (.reconcilePositions exchangeSymbols exchange) symbol := by
      rintro ⟨pos, hpos, -⟩
      rw [hnone] at hpos
      cases hpos
    exact ((reconcilePositions_at h exchangeSymbols exchange symbol).2 hdrops).1.trans hnone
  | closePosition s exitPrice =>
    simp only [step, closePosition]
    cases hpos : m.position? s with
    | none => exact hnone
    | some pos =>
      rw [position?_remove h rfl]
      split
      · rfl
      · exact hnone

/-! ### Reconciliations -/

theorem misses_reconcilePositions_le (h : m.Single) {pos : Position}
    (hpos : m.position? pos.symbol = some pos) (exchangeSymbols : List String) (exchange : String) :
    (m.reconcilePositions exchangeSymbols exchange).2.misses pos.symbol ≤
      if pos.symbol ∈ exchangeSymbols then 0
      else if pos.exchange = exchange then m.misses pos.symbol + 1 else m.misses pos.symbol := by
  obtain ⟨front, back, hsplit, hfront, hback⟩ := h.split hpos
  unfold reconcilePositions
  rw [hsplit, List.foldl_append, List.foldl_cons]
  have hbefore := spares_reconcile exchangeSymbols exchange front hfront
    ([], { m with positions := [], syncMisses := m.syncMisses.eraseAll exchangeSymbols })
  generalize front.foldl (reconcileOne exchangeSymbols exchange) _ = acc at hbefore ⊢
  have hafter := spares_reconcile exchangeSymbols exchange back hback
    (reconcileOne exchangeSymbols exchange acc pos)
  rw [hafter.misses]
  have hacc : acc.2.misses pos.symbol =
      if pos.symbol ∈ exchangeSymbols then 0 else m.misses pos.symbol := by
    rw [hbefore.misses]
    split
    · rename_i hlisted
      rw [misses, Dict.find?_eraseAll_of_mem _ hlisted]
      rfl
    · rename_i hunlisted
      rw [misses, Dict.find?_eraseAll_of_not_mem _ hunlisted]
      rfl
  simp only [reconcileOne]
  by_cases hlisted : pos.symbol ∈ exchangeSymbols
  · rw [if_pos hlisted] at hacc ⊢
    rw [if_pos (Or.inr hlisted)]
    exact hacc.le
  · rw [if_neg hlisted] at hacc ⊢
    by_cases hown : pos.exchange = exchange
    · rw [if_neg (by simp [hown, hlisted]), if_pos hown]
      split_ifs
      · rw [misses, Dict.find?_insert_self, ← hacc]
        exact le_rfl
      · rw [misses, Dict.find?_erase_self]
        exact Nat.zero_le _
    · rw [if_pos (Or.inl hown), if_neg hown]
      exact hacc.le

end PositionManager

/-- A book, and for each symbol in how many reconciliations for its exchange in a row its present position
was missing. -/
structure Watched where
  book : PositionManager := {}
  absences : String → ℕ := fun _ => 0

namespace Watched

open PositionManager (single_step misses_step position?_step_of_not_opens symbol_of_position?
  reconcilePositions_at misses_reconcilePositions_le)

/-- The absences of the position of a symbol after an operation that it survives. -/
def absencesAfter (w : Watched) (op : BookOperation) (symbol : String) : ℕ :=
  match op, w.book.position? symbol with
  | _, none => 0
  | .reconcilePositions exchangeSymbols exchange, some pos =>
    if pos.exchange = exchange then
      if symbol ∈ exchangeSymbols then 0 else w.absences symbol + 1
    else w.absences symbol
  | _, some _ => w.absences symbol

/-- One operation: a position that is opened has not been missing. -/
def step (w : Watched) (op : BookOperation) : Watched where
  book := w.book.step op
  absences symbol :=
    if ((w.book.step op).position? symbol).isSome then w.absencesAfter op symbol else 0

/-- A reconciliation removes a position only if the position itself is missing for the third time in a
row, and leaves its symbol engaged if an order for it is pending. -/
def RemovesGhosts (w : Watched) (op : BookOperation) : Prop :=
  ∀ exchangeSymbols exchange, op = .reconcilePositions exchangeSymbols exchange →
    ∀ symbol, (w.book.position? symbol).isSome → ((w.step op).book.position? symbol) = none →
      3 ≤ w.absencesAfter op symbol ∧
        ((w.book.pendingOrders.find? symbol).isSome → symbol ∈ (w.step op).book.activeSymbols)

/-- The book never counts more misses than its positions have. -/
structure Counted (w : Watched) : Prop where
  single : w.book.Single
  misses : ∀ symbol, (w.book.position? symbol).isSome → w.book.misses symbol ≤ w.absences symbol

variable {w : Watched} {op : BookOperation} {symbol : String}

theorem absencesAfter_of_ne (hheld : (w.book.position? symbol).isSome)
    (hop : ∀ exchangeSymbols exchange, op ≠ .reconcilePositions exchangeSymbols exchange) :
    w.absencesAfter op symbol = w.absences symbol := by
  obtain ⟨pos, hpos⟩ := Option.isSome_iff_exists.mp hheld
  unfold absencesAfter
  rw [hpos]
  cases op with
  | reconcilePositions exchangeSymbols exchange => exact absurd rfl (hop exchangeSymbols exchange)
  | _ => rfl

theorem absencesAfter_reconcilePositions {pos : Position} (hpos : w.book.position? pos.symbol = some pos)
    (exchangeSymbols : List String) (exchange : String) :
    w.absencesAfter (.reconcilePositions exchangeSymbols exchange) pos.symbol =
      if pos.exchange = exchange then if pos.symbol ∈ exchangeSymbols then 0 else w.absences pos.symbol + 1
      else w.absences pos.symbol := by
  unfold absencesAfter
  rw [hpos]

/-- Where no position inherits misses, the misses of a position are its own. -/
theorem Counted.step (h : w.Counted) (hop : w.book.Unhaunted op) : (w.step op).Counted := by
  refine ⟨single_step h.single op, fun symbol hheld => ?_⟩
  have habsences : (w.step op).absences symbol = w.absencesAfter op symbol := if_pos hheld
  rw [habsences]
  cases hpos : w.book.position? symbol with
  | none =>
    have hopens : w.book.Opens op symbol := by
      by_contra hopens
      have hnone := position?_step_of_not_opens h.single op hpos hopens
      rw [show (w.step op).book.position? symbol = none from hnone] at hheld
      cases hheld
    have hop' : ∀ exchangeSymbols exchange, op ≠ .reconcilePositions exchangeSymbols exchange := by
      rintro exchangeSymbols exchange rfl
      exact hopens
    have hmisses : (w.step op).book.misses symbol = w.book.misses symbol := misses_step op hop' symbol
    rw [hmisses, hop.1 symbol hopens]
    exact Nat.zero_le _
  | some pos =>
    have hown := symbol_of_position? hpos
    subst hown
    have hmisses := h.misses pos.symbol (by rw [hpos]; rfl)
    by_cases hop' : ∀ exchangeSymbols exchange, op ≠ .reconcilePositions exchangeSymbols exchange
    · rw [absencesAfter_of_ne (by rw [hpos]; rfl) hop']
      exact (misses_step op hop' pos.symbol).trans_le hmisses
    · push Not at hop'
      obtain ⟨exchangeSymbols, exchange, rfl⟩ := hop'
      have hle : (w.step (.reconcilePositions exchangeSymbols exchange)).book.misses pos.symbol ≤ _ :=
        misses_reconcilePositions_le h.single hpos exchangeSymbols exchange
      rw [absencesAfter_reconcilePositions hpos]
      refine hle.trans ?_
      split_ifs <;> omega

theorem Counted.removesGhosts (h : w.Counted) (hop : w.book.Unhaunted op) : w.RemovesGhosts op := by
  rintro exchangeSymbols exchange rfl symbol hheld hgone
  have hat := reconcilePositions_at h.single exchangeSymbols exchange symbol
  have hdrops : w.book.Drops (.reconcilePositions exchangeSymbols exchange) symbol := by
    by_contra hdrops
    have hkept := (hat.2 hdrops).1.symm.trans hgone
    rw [hkept] at hheld
    cases hheld
  have hfree := hop.2 exchangeSymbols exchange rfl symbol hdrops
  refine ⟨?_, fun hpending => by rw [hfree] at hpending; cases hpending⟩
  obtain ⟨pos, hpos, hexchange, hunlisted, hlimit⟩ := hdrops
  have hown := symbol_of_position? hpos
  subst hown
  have hmisses := h.misses pos.symbol hheld
  rw [absencesAfter_reconcilePositions hpos, if_pos hexchange, if_neg hunlisted]
  exact hlimit.trans (Nat.succ_le_succ hmisses)

theorem counted_init : Counted {} where
  single _ := Nat.zero_le 1
  misses _ h := by cases h

/-- **In every run in which no position is opened with misses that were counted before, and none is
dropped beside a pending order, a reconciliation removes a position only if that position was missing in
three reconciliations for its exchange in a row.** -/
theorem removesGhosts_of_unhaunted (operations : List BookOperation)
    (h : Along step (fun w op => w.book.Unhaunted op) {} operations) :
    Along step RemovesGhosts {} operations :=
  along_imp Counted (fun _ _ hw hop => hw.step hop) (fun _ _ hw hop => hw.removesGhosts hop)
    counted_init h

/-- An order for a symbol is filled. -/
def opening (symbol : String) : List BookOperation :=
  [ .addPendingOrder { symbol := symbol, direction := .long } 1 "binance",
    .applyFill symbol .buy 1 100 0 .filled ]

/-- A position that is missing in three reconciliations is removed by the third. -/
theorem removesGhosts_of_unhaunted_thrice :
    let missing : BookOperation := .reconcilePositions [] "binance"
    let w := run step {} (opening "BTC/USDT" ++ [missing, missing])
    (w.book.position? "BTC/USDT").isSome ∧ (w.step missing).book.position? "BTC/USDT" = none ∧
      3 ≤ w.absencesAfter missing "BTC/USDT" := by
  intro missing w
  have hheld : (w.book.position? "BTC/USDT").isSome := by decide +kernel
  have hgone : (w.step missing).book.position? "BTC/USDT" = none := by decide +kernel
  have hfill : ∀ symbol, (run step {} (opening "BTC/USDT").dropLast).book.Opens
      (.applyFill "BTC/USDT" .buy 1 100 0 .filled) symbol →
        (run step {} (opening "BTC/USDT").dropLast).book.misses symbol = 0 := by
    rintro symbol ⟨rfl, -⟩
    decide +kernel
  have hfree (w : Watched) (h : w.book.pendingOrders.keys = []) : w.book.Unhaunted missing := by
    refine ⟨fun _ hopens => hopens.elim, fun _ _ _ symbol _ => ?_⟩
    rw [Option.eq_none_iff_forall_not_mem]
    intro order horder
    have hkey := (w.book.pendingOrders.mem_keys_iff symbol).mpr ⟨order, horder⟩
    rw [h] at hkey
    cases hkey
  have hempty : ∀ n < 3, (run step {}
      (opening "BTC/USDT" ++ List.replicate n missing)).book.pendingOrders.keys = [] := by
    decide +kernel
  have hrun : Along step (fun w op => w.book.Unhaunted op) {}
      (opening "BTC/USDT" ++ [missing, missing, missing]) :=
    ⟨⟨fun _ hopens => hopens.elim, fun _ _ hop => nomatch hop⟩,
      ⟨hfill, fun _ _ hop => nomatch hop⟩, hfree _ (hempty 0 (by decide)),
      hfree _ (hempty 1 (by decide)), hfree _ (hempty 2 (by decide)), trivial⟩
  have hghosts := removesGhosts_of_unhaunted _ hrun
  exact ⟨hheld, hgone, (hghosts.2.2.2.2.1 [] "binance" rfl "BTC/USDT" hheld hgone).1⟩

/-- A position that is closed after two misses leaves them to the next one of its symbol, which the first
reconciliation that misses it removes. -/
theorem not_removesGhosts_reopened :
    ¬ ∀ operations : List BookOperation, Along step RemovesGhosts {} operations := by
  intro h
  let missing : BookOperation := .reconcilePositions [] "binance"
  have hlast := h (opening "BTC/USDT" ++ [missing, missing, .applyFill "BTC/USDT" .sell 1 100 0 .filled] ++
    opening "BTC/USDT" ++ [missing])
  have hthird := (hlast.2.2.2.2.2.2.2.1 [] "binance" rfl "BTC/USDT" (by decide +kernel)
    (by decide +kernel)).1
  exact absurd hthird (by decide +kernel)

end Watched

end TradingSim.Bot
