import TradingSim.Exchange.Liquidation
import Mathlib.Tactic.Ring
import Mathlib.Tactic.Linarith

/-!
# The books balance

`Ledger.Valid` says that the account's list and the index by symbol hold the same positions, one for
each symbol, all of positive quantity. Two quantities summarise a ledger: what it holds and has
booked of money, which no movement changes, and for each symbol what it holds and has left unbooked,
which only an execution changes.
-/

namespace TradingSim.Exchange

open Foundations

/-- The executed quantity of a filled order, negative for a sale. -/
def Order.signedFilled (order : Order) : ℚ := order.side.signed order.filledQuantity

namespace Ledger

/-- The margin of the open positions. -/
def lockedMargin (l : Ledger) : ℚ := l.objects.total (·.margin) l.account.positions

/-- The margin of the residuals that were left unbooked. -/
def lostMargin (l : Ledger) : ℚ := (l.dropped.map (·.margin)).sum

/-- What the ledger holds of money, less what it has booked as income. -/
def unexplained (l : Ledger) : ℚ :=
  l.account.balance + l.insuranceFund + l.lockedMargin + l.lostMargin -
    (l.account.totalPnl - l.account.totalFees + l.funding.sum)

/-- The open position of a symbol, negative for a short one and zero if there is none. -/
def signedPosition (l : Ledger) (symbol : String) : ℚ :=
  ((l.positionsBySymbol.find? symbol).map fun r => (l.objects.get r).signedQuantity).getD 0

/-- The executed quantity of a symbol so far. -/
def executed (l : Ledger) (symbol : String) : ℚ :=
  ((l.fills.filter (·.symbol = symbol)).map Fill.signedQuantity).sum

/-- The residual quantity of a symbol that was left unbooked so far. -/
def discarded (l : Ledger) (symbol : String) : ℚ :=
  ((l.dropped.filter (·.symbol = symbol)).map Residual.signedQuantity).sum

/-- The account's list and the index describe the same positions. -/
structure Valid (l : Ledger) : Prop where
  live : ∀ r ∈ l.account.positions, l.objects.Live r
  nodup : l.account.positions.Nodup
  indexed : ∀ symbol r, l.positionsBySymbol.find? symbol = some r ↔
    r ∈ l.account.positions ∧ (l.objects.get r).symbol = symbol
  positive : ∀ r ∈ l.account.positions, 0 < (l.objects.get r).quantity
  small : ∀ residual ∈ l.dropped, 0 < residual.quantity ∧ residual.quantity ≤ residualTolerance

/-- An operation has moved some margin and some quantity of a symbol into the ledger. -/
structure Moves (l l' : Ledger) (margin : ℚ) (symbol : String) (quantity : ℚ) : Prop where
  valid : l'.Valid
  money : l'.unexplained = l.unexplained + margin
  position : ∀ s, l'.signedPosition s + l'.discarded s =
    l.signedPosition s + l.discarded s + if s = symbol then quantity else 0
  fills : l'.fills = l.fills

theorem Moves.trans {a b c : Ledger} {margin margin' quantity quantity' : ℚ} {symbol : String}
    (hab : a.Moves b margin symbol quantity) (hbc : b.Moves c margin' symbol quantity') :
    a.Moves c (margin + margin') symbol (quantity + quantity') where
  valid := hbc.valid
  money := by rw [hbc.money, hab.money, add_assoc]
  position := by
    intro s
    rw [hbc.position, hab.position]
    by_cases heq : s = symbol
    · simp only [if_pos heq]
      ring
    · simp only [if_neg heq]
      ring
  fills := hbc.fills.trans hab.fills

/-- A symbol has one position. -/
theorem Valid.unique {l : Ledger} (h : l.Valid) {r r' : Ref} (hr : r ∈ l.account.positions)
    (hr' : r' ∈ l.account.positions) (hsymbol : (l.objects.get r).symbol = (l.objects.get r').symbol) :
    r = r' := by
  have hfind := (h.indexed _ r).mpr ⟨hr, rfl⟩
  rw [hsymbol, (h.indexed _ r').mpr ⟨hr', rfl⟩] at hfind
  exact (Option.some.inj hfind).symm

theorem Valid.addPosition {l : Ledger} (h : l.Valid) {p : Position}
    (hnone : l.positionsBySymbol.find? p.symbol = none) (hquantity : 0 < p.quantity) :
    l.Moves (l.addPosition p) p.margin p.symbol p.signedQuantity := by
  have hget : ∀ r ∈ l.account.positions, (l.objects.alloc p).get r = l.objects.get r :=
    fun r hr => Heap.get_alloc_of_live _ _ (h.live r hr)
  have hnext : (l.objects.alloc p).get l.objects.next = p := Heap.get_alloc_next _ _
  have hne : ∀ r ∈ l.account.positions, r ≠ l.objects.next := fun r hr => (h.live r hr).ne_next
  refine ⟨⟨?_, ?_, ?_, ?_, h.small⟩, ?_, ?_, rfl⟩
  · intro r hr
    rcases List.mem_append.mp hr with hold | hnew
    · exact (Heap.live_alloc _ _ _).mpr (Or.inl (h.live r hold))
    · exact (Heap.live_alloc _ _ _).mpr (Or.inr (List.mem_singleton.mp hnew))
  · refine List.nodup_append.mpr ⟨h.nodup, List.nodup_singleton _, ?_⟩
    intro a ha b hb
    rw [List.mem_singleton.mp hb]
    exact hne a ha
  · intro symbol r
    change (l.positionsBySymbol.insert p.symbol l.objects.next).find? symbol = some r ↔
      r ∈ l.account.positions ++ [l.objects.next] ∧ ((l.objects.alloc p).get r).symbol = symbol
    rw [Dict.find?_insert, List.mem_append, List.mem_singleton]
    by_cases hsymbol : symbol = p.symbol
    · subst hsymbol
      rw [if_pos rfl, Option.some.injEq]
      constructor
      · intro heq
        rw [← heq, hnext]
        exact ⟨Or.inr rfl, rfl⟩
      · intro ⟨hmem, hsym⟩
        rcases hmem with hold | hnew
        · rw [hget r hold] at hsym
          have hfind := (h.indexed p.symbol r).mpr ⟨hold, hsym⟩
          rw [hnone] at hfind
          cases hfind
        · exact hnew.symm
    · rw [if_neg hsymbol, h.indexed]
      constructor
      · intro ⟨hmem, hsym⟩
        exact ⟨Or.inl hmem, by rw [hget r hmem]; exact hsym⟩
      · intro ⟨hmem, hsym⟩
        rcases hmem with hold | hnew
        · rw [hget r hold] at hsym
          exact ⟨hold, hsym⟩
        · rw [hnew, hnext] at hsym
          exact absurd hsym.symm hsymbol
  · intro r hr
    change 0 < ((l.objects.alloc p).get r).quantity
    rcases List.mem_append.mp hr with hold | hnew
    · rw [hget r hold]
      exact h.positive r hold
    · rw [List.mem_singleton.mp hnew, hnext]
      exact hquantity
  · have hlocked : (l.addPosition p).lockedMargin = l.lockedMargin + p.margin := by
      change (l.objects.alloc p).total _ (l.account.positions ++ [l.objects.next]) = _
      rw [Heap.total_append_singleton, Heap.total_alloc _ _ _ h.live, hnext]
      rfl
    change l.account.balance + l.insuranceFund + (l.addPosition p).lockedMargin + l.lostMargin -
      (l.account.totalPnl - l.account.totalFees + l.funding.sum) = _
    rw [hlocked, unexplained]
    ring
  · intro s
    change (((l.positionsBySymbol.insert p.symbol l.objects.next).find? s).map
      fun r => ((l.objects.alloc p).get r).signedQuantity).getD 0 + l.discarded s = _
    rw [Dict.find?_insert, signedPosition]
    by_cases heq : s = p.symbol
    · subst heq
      simp only [if_true, hnone, Option.map_some, Option.map_none, Option.getD_some,
        Option.getD_none, hnext]
      ring
    · simp only [if_neg heq, add_zero]
      cases hfind : l.positionsBySymbol.find? s with
      | none => rfl
      | some r =>
        simp only [Option.map_some, Option.getD_some]
        rw [hget r ((h.indexed s r).mp hfind).1]

/-- Changing the quantity and the margin of a position. -/
theorem Valid.modify {l : Ledger} {r : Ref} {f : Position → Position} (h : l.Valid) (l' : Ledger)
    (margin : ℚ) (hr : r ∈ l.account.positions) (hobjects : l'.objects = l.objects.modify r f)
    (hpositions : l'.account.positions = l.account.positions)
    (hindex : l'.positionsBySymbol = l.positionsBySymbol) (hdropped : l'.dropped = l.dropped)
    (hfills : l'.fills = l.fills) (hsymbol : (f (l.objects.get r)).symbol = (l.objects.get r).symbol)
    (hquantity : 0 < (f (l.objects.get r)).quantity) (hmoney : l'.account.balance + l'.insuranceFund -
        (l'.account.totalPnl - l'.account.totalFees + l'.funding.sum) + (f (l.objects.get r)).margin =
      l.account.balance + l.insuranceFund - (l.account.totalPnl - l.account.totalFees + l.funding.sum) +
        (l.objects.get r).margin + margin) : l.Moves l' margin (l.objects.get r).symbol
      ((f (l.objects.get r)).signedQuantity - (l.objects.get r).signedQuantity) := by
  have hlive := h.live r hr
  have hget : ∀ r', l'.objects.get r' =
      if r' = r then f (l.objects.get r') else l.objects.get r' := by
    intro r'
    rw [hobjects, Heap.get_modify _ hlive]
  have hsym : ∀ r', (l'.objects.get r').symbol = (l.objects.get r').symbol := by
    intro r'
    rw [hget]
    by_cases heq : r' = r
    · rw [if_pos heq, heq, hsymbol]
    · rw [if_neg heq]
  refine ⟨⟨?_, ?_, ?_, ?_, ?_⟩, ?_, ?_, hfills⟩
  · intro r' hr'
    rw [hpositions] at hr'
    rw [hobjects]
    exact (Heap.live_modify _ _ _ _).mpr (h.live r' hr')
  · rw [hpositions]
    exact h.nodup
  · intro symbol r'
    rw [hindex, hpositions, hsym]
    exact h.indexed symbol r'
  · intro r' hr'
    rw [hpositions] at hr'
    rw [hget]
    by_cases heq : r' = r
    · rw [if_pos heq, heq]
      exact hquantity
    · rw [if_neg heq]
      exact h.positive r' hr'
  · rw [hdropped]
    exact h.small
  · have hlocked : l'.lockedMargin =
        l.lockedMargin + ((f (l.objects.get r)).margin - (l.objects.get r).margin) := by
      rw [lockedMargin, hobjects, hpositions, Heap.total_modify _ _ _ hlive hr h.nodup]
      rfl
    have hlost : l'.lostMargin = l.lostMargin := by rw [lostMargin, hdropped]; rfl
    rw [unexplained, unexplained, hlocked, hlost]
    linarith
  · intro s
    have hdiscarded : l'.discarded s = l.discarded s := by rw [discarded, hdropped]; rfl
    rw [hdiscarded, signedPosition, signedPosition, hindex]
    cases hfind : l.positionsBySymbol.find? s with
    | none =>
      have hne : s ≠ (l.objects.get r).symbol := by
        rintro rfl
        rw [(h.indexed _ r).mpr ⟨hr, rfl⟩] at hfind
        cases hfind
      simp [hne]
    | some r' =>
      obtain ⟨hmem, hsym'⟩ := (h.indexed s r').mp hfind
      simp only [Option.map_some, Option.getD_some]
      rw [hget]
      by_cases heq : r' = r
      · subst heq
        rw [if_pos rfl, if_pos hsym'.symm]
        ring
      · have hne : s ≠ (l.objects.get r).symbol := fun hs =>
          heq (h.unique hmem hr (hsym'.trans hs))
        rw [if_neg heq, if_neg hne]
        ring

/-- Removing by equality of all fields removes the position itself. -/
theorem Valid.eraseP_eq {l : Ledger} (h : l.Valid) {r : Ref} (hr : r ∈ l.account.positions) :
    (l.account.positions.eraseP fun r' => l.objects.get r' = l.objects.get r) =
      l.account.positions.erase r := by
  have hsame : ∀ r' ∈ l.account.positions, l.objects.get r' = l.objects.get r → r' = r :=
    fun r' hr' heq => h.unique hr' hr (by rw [heq])
  have hgen : ∀ refs : List Ref, (∀ r' ∈ refs, l.objects.get r' = l.objects.get r → r' = r) →
      (refs.eraseP fun r' => l.objects.get r' = l.objects.get r) = refs.erase r := by
    intro refs
    induction refs with
    | nil => exact fun _ => rfl
    | cons a rest ih =>
      intro hrefs
      by_cases heq : a = r
      · rw [heq, List.erase_cons_head, List.eraseP_cons_of_pos (by simp)]
      · have hvalue : l.objects.get a ≠ l.objects.get r :=
          fun hvalue => heq (hrefs a List.mem_cons_self hvalue)
        rw [List.erase_cons_tail (by simpa using heq),
          List.eraseP_cons_of_neg (by simpa using hvalue),
          ih fun r' hr' => hrefs r' (List.mem_cons_of_mem a hr')]
  exact hgen _ hsame

theorem Valid.removePosition {l : Ledger} (h : l.Valid) {r : Ref} (symbol : String)
    (hfind : l.positionsBySymbol.find? symbol = some r) (hmargin : (l.objects.get r).margin = 0) :
    l.Moves (l.removePosition r symbol) 0 symbol (-(l.objects.get r).signedQuantity) ∧
      (l.removePosition r symbol).positionsBySymbol.find? symbol = none := by
  obtain ⟨hr, hsymbol⟩ := (h.indexed symbol r).mp hfind
  have herase : (l.removePosition r symbol).account.positions = l.account.positions.erase r :=
    h.eraseP_eq hr
  have hmem : ∀ r', r' ∈ (l.removePosition r symbol).account.positions ↔
      r' ≠ r ∧ r' ∈ l.account.positions := by
    intro r'
    rw [herase, h.nodup.mem_erase_iff]
  refine ⟨⟨⟨?_, ?_, ?_, ?_, h.small⟩, ?_, ?_, rfl⟩, Dict.find?_erase_self _ _⟩
  · exact fun r' hr' => h.live r' ((hmem r').mp hr').2
  · rw [herase]
    exact h.nodup.erase r
  · intro s r'
    rw [hmem]
    change (l.positionsBySymbol.erase symbol).find? s = some r' ↔ _ ∧ (l.objects.get r').symbol = s
    rw [Dict.find?_erase]
    by_cases heq : s = symbol
    · subst heq
      rw [if_pos rfl]
      constructor
      · intro hnone
        cases hnone
      · intro ⟨⟨hne, hmem'⟩, hsym⟩
        exact absurd (h.unique hmem' hr (hsym.trans hsymbol.symm)) hne
    · rw [if_neg heq, h.indexed]
      constructor
      · intro ⟨hmem', hsym⟩
        have hne : r' ≠ r := by
          rintro rfl
          exact heq (hsym.symm.trans hsymbol)
        exact ⟨⟨hne, hmem'⟩, hsym⟩
      · exact fun ⟨⟨_, hmem'⟩, hsym⟩ => ⟨hmem', hsym⟩
  · exact fun r' hr' => h.positive r' ((hmem r').mp hr').2
  · have hlocked : (l.removePosition r symbol).lockedMargin = l.lockedMargin := by
      rw [lockedMargin, herase]
      change l.objects.total _ _ = _
      rw [Heap.total_erase _ _ hr, hmargin, sub_zero]
      rfl
    change l.account.balance + l.insuranceFund + (l.removePosition r symbol).lockedMargin +
      l.lostMargin - (l.account.totalPnl - l.account.totalFees + l.funding.sum) = _
    rw [hlocked, unexplained, add_zero]
  · intro s
    change (((l.positionsBySymbol.erase symbol).find? s).map
      fun r' => (l.objects.get r').signedQuantity).getD 0 + l.discarded s = _
    rw [Dict.find?_erase, signedPosition]
    by_cases heq : s = symbol
    · subst heq
      simp only [if_true, hfind, Option.map_none, Option.getD_none, Option.map_some,
        Option.getD_some]
      ring
    · simp only [if_neg heq, add_zero]

end Ledger

end TradingSim.Exchange
