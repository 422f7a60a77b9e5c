import TradingSim.Backtest.Lookahead
import Mathlib.Algebra.Order.BigOperators.Group.List
import Mathlib.Tactic.Linarith
import Mathlib.Tactic.Ring

/-!
# The ledger of a rule backtest

The fee of an entry is taken off the balance when the position is opened, and no trade has it. The balance
therefore falls behind the profits of the trades by the fees of all entries.
-/

namespace TradingSim.Backtest.RuleEngine

open Foundations
open FloatOps

section Statistics

variable {F : Type} [FloatOps F]

/-- The sum of the profits of trades, as the loops of the source add them up. -/
def totalPnl (trades : List (Trade F)) : F := trades.foldl (fun sum trade => sum + trade.pnl) (lit 0)

/-- What `runBacktest` computes from its trades. -/
structure Statistics (F : Type) where
  totalTrades : ℕ
  winningTrades : ℕ
  losingTrades : ℕ
  winRate : F
  avgWin : F
  avgLoss : F
  profitFactor : F

def statistics (trades : List (Trade F)) : Statistics F :=
  let winningTrades := trades.filter fun trade => lt (lit 0) trade.pnl
  let losingTrades := trades.filter fun trade => le trade.pnl (lit 0)
  let grossProfit := totalPnl winningTrades
  let grossLoss := abs (totalPnl losingTrades)
  { totalTrades := trades.length
    winningTrades := winningTrades.length
    losingTrades := losingTrades.length
    winRate :=
      if 0 < trades.length then lit winningTrades.length / lit trades.length * lit 100 else lit 0
    avgWin :=
      if 0 < winningTrades.length then totalPnl winningTrades / lit winningTrades.length else lit 0
    avgLoss :=
      if 0 < losingTrades.length then abs (totalPnl losingTrades / lit losingTrades.length) else lit 0
    profitFactor :=
      if lt (lit 0) grossLoss then grossProfit / grossLoss
      else if lt (lit 0) grossProfit then lit (99999 / 100)
      else lit 0 }

end Statistics

variable {o : Options ℚ} {rules : List (Rule ℚ)} {candles : List (Candle ℚ)} {candle : Candle ℚ}
  {s : Replay ℚ} {trades : List (Trade ℚ)}

theorem totalPnl_eq (trades : List (Trade ℚ)) : totalPnl trades = (trades.map Trade.pnl).sum := by
  rw [totalPnl, List.sum_eq_foldl, List.foldl_map]
  rfl

/-- The trades that win and those that do not have all the profits. -/
theorem totalPnl_split (trades : List (Trade ℚ)) :
    totalPnl (trades.filter fun trade => lt (lit 0) trade.pnl) +
        totalPnl (trades.filter fun trade => le trade.pnl (lit 0)) = (trades.map Trade.pnl).sum := by
  simp only [totalPnl_eq]
  induction trades with
  | nil => simp
  | cons trade trades ih =>
    by_cases hwin : 0 < trade.pnl
    · simp [hwin, not_le.mpr hwin, ← ih, add_assoc]
    · simp [hwin, not_lt.mp hwin, ← ih, add_left_comm]

theorem totalPnl_losing_nonpos (trades : List (Trade ℚ)) :
    totalPnl (trades.filter fun trade => le trade.pnl (lit 0)) ≤ 0 := by
  have hlosing : ∀ pnl ∈ (trades.filter fun trade => le trade.pnl (lit 0)).map Trade.pnl, pnl ≤ 0 := by
    intro pnl hpnl
    obtain ⟨trade, htrade, rfl⟩ := List.mem_map.mp hpnl
    simpa using (List.mem_filter.mp htrade).2
  rw [totalPnl_eq]
  simpa using List.sum_le_card_nsmul _ 0 hlosing

theorem average_mul_length (trades : List (Trade ℚ)) :
    (if 0 < trades.length then totalPnl trades / lit trades.length else lit 0) * trades.length =
      totalPnl trades := by
  cases trades with
  | nil => simp [totalPnl]
  | cons trade trades =>
    have hlength : ((trade :: trades).length : ℚ) ≠ 0 := by simp [Nat.cast_add_one_ne_zero]
    exact div_mul_cancel₀ _ hlength

/-- Where the sum is a loss, the size of the average has its size. -/
theorem abs_average_mul_length (hnonpos : totalPnl trades ≤ 0) :
    (if 0 < trades.length then FloatOps.abs (totalPnl trades / lit trades.length) else lit 0) *
      trades.length = -totalPnl trades := by
  cases trades with
  | nil => simp [totalPnl]
  | cons trade trades =>
    have hlength : ((trade :: trades).length : ℚ) ≠ 0 := by simp [Nat.cast_add_one_ne_zero]
    have haverage : totalPnl (trade :: trades) / (trade :: trades).length ≤ 0 :=
      div_nonpos_of_nonpos_of_nonneg hnonpos (Nat.cast_nonneg _)
    change |totalPnl (trade :: trades) / (trade :: trades).length| * _ = _
    rw [abs_of_nonpos haverage, neg_mul, div_mul_cancel₀ _ hlength]

theorem statistics_money (trades : List (Trade ℚ)) :
    (statistics trades).avgWin * (statistics trades).winningTrades -
        (statistics trades).avgLoss * (statistics trades).losingTrades = (trades.map Trade.pnl).sum := by
  rw [← totalPnl_split, sub_eq_add_neg]
  congr 1
  · exact average_mul_length _
  · rw [neg_eq_iff_eq_neg]
    exact abs_average_mul_length (totalPnl_losing_nonpos trades)

/-- The price at which a position is entered. -/
def fillPrice (o : Options ℚ) (candle : Candle ℚ) : Side → ℚ
  | .long => candle.close * (1 + o.slippagePct / 100)
  | .short => candle.close * (1 - o.slippagePct / 100)

/-- An entry: the balance out of which it is made, and its price. -/
structure Entry where
  balance : ℚ
  fillPrice : ℚ

/-- The entry on a side, if one is made. -/
def opening (o : Options ℚ) (candle : Candle ℚ) (s : Replay ℚ) (side : Side) : List Entry :=
  if s.position.isNone ∧ 0 < candle.close then [⟨s.balance, fillPrice o candle side⟩] else []

/-- The entries of a bar, rule by rule. -/
def openings (o : Options ℚ) (candle : Candle ℚ) : Replay ℚ → List (Rule ℚ) → List Entry
  | _, [] => []
  | s, rule :: rest =>
    (match rule.action with
      | .buy => opening o candle s .long
      | .sell => opening o candle s .short
      | _ => []) ++ openings o candle (s.act o candle rule) rest

/-- The entries that a run has made when it comes to a bar. -/
def entries (o : Options ℚ) (rules : List (Rule ℚ)) (candles : List (Candle ℚ)) (n : ℕ) : List Entry :=
  (List.range n).flatMap fun i =>
    match candles[i]? with
    | some candle =>
      openings o candle (before o rules candles i)
        (if 0 < i then evaluateConditions candles (i - 1) (indicators o candles) rules else [])
    | none => []

/-- No entry is made at a price of zero, where the source has no number for its quantity nor, from then on,
for the balance. -/
def Priced (es : List Entry) : Prop := ∀ e ∈ es, e.fillPrice ≠ 0

/-- The money that a run has made is a number, and is the money of its trades and of the statistics on
them. -/
structure BooksAllMoney (o : Options ℚ) (rules : List (Rule ℚ)) (candles : List (Candle ℚ)) : Prop where
  numbers : 30 ≤ candles.length → Priced (entries o rules candles candles.length)
  trades : (runBacktest o rules candles).finalBalance - (runBacktest o rules candles).initialBalance =
    ((runBacktest o rules candles).trades.map Trade.pnl).sum
  statistics : (runBacktest o rules candles).finalBalance - (runBacktest o rules candles).initialBalance =
    (statistics (runBacktest o rules candles).trades).avgWin *
        (statistics (runBacktest o rules candles).trades).winningTrades -
      (statistics (runBacktest o rules candles).trades).avgLoss *
        (statistics (runBacktest o rules candles).trades).losingTrades

/-- The balances out of which entries are made, added up. -/
def invested (es : List Entry) : ℚ := (es.map Entry.balance).sum

/-- The part of a balance that an entry costs. -/
def entryRate (o : Options ℚ) : ℚ := o.positionSizePct * o.feePct / 100

/-- The balance without the profits of the trades. -/
def residue (s : Replay ℚ) : ℚ := s.balance - (s.trades.map Trade.pnl).sum

theorem residue_closePosition (position : Position ℚ) (reason : ExitReason) :
    residue (s.closePosition o candle position reason) = residue s := by
  simp only [residue, Replay.closePosition, List.map_append, List.map_cons, List.map_nil, List.sum_append,
    List.sum_singleton]
  exact add_sub_add_right_eq_sub _ _ _

theorem entry_fee (balance : ℚ) {fillPrice : ℚ} (hfill : fillPrice ≠ 0) :
    balance * o.positionSizePct / fillPrice * fillPrice * o.feePct / 100 = entryRate o * balance := by
  rw [div_mul_cancel₀ _ hfill, entryRate]
  ring

theorem residue_openPosition (side : Side) (hpriced : Priced (opening o candle s side)) :
    residue (s.openPosition o candle side) = residue s - entryRate o * invested (opening o candle s side) := by
  unfold Replay.openPosition
  rw [opening] at hpriced ⊢
  by_cases hopen : s.position.isNone ∧ 0 < candle.close
  · have hlt : s.position.isNone ∧ lt (lit 0) candle.close = true := ⟨hopen.1, lt_rat.mpr hopen.2⟩
    rw [if_pos hopen] at hpriced
    have hfill : fillPrice o candle side ≠ 0 := hpriced _ (List.mem_singleton_self _)
    rw [if_pos hlt, if_pos hopen, invested, List.map_singleton, List.sum_singleton, ← entry_fee _ hfill,
      residue, residue]
    cases side with
    | long => exact sub_right_comm _ _ _
    | short => exact sub_right_comm _ _ _
  · have hlt : ¬ (s.position.isNone ∧ lt (lit 0) candle.close = true) :=
      fun h => hopen ⟨h.1, lt_rat.mp h.2⟩
    rw [if_neg hlt, if_neg hopen]
    simp [invested]

/-- **The step lemma.** A rule takes the fee of the entry that it makes. -/
theorem residue_act (rule : Rule ℚ) (hpriced : Priced (match rule.action with
      | .buy => opening o candle s .long
      | .sell => opening o candle s .short
      | _ => [])) :
    residue (s.act o candle rule) = residue s - entryRate o * invested (match rule.action with
      | .buy => opening o candle s .long
      | .sell => opening o candle s .short
      | _ => []) := by
  rw [Replay.act]
  cases haction : rule.action with
  | buy =>
    rw [haction] at hpriced
    exact residue_openPosition .long hpriced
  | sell =>
    rw [haction] at hpriced
    exact residue_openPosition .short hpriced
  | closeAll =>
    simp only [invested, List.map_nil, List.sum_nil, mul_zero, sub_zero]
    cases s.position with
    | none => rfl
    | some position => exact residue_closePosition position .closeAll
  | alert => simp [invested]
  | unknown => simp [invested]

/-- The rules of a bar take the fees of their entries. -/
theorem residue_foldl_act (triggered : List (Rule ℚ)) (s : Replay ℚ)
    (hpriced : Priced (openings o candle s triggered)) :
    residue (triggered.foldl (Replay.act o candle) s) =
      residue s - entryRate o * invested (openings o candle s triggered) := by
  induction triggered generalizing s with
  | nil => simp [openings, invested]
  | cons rule rest ih =>
    rw [openings, Priced, List.forall_mem_append] at hpriced
    rw [List.foldl_cons, ih _ hpriced.2, residue_act rule hpriced.1, openings, invested, invested, invested,
      List.map_append, List.sum_append]
    ring

/-- The equity and the drawdown of a bar are no money. -/
theorem residue_turn (triggered : List (Rule ℚ)) :
    residue (s.turn o candle triggered) = residue (triggered.foldl (Replay.act o candle) s) := by
  have hdrawdown (s : Replay ℚ) (equity : ℚ) : residue (s.trackDrawdown equity) = residue s := by
    rw [Replay.trackDrawdown]
    split
    · rfl
    · dsimp only
      generalize (if lt (lit 0) s.peakEquity then (s.peakEquity - equity) / s.peakEquity else lit 0) = dd
      split
      · rfl
      · rfl
  rw [Replay.turn, hdrawdown]
  rfl

/-- **The run lemma.** A run has taken the fees of its entries. -/
theorem residue_before (o : Options ℚ) (rules : List (Rule ℚ)) (candles : List (Candle ℚ)) (n : ℕ)
    (hpriced : Priced (entries o rules candles n)) : residue (before o rules candles n) =
      o.initialBalance - entryRate o * invested (entries o rules candles n) := by
  induction n with
  | zero => simp [before, start, residue, entries, invested]
  | succ n ih =>
    rw [entries, List.range_succ, List.flatMap_append, ← entries, Priced, List.forall_mem_append] at hpriced
    have hbefore := ih hpriced.1
    have hbar := hpriced.2
    rw [before_succ, bar, entries, List.range_succ, List.flatMap_append, invested, List.map_append,
      List.sum_append, ← entries, ← invested]
    cases hcandle : candles[n]? with
    | none => simp [hbefore, hcandle]
    | some candle =>
      simp only [List.flatMap_cons, List.flatMap_nil, List.append_nil, hcandle] at hbar ⊢
      rw [residue_turn, residue_foldl_act _ _ hbar, hbefore, ← invested]
      ring

/-- The end of the data books the same in the balance and in the trade. -/
theorem finish_money (s : Replay ℚ) :
    (finish o candles s).finalBalance - ((finish o candles s).trades.map Trade.pnl).sum = residue s := by
  unfold finish
  cases hposition : s.position with
  | none => rfl
  | some position =>
    cases hlast : candles.getLast? with
    | none => rfl
    | some last => exact residue_closePosition position .end

theorem booksAllMoney_iff_trades : BooksAllMoney o rules candles ↔
      (30 ≤ candles.length → Priced (entries o rules candles candles.length)) ∧
        (runBacktest o rules candles).finalBalance - (runBacktest o rules candles).initialBalance =
          ((runBacktest o rules candles).trades.map Trade.pnl).sum := by
  constructor
  · intro hbooks
    exact ⟨hbooks.numbers, hbooks.trades⟩
  · rintro ⟨hnumbers, htrades⟩
    exact ⟨hnumbers, htrades, by rw [statistics_money, htrades]⟩

def buyAbove (price : ℚ) : Rule ℚ := ⟨.priceAbove, price, .buy⟩

end TradingSim.Backtest.RuleEngine
