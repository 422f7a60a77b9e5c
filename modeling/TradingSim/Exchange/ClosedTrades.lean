import TradingSim.Exchange.Rounding
import TradingSim.Exchange.Runs
import TradingSim.Foundations.RecentKeys

/-!
# The closed trades of an exchange

An account counts its closes and lists their records in order. The list is never shortened, and a
record changes only in its reason, which a forced close writes after the fact. The broadcast of an
account carries the counter and the last twenty records.
-/

namespace TradingSim.Exchange

open Foundations

/-- A closed trade and the time of the close. -/
structure TradeRecord where
  trade : ClosedTrade
  closedAt : ℤ
  deriving DecidableEq

/-- The closed trades of an account. -/
structure ClosingAccount where
  totalTrades : ℕ := 0
  tradeHistory : List TradeRecord := []
  deriving DecidableEq

/-- What happens to the closed trades of an account. -/
inductive ClosingEvent
  | close (record : TradeRecord)
  | relabel (orderId reason : String)
  deriving DecidableEq

/-- What `Account.to_dict` tells of the closed trades. -/
structure AccountReport where
  totalTrades : ℕ
  tradeHistory : List TradeRecord
  deriving DecidableEq

/-- Give the first listed record of an order a reason. -/
def relabelFirstRecord (orderId reason : String) : List TradeRecord → List TradeRecord
  | [] => []
  | record :: rest =>
    if record.trade.orderId = orderId then
      { record with trade := { record.trade with reason := reason } } :: rest
    else record :: relabelFirstRecord orderId reason rest

namespace ClosingAccount

/-- A close is counted and listed; a relabeling rewrites the latest record of the order. -/
def step (a : ClosingAccount) : ClosingEvent → ClosingAccount
  | .close record =>
    { totalTrades := a.totalTrades + 1, tradeHistory := a.tradeHistory ++ [record] }
  | .relabel orderId reason =>
    { a with tradeHistory := (relabelFirstRecord orderId reason a.tradeHistory.reverse).reverse }

/-- How many records a broadcast carries. -/
def reportedTrades : ℕ := 20

def toDict (a : ClosingAccount) : AccountReport where
  totalTrades := a.totalTrades
  tradeHistory := recent reportedTrades a.tradeHistory

/-- The counter is the number of listed closes. -/
def Counted (a : ClosingAccount) : Prop := a.totalTrades = a.tradeHistory.length

end ClosingAccount

theorem map_relabelFirstRecord {β : Type*} (f : TradeRecord → β) (orderId reason : String)
    (hf : ∀ record, f { record with trade := { record.trade with reason := reason } } = f record)
    (records : List TradeRecord) :
    (relabelFirstRecord orderId reason records).map f = records.map f := by
  induction records with
  | nil => rfl
  | cons record rest ih =>
    unfold relabelFirstRecord
    by_cases horder : record.trade.orderId = orderId
    · rw [if_pos horder, List.map_cons, List.map_cons, hf]
    · rw [if_neg horder, List.map_cons, List.map_cons, ih]

theorem trades_relabelFirstRecord (orderId reason : String) (records : List TradeRecord) :
    (relabelFirstRecord orderId reason records).map (·.trade) =
      Ledger.relabelFirst orderId reason (records.map (·.trade)) := by
  induction records with
  | nil => rfl
  | cons record rest ih =>
    unfold relabelFirstRecord
    rw [List.map_cons, Ledger.relabelFirst]
    by_cases horder : record.trade.orderId = orderId
    · rw [if_pos horder, if_pos horder, List.map_cons]
    · rw [if_neg horder, if_neg horder, List.map_cons, ih]

namespace ClosingAccount

variable {a : ClosingAccount}

/-- Seen through what does not depend on the reason, the list only grows, and the counter grows
with it. -/
theorem step_appends {β : Type*} (f : TradeRecord → β) (hf : ∀ (record : TradeRecord) (reason : String),
      f { record with trade := { record.trade with reason := reason } } = f record)
    (a : ClosingAccount) (event : ClosingEvent) :
    ∃ later, (a.step event).tradeHistory.map f = a.tradeHistory.map f ++ later ∧
      (a.step event).totalTrades = a.totalTrades + later.length := by
  cases event with
  | close record => exact ⟨[f record], List.map_append, rfl⟩
  | relabel orderId reason =>
    refine ⟨[], ?_, rfl⟩
    rw [List.append_nil, step, List.map_reverse,
      map_relabelFirstRecord f orderId reason (hf · reason), List.map_reverse, List.reverse_reverse]

theorem Counted.step (h : a.Counted) (event : ClosingEvent) : (a.step event).Counted := by
  obtain ⟨later, hhistory, htotal⟩ := a.step_appends (fun _ => ()) (fun _ _ => rfl) event
  have hlength := congrArg List.length hhistory
  rw [List.length_append, List.length_map, List.length_map] at hlength
  rw [Counted, htotal, hlength, h]

/-! ### What an exchange does to its closed trades -/

/-- The closed trades of an account in the exchange's own records, which leave out the times. -/
def Reports (a : ClosingAccount) (account : Account) : Prop :=
  a.tradeHistory.map (·.trade) = account.tradeHistory ∧ a.totalTrades = account.totalTrades

end ClosingAccount

/-- The closed trades of an account with what it sums up of them. -/
def Account.closed (account : Account) : List ClosedTrade × ℚ × ℕ × ℕ :=
  (account.tradeHistory, account.totalPnl, account.totalTrades, account.winningTrades)

namespace Ledger

variable {N : Numerics} {m : MarketView} {l l' : Ledger} {order : Order}

/-- Nothing is closed, or one trade is: its record has the profit in cents, and the account adds it in full. -/
def Closes (N : Numerics) (l l' : Ledger) : Prop :=
  l'.account.closed = l.account.closed ∨ ∃ trade pnl, trade.pnl = N.round pnl 2 ∧
    l'.account.closed = (l.account.tradeHistory ++ [trade], l.account.totalPnl + pnl,
      l.account.totalTrades + 1, l.account.winningTrades + if 0 < pnl then 1 else 0)

theorem closes_closePosition (existing : Ref) (margin : ℚ) :
    Closes N l (l.closePosition N m existing order margin) := by
  set closeQty := min order.filledQuantity (l.objects.get existing).quantity with hqty
  have hsame : (l.closePosition N m existing order margin).account.closed =
      (l.settleClose N existing order closeQty margin).account.closed := by
    unfold Ledger.closePosition
    by_cases hwhole : (l.objects.get existing).quantity ≤ closeQty
    · rw [if_pos hwhole]
      by_cases hopens : residualTolerance < order.filledQuantity - closeQty
      · rw [if_pos hopens]
        rfl
      · rw [if_neg hopens]
        by_cases hleft : 0 < order.filledQuantity - closeQty
        · rw [if_pos hleft]
          rfl
        · rw [if_neg hleft]
          rfl
    · rw [if_neg hwhole]
  exact .inr ⟨_, _, rfl, hsame⟩

theorem closes_updatePosition (stopLoss takeProfit : Option ℚ) (margin : ℚ) :
    Closes N l (l.updatePosition N m order stopLoss takeProfit margin) := by
  unfold Ledger.updatePosition
  cases l.positionsBySymbol.find? order.symbol with
  | none => exact .inl rfl
  | some existing =>
    simp only
    by_cases hside : (l.objects.get existing).side = order.side
    · rw [if_neg fun hne => hne hside]
      exact .inl rfl
    · rw [if_pos hside]
      exact closes_closePosition existing margin

theorem closes_bookFill (fee notional : ℚ) (forceClose : Bool) (stopLoss takeProfit : Option ℚ)
    (fill : Fill) : Closes N l (l.bookFill N m order fee notional forceClose stopLoss takeProfit fill) := by
  cases forceClose with
  | true =>
    exact closes_updatePosition (l := l.chargeFee fee) stopLoss takeProfit 0
  | false =>
    exact closes_updatePosition (l := (l.chargeFee fee).lockMargin notional) stopLoss takeProfit _

end Ledger

namespace ClosingAccount

variable {N : Numerics} {a : ClosingAccount} {l l' : Ledger}

theorem reports_ledgerStep (h : a.Reports l.account) (hstep : Ledger.LedgerStep N l l') :
    ∃ events, (run step a events).Reports l'.account := by
  cases hstep with
  | fill m _ order fee notional forceClose stopLoss takeProfit fill =>
    have hcloses : Ledger.Closes N l
        (l.bookFill N m order fee notional forceClose stopLoss takeProfit fill) :=
      Ledger.closes_bookFill fee notional forceClose stopLoss takeProfit fill
    rcases hcloses with hsame | ⟨trade, pnl, -, hclosed⟩
    · exact ⟨[], h.1.trans (congrArg Prod.fst hsame).symm, h.2.trans (congrArg (·.2.2.1) hsame).symm⟩
    · refine ⟨[.close ⟨trade, trade.openedAt⟩], ?_, ?_⟩
      · rw [run_cons, run_nil, step, List.map_append, h.1]
        exact (congrArg Prod.fst hclosed).symm
      · exact (congrArg (· + 1) h.2).trans (congrArg (·.2.2.1) hclosed).symm
  | mark => exact ⟨[], h⟩
  | cover =>
    refine ⟨[], ?_⟩
    unfold Ledger.handleInsuranceFundDeficit
    by_cases hnegative : l.account.balance < 0
    · rw [if_pos hnegative]
      exact h
    · rw [if_neg hnegative]
      exact h
  | relabel _ orderId reason =>
    refine ⟨[.relabel orderId reason], ?_, h.2⟩
    rw [run_cons, run_nil, step, List.map_reverse, trades_relabelFirstRecord, List.map_reverse, h.1]
    rfl
  | fund => exact ⟨[], h⟩

/-- Closes and relabelings follow every chain of ledger steps. -/
theorem reports_chain (h : a.Reports l.account)
    (hchain : Relation.ReflTransGen (Ledger.LedgerStep N) l l') :
    ∃ events, (run step a events).Reports l'.account := by
  induction hchain with
  | refl => exact ⟨[], h⟩
  | tail _ hstep ih =>
    obtain ⟨earlier, hearlier⟩ := ih
    obtain ⟨later, hlater⟩ := reports_ledgerStep hearlier hstep
    exact ⟨earlier ++ later, by rw [run_append]; exact hlater⟩

/-- Every call on a sound exchange acts on the closed trades as some closes and relabelings. -/
theorem reports_step {opening : ℚ} {x : SimulatedExchange} (hsound : x.Sound opening)
    (h : a.Reports x.ledger.account) (call : MarketView × Operation) :
    ∃ events, (run step a events).Reports (x.step N call).ledger.account :=
  reports_chain h
    (SimulatedExchange.step_progress False call hsound.orders False.elim False.elim).ledger

theorem reports_run {opening : ℚ} {x : SimulatedExchange} (hsound : x.Sound opening)
    (h : a.Reports x.ledger.account) (calls : List (MarketView × Operation)) :
    ∃ events, (run step a events).Reports (run (SimulatedExchange.step N) x calls).ledger.account := by
  induction calls generalizing a x with
  | nil => exact ⟨[], h⟩
  | cons call rest ih =>
    obtain ⟨earlier, hearlier⟩ := reports_step hsound h call
    obtain ⟨later, hlater⟩ := ih (hsound.step call) hearlier
    exact ⟨earlier ++ later, by rw [run_append]; exact hlater⟩

end ClosingAccount

/-- A closed trade without its reason. -/
def ClosedTrade.unlabelled (trade : ClosedTrade) : ClosedTrade := { trade with reason := "" }

/-- Whatever the calls are, the counter of an account is the number of its closed trades, and none of these
is ever dropped, moved or changed but for its reason. -/
theorem closedTrades_grow (N : Numerics) (exchangeId currency : String)
    (feePct slippageBps initialBalance leverage : ℚ) (calls later : List (MarketView × Operation)) :
    let x := SimulatedExchange.after N exchangeId currency feePct slippageBps initialBalance leverage calls
    x.ledger.account.totalTrades = x.ledger.account.tradeHistory.length ∧
      x.ledger.account.tradeHistory.map ClosedTrade.unlabelled <+:
        (run (SimulatedExchange.step N) x later).ledger.account.tradeHistory.map ClosedTrade.unlabelled := by
  have hsound := SimulatedExchange.sound_after N exchangeId currency feePct slippageBps initialBalance
    leverage calls
  obtain ⟨earlier, hhistory, htotal⟩ := ClosingAccount.reports_run (N := N) (a := {})
    (SimulatedExchange.sound_init exchangeId feePct slippageBps initialBalance leverage currency) ⟨rfl, rfl⟩
    calls
  change _ = (SimulatedExchange.after ..).ledger.account.tradeHistory at hhistory
  have hcounted : (run ClosingAccount.step {} earlier).Counted := by
    have hstep : ∀ (a : ClosingAccount) event, a.Counted → (a.step event).Counted := fun _ event h => h.step event
    exact run_invariant hstep earlier rfl
  obtain ⟨events, hafter, -⟩ := ClosingAccount.reports_run (N := N) hsound ⟨hhistory, htotal⟩ later
  generalize run ClosingAccount.step {} earlier = a at hhistory htotal hcounted hafter
  have hgrown := run_related (fun _ => True)
    (fun a a' : ClosingAccount =>
      a.tradeHistory.map (·.trade.unlabelled) <+: a'.tradeHistory.map (·.trade.unlabelled))
    (fun _ => List.prefix_refl _) (fun _ _ _ => List.IsPrefix.trans) (fun _ _ h => h)
    (fun a event _ => by
      obtain ⟨more, hmore, -⟩ := a.step_appends (·.trade.unlabelled) (fun _ _ => rfl) event
      exact ⟨more, hmore.symm⟩)
    (s := a) events trivial
  intro x
  change a.tradeHistory.map (·.trade) = x.ledger.account.tradeHistory at hhistory
  change a.totalTrades = x.ledger.account.totalTrades at htotal
  constructor
  · rw [← htotal, ← hhistory, List.length_map, hcounted]
  · rw [← hhistory, ← hafter, List.map_map, List.map_map]
    exact hgrown

/-! ### What the closed trades add up to -/

/-- Each recorded profit is within half a cent of what its close added to the sum, and the counted wins are
closes not recorded as losses, all those recorded as wins among them. -/
structure Explains (pnls : List ℚ) (totalPnl : ℚ) (totalTrades winningTrades : ℕ) : Prop where
  pnl : |totalPnl - pnls.sum| ≤ totalTrades / 200
  wins : pnls.countP (0 < ·) ≤ winningTrades
  losses : winningTrades + pnls.countP (· < 0) ≤ totalTrades

/-- The closed trades of an account explain its profit and its wins. -/
def Account.Explained (account : Account) : Prop :=
  Explains (account.tradeHistory.map (·.pnl)) account.totalPnl account.totalTrades account.winningTrades

theorem Explains.close {pnls : List ℚ} {totalPnl : ℚ} {totalTrades winningTrades : ℕ}
    (h : Explains pnls totalPnl totalTrades winningTrades) (pnl : ℚ) :
    Explains (pnls ++ [roundHalfEven pnl 2]) (totalPnl + pnl) (totalTrades + 1)
      (winningTrades + if 0 < pnl then 1 else 0) := by
  obtain ⟨hpnl, hwins, hlosses⟩ := h
  have hround : |roundHalfEven pnl 2 - pnl| ≤ 1 / 200 := by
    have hnear := abs_nearestEven_sub_le (pnl * 10 ^ 2)
    rw [roundHalfEven, div_sub' (by norm_num), abs_div, mul_comm _ pnl]
    norm_num at hnear ⊢
    linarith
  have hzero : roundHalfEven 0 2 = 0 := by decide +kernel
  constructor
  · obtain ⟨hbelow, habove⟩ := abs_le.mp hpnl
    obtain ⟨hlow, hhigh⟩ := abs_le.mp hround
    rw [List.sum_append, List.sum_singleton, abs_le]
    push_cast
    constructor <;> linarith
  · have hsign : ¬0 < pnl → roundHalfEven pnl 2 ≤ 0 := fun h => hzero ▸ roundHalfEven_mono 2 (not_lt.mp h)
    rw [List.countP_append, List.countP_singleton]
    grind
  · have hsign : 0 < pnl → 0 ≤ roundHalfEven pnl 2 := fun h => hzero ▸ roundHalfEven_mono 2 h.le
    rw [List.countP_append, List.countP_singleton]
    grind

theorem map_pnl_relabelFirst (orderId reason : String) (trades : List ClosedTrade) :
    (Ledger.relabelFirst orderId reason trades).map (·.pnl) = trades.map (·.pnl) := by
  induction trades with
  | nil => rfl
  | cons trade rest ih =>
    unfold Ledger.relabelFirst
    split_ifs
    · rfl
    · rw [List.map_cons, List.map_cons, ih]

theorem Account.Explained.chain {l l' : Ledger} (h : l.account.Explained)
    (hchain : Relation.ReflTransGen (Ledger.LedgerStep Numerics.decimal) l l') : l'.account.Explained := by
  induction hchain with
  | refl => exact h
  | @tail mid l' _ hstep ih =>
    cases hstep with
    | fill m _ order fee notional forceClose stopLoss takeProfit fill =>
      have hcloses : Ledger.Closes Numerics.decimal mid
          (mid.bookFill Numerics.decimal m order fee notional forceClose stopLoss takeProfit fill) :=
        Ledger.closes_bookFill fee notional forceClose stopLoss takeProfit fill
      rcases hcloses with hsame | ⟨trade, pnl, htrade, hclosed⟩
      · obtain ⟨hhistory, hpnl, htotal, hwinning⟩ := by simpa only [Account.closed, Prod.mk.injEq] using hsame
        unfold Account.Explained
        rw [hhistory, hpnl, htotal, hwinning]
        exact ih
      · obtain ⟨hhistory, hpnl, htotal, hwinning⟩ := by simpa only [Account.closed, Prod.mk.injEq] using hclosed
        unfold Account.Explained
        rw [hhistory, hpnl, htotal, hwinning, List.map_append, List.map_singleton, htrade]
        exact Explains.close ih pnl
    | mark => exact ih
    | cover =>
      unfold Ledger.handleInsuranceFundDeficit
      split_ifs <;> exact ih
    | relabel _ orderId reason =>
      have hpnls : (mid.relabelTrade orderId reason).account.tradeHistory.map (·.pnl) =
          mid.account.tradeHistory.map (·.pnl) := by
        rw [Ledger.relabelTrade, List.map_reverse, map_pnl_relabelFirst, List.map_reverse, List.reverse_reverse]
      unfold Account.Explained
      rw [hpnls]
      exact ih
    | fund => exact ih

/-- In every run the profit of an account is the sum of the profits in its closed trades, up to half a cent for
each of them, and its wins lie between those that the records show and those that they do not rule out. -/
theorem closedTrades_explain (exchangeId currency : String) (feePct slippageBps initialBalance leverage : ℚ)
    (calls : List (MarketView × Operation)) :
    (SimulatedExchange.after Numerics.decimal exchangeId currency feePct slippageBps initialBalance leverage
      calls).ledger.account.Explained := by
  have hstep (x : SimulatedExchange) (call : MarketView × Operation)
      (h : x.Sound initialBalance ∧ x.ledger.account.Explained) :
      (x.step Numerics.decimal call).Sound initialBalance ∧
        (x.step Numerics.decimal call).ledger.account.Explained :=
    ⟨h.1.step call, h.2.chain
      (SimulatedExchange.step_progress False call h.1.orders False.elim False.elim).ledger⟩
  refine (run_invariant hstep calls ⟨SimulatedExchange.sound_init .., ?_⟩).2
  constructor <;> simp [SimulatedExchange.init]

end TradingSim.Exchange
