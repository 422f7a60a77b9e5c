import TradingSim.Bot.Convergence
import TradingSim.Bot.MainLoop

/-!
# Two equities

The exchange takes the margin of a position out of the balance, and its equity puts it back. The bot
adds to the same balance what its positions have won at the prices of its last marks, less the fees
and the funding it has booked on them; it has no margins.
-/

namespace TradingSim.Exchange

def Ledger.equity (l : Ledger) : ℚ :=
  l.account.balance + (l.openPositions.map fun p => p.margin + p.unrealizedPnl).sum

end TradingSim.Exchange

namespace TradingSim.Bot

open Foundations
open Exchange (Side SimulatedExchange)
open PositionManager (PositionReport)

/-- What a position has won at a price, before fees and funding. -/
def Position.profitAt (pos : Position) (price : ℚ) : ℚ :=
  if pos.isLong then (price - pos.entryPrice) * pos.quantity
  else (pos.entryPrice - price) * pos.quantity

/-- The fees and the funding that were booked on a position. -/
def Position.costs (pos : Position) : ℚ := pos.feesPaid + pos.fundingPaid

/-! ### The book after a broadcast -/

/-- A position on the terms of its report. -/
def Position.refresh (pos : Position) (report : PositionReport) : Position :=
  if pos.symbol = report.symbol then
    { pos with quantity := report.quantity, entryPrice := report.entryPrice }
  else pos

/-- A position that is taken over from its report. -/
def PositionManager.PositionReport.adopt (report : PositionReport) (exchange : String) : Position where
  symbol := report.symbol
  exchange := exchange
  side := report.side
  quantity := report.quantity
  entryPrice := report.entryPrice
  stopLoss := report.stopLoss
  takeProfit := report.takeProfit

@[simp] theorem Position.symbol_refresh (pos : Position) (report : PositionReport) :
    (pos.refresh report).symbol = pos.symbol := by
  unfold refresh
  split
  · rfl
  · rfl

theorem Position.refresh_of_ne {pos : Position} {report : PositionReport}
    (h : pos.symbol ≠ report.symbol) : pos.refresh report = pos :=
  if_neg h

/-- A position on the terms of all reports. -/
def Position.refreshAll (pos : Position) (reports : List PositionReport) : Position :=
  reports.foldl Position.refresh pos

@[simp] theorem Position.symbol_refreshAll (pos : Position) (reports : List PositionReport) :
    (pos.refreshAll reports).symbol = pos.symbol := by
  induction reports generalizing pos with
  | nil => rfl
  | cons report rest ih => exact (ih _).trans (pos.symbol_refresh report)

theorem Position.refreshAll_of_not_mem {pos : Position} {reports : List PositionReport}
    (h : pos.symbol ∉ reports.map PositionReport.symbol) : pos.refreshAll reports = pos := by
  induction reports with
  | nil => rfl
  | cons report rest ih =>
    rw [List.map_cons, List.mem_cons, not_or] at h
    rw [refreshAll, List.foldl_cons, refresh_of_ne h.1]
    exact ih h.2

@[simp] theorem Position.costs_refreshAll (pos : Position) (reports : List PositionReport) :
    (pos.refreshAll reports).costs = pos.costs := by
  induction reports generalizing pos with
  | nil => rfl
  | cons report rest ih =>
    have hone : (pos.refresh report).costs = pos.costs := by
      unfold refresh
      split
      · rfl
      · rfl
    exact (ih _).trans hone

namespace PositionManager

variable {m : PositionManager} {exchange : String}

/-- A report is taken over if its symbol has neither position nor pending order. -/
def Adopts (m : PositionManager) (report : PositionReport) : Prop :=
  m.positionsOf report.symbol = [] ∧ m.pendingOrders.find? report.symbol = none

instance (m : PositionManager) : DecidablePred m.Adopts := fun report =>
  inferInstanceAs (Decidable (m.positionsOf report.symbol = [] ∧
    m.pendingOrders.find? report.symbol = none))

/-- A book with one position a symbol. -/
theorem single_iff : m.Single ↔ (m.positions.map Position.symbol).Nodup :=
  KeyedList.nodup_keys_iff.symm

/-- A report refreshes the position of its symbol, or is adopted, or is left aside. -/
theorem positions_syncPosition (h : m.Single) {report : PositionReport}
    (hquantity : 0 < report.quantity) (hsymbol : report.symbol ≠ "") :
    (m.syncPosition exchange report).positions = m.positions.map (·.refresh report) ++
        if m.Adopts report then [report.adopt exchange] else [] := by
  have hvalid : ¬ (report.quantity ≤ 0 ∨ report.symbol = "") :=
    not_or.mpr ⟨not_le.mpr hquantity, hsymbol⟩
  have hhead : m.position? report.symbol = (m.positionsOf report.symbol).head? :=
    m.position?_eq report.symbol
  unfold PositionManager.syncPosition
  rw [if_neg hvalid]
  cases hof : m.positionsOf report.symbol with
  | nil =>
    have hkeep : m.positions.map (·.refresh report) = m.positions := by
      rw [List.map_congr_left (g := id), List.map_id]
      intro pos hpos
      exact Position.refresh_of_ne (KeyedList.under_eq_nil_iff.mp hof pos hpos)
    rw [hkeep]
    cases hpending : m.pendingOrders.find? report.symbol with
    | none => simp [hhead, Adopts, hof, hpending, PositionReport.adopt]
    | some order => simp [hhead, Adopts, hof, hpending]
  | cons pos rest =>
    have hone := h report.symbol
    rw [hof, List.length_cons] at hone
    have hrest : rest = [] := List.eq_nil_of_length_eq_zero (by omega)
    rw [hof, List.head?_cons] at hhead
    subst hrest
    have hown := symbol_of_position? hhead
    have hheld : ¬ m.Adopts report := fun hadopts => by simp [hadopts.1] at hof
    simp only [hhead, hheld, if_false, List.append_nil]
    rw [setPosition, KeyedList.put_eq_map (c := pos) (by rw [← hown] at hof; exact hof)]
    apply List.map_congr_left
    intro pos' hpos'
    by_cases hsame : pos'.symbol = report.symbol
    · have hmem : pos' ∈ m.positionsOf report.symbol := KeyedList.mem_under.mpr ⟨hpos', hsame⟩
      rw [hof, List.mem_singleton] at hmem
      subst hmem
      simp [Position.refresh, hown]
    · simp [Position.refresh, hsame, hown]

/-- A report of another symbol does not change whether one is adopted. -/
theorem adopts_syncPosition {report report' : PositionReport} (hne : report.symbol ≠ report'.symbol) :
    (m.syncPosition exchange report).Adopts report' ↔ m.Adopts report' := by
  unfold Adopts
  rw [(spares_syncPosition m exchange hne).positions, pendingOrders_syncPosition]

/-- A list of reports refreshes what is held and adopts what is not. -/
theorem positions_syncAll (exchange : String) (h : m.Single) {reports : List PositionReport}
    (hnodup : (reports.map PositionReport.symbol).Nodup)
    (hvalid : ∀ report ∈ reports, 0 < report.quantity ∧ report.symbol ≠ "") :
    (reports.foldl (·.syncPosition exchange ·) m).positions = m.positions.map (·.refreshAll reports) ++
        (reports.filter m.Adopts).map (·.adopt exchange) := by
  induction reports generalizing m with
  | nil =>
    change m.positions = m.positions.map id ++ []
    rw [List.map_id, List.append_nil]
  | cons report rest ih =>
    rw [List.map_cons, List.nodup_cons] at hnodup
    obtain ⟨hquantity, hsymbol⟩ := hvalid report List.mem_cons_self
    have hadopts : rest.filter (m.syncPosition exchange report).Adopts = rest.filter m.Adopts := by
      apply List.filter_congr
      intro report' hreport'
      apply decide_eq_decide.mpr
      apply adopts_syncPosition
      exact fun hsame => hnodup.1 (hsame ▸ List.mem_map_of_mem hreport')
    have hnew : (report.adopt exchange).refreshAll rest = report.adopt exchange :=
      Position.refreshAll_of_not_mem hnodup.1
    rw [List.foldl_cons, ih (h.syncPosition report) hnodup.2
      fun report' hreport' => hvalid report' (List.mem_cons_of_mem report hreport'), hadopts,
      positions_syncPosition h hquantity hsymbol, List.map_append, List.map_map, List.append_assoc]
    congr 1
    by_cases hadopt : m.Adopts report
    · simp [hadopt, hnew]
    · simp [hadopt]

theorem misses_syncAll (m : PositionManager) (exchange : String) (reports : List PositionReport)
    (symbol : String) : (reports.foldl (·.syncPosition exchange ·) m).misses symbol = m.misses symbol := by
  induction reports generalizing m with
  | nil => rfl
  | cons report rest ih =>
    rw [List.foldl_cons, ih]
    unfold PositionManager.syncPosition
    split
    · rfl
    · split
      · rfl
      · split
        · rfl
        · rfl

/-- A list of reports keeps a book in good order. -/
theorem tidy_syncAll (h : m.Single) (hon : m.OnlyOn exchange) (reports : List PositionReport) :
    (reports.foldl (·.syncPosition exchange ·) m).Single ∧
      (reports.foldl (·.syncPosition exchange ·) m).OnlyOn exchange := by
  induction reports generalizing m with
  | nil => exact ⟨h, hon⟩
  | cons report rest ih => exact ih (h.syncPosition report) (hon.syncPosition report)

/-- A position that a reconciliation keeps: it is listed, or has not been missed too often. -/
def Kept (m : PositionManager) (symbols : List String) (pos : Position) : Prop :=
  pos.symbol ∈ symbols ∨ m.misses pos.symbol + 1 < syncMissLimit

instance (m : PositionManager) (symbols : List String) : DecidablePred (m.Kept symbols) := fun pos =>
  inferInstanceAs (Decidable (pos.symbol ∈ symbols ∨ m.misses pos.symbol + 1 < syncMissLimit))

theorem positions_reconcile {symbols : List String} {positions : List Position}
    (hnodup : (positions.map Position.symbol).Nodup)
    (hon : ∀ pos ∈ positions, pos.exchange = exchange) (acc : List String × PositionManager) :
    (positions.foldl (reconcileOne symbols exchange) acc).2.positions =
      acc.2.positions ++ positions.filter (acc.2.Kept symbols) := by
  induction positions generalizing acc with
  | nil => simp
  | cons pos rest ih =>
    rw [List.map_cons, List.nodup_cons] at hnodup
    have hrest : rest.filter ((reconcileOne symbols exchange acc pos).2.Kept symbols) =
        rest.filter (acc.2.Kept symbols) := by
      apply List.filter_congr
      intro pos' hpos'
      have hne : pos.symbol ≠ pos'.symbol :=
        fun hsame => hnodup.1 (hsame ▸ List.mem_map_of_mem hpos')
      apply decide_eq_decide.mpr
      unfold Kept
      rw [(spares_reconcileOne symbols exchange acc hne).misses]
    rw [List.foldl_cons, ih hnodup.2 (fun pos' hpos' => hon pos' (List.mem_cons_of_mem pos hpos')),
      hrest]
    obtain ⟨removed, m⟩ := acc
    have hexchange := hon pos List.mem_cons_self
    have hmisses : (m.syncMisses.find? pos.symbol).getD 0 = m.misses pos.symbol := rfl
    by_cases hlisted : pos.symbol ∈ symbols
    · simp [reconcileOne, Kept, hlisted]
    · by_cases hfew : m.misses pos.symbol + 1 < syncMissLimit
      · simp [reconcileOne, Kept, hlisted, hexchange, hfew, hmisses]
      · simp [reconcileOne, Kept, hlisted, hexchange, hfew, hmisses]

theorem positions_reconcilePositions (h : m.Single) (hon : m.OnlyOn exchange) (symbols : List String) :
    (m.reconcilePositions symbols exchange).2.positions = m.positions.filter (m.Kept symbols) := by
  rw [reconcilePositions, positions_reconcile (single_iff.mp h) hon.positions, List.nil_append]
  apply List.filter_congr
  intro pos _
  apply decide_eq_decide.mpr
  apply or_congr_right'
  intro hunlisted
  rw [misses, Dict.find?_eraseAll_of_not_mem _ hunlisted]
  rfl

end PositionManager

/-! ### What the book shows -/

/-- The equity that `update_risk_state` and `precheck_order` compute. -/
def BotContext.equity (x : BotContext) : ℚ := x.balance + x.posMgr.totalUnrealizedPnl

namespace Broadcast

variable {exchange : String}

/-- A broadcast of an exchange's account. -/
structure Of (b : Broadcast exchange) (l : Exchange.Ledger) : Prop where
  balance : b.status.balance = l.account.balance
  reports : b.reports = l.openPositions.map reportOf

/-- The balance that a broadcast leaves: only a positive one is stored. -/
def storedBalance (b : Broadcast exchange) (x : BotContext) : ℚ :=
  if 0 < b.status.balance then b.status.balance else x.balance

/-- The positions of a book that a broadcast keeps. -/
def kept (b : Broadcast exchange) (m : PositionManager) : List Position :=
  m.positions.filter (m.Kept b.symbols)

/-- The fees and the funding that were booked on what is kept. -/
def costs (b : Broadcast exchange) (m : PositionManager) : ℚ :=
  ((b.kept m).map Position.costs).sum

/-- What the kept positions have won that the broadcast does not list. -/
def ghosts (b : Broadcast exchange) (m : PositionManager) (price : String → ℚ) : ℚ :=
  (((b.kept m).filter fun pos => pos.symbol ∉ b.symbols).map
    fun pos => pos.profitAt (price pos.symbol)).sum

/-- What a book shows of a reported position, before costs: it wins on the book's own side, and counts
nothing where it is neither held nor adopted. -/
def shown (b : Broadcast exchange) (m : PositionManager) (price : String → ℚ)
    (report : PositionReport) : ℚ :=
  ((m.positionsOf report.symbol).map
      fun pos => (pos.refreshAll b.reports).profitAt (price pos.symbol)).sum +
    if m.Adopts report then (report.adopt exchange).profitAt (price report.symbol) else 0

/-- What the open positions have won that the book does not show. -/
def unseen (b : Broadcast exchange) (l : Exchange.Ledger) (m : PositionManager) (price : String → ℚ) : ℚ :=
  (l.openPositions.map fun p => p.unrealizedPnl - b.shown m price (reportOf p)).sum

theorem run_syncs (reports : List PositionReport) (x : BotContext) :
    run (BotContext.step exchange) x (reports.map .syncPosition) =
      { x with posMgr := reports.foldl (·.syncPosition exchange ·) x.posMgr } := by
  induction reports generalizing x with
  | nil => rfl
  | cons report rest ih => exact ih _

/-- What a broadcast does to the bot. -/
theorem run_events (b : Broadcast exchange) (x : BotContext) : run (BotContext.step exchange) x b.events =
      { x with
        balance := b.storedBalance x
        posMgr := ((b.reports.foldl (·.syncPosition exchange ·) x.posMgr).reconcilePositions
          b.symbols exchange).2 } := by
  rw [events_eq, run_append, run_append, run_syncs]
  unfold storedBalance
  split
  · rfl
  · rfl

/-- The book after a broadcast: what is kept on the reported terms, and what is adopted. -/
theorem positions_run {x : BotContext} (hx : x.Tidy exchange) (b : Broadcast exchange) :
    (run (BotContext.step exchange) x b.events).posMgr.positions =
      (b.kept x.posMgr).map (·.refreshAll b.reports) ++
        (b.reports.filter x.posMgr.Adopts).map (·.adopt exchange) := by
  have hsynced := PositionManager.positions_syncAll exchange hx.single b.nodup
    fun report hreport => ⟨b.positive report hreport, b.named report hreport⟩
  obtain ⟨hsingle, hon⟩ := PositionManager.tidy_syncAll hx.single hx.onlyOn b.reports
  have hkept : (b.reports.foldl (·.syncPosition exchange ·) x.posMgr).Kept b.symbols =
      x.posMgr.Kept b.symbols := by
    funext pos
    simp only [PositionManager.Kept, PositionManager.misses_syncAll]
  rw [run_events]
  rw [PositionManager.positions_reconcilePositions hsingle hon, hsynced, List.filter_append,
    List.filter_map]
  congr 1
  · congr 1
    apply List.filter_congr
    intro pos _
    apply decide_eq_decide.mpr
    rw [hkept]
    simp only [PositionManager.Kept, Position.symbol_refreshAll]
  · rw [List.filter_eq_self]
    intro pos hpos
    obtain ⟨report, hreport, rfl⟩ := List.mem_map.mp hpos
    have hlisted : report.symbol ∈ b.symbols := List.mem_map_of_mem (List.mem_of_mem_filter hreport)
    exact decide_eq_true (Or.inl hlisted)

theorem sum_kept (b : Broadcast exchange) (m : PositionManager) (f : Position → ℚ) :
    ((b.kept m).map f).sum = (b.reports.map fun report => ((m.positionsOf report.symbol).map f).sum).sum +
        (((b.kept m).filter fun pos => pos.symbol ∉ b.symbols).map f).sum := by
  have hlisted : (b.kept m).filter (fun pos => pos.symbol ∈ b.symbols) =
      m.positions.filter fun pos => pos.symbol ∈ b.symbols := by
    rw [kept, List.filter_filter]
    apply List.filter_congr
    intro pos _
    by_cases hmem : pos.symbol ∈ b.symbols
    · simp [PositionManager.Kept, hmem]
    · simp [hmem]
  have hunder : (b.symbols.map fun symbol => ((m.positionsOf symbol).map f).sum).sum =
      ((m.positions.filter fun pos => pos.symbol ∈ b.symbols).map f).sum :=
    KeyedList.sum_under b.nodup f m.positions
  rw [symbols, List.map_map] at hunder
  rw [← List.sum_map_filter_add_sum_map_filter_not (fun pos => pos.symbol ∈ b.symbols), hlisted]
  congr 1
  exact hunder.symm

/-- What a book shows after a broadcast. -/
theorem sum_profitAt {x : BotContext} (hx : x.Tidy exchange) (b : Broadcast exchange)
    (price : String → ℚ) : (((run (BotContext.step exchange) x b.events).posMgr.positions).map
        fun pos => pos.profitAt (price pos.symbol) - pos.costs).sum =
      (b.reports.map (b.shown x.posMgr price)).sum + b.ghosts x.posMgr price - b.costs x.posMgr := by
  have hkept : (((b.kept x.posMgr).map (·.refreshAll b.reports)).map
        fun pos => pos.profitAt (price pos.symbol) - pos.costs).sum =
      ((b.kept x.posMgr).map
        fun pos => (pos.refreshAll b.reports).profitAt (price pos.symbol)).sum -
          b.costs x.posMgr := by
    rw [costs, ← KeyedList.sum_map_sub, List.map_map]
    simp only [Function.comp_def, Position.symbol_refreshAll, Position.costs_refreshAll]
  have hadopted : (((b.reports.filter x.posMgr.Adopts).map (·.adopt exchange)).map
        fun pos => pos.profitAt (price pos.symbol) - pos.costs).sum =
      (b.reports.map fun report => if x.posMgr.Adopts report then
        (report.adopt exchange).profitAt (price report.symbol) else 0).sum := by
    rw [List.sum_map_ite, List.map_map]
    simp [Function.comp_def, Position.costs, PositionManager.PositionReport.adopt]
  have hghosts : (((b.kept x.posMgr).filter fun pos => pos.symbol ∉ b.symbols).map
      fun pos => (pos.refreshAll b.reports).profitAt (price pos.symbol)).sum =
        b.ghosts x.posMgr price := by
    congr 1
    apply List.map_congr_left
    intro pos hpos
    rw [Position.refreshAll_of_not_mem (of_decide_eq_true (List.mem_filter.mp hpos).2)]
  rw [positions_run hx, List.map_append, List.sum_append, hkept, hadopted, sum_kept, hghosts]
  unfold shown
  rw [List.sum_map_add]
  ring

theorem equity_eq (l : Exchange.Ledger) : l.equity = l.account.balance + l.lockedMargin +
      (l.openPositions.map Exchange.Position.unrealizedPnl).sum := by
  rw [Exchange.Ledger.equity, List.sum_map_add]
  rw [Exchange.SimulatedExchange.sum_margin, add_assoc]

theorem equity_marked {x : BotContext} (hx : x.Tidy exchange) (b : Broadcast exchange)
    {prices : Dict String ℚ} {price : String → ℚ}
    (hprices : ∀ pos ∈ (run (BotContext.step exchange) x b.events).posMgr.positions,
      prices.find? pos.symbol = some (price pos.symbol)) :
    (run (BotContext.step exchange) x (b.events ++ [.updateAllPnl prices])).equity =
      b.storedBalance x + (b.reports.map (b.shown x.posMgr price)).sum + b.ghosts x.posMgr price -
        b.costs x.posMgr := by
  have hpnl : (run (BotContext.step exchange) x
        (b.events ++ [.updateAllPnl prices])).posMgr.totalUnrealizedPnl =
      (((run (BotContext.step exchange) x b.events).posMgr.positions).map
        fun pos => pos.profitAt (price pos.symbol) - pos.costs).sum := by
    rw [run_append]
    change (((PositionManager.positions _).map _).map _).sum = _
    rw [List.map_map]
    congr 1
    apply List.map_congr_left
    intro pos hpos
    simp only [Function.comp_apply, hprices pos hpos]
    rfl
  have hbalance : (run (BotContext.step exchange) x
      (b.events ++ [.updateAllPnl prices])).balance = b.storedBalance x := by
    rw [run_append, run_events]
    rfl
  rw [BotContext.equity, hpnl, hbalance, sum_profitAt hx]
  ring

/-- The two equities differ by the margin, by the costs that the bot takes off, and by what it does
not show; ghosts and a balance that was not stored count the other way. -/
theorem equity_sub (hx : x.Tidy exchange) {b : Broadcast exchange} {l : Exchange.Ledger}
    (hb : b.Of l) {prices : Dict String ℚ} {price : String → ℚ}
    (hprices : ∀ pos ∈ (run (BotContext.step exchange) x b.events).posMgr.positions,
      prices.find? pos.symbol = some (price pos.symbol)) :
    l.equity - (run (BotContext.step exchange) x (b.events ++ [.updateAllPnl prices])).equity =
      l.lockedMargin + b.costs x.posMgr + b.unseen l x.posMgr price -
        (b.ghosts x.posMgr price + (b.storedBalance x - l.account.balance)) := by
  rw [equity_eq, equity_marked hx b hprices, unseen, KeyedList.sum_map_sub, hb.reports,
    List.map_map]
  simp only [Function.comp_def]
  ring

end Broadcast

/-- An order as the exchange sends it. -/
def OrderUpdate.ofOrder (o : Exchange.Order) : OrderUpdate where
  symbol := o.symbol
  exchange := o.exchange
  side := o.side
  status := o.status
  filledQuantity := o.filledQuantity
  filledPrice := o.filledPrice
  fee := o.fee
  clientOrderId := o.clientOrderId.getD ""

namespace BotContext

/-- The equities agree exactly if margin, costs and what the bot does not show add up to the ghosts
and the balance that was not stored. -/
theorem equity_eq_iff (exchange : String) (past : List BotEvent) {b : Broadcast exchange}
    {l : Exchange.Ledger} (hb : b.Of l) {prices : Dict String ℚ} (price : String → ℚ)
    (hprices : ∀ pos ∈ (run (step exchange) {} (past ++ b.events)).posMgr.positions,
      prices.find? pos.symbol = some (price pos.symbol)) :
    (run (step exchange) {} (past ++ b.events ++ [.updateAllPnl prices])).equity = l.equity ↔
      l.lockedMargin + b.costs (run (step exchange) {} past).posMgr +
          b.unseen l (run (step exchange) {} past).posMgr price =
        b.ghosts (run (step exchange) {} past).posMgr price +
          (b.storedBalance (run (step exchange) {} past) - l.account.balance) := by
  rw [run_append] at hprices
  have hsub := Broadcast.equity_sub (tidy_run exchange past) hb hprices
  rw [List.append_assoc, run_append, ← sub_eq_zero, ← neg_sub, hsub, neg_eq_zero, sub_eq_zero]

/-- The exchange marks what it has bought. -/
def markedCalls : List (Exchange.MarketView × Exchange.Operation) :=
  heldCalls ++ [(SimulatedExchange.flatMarket 100, .checkStopLossTakeProfit)]

/-- Then it sells it again. -/
def soldCalls : List (Exchange.MarketView × Exchange.Operation) :=
  markedCalls ++
    [(SimulatedExchange.flatMarket 100, .submitOrder { symbol := "BTC", side := .sell, quantity := 1 })]

/-- The exchange after some calls. -/
def exchangeAfter (calls : List (Exchange.MarketView × Exchange.Operation)) : SimulatedExchange :=
  .after Exchange.Numerics.decimal "binance" "USDT" (1 / 10) 5 10000 10 calls

def markedBroadcast : Broadcast "binance" := broadcastAfter markedCalls (by decide +kernel)

def soldBroadcast : Broadcast "binance" := broadcastAfter soldCalls (by decide +kernel)

/-- The bot sends an order and is told of its fill. -/
def boughtEvents : List BotEvent :=
  [.addPendingOrder { symbol := "BTC", direction := .long } 1,
    .fill (.ofOrder ((exchangeAfter markedCalls).orders.get 0))]

/-- A bot whose position was closed again has the equity of the exchange. -/
theorem equity_eq_soldOut : (run (step "binance") {} (boughtEvents ++
        [.fill (.ofOrder ((exchangeAfter soldCalls).orders.get 1))] ++ soldBroadcast.events ++
          [.updateAllPnl Dict.empty])).equity = (exchangeAfter soldCalls).ledger.equity :=
  (equity_eq_iff "binance" _ ⟨rfl, rfl⟩ 0 (by decide +kernel)).mpr
    (by decide +kernel)

/-- Of the open position the bot misses the margin and the fee. -/
theorem equity_ne_openMargin : markedBroadcast.Of (exchangeAfter markedCalls).ledger ∧
      (exchangeAfter markedCalls).ledger.openPositions.map (·.updatePnl 100) =
        (exchangeAfter markedCalls).ledger.openPositions ∧
      (run (step "binance") {} (boughtEvents ++ markedBroadcast.events ++
          [.updateAllPnl (Dict.empty.insert "BTC" 100)])).equity ≠
        (exchangeAfter markedCalls).ledger.equity ∧ (exchangeAfter markedCalls).ledger.equity -
          (run (step "binance") {} (boughtEvents ++ markedBroadcast.events ++
            [.updateAllPnl (Dict.empty.insert "BTC" 100)])).equity =
        (exchangeAfter markedCalls).ledger.lockedMargin + ((exchangeAfter markedCalls).orders.get 0).fee :=
  ⟨⟨rfl, rfl⟩, by decide +kernel, by decide +kernel, by decide +kernel⟩

end BotContext

end TradingSim.Bot
