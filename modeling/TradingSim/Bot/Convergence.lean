import TradingSim.Bot.OrderBooking
import TradingSim.Bot.SinglePositions
import TradingSim.Exchange.Runs

/-!
# The local book and the account broadcasts

A broadcast lists the positions of an exchange. The bot adopts the ones it does not have, refreshes
quantity and entry price of those it has, and drops what three broadcasts in a row do not list. It
never corrects the side of a position it has.
-/

namespace TradingSim.Bot

open Foundations
open Exchange (Side SimulatedExchange)
open PositionManager (PositionReport Spares)

/-- An account broadcast of an exchange: its positions, one a symbol and none empty. -/
structure Broadcast (exchange : String) where
  accounts : Dict String AccountStatus
  status : AccountStatus
  reports : List PositionReport
  listed : accounts.find? exchange = some status ∧ status.positions = some reports
  nodup : (reports.map PositionReport.symbol).Nodup
  named : ∀ report ∈ reports, report.symbol ≠ ""
  positive : ∀ report ∈ reports, 0 < report.quantity

namespace Broadcast

variable {exchange : String}

def symbols (b : Broadcast exchange) : List String := b.reports.map PositionReport.symbol

/-- What `on_account` does with a broadcast. -/
def events (b : Broadcast exchange) : List BotEvent := BotContext.onAccount exchange b.accounts

def reportOf (pos : Exchange.Position) : PositionReport where
  symbol := pos.symbol
  side := pos.side
  quantity := pos.quantity
  entryPrice := pos.entryPrice
  stopLoss := pos.stopLoss
  takeProfit := pos.takeProfit

/-- The broadcast of an exchange's account. -/
def ofExchange {x : SimulatedExchange} {opening : ℚ} (h : x.Sound opening) (exchange : String)
    (hnamed : ∀ pos ∈ x.ledger.openPositions, pos.symbol ≠ "") : Broadcast exchange where
  accounts := Dict.empty.insert exchange {
    balance := x.ledger.account.balance
    positions := some (x.ledger.openPositions.map reportOf) }
  status := {
    balance := x.ledger.account.balance
    positions := some (x.ledger.openPositions.map reportOf) }
  reports := x.ledger.openPositions.map reportOf
  listed := ⟨Dict.find?_insert_self _ _ _, rfl⟩
  nodup := by
    rw [Exchange.Ledger.openPositions, List.map_map, List.map_map]
    exact h.ledger.valid.nodup.map_on fun r hr r' hr' hsymbol =>
      h.ledger.valid.unique hr hr' hsymbol
  named := by
    intro report hreport
    obtain ⟨pos, hpos, rfl⟩ := List.mem_map.mp hreport
    exact hnamed pos hpos
  positive := by
    intro report hreport
    obtain ⟨pos, hpos, rfl⟩ := List.mem_map.mp hreport
    obtain ⟨r, hr, rfl⟩ := List.mem_map.mp hpos
    exact h.ledger.valid.positive r hr

variable (b : Broadcast exchange)

theorem events_eq : b.events = (if 0 < b.status.balance then [.storeBalance b.status.balance] else []) ++
      (b.reports.map .syncPosition ++ [.reconcilePositions b.symbols]) := by
  obtain ⟨hstatus, hreports⟩ := b.listed
  simp only [events, BotContext.onAccount, hstatus, hreports]
  rfl

theorem sync_mem_events {report : PositionReport}
    (h : report ∈ b.reports) : .syncPosition report ∈ b.events := by
  rw [events_eq]
  exact List.mem_append_right _ (List.mem_append_left _ (List.mem_map_of_mem h))

theorem reconcile_mem_events : .reconcilePositions b.symbols ∈ b.events := by
  rw [events_eq]
  exact List.mem_append_right _ (List.mem_append_right _ (List.mem_singleton_self _))

theorem mem_events {b : Broadcast exchange} {e : BotEvent} (h : e ∈ b.events) :
    (∃ balance, e = .storeBalance balance) ∨ (∃ report ∈ b.reports, e = .syncPosition report) ∨
      e = .reconcilePositions b.symbols := by
  rw [events_eq, List.mem_append, List.mem_append] at h
  rcases h with hbalance | hsync | hreconcile
  · left
    split at hbalance
    · exact ⟨_, List.mem_singleton.mp hbalance⟩
    · cases hbalance
  · obtain ⟨report, hreport, rfl⟩ := List.mem_map.mp hsync
    exact Or.inr (Or.inl ⟨report, hreport, rfl⟩)
  · exact Or.inr (Or.inr (List.mem_singleton.mp hreconcile))

theorem report_unique {b : Broadcast exchange} {report report' : PositionReport}
    (h : report ∈ b.reports) (h' : report' ∈ b.reports) (hsymbol : report'.symbol = report.symbol) :
    report' = report :=
  List.inj_on_of_nodup_map b.nodup h' h hsymbol

end Broadcast

def BotEvent.ofMainLoop : BotEvent → Bool
  | .submitOrder _ _ => true
  | .addPendingOrder _ _ => true
  | .markClosing _ _ => true
  | .updateAllPnl _ => true
  | _ => false

/-- A broadcast is processed while the main loop goes on. -/
def Broadcast.Processed {exchange : String} (b : Broadcast exchange) (schedule : List BotEvent) : Prop :=
  ∃ others, Interleaves others b.events schedule ∧ ∀ e ∈ others, e.ofMainLoop

/-- What happens until a broadcast was processed: the main loop and other messages, but no other
broadcast. -/
def Broadcast.Next {exchange : String} (b : Broadcast exchange) (events : List BotEvent) : Prop :=
  ∃ front schedule, events = front ++ schedule ∧ (∀ e ∈ front, ¬ e.ofAccount) ∧
    b.Processed schedule

theorem Broadcast.Processed.mem {exchange : String} {b : Broadcast exchange}
    {schedule : List BotEvent} (h : b.Processed schedule) :
    (∀ e ∈ schedule, e.ofMainLoop ∨ e ∈ b.events) ∧ ∀ e ∈ b.events, e ∈ schedule := by
  obtain ⟨others, hinterleaves, hothers⟩ := h
  constructor
  · intro e he
    exact ((hinterleaves.mem_iff e).mp he).imp_left (hothers e)
  · intro e he
    exact (hinterleaves.mem_iff e).mpr (Or.inr he)

theorem BotEvent.not_ofAccount {e : BotEvent} (h : e.ofMainLoop) : ¬ e.ofAccount := by
  cases e <;> simp_all [ofMainLoop, ofAccount]

theorem Broadcast.Next.mem {exchange : String} {b : Broadcast exchange} {events : List BotEvent}
    (h : b.Next events) : (∀ e ∈ events, ¬ e.ofAccount ∨ e ∈ b.events) ∧ ∀ e ∈ b.events, e ∈ events := by
  obtain ⟨front, schedule, rfl, hfront, hprocessed⟩ := h
  obtain ⟨hschedule, hmem⟩ := hprocessed.mem
  constructor
  · intro e he
    rcases List.mem_append.mp he with he | he
    · exact Or.inl (hfront e he)
    · exact (hschedule e he).imp_left BotEvent.not_ofAccount
  · intro e he
    exact List.mem_append_right front (hmem e he)

/-- What an exchange can report of a position: its side, quantity and entry price. The exchange is
there as well. -/
def Position.terms (pos : Position) : String × Side × ℚ × ℚ :=
  (pos.exchange, pos.side, pos.quantity, pos.entryPrice)

namespace BotContext

variable {exchange symbol : String} {x : BotContext}

/-- The terms of a symbol's positions. -/
def terms (x : BotContext) (symbol : String) : List (String × Side × ℚ × ℚ) :=
  (x.posMgr.positionsOf symbol).map Position.terms

/-- The symbol that a position is reported for has exactly one position, on the reported terms. -/
def Matches (x : BotContext) (report : PositionReport) : Prop :=
  (x.posMgr.positionsOf report.symbol).map (fun pos => (pos.side, pos.quantity, pos.entryPrice)) =
    [(report.side, report.quantity, report.entryPrice)]

instance (x : BotContext) (report : PositionReport) : Decidable (x.Matches report) :=
  inferInstanceAs (Decidable (_ = _))

/-- The terms after a report: quantity and entry price are refreshed, or the position is adopted. -/
def refreshed (exchange : String) (report : PositionReport) :
    List (String × Side × ℚ × ℚ) → List (String × Side × ℚ × ℚ)
  | [] => [(exchange, report.side, report.quantity, report.entryPrice)]
  | (ex, side, _, _) :: rest => (ex, side, report.quantity, report.entryPrice) :: rest

theorem refreshed_refreshed (exchange : String) (report : PositionReport)
    (terms : List (String × Side × ℚ × ℚ)) :
    refreshed exchange report (refreshed exchange report terms) = refreshed exchange report terms := by
  cases terms with
  | nil => rfl
  | cons t rest => rfl

variable {b : Broadcast exchange} {report : PositionReport} {e : BotEvent}

theorem terms_step_of_ofMainLoop (exchange : String) (he : e.ofMainLoop) (x : BotContext) (symbol : String) :
    (x.step exchange e).terms symbol = x.terms symbol ∧
      (x.step exchange e).posMgr.misses symbol = x.posMgr.misses symbol := by
  cases e with
  | submitOrder signal quantity =>
    simp only [step]
    split
    · exact ⟨rfl, rfl⟩
    · exact ⟨rfl, rfl⟩
  | addPendingOrder signal quantity =>
    simp only [step, PositionManager.addPendingOrder]
    split
    · exact ⟨rfl, rfl⟩
    · exact ⟨rfl, rfl⟩
  | markClosing symbol' now => exact ⟨rfl, rfl⟩
  | updateAllPnl prices =>
    refine ⟨?_, rfl⟩
    simp only [terms, step, PositionManager.positionsOf_updateAllPnl, List.map_map]
    congr 1
    funext pos
    simp only [Function.comp_apply]
    split
    · rfl
    · rfl
  | _ => cases he

theorem terms_syncPosition (exchange : String)
    (hquantity : 0 < report.quantity) (hsymbol : report.symbol ≠ "") (x : BotContext)
    (hpending : x.posMgr.pendingOrders.find? report.symbol = none) :
    (x.step exchange (.syncPosition report)).terms report.symbol =
      refreshed exchange report (x.terms report.symbol) := by
  simp only [terms, step, PositionManager.positionsOf_syncPosition _ _ hquantity hsymbol hpending]
  cases x.posMgr.positionsOf report.symbol with
  | nil => rfl
  | cons pos rest => rfl

/-- An event that does not register an order of a symbol leaves it without a pending order. -/
theorem pending_step_eq_none
    (he : ∀ signal quantity, e = .addPendingOrder signal quantity → signal.symbol ≠ symbol)
    (hpending : x.posMgr.pendingOrders.find? symbol = none) :
    (x.step exchange e).posMgr.pendingOrders.find? symbol = none := by
  cases e with
  | submitOrder signal quantity =>
    simp only [step]
    split
    · exact hpending
    · exact hpending
  | addPendingOrder signal quantity =>
    have hother : symbol ≠ signal.symbol := (he signal quantity rfl).symm
    simp only [step, PositionManager.find?_pendingOrders_addPendingOrder, hother, and_false,
      if_false]
    exact hpending
  | fill o =>
    simp only [step, find?_pendingOrders_onFill, hpending, ite_self]
  | syncPosition report =>
    rw [pendingOrders_step_of_ofAccount rfl]
    exact hpending
  | reconcilePositions exchangeSymbols =>
    rw [pendingOrders_step_of_ofAccount rfl]
    exact hpending
  | orderCancelled o =>
    simp only [step, onOrderCancelled]
    split
    · rfl
    · simp only [PositionManager.cancelPending, Dict.find?_erase, hpending, ite_self]
  | ordersCancelled orders => rfl
  | _ => exact hpending

/-- No order of some symbols is pending, and none is registered. -/
structure Idle (symbols : Set String) (x : BotContext) (events : List BotEvent) : Prop where
  pending : ∀ symbol ∈ symbols, x.posMgr.pendingOrders.find? symbol = none
  registers : ∀ signal quantity, .addPendingOrder signal quantity ∈ events → signal.symbol ∉ symbols

theorem Idle.step {symbols : Set String} {rest : List BotEvent}
    (h : x.Idle symbols (e :: rest)) : (x.step exchange e).Idle symbols rest where
  pending := by
    intro symbol hsymbol
    apply pending_step_eq_none _ (h.pending symbol hsymbol)
    rintro signal quantity rfl rfl
    exact h.registers signal quantity List.mem_cons_self hsymbol
  registers signal quantity hmem := h.registers signal quantity (List.mem_cons_of_mem e hmem)

theorem Idle.append (exchange : String) {symbols : Set String} {first second : List BotEvent}
    (h : x.Idle symbols (first ++ second)) :
    x.Idle symbols first ∧ (run (BotContext.step exchange) x first).Idle symbols second := by
  constructor
  · exact ⟨h.pending, fun signal quantity hmem =>
      h.registers signal quantity (List.mem_append_left second hmem)⟩
  · induction first generalizing x with
    | nil => exact h
    | cons e rest ih => exact ih h.step

/-- While a broadcast is processed, nothing but its report changes the terms of a listed symbol. -/
theorem terms_step_of_ne (hreport : report ∈ b.reports) (he : e.ofMainLoop ∨ e ∈ b.events)
    (hne : e ≠ .syncPosition report) (x : BotContext) :
    (x.step exchange e).terms report.symbol = x.terms report.symbol := by
  rcases he with hmain | hevent
  · exact (terms_step_of_ofMainLoop exchange hmain x report.symbol).1
  · rcases Broadcast.mem_events hevent with ⟨balance, rfl⟩ | ⟨report', hreport', rfl⟩ | rfl
    · rfl
    · have hsymbol : report'.symbol ≠ report.symbol := fun hsame =>
        hne (congrArg BotEvent.syncPosition (Broadcast.report_unique hreport hreport' hsame))
      have hspares := PositionManager.spares_syncPosition x.posMgr exchange hsymbol
      exact congrArg (List.map Position.terms) hspares.positions
    · have hlisted : report.symbol ∈ b.symbols := List.mem_map_of_mem hreport
      have hkept := PositionManager.under_reconcile hlisted exchange x.posMgr.positions
        ([], { x.posMgr with positions := [], syncMisses := x.posMgr.syncMisses.eraseAll b.symbols })
      exact congrArg (List.map Position.terms) hkept

theorem terms_run_of_processed (hreport : report ∈ b.reports) (schedule : List BotEvent)
    (hschedule : ∀ e ∈ schedule, e.ofMainLoop ∨ e ∈ b.events) (x : BotContext)
    (hidle : x.Idle {symbol | symbol ∈ b.symbols} schedule) (hreported : .syncPosition report ∈ schedule ∨
      refreshed exchange report (x.terms report.symbol) = x.terms report.symbol) :
    (run (step exchange) x schedule).terms report.symbol =
      refreshed exchange report (x.terms report.symbol) := by
  induction schedule generalizing x with
  | nil =>
    rcases hreported with hmem | hfresh
    · cases hmem
    · exact hfresh.symm
  | cons e rest ih =>
    have he := hschedule e List.mem_cons_self
    have hrest : ∀ e' ∈ rest, e'.ofMainLoop ∨ e' ∈ b.events :=
      fun e' he' => hschedule e' (List.mem_cons_of_mem e he')
    rw [run_cons]
    by_cases hsync : e = .syncPosition report
    · subst hsync
      have hterms := terms_syncPosition exchange (b.positive report hreport)
        (b.named report hreport) x (hidle.pending _ (List.mem_map_of_mem hreport))
      have hfresh := refreshed_refreshed exchange report (x.terms report.symbol)
      rw [ih hrest _ hidle.step (Or.inr (by rw [hterms, hfresh])), hterms, hfresh]
    · have hterms := terms_step_of_ne hreport he hsync x
      rw [ih hrest _ hidle.step, hterms]
      rw [hterms]
      exact hreported.imp_left fun hmem => (List.mem_cons.mp hmem).resolve_left (Ne.symm hsync)

/-- After a broadcast a listed symbol is as reported exactly if no position that it had before was on
the other side. -/
theorem matches_iff (hx : x.Tidy exchange)
    (hreport : report ∈ b.reports) {schedule : List BotEvent} (h : b.Processed schedule)
    (hidle : x.Idle {symbol | symbol ∈ b.symbols} schedule) :
    (run (step exchange) x schedule).Matches report ↔
      ∀ pos ∈ x.posMgr.positions, pos.symbol = report.symbol → pos.side = report.side := by
  obtain ⟨hevents, hmem⟩ := h.mem
  have hterms := terms_run_of_processed hreport schedule hevents x hidle
    (Or.inl (hmem _ (b.sync_mem_events hreport)))
  have hmatches : ∀ y : BotContext, y.Matches report ↔ (y.terms report.symbol).map Prod.snd =
      [(report.side, report.quantity, report.entryPrice)] := by
    intro y
    rw [terms, List.map_map]
    rfl
  have hof : (∀ pos ∈ x.posMgr.positions, pos.symbol = report.symbol → pos.side = report.side) ↔
      ∀ pos ∈ x.posMgr.positionsOf report.symbol, pos.side = report.side := by
    simp only [PositionManager.positionsOf, KeyedList.mem_under, and_imp]
  have hone := hx.single report.symbol
  rw [hmatches, hterms, hof, terms]
  cases hpositions : x.posMgr.positionsOf report.symbol with
  | nil => simp [refreshed]
  | cons pos rest =>
    rw [hpositions, List.length_cons] at hone
    have hrest : rest = [] := List.eq_nil_of_length_eq_zero (by omega)
    subst hrest
    simp [refreshed, Position.terms]

/-! ### Ghosts -/

/-- A symbol has no position, or has been missed a number of times that is below the limit. -/
def Fades (x : BotContext) (n : ℕ) (symbol : String) : Prop :=
  x.posMgr.positionsOf symbol = [] ∨ (n ≤ x.posMgr.misses symbol ∧ n < syncMissLimit)

theorem fades_zero (x : BotContext) (symbol : String) : x.Fades 0 symbol :=
  Or.inr ⟨Nat.zero_le _, by decide⟩

theorem Fades.positionsOf_eq_nil (h : x.Fades syncMissLimit symbol) : x.posMgr.positionsOf symbol = [] :=
  h.resolve_right fun hmissed => lt_irrefl _ hmissed.2

variable {n : ℕ}

theorem Fades.pred (h : x.Fades (n + 1) symbol) : x.Fades n symbol :=
  h.imp_right fun hmissed => ⟨(Nat.le_succ n).trans hmissed.1, (Nat.lt_succ_self n).trans hmissed.2⟩

/-- A step that brings no position back and counts no miss away. -/
theorem Fades.mono {y : BotContext} (h : x.Fades n symbol)
    (hnone : x.posMgr.positionsOf symbol = [] → y.posMgr.positionsOf symbol = [])
    (hmisses : y.posMgr.misses symbol = x.posMgr.misses symbol) : y.Fades n symbol := by
  unfold Fades
  rw [hmisses]
  exact h.imp_left hnone

theorem Fades.reconcile (hx : x.Tidy exchange) (h : x.Fades n symbol)
    {symbols : List String} (hunlisted : symbol ∉ symbols) :
    (x.step exchange (.reconcilePositions symbols)).Fades (n + 1) symbol := by
  obtain hnone | ⟨hcounted, hbelow⟩ :=
    PositionManager.reconcilePositions_of_unlisted hx.single hx.onlyOn hunlisted
  · exact Or.inl hnone
  · rcases h with hnone | hmissed
    · left
      have hsublist := x.posMgr.reconcilePositions_sublist symbols exchange
      have hunder := hsublist.filter fun pos => pos.symbol = symbol
      exact List.eq_nil_of_sublist_nil (hnone ▸ hunder)
    · right
      change n + 1 ≤ (x.posMgr.reconcilePositions symbols exchange).2.misses symbol ∧ _
      omega

/-- An order update brings no position back that has no pending order. -/
theorem Fades.fill (h : x.Fades n symbol)
    (hpending : x.posMgr.pendingOrders.find? symbol = none) (o : OrderUpdate) :
    (x.onFill o).Fades n symbol := by
  obtain hkept | ⟨-, hexecuted⟩ | hreleased := x.posMgr_onFill_cases o
  · exact h.mono (fun hnone => hkept ▸ hnone) (by rw [hkept])
  · apply h.mono
    · intro hnone
      rw [hexecuted]
      exact PositionManager.positionsOf_applyExecution_eq_nil hnone hpending _ _ _ _ _
    · rw [hexecuted]
      exact PositionManager.misses_applyExecution ..
  · apply h.mono
    · intro hnone
      rw [hreleased]
      exact hnone
    · rw [hreleased]
      rfl

/-- Until a broadcast was processed that does not list a symbol, no position of it appears, and no
miss of it is forgotten. -/
theorem Fades.step (hx : x.Tidy exchange) (h : x.Fades n symbol)
    (hunlisted : symbol ∉ b.symbols) (hpending : x.posMgr.pendingOrders.find? symbol = none)
    (he : ¬ e.ofAccount ∨ e ∈ b.events) : (x.step exchange e).Fades n symbol := by
  rcases he with hmessage | hevent
  · by_cases hmain : e.ofMainLoop
    · obtain ⟨hterms, hmisses⟩ := terms_step_of_ofMainLoop exchange hmain x symbol
      apply h.mono _ hmisses
      intro hnone
      rw [terms, terms, hnone, List.map_nil, List.map_eq_nil_iff] at hterms
      exact hterms
    · cases e with
      | fill o => exact h.fill hpending o
      | orderCancelled o =>
        simp only [BotContext.step, onOrderCancelled]
        split
        · exact h
        · exact h
      | ordersCancelled orders => exact h
      | _ => simp_all [BotEvent.ofMainLoop, BotEvent.ofAccount]
  · rcases Broadcast.mem_events hevent with ⟨balance, rfl⟩ | ⟨report, hreport, rfl⟩ | rfl
    · exact h
    · have hother : report.symbol ≠ symbol :=
        fun hsame => hunlisted (hsame ▸ List.mem_map_of_mem hreport)
      have hspares := PositionManager.spares_syncPosition x.posMgr exchange hother
      exact h.mono (fun hnone => hspares.positions.trans hnone) hspares.misses
    · exact (h.reconcile hx hunlisted).pred

/-- A broadcast that does not list a symbol counts a miss of it. -/
theorem Fades.run (hx : x.Tidy exchange) (h : x.Fades n symbol)
    (hunlisted : symbol ∉ b.symbols) (events : List BotEvent)
    (hevents : ∀ e ∈ events, ¬ e.ofAccount ∨ e ∈ b.events) (hidle : x.Idle {symbol} events)
    (hreconciled : .reconcilePositions b.symbols ∈ events ∨ x.Fades (n + 1) symbol) :
    (Foundations.run (BotContext.step exchange) x events).Fades (n + 1) symbol := by
  induction events generalizing x with
  | nil =>
    rcases hreconciled with hmem | hmissed
    · cases hmem
    · exact hmissed
  | cons e rest ih =>
    have he := hevents e List.mem_cons_self
    have hpending := hidle.pending symbol rfl
    have hrest : ∀ e' ∈ rest, ¬ e'.ofAccount ∨ e' ∈ b.events :=
      fun e' he' => hevents e' (List.mem_cons_of_mem e he')
    apply ih (hx.step e) (h.step hx hunlisted hpending he) hrest hidle.step
    rcases hreconciled with hmem | hmissed
    · rcases List.mem_cons.mp hmem with rfl | hahead
      · exact Or.inr (h.reconcile hx hunlisted)
      · exact Or.inl hahead
    · exact Or.inr (hmissed.step hx hunlisted hpending he)

/-- The next broadcast counts a miss of a symbol that it does not list. -/
theorem Fades.next (hx : x.Tidy exchange) (h : x.Fades n symbol)
    (hunlisted : symbol ∉ b.symbols) {events : List BotEvent} (hnext : b.Next events)
    (hidle : x.Idle {symbol} events) :
    (Foundations.run (BotContext.step exchange) x events).Fades (n + 1) symbol := by
  obtain ⟨hevents, hmem⟩ := hnext.mem
  exact h.run hx hunlisted events hevents hidle (Or.inl (hmem _ b.reconcile_mem_events))

theorem listed_of_three (hx : x.Tidy exchange) {first second third : Broadcast exchange}
    {events₁ events₂ events₃ : List BotEvent} (h₁ : first.Next events₁) (h₂ : second.Next events₂)
    (h₃ : third.Next events₃) {pos : Position}
    (hidle : x.Idle {pos.symbol} (events₁ ++ (events₂ ++ events₃)))
    (hpos : pos ∈ (run (step exchange) x (events₁ ++ (events₂ ++ events₃))).posMgr.positions) :
    pos.symbol ∈ first.symbols ∨ pos.symbol ∈ second.symbols ∨ pos.symbol ∈ third.symbols := by
  by_contra hunlisted
  simp only [not_or] at hunlisted
  obtain ⟨hfirst, hsecond, hthird⟩ := hunlisted
  obtain ⟨hidle₁, hidle⟩ := hidle.append exchange
  obtain ⟨hidle₂, hidle₃⟩ := hidle.append exchange
  have hx₁ := hx.run events₁
  have hfades₁ := (fades_zero x pos.symbol).next hx hfirst h₁ hidle₁
  have hfades₂ := hfades₁.next hx₁ hsecond h₂ hidle₂
  have hfades₃ := hfades₂.next (hx₁.run events₂) hthird h₃ hidle₃
  have hnone := hfades₃.positionsOf_eq_nil
  rw [← run_append, ← run_append] at hnone
  exact KeyedList.under_eq_nil_iff.mp hnone pos hpos rfl

/-- The exchange buys one. -/
def heldCalls : List (Exchange.MarketView × Exchange.Operation) :=
  [(SimulatedExchange.flatMarket 100, .submitOrder { symbol := "BTC", side := .buy, quantity := 1 })]

/-- Then it sells three: the long position is closed and a short one of two is opened. -/
def flippedCalls : List (Exchange.MarketView × Exchange.Operation) :=
  heldCalls ++
    [(SimulatedExchange.flatMarket 110, .submitOrder { symbol := "BTC", side := .sell, quantity := 3 })]

/-- The broadcast of an exchange after some calls. -/
def broadcastAfter (calls : List (Exchange.MarketView × Exchange.Operation))
    (hnamed : ∀ pos ∈ (SimulatedExchange.after Exchange.Numerics.decimal "binance" "USDT" (1 / 10) 5
      10000 10 calls).ledger.openPositions, pos.symbol ≠ "") : Broadcast "binance" :=
  .ofExchange (SimulatedExchange.sound_after Exchange.Numerics.decimal "binance" "USDT" (1 / 10) 5
    10000 10 calls) "binance" hnamed

def longBroadcast : Broadcast "binance" := broadcastAfter heldCalls (by decide +kernel)

def shortBroadcast : Broadcast "binance" := broadcastAfter flippedCalls (by decide +kernel)

/-- The fill that flips the position. -/
def flippingFill : OrderUpdate :=
  { symbol := "BTC", exchange := "binance", side := .sell, status := .filled
    filledQuantity := 3, filledPrice := 110, clientOrderId := "hft_2" }

/-- A broadcast that nothing interrupts. -/
theorem processed_events (b : Broadcast exchange) : b.Processed b.events :=
  ⟨[], .of_nil b.events, fun _ hmem => absurd hmem List.not_mem_nil⟩

/-- Without the main loop no order is pending. -/
theorem idle_of_receiver (past events : List BotEvent) (h : ∀ e ∈ past ++ events, ¬ e.ofMainLoop)
    (symbols : Set String) : (run (step exchange) {} past).Idle symbols events := by
  have hidle : ({} : BotContext).Idle symbols (past ++ events) :=
    ⟨fun _ _ => rfl, fun signal quantity hmem _ => h _ hmem rfl⟩
  exact (hidle.append exchange).2

/-- Local and reported positions converge exactly if no position of a symbol that is listed was held
on the other side: quantity and entry price are repaired, ghosts are dropped, the side stays. -/
theorem converges_iff (exchange : String) (past : List BotEvent)
    {first second third : Broadcast exchange} {schedule events₂ events₃ : List BotEvent}
    {idle : Set String} (h₁ : first.Processed schedule) (h₂ : second.Next events₂)
    (h₃ : third.Next events₃)
    (hlisted : (run (step exchange) {} past).Idle {symbol | symbol ∈ first.symbols} schedule)
    (hidle : (run (step exchange) {} past).Idle idle (schedule ++ (events₂ ++ events₃))) :
    ((∀ report ∈ first.reports, (run (step exchange) {} (past ++ schedule)).Matches report) ∧
      ∀ pos ∈ (run (step exchange) {} (past ++ (schedule ++ (events₂ ++ events₃)))).posMgr.positions,
        pos.exchange = exchange → pos.symbol ∈ idle →
          pos.symbol ∈ first.symbols ∨ pos.symbol ∈ second.symbols ∨ pos.symbol ∈ third.symbols) ↔
      ∀ report ∈ first.reports, ∀ pos ∈ (run (step exchange) {} past).posMgr.positions,
        pos.symbol = report.symbol → pos.side = report.side := by
  have hx := tidy_run exchange past
  have hfirst : first.Next schedule :=
    ⟨[], schedule, rfl, fun _ hmem => absurd hmem List.not_mem_nil, h₁⟩
  rw [run_append, run_append, and_iff_left]
  · exact forall₂_congr fun report hreport => matches_iff hx hreport h₁ hlisted
  · intro pos hpos _ hsymbol
    apply listed_of_three hx hfirst h₂ h₃ _ hpos
    exact ⟨fun s hs => hidle.pending s (hs ▸ hsymbol),
      fun signal quantity hmem hs => hidle.registers signal quantity hmem (hs ▸ hsymbol)⟩

/-- A book that saw its long position closed by the flipping fill adopts the short one. -/
theorem converges_flipped : (∀ report ∈ shortBroadcast.reports,
        (run (step "binance") {} (longBroadcast.events ++ [.fill flippingFill] ++
          shortBroadcast.events)).Matches report) ∧
      ∀ pos ∈ (run (step "binance") {} (longBroadcast.events ++ [.fill flippingFill] ++
          (shortBroadcast.events ++ (shortBroadcast.events ++ shortBroadcast.events)))).posMgr.positions,
        pos.exchange = "binance" → pos.symbol ∈ (Set.univ : Set String) →
          pos.symbol ∈ shortBroadcast.symbols ∨ pos.symbol ∈ shortBroadcast.symbols ∨
            pos.symbol ∈ shortBroadcast.symbols := by
  have hprocessed := processed_events shortBroadcast
  have hnext : shortBroadcast.Next shortBroadcast.events :=
    ⟨[], _, rfl, fun _ hmem => absurd hmem List.not_mem_nil, hprocessed⟩
  refine (converges_iff "binance" _ hprocessed hnext hnext ?_ ?_).mpr (by decide +kernel)
  · exact idle_of_receiver _ _ (by decide +kernel) _
  · exact idle_of_receiver _ _ (by decide +kernel) _

/-- A book that missed the flipping fill stays long, with the quantity of the short position. -/
theorem stays_long_missedFill :
    shortBroadcast.reports.map (fun report => (report.side, report.quantity)) = [(.sell, 2)] ∧
      shortBroadcast.Processed shortBroadcast.events ∧
      (run (step "binance") {} longBroadcast.events).Idle Set.univ shortBroadcast.events ∧
      ¬ (∀ report ∈ shortBroadcast.reports,
        (run (step "binance") {} (longBroadcast.events ++ shortBroadcast.events)).Matches report) ∧
      ((run (step "binance") {} (longBroadcast.events ++ shortBroadcast.events)).posMgr.positionsOf
        "BTC").map (fun pos => (pos.side, pos.quantity)) = [(.buy, 2)] := by
  refine ⟨by decide +kernel, processed_events shortBroadcast, ?_, by decide +kernel,
    by decide +kernel⟩
  exact idle_of_receiver _ _ (by decide +kernel) _

end BotContext

end TradingSim.Bot
