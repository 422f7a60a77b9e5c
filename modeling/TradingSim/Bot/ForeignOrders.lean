import TradingSim.Foundations.Run
import TradingSim.Bot.BookSteps

/-!
# Updates of foreign orders

Order updates of every exchange and of every client reach the bot, and its book knows an order by
its symbol alone. An update settles whatever is pending for its symbol, and a fill acts on whatever
position its symbol has; so the bot's own orders are undisturbed exactly as long as no other order's
update meets them.
-/

namespace TradingSim.Bot

open Foundations

/-- Positions and pending orders are all on one exchange. -/
structure PositionManager.OnlyOn (m : PositionManager) (exchange : String) : Prop where
  positions : ∀ pos ∈ m.positions, pos.exchange = exchange
  pendingOrders : ∀ entry ∈ m.pendingOrders.entries, entry.2.exchange = exchange

namespace PositionManager

variable {m : PositionManager} {exchange : String}

theorem onlyOn_empty (exchange : String) : OnlyOn {} exchange :=
  ⟨fun _ h => absurd h List.not_mem_nil, fun _ h => absurd h List.not_mem_nil⟩

theorem OnlyOn.erase_pendingOrders (h : m.OnlyOn exchange) (symbol : String) :
    ∀ entry ∈ (m.pendingOrders.erase symbol).entries, entry.2.exchange = exchange := by
  intro entry hentry
  exact h.pendingOrders entry ((m.pendingOrders.mem_erase_entries symbol entry.1 entry.2).mp hentry).2

theorem OnlyOn.addPendingOrder (h : m.OnlyOn exchange) (signal : Signal) (quantity : ℚ) :
    (m.addPendingOrder signal quantity exchange).OnlyOn exchange := by
  unfold PositionManager.addPendingOrder
  split
  · refine ⟨h.positions, fun entry hentry => ?_⟩
    rcases (m.pendingOrders.mem_insert_entries _ entry.1 _ entry.2).mp hentry with ⟨-, hnew⟩ | ⟨-, hold⟩
    · rw [hnew]
    · exact h.pendingOrders entry hold
  · exact h

theorem OnlyOn.cancelPending (h : m.OnlyOn exchange) (symbol : String) :
    (m.cancelPending symbol).OnlyOn exchange :=
  ⟨h.positions, h.erase_pendingOrders symbol⟩

variable {pos : Position}

theorem OnlyOn.setPosition (h : m.OnlyOn exchange) (hpos : pos.exchange = exchange) :
    (m.setPosition pos).OnlyOn exchange := by
  refine ⟨fun pos' hmem => ?_, h.pendingOrders⟩
  rcases KeyedList.mem_put_push hmem with rfl | hold
  · exact hpos
  · exact h.positions pos' hold

/-- Adding a position on the exchange keeps the book there. -/
theorem OnlyOn.append {positions : List Position} (h : ∀ pos ∈ positions, pos.exchange = exchange)
    (hpos : pos.exchange = exchange) : ∀ pos' ∈ positions ++ [pos], pos'.exchange = exchange := by
  intro pos' hmem
  rcases List.mem_append.mp hmem with hold | hnew
  · exact h pos' hold
  · rw [List.mem_singleton.mp hnew, hpos]

theorem OnlyOn.fillPosition (h : m.OnlyOn exchange) (hpos : pos.exchange = exchange)
    (side : Exchange.Side) (filledQty price fee : ℚ) :
    (m.fillPosition pos side filledQty price fee).2.OnlyOn exchange := by
  refine ⟨?_, by rw [pendingOrders_fillPosition]; exact h.erase_pendingOrders pos.symbol⟩
  obtain ⟨-, -, pos', hpositions, -, hexchange, -⟩ | ⟨-, -, -, -, pos', hpositions, -, hexchange, -⟩ |
    ⟨-, -, -, -, hpositions⟩ := m.fillPosition_cases pos side filledQty price fee
  · rw [hpositions]
    exact (h.setPosition (hexchange.trans hpos)).positions
  · rw [hpositions]
    exact (h.setPosition (hexchange.trans hpos)).positions
  · rw [hpositions]
    exact fun pos' hmem => h.positions pos' (KeyedList.mem_of_mem_remove hmem)

theorem OnlyOn.applyExecution (h : m.OnlyOn exchange) (symbol : String) (side : Exchange.Side)
    (filledQty price fee : ℚ) : (m.applyExecution symbol side filledQty price fee).2.OnlyOn exchange := by
  unfold PositionManager.applyExecution
  cases hpos : m.position? symbol with
  | some pos => exact h.fillPosition (h.positions pos (List.mem_of_find?_eq_some hpos)) ..
  | none =>
    cases hpending : m.pendingOrders.find? symbol with
    | none => exact h
    | some order =>
      have horder : order.exchange = exchange :=
        h.pendingOrders (symbol, order) ((m.pendingOrders.mem_entries_iff symbol order).mpr hpending)
      exact ⟨OnlyOn.append h.positions horder, h.erase_pendingOrders symbol⟩

theorem OnlyOn.syncPosition (h : m.OnlyOn exchange) (report : PositionReport) :
    (m.syncPosition exchange report).OnlyOn exchange := by
  unfold PositionManager.syncPosition
  split
  · exact h
  · split
    · rename_i pos hpos
      exact h.setPosition (h.positions pos (List.mem_of_find?_eq_some hpos))
    · split
      · exact h
      · exact ⟨OnlyOn.append h.positions rfl, h.pendingOrders⟩

theorem OnlyOn.reconcilePositions (h : m.OnlyOn exchange) (exchangeSymbols : List String) :
    (m.reconcilePositions exchangeSymbols exchange).2.OnlyOn exchange := by
  constructor
  · intro pos hmem
    exact h.positions pos ((m.reconcilePositions_sublist exchangeSymbols exchange).subset hmem)
  · rw [pendingOrders_reconcilePositions]
    exact h.pendingOrders

theorem OnlyOn.updateAllPnl (h : m.OnlyOn exchange) (prices : Dict String ℚ) :
    (m.updateAllPnl prices).OnlyOn exchange := by
  refine ⟨fun pos hmem => ?_, h.pendingOrders⟩
  obtain ⟨pos', hpos', rfl⟩ := List.mem_map.mp hmem
  split
  · exact h.positions pos' hpos'
  · exact h.positions pos' hpos'

/-- An execution for a symbol with a position changes the book. -/
theorem positions_applyExecution_ne {symbol : String}
    (hpos : m.position? symbol = some pos) (side : Exchange.Side) {filledQty : ℚ}
    (hquantity : 0 < filledQty) (price fee : ℚ) :
    (m.applyExecution symbol side filledQty price fee).2.positions ≠ m.positions := by
  intro heq
  have hhead := m.position?_eq symbol
  rw [hpos] at hhead
  have hsymbol := symbol_of_position? hpos
  unfold PositionManager.applyExecution at heq
  simp only [hpos] at heq
  have hsame (pos' : Position) (hput : (m.setPosition pos').positions = m.positions)
      (hsymbol' : pos'.symbol = pos.symbol) : pos' = pos := by
    have hfound := m.position?_setPosition pos' symbol
    rw [if_pos (hsymbol'.trans hsymbol), position?_eq, hput, ← hhead] at hfound
    exact (Option.some_inj.mp hfound).symm
  obtain ⟨-, -, pos', hpositions, hsymbol', -, hquantity', -⟩ |
    ⟨-, -, -, -, pos', hpositions, hsymbol', -, hquantity', -⟩ | ⟨-, -, -, -, hpositions⟩ :=
    m.fillPosition_cases pos side filledQty price fee
  · rw [hsame pos' (hpositions.symm.trans heq) hsymbol'] at hquantity'
    linarith
  · rw [hsame pos' (hpositions.symm.trans heq) hsymbol'] at hquantity'
    linarith
  · have hperm := KeyedList.perm_cons_remove hhead.symm
    rw [← hsymbol, ← hpositions, heq] at hperm
    have hlength := hperm.length_eq
    rw [List.length_cons] at hlength
    omega

end PositionManager

/-- The orders that a message reports as over. -/
def BotEvent.ended : BotEvent → List OrderUpdate
  | .fill o => if o.status = .pending then [] else [o]
  | .orderCancelled o => [o]
  | .ordersCancelled orders => orders
  | _ => []

/-- The message makes the book take out the pending order of a symbol. -/
def BotEvent.Releases (symbol : String) : BotEvent → Prop
  | .fill o => o.Settles ∧ symbol = o.symbol
  | .orderCancelled o => o.symbol = "" ∨ symbol = o.symbol
  | .ordersCancelled _ => True
  | _ => False

/-- The bot, and the `client_order_id` of the order that was last registered for each symbol. -/
structure OrderBookkeeping where
  bot : BotContext := {}
  owners : Dict String String := Dict.empty

namespace OrderBookkeeping

variable {defaultExchange : String}

/-- One step of the bot; registering an order makes it the symbol's. -/
def step (defaultExchange : String) (x : OrderBookkeeping) (e : BotEvent) : OrderBookkeeping where
  bot := x.bot.step defaultExchange e
  owners :=
    match e with
    | .addPendingOrder signal _ =>
      if signal.isActionable then x.owners.insert signal.symbol signal.clientOrderId else x.owners
    | _ => x.owners

def pending? (x : OrderBookkeeping) (symbol : String) : Option PendingOrder :=
  x.bot.posMgr.pendingOrders.find? symbol

def positionsOn (x : OrderBookkeeping) (exchange : String) : List Position :=
  x.bot.posMgr.positions.filter fun pos => pos.exchange = exchange

/-- The message reports the order that was registered for a symbol as over. -/
def Concludes (defaultExchange : String) (x : OrderBookkeeping) (symbol : String) (e : BotEvent) : Prop :=
  ∃ o ∈ e.ended, o.exchange = defaultExchange ∧ x.owners.find? symbol = some o.clientOrderId

/-- A step removes a pending order only on a terminal message of that order, and a fill of another exchange
leaves the positions alone. -/
def Undisturbed (defaultExchange : String) (x : OrderBookkeeping) (e : BotEvent) : Prop :=
  (∀ symbol, (x.pending? symbol).isSome → ((x.step defaultExchange e).pending? symbol).isNone →
    x.Concludes defaultExchange symbol e) ∧
  ∀ o, e = .fill o → o.status = .filled → o.exchange ≠ defaultExchange →
    (x.step defaultExchange e).positionsOn defaultExchange = x.positionsOn defaultExchange

/-- A message that releases a symbol with a pending order is one of that order, and an execution
on another exchange is for a symbol without a position. -/
def Separate (defaultExchange : String) (x : OrderBookkeeping) (e : BotEvent) : Prop :=
  (∀ symbol, (x.pending? symbol).isSome → e.Releases symbol → x.Concludes defaultExchange symbol e) ∧
  ∀ o, e = .fill o → o.Executes → o.exchange ≠ defaultExchange →
    x.bot.posMgr.position? o.symbol = none

variable {x : OrderBookkeeping}

/-- What happens leaves all orders and positions on the default exchange. -/
theorem onlyOn_step (h : x.bot.posMgr.OnlyOn defaultExchange) (e : BotEvent) :
    (x.step defaultExchange e).bot.posMgr.OnlyOn defaultExchange := by
  cases e with
  | submitOrder signal quantity =>
    simp only [step, BotContext.step]
    split
    · exact h
    · exact h
  | addPendingOrder signal quantity => exact h.addPendingOrder signal quantity
  | markClosing symbol now => exact ⟨h.positions, h.pendingOrders⟩
  | updateAllPnl prices => exact h.updateAllPnl prices
  | fill o =>
    change (x.bot.onFill o).posMgr.OnlyOn defaultExchange
    obtain hkept | ⟨-, hexecuted⟩ | hreleased := x.bot.posMgr_onFill_cases o
    · rw [hkept]
      exact h
    · rw [hexecuted]
      exact h.applyExecution ..
    · rw [hreleased]
      exact ⟨h.positions, h.erase_pendingOrders o.symbol⟩
  | storeBalance balance => exact h
  | syncPosition report => exact h.syncPosition report
  | reconcilePositions exchangeSymbols => exact h.reconcilePositions exchangeSymbols
  | orderCancelled o =>
    simp only [step, BotContext.step, BotContext.onOrderCancelled]
    split
    · exact ⟨h.positions, fun entry hentry => absurd hentry List.not_mem_nil⟩
    · exact h.cancelPending o.symbol
  | ordersCancelled orders => exact ⟨h.positions, fun entry hentry => absurd hentry List.not_mem_nil⟩

theorem pending?_step_isNone {symbol : String} (h : (x.pending? symbol).isSome) (e : BotEvent) :
    ((x.step defaultExchange e).pending? symbol).isNone ↔ e.Releases symbol := by
  rw [Option.isSome_iff_ne_none] at h
  have hkept {y : OrderBookkeeping} (hy : y.pending? symbol = x.pending? symbol) :
      (y.pending? symbol).isNone ↔ False := by
    rw [hy]
    simpa using h
  cases e with
  | submitOrder signal quantity =>
    apply hkept
    simp only [pending?, step, BotContext.step]
    split
    · rfl
    · rfl
  | addPendingOrder signal quantity =>
    simp only [pending?, step, BotContext.step, PositionManager.find?_pendingOrders_addPendingOrder,
      BotEvent.Releases, iff_false]
    split
    · simp
    · simpa [pending?] using h
  | markClosing symbol' now => exact hkept rfl
  | updateAllPnl prices => exact hkept rfl
  | fill o =>
    simp only [pending?, step, BotContext.step, BotContext.find?_pendingOrders_onFill,
      BotEvent.Releases]
    split
    · rename_i hreleased
      simpa using hreleased
    · rename_i hunreleased
      exact iff_of_false (by simpa [pending?] using h) hunreleased
  | storeBalance balance => exact hkept rfl
  | syncPosition report =>
    apply hkept
    simp only [pending?, step, BotContext.step, PositionManager.pendingOrders_syncPosition]
  | reconcilePositions exchangeSymbols =>
    apply hkept
    simp only [pending?, step, BotContext.step, PositionManager.pendingOrders_reconcilePositions]
  | orderCancelled o =>
    simp only [pending?, step, BotContext.step, BotContext.onOrderCancelled, BotEvent.Releases]
    by_cases hall : o.symbol = ""
    · simp [hall, PositionManager.clearPendingOrders]
    · simp only [hall, if_false, false_or, PositionManager.cancelPending, Dict.find?_erase]
      split
      · rename_i hsame
        simpa using hsame
      · rename_i hother
        exact iff_of_false (by simpa [pending?] using h) hother
  | ordersCancelled orders =>
    simp [pending?, step, BotContext.step, BotContext.onOrderCancelled, BotEvent.Releases,
      PositionManager.clearPendingOrders]

theorem positionsOn_eq (h : x.bot.posMgr.OnlyOn defaultExchange) :
    x.positionsOn defaultExchange = x.bot.posMgr.positions :=
  List.filter_eq_self.mpr fun pos hpos => by simpa using h.positions pos hpos

/-- A step disturbs no order exactly when its message meets only the order it is about. -/
theorem undisturbed_iff (h : x.bot.posMgr.OnlyOn defaultExchange)
    (e : BotEvent) : x.Undisturbed defaultExchange e ↔ x.Separate defaultExchange e := by
  have hpending : (∀ symbol, (x.pending? symbol).isSome →
        ((x.step defaultExchange e).pending? symbol).isNone → x.Concludes defaultExchange symbol e) ↔
      ∀ symbol, (x.pending? symbol).isSome → e.Releases symbol →
        x.Concludes defaultExchange symbol e := by
    refine forall_congr' fun symbol => forall_congr' fun hsome => ?_
    rw [pending?_step_isNone hsome]
  rw [Undisturbed, Separate, hpending, positionsOn_eq h, positionsOn_eq (onlyOn_step h e)]
  refine and_congr_right fun hown => forall_congr' fun o => forall_congr' fun he => ?_
  subst he
  constructor
  · intro hunmoved hexecutes hforeign
    by_contra hheld
    obtain ⟨pos, hpos⟩ := Option.ne_none_iff_exists'.mp hheld
    apply PositionManager.positions_applyExecution_ne hpos o.side hexecutes.2.1 o.filledPrice o.fee
    rw [← BotContext.posMgr_onFill_of_executes hexecutes]
    exact hunmoved hexecutes.1 hforeign
  · intro hflat hfilled hforeign
    change (x.bot.onFill o).posMgr.positions = x.bot.posMgr.positions
    by_cases hexecutes : o.Executes
    · have hposition := hflat hexecutes hforeign
      have hnone : x.bot.posMgr.pendingOrders.find? o.symbol = none := by
        by_contra hsome
        obtain ⟨o', ho', hexchange, -⟩ :=
          hown o.symbol (Option.isSome_iff_ne_none.mpr hsome) ⟨Or.inl hexecutes, rfl⟩
        simp only [BotEvent.ended, hfilled, reduceCtorEq, if_false, List.mem_singleton] at ho'
        exact hforeign (ho' ▸ hexchange)
      rw [BotContext.posMgr_onFill_of_executes hexecutes, PositionManager.applyExecution]
      simp only [hposition, hnone]
    · rw [BotContext.posMgr_onFill_of_not_executes hfilled hexecutes]

/-- Along every run of the bot from an empty book, no order is disturbed exactly when every
message meets only the order it is about. -/
theorem undisturbed_iff_separate (defaultExchange : String) (events : List BotEvent) :
    Along (step defaultExchange) (Undisturbed defaultExchange) {} events ↔
      Along (step defaultExchange) (Separate defaultExchange) {} events :=
  along_congr (fun x => x.bot.posMgr.OnlyOn defaultExchange) (fun _ e h _ => onlyOn_step h e)
    (fun _ e h => undisturbed_iff h e) events (PositionManager.onlyOn_empty defaultExchange)

/-- Another client's order for the same symbol on another exchange, filled. -/
def foreignFill : OrderUpdate :=
  { symbol := "BTC/USDT", exchange := "bybit", side := .sell, status := .filled
    filledQuantity := 2, filledPrice := 100, clientOrderId := "manual_7" }

/-- Another client's fill on another exchange uses up the bot's pending order and books a
position for it. -/
theorem not_undisturbed_foreignFill : ¬ Along (step "binance") (Undisturbed "binance") {}
      [.submitOrder btcLong 1, .addPendingOrder btcLong 1, .fill foreignFill] := by
  rintro ⟨-, -, ⟨-, hpositions⟩, -⟩
  exact absurd (hpositions foreignFill rfl rfl (by decide)) (by decide +kernel)

end OrderBookkeeping

end TradingSim.Bot
