import TradingSim.Foundations.Run
import TradingSim.Bot.BookSteps

/-!
# Booking an order

The main loop sends an order and then registers it as pending, while the receiver delivers account
broadcasts, the order's fill and more broadcasts. If the pending entry is there when the fill
arrives, the fill uses it up and the broadcasts settle the position's quantity. If the fill comes
first, the entry is then added for an order that is over, and while it stands the broadcasts skip
the symbol as an order in flight.
-/

namespace TradingSim.Bot

open Foundations

/-- The events that account broadcasts consist of. -/
def BotEvent.ofAccount : BotEvent → Bool
  | .storeBalance _ | .syncPosition _ | .reconcilePositions _ => true
  | _ => false

namespace BotContext

/-- The main loop's part in an order: send it, then register it. -/
def mainLoop (signal : Signal) (quantity : ℚ) : List BotEvent :=
  [.submitOrder signal quantity, .addPendingOrder signal quantity]

/-- The receiver's part: broadcasts, the fill, and more broadcasts up to the last one. -/
def receiver (defaultExchange : String) (before : List (Dict String AccountStatus)) (o : OrderUpdate)
    (after : List (Dict String AccountStatus)) (last : Dict String AccountStatus) : List BotEvent :=
  before.flatMap (onAccount defaultExchange) ++
    .fill o :: (after.flatMap (onAccount defaultExchange) ++ onAccount defaultExchange last)

/-- The broadcast lists the exchange's position of a symbol with a quantity. -/
def Lists (defaultExchange symbol : String) (quantity : ℚ) (accounts : Dict String AccountStatus) : Prop :=
  symbol ≠ "" ∧ 0 < quantity ∧ ∃ status reports, accounts.find? defaultExchange = some status ∧
    status.positions = some reports ∧
    symbol ∈ reports.map PositionManager.PositionReport.symbol ∧
    ∀ report ∈ reports, report.symbol = symbol → report.quantity = quantity

/-- The bot holds a position of a symbol with a quantity and no order of it is pending. -/
def Booked (x : BotContext) (symbol : String) (quantity : ℚ) : Prop :=
  (x.posMgr.position? symbol).map Position.quantity = some quantity ∧
    x.posMgr.pendingOrders.find? symbol = none

instance (x : BotContext) (symbol : String) (quantity : ℚ) : Decidable (x.Booked symbol quantity) :=
  inferInstanceAs (Decidable (_ ∧ _))

variable {defaultExchange : String}

variable {quantity : ℚ} {e : BotEvent}

/-- The events a broadcast consists of. -/
theorem ofAccount_of_mem {accounts : Dict String AccountStatus}
    (he : e ∈ onAccount defaultExchange accounts) : e.ofAccount := by
  unfold onAccount at he
  cases hstatus : accounts.find? defaultExchange with
  | none => simp [hstatus] at he
  | some status =>
    simp only [hstatus, List.mem_append] at he
    rcases he with hbalance | hpositions
    · split at hbalance
      · rw [List.mem_singleton.mp hbalance]
        rfl
      · contradiction
    · cases hreports : status.positions with
      | none => simp [hreports] at hpositions
      | some reports =>
        simp only [hreports, List.mem_append, List.mem_map, List.mem_singleton] at hpositions
        rcases hpositions with ⟨report, -, rfl⟩ | rfl
        · rfl
        · rfl

theorem pendingOrders_step_of_ofAccount (he : e.ofAccount) (x : BotContext) :
    (x.step defaultExchange e).posMgr.pendingOrders = x.posMgr.pendingOrders := by
  cases e with
  | storeBalance balance => rfl
  | syncPosition report => exact PositionManager.pendingOrders_syncPosition ..
  | reconcilePositions exchangeSymbols => exact PositionManager.pendingOrders_reconcilePositions ..
  | _ => contradiction

theorem pendingOrders_run_of_ofAccount (events : List BotEvent) (hevents : ∀ e ∈ events, e.ofAccount)
    (x : BotContext) :
    (run (step defaultExchange) x events).posMgr.pendingOrders = x.posMgr.pendingOrders := by
  induction events generalizing x with
  | nil => rfl
  | cons e rest ih =>
    rw [run_cons, ih fun e' he' => hevents e' (List.mem_cons_of_mem _ he')]
    exact pendingOrders_step_of_ofAccount (hevents e List.mem_cons_self) x

variable {signal : Signal}

theorem pending_step (he : e ∈ mainLoop signal quantity ∨ e.ofAccount) {x : BotContext}
    (hpending : (x.posMgr.pendingOrders.find? signal.symbol).isSome) :
    ((x.step defaultExchange e).posMgr.pendingOrders.find? signal.symbol).isSome := by
  rcases he with hmain | haccount
  · simp only [mainLoop, List.mem_cons, List.not_mem_nil, or_false] at hmain
    rcases hmain with rfl | rfl
    · simp only [step]
      split
      · exact hpending
      · exact hpending
    · simp only [step, PositionManager.find?_pendingOrders_addPendingOrder]
      split
      · rfl
      · exact hpending
  · rw [pendingOrders_step_of_ofAccount haccount]
    exact hpending

/-- An order that the main loop registers stays pending while only broadcasts arrive. -/
theorem pending_run (hactionable : signal.isActionable)
    (events : List BotEvent) (hevents : ∀ e ∈ events, e ∈ mainLoop signal quantity ∨ e.ofAccount)
    (x : BotContext) (hpending : (x.posMgr.pendingOrders.find? signal.symbol).isSome ∨
      .addPendingOrder signal quantity ∈ events) :
    ((run (step defaultExchange) x events).posMgr.pendingOrders.find? signal.symbol).isSome := by
  induction events generalizing x with
  | nil => simpa using hpending
  | cons e rest ih =>
    apply ih fun e' he' => hevents e' (List.mem_cons_of_mem _ he')
    rcases hpending with hbefore | hmem
    · exact Or.inl (pending_step (hevents e List.mem_cons_self) hbefore)
    · rcases List.mem_cons.mp hmem with rfl | hmem
      · apply Or.inl
        simp [step, PositionManager.find?_pendingOrders_addPendingOrder, hactionable]
      · exact Or.inr hmem

/-- The positions of a broadcast that lists a symbol leave it held with the listed quantity. -/
theorem booked_sync {symbol : String} (hsymbol : symbol ≠ "") (hquantity : 0 < quantity)
    (reports : List PositionManager.PositionReport)
    (hreports : ∀ report ∈ reports, report.symbol = symbol → report.quantity = quantity)
    (x : BotContext) (hpending : x.posMgr.pendingOrders.find? symbol = none)
    (hlisted : x.Booked symbol quantity ∨ symbol ∈ reports.map PositionManager.PositionReport.symbol) :
    (run (step defaultExchange) x (reports.map BotEvent.syncPosition)).Booked symbol quantity := by
  induction reports generalizing x with
  | nil => simpa using hlisted
  | cons report rest ih =>
    have hpending' : (x.step defaultExchange (.syncPosition report)).posMgr.pendingOrders.find?
        symbol = none := by
      rw [pendingOrders_step_of_ofAccount rfl]
      exact hpending
    apply ih (fun r hr => hreports r (List.mem_cons_of_mem _ hr)) _ hpending'
    by_cases hsame : report.symbol = symbol
    · subst hsame
      have hreport := hreports report List.mem_cons_self rfl
      refine Or.inl ⟨?_, hpending'⟩
      rw [← hreport]
      exact PositionManager.quantity_syncPosition _ _ (hreport ▸ hquantity) hsymbol hpending
    · rcases hlisted with hbooked | hmem
      · refine Or.inl ⟨?_, hpending'⟩
        simp only [step, PositionManager.position?_syncPosition_of_ne _ _ hsame]
        exact hbooked.1
      · rw [List.map_cons, List.mem_cons] at hmem
        exact Or.inr (hmem.resolve_left fun h => hsame h.symm)

/-- A broadcast that lists a symbol without a pending order books it. -/
theorem booked_onAccount {symbol : String} {accounts : Dict String AccountStatus}
    (hlists : Lists defaultExchange symbol quantity accounts) (x : BotContext)
    (hpending : x.posMgr.pendingOrders.find? symbol = none) :
    (run (step defaultExchange) x (onAccount defaultExchange accounts)).Booked symbol quantity := by
  obtain ⟨hsymbol, hquantity, status, reports, hstatus, hpositions, hmem, hreports⟩ := hlists
  simp only [onAccount, hstatus, hpositions]
  rw [run_append, run_append]
  generalize hy : run (step defaultExchange) x _ = y
  have hy' : y.posMgr.pendingOrders.find? symbol = none := by
    rw [← hy, pendingOrders_run_of_ofAccount]
    · exact hpending
    · intro e he
      split at he
      · rw [List.mem_singleton.mp he]
        rfl
      · contradiction
  obtain ⟨hposition, hpending⟩ := booked_sync hsymbol hquantity reports hreports y hy' (Or.inr hmem)
  constructor
  · rw [run_cons, run_nil, step, PositionManager.position?_reconcilePositions _ hmem]
    exact hposition
  · rw [run_cons, run_nil, pendingOrders_step_of_ofAccount rfl]
    exact hpending

/-- The events before and after a fill on the receiver are those of broadcasts. -/
theorem ofAccount_of_mem_flatMap {broadcasts : List (Dict String AccountStatus)}
    (he : e ∈ broadcasts.flatMap (onAccount defaultExchange)) : e.ofAccount := by
  obtain ⟨accounts, -, hmem⟩ := List.mem_flatMap.mp he
  exact ofAccount_of_mem hmem

theorem mainLoop_cut {done left : List BotEvent} (h : mainLoop signal quantity = done ++ left) :
    (.addPendingOrder signal quantity ∈ done ∧ left = []) ∨
      (.addPendingOrder signal quantity ∉ done ∧ .addPendingOrder signal quantity ∈ left) := by
  rcases List.append_eq_cons_iff.mp h.symm with ⟨rfl, rfl⟩ | ⟨sent, rfl, hsent⟩
  · simp
  · rcases List.append_eq_cons_iff.mp hsent.symm with ⟨rfl, rfl⟩ | ⟨registered, rfl, hdone⟩
    · simp
    · obtain ⟨rfl, rfl⟩ := List.append_eq_nil_iff.mp hdone.symm
      simp

/-- In every schedule of an order's two steps with its fill and with broadcasts, the last of
which lists the position, the order is booked exactly when it is registered before its fill. -/
theorem booked_iff_precedes (x : BotContext) {signal : Signal} (hactionable : signal.isActionable)
    (quantity : ℚ) (before : List (Dict String AccountStatus)) {o : OrderUpdate}
    (hsymbol : o.symbol = signal.symbol) (hexecutes : o.Executes)
    (after : List (Dict String AccountStatus)) {last : Dict String AccountStatus} {held : ℚ}
    (hlists : Lists defaultExchange signal.symbol held last) {schedule : List BotEvent}
    (hschedule : Interleaves (mainLoop signal quantity)
      (receiver defaultExchange before o after last) schedule) :
    (run (step defaultExchange) x schedule).Booked signal.symbol held ↔
      Precedes (.addPendingOrder signal quantity) (.fill o) schedule := by
  have hlater (e : BotEvent) (he : e ∈ after.flatMap (onAccount defaultExchange) ++
      onAccount defaultExchange last) : e.ofAccount := by
    rcases List.mem_append.mp he with he | he
    · exact ofAccount_of_mem_flatMap he
    · exact ofAccount_of_mem he
  obtain ⟨done, left, front, back, hmain, rfl, hfront, hback⟩ := hschedule.split
  have hleft : ∀ e ∈ left, e ∈ mainLoop signal quantity := by
    intro e he
    rw [hmain]
    exact List.mem_append_right _ he
  have hbackEvents : ∀ e ∈ back, e ∈ mainLoop signal quantity ∨ e.ofAccount := by
    intro e he
    exact ((hback.mem_iff e).mp he).imp (hleft e) (hlater e)
  have hfill : BotEvent.fill o ∉ back := by
    intro hmem
    rcases hbackEvents _ hmem with hmain | haccount
    · simp [mainLoop] at hmain
    · contradiction
  have hfrontMem : .addPendingOrder signal quantity ∈ front ↔
      .addPendingOrder signal quantity ∈ done := by
    rw [hfront.mem_iff]
    exact or_iff_left fun hmem => absurd (ofAccount_of_mem_flatMap hmem) (by simp [BotEvent.ofAccount])
  rw [precedes_iff hfill, hfrontMem, run_append, run_cons]
  generalize run (step defaultExchange) x front = y
  rcases mainLoop_cut hmain with ⟨hregistered, rfl⟩ | ⟨hmissing, hregistered⟩
  · -- the fill uses up the pending order, so the last broadcast settles the quantity
    have hused : (y.step defaultExchange (.fill o)).posMgr.pendingOrders.find? signal.symbol = none := by
      have hsettles : o.Settles := Or.inl hexecutes
      simp only [step, find?_pendingOrders_onFill, hsettles, hsymbol, true_and, if_true]
    refine iff_of_true ?_ hregistered
    rw [hback.eq_of_nil, run_append]
    apply booked_onAccount hlists
    rw [pendingOrders_run_of_ofAccount _ fun e he => ofAccount_of_mem_flatMap he]
    exact hused
  · -- the order is registered after its fill, and nothing takes it out again
    have hpending : ((run (step defaultExchange) (y.step defaultExchange (.fill o)) back).posMgr
        |>.pendingOrders.find? signal.symbol).isSome :=
      pending_run hactionable back hbackEvents _ (Or.inr ((hback.mem_iff _).mpr (Or.inl hregistered)))
    refine iff_of_false (fun hbooked => ?_) hmissing
    rw [hbooked.2] at hpending
    contradiction

/-- The fill of the order at price 100. -/
def btcFill : OrderUpdate :=
  { symbol := "BTC/USDT", exchange := "binance", side := .buy, status := .filled
    filledQuantity := 1, filledPrice := 100, clientOrderId := btcLong.clientOrderId }

/-- The broadcast that lists the order's position. -/
def btcAccounts : Dict String AccountStatus :=
  Dict.empty.insert "binance"
    { balance := 10000
      positions := some [{ symbol := "BTC/USDT", side := .buy, quantity := 1, entryPrice := 100 }] }

theorem lists_btcAccounts : Lists "binance" btcLong.symbol 1 btcAccounts := by
  refine ⟨by decide, by norm_num, _, _, Dict.find?_insert_self .., rfl, ?_, ?_⟩
  · simp [btcLong]
  · simp

/-- Registered before its fill, the order is booked. -/
theorem booked_iff_precedes_registeredFirst :
    (run (step "binance") {} (mainLoop btcLong 1 ++ receiver "binance" [] btcFill [] btcAccounts)).Booked
      "BTC/USDT" 1 :=
  (booked_iff_precedes {} rfl 1 [] rfl ⟨rfl, by norm_num [btcFill], by norm_num [btcFill]⟩ []
    lists_btcAccounts (.first _ (.first _ (.second _ (.second _ (.second _ (.second _ .done))))))).mpr
    ⟨mainLoop btcLong 1, _, rfl, by simp [mainLoop], by simp⟩

/-- Registered after its fill, the order is never booked: the position the exchange lists is
skipped for an order that is over. -/
theorem not_booked_filledFirst :
    ∃ schedule, Interleaves (mainLoop btcLong 1) (receiver "binance" [] btcFill [] btcAccounts) schedule ∧
      Lists "binance" btcLong.symbol 1 btcAccounts ∧
      ¬ (run (step "binance") {} schedule).Booked btcLong.symbol 1 ∧
      (run (step "binance") {} schedule).posMgr.position? btcLong.symbol = none := by
  refine ⟨[.submitOrder btcLong 1, .fill btcFill, .addPendingOrder btcLong 1] ++
    onAccount "binance" btcAccounts, ?_, lists_btcAccounts, ?_, ?_⟩
  · exact .first _ (.second _ (.first _ (.second _ (.second _ (.second _ .done)))))
  · decide +kernel
  · decide +kernel

end BotContext

end TradingSim.Bot
