import TradingSim.Bot.BookSteps
import TradingSim.Foundations.Run

/-!
# The mark of a close order in flight

When a stop or target is hit, the bot sends a close request and then marks the symbol as closing;
for ten seconds the mark keeps the trigger from firing again. The receiver thread can process
fills between the two steps. The mark carries the symbol only, so a mark that is set after its
position has gone shields whatever position the symbol gets next.
-/

namespace TradingSim.Bot

open Foundations
open PositionManager (trigger?)

namespace PositionManager

variable {m : PositionManager} {symbol : String}

/-- A step sets no mark, and where it leaves one it has not removed the position. -/
def LeavesMarks (m m' : PositionManager) : Prop :=
  ∀ symbol since, m'.closingSince.find? symbol = some since →
    m.closingSince.find? symbol = some since ∧
      ((m.position? symbol).isSome → (m'.position? symbol).isSome)

variable {m' : PositionManager}

theorem LeavesMarks.of_eq (hmarks : m'.closingSince = m.closingSince)
    (hkept : ∀ symbol, (m.position? symbol).isSome → (m'.position? symbol).isSome) : LeavesMarks m m' := by
  intro symbol since hsince
  rw [hmarks] at hsince
  exact ⟨hsince, hkept symbol⟩

theorem LeavesMarks.of_erase (hmarks : m'.closingSince = m.closingSince.erase symbol)
    (hkept : ∀ symbol', symbol' ≠ symbol → (m.position? symbol').isSome →
      (m'.position? symbol').isSome) : LeavesMarks m m' := by
  intro symbol' since hsince
  rw [hmarks, Dict.find?_erase] at hsince
  split_ifs at hsince with hsame
  exact ⟨hsince, hkept symbol' hsame⟩

theorem isSome_position?_setPosition (m : PositionManager) (pos : Position) {symbol : String}
    (h : (m.position? symbol).isSome) : ((m.setPosition pos).position? symbol).isSome := by
  rw [position?_setPosition]
  split
  · rfl
  · exact h

theorem isSome_position?_push {pos : Position}
    (hpositions : m'.positions = m.positions ++ [pos]) (h : (m.position? symbol).isSome) :
    (m'.position? symbol).isSome := by
  rw [position?, hpositions, List.find?_append]
  obtain ⟨found, hfound⟩ := Option.isSome_iff_exists.mp h
  rw [position?] at hfound
  rw [hfound]
  rfl

theorem leavesMarks_applyExecution (m : PositionManager) (symbol : String) (side : Exchange.Side)
    (filledQty price fee : ℚ) : LeavesMarks m (m.applyExecution symbol side filledQty price fee).2 := by
  unfold applyExecution
  cases hpos : m.position? symbol with
  | some pos =>
    simp only [fillPosition]
    split_ifs
    · exact .of_eq rfl fun _ h => m.isSome_position?_setPosition _ h
    · exact .of_erase rfl fun _ _ h => m.isSome_position?_setPosition _ h
    · refine .of_erase rfl fun symbol' hne h => ?_
      rw [position?_eq] at h ⊢
      change ((KeyedList.under Position.symbol symbol'
        (KeyedList.remove Position.symbol m.positions pos.symbol)).head?).isSome
      rw [KeyedList.under_remove, if_neg hne.symm]
      exact h
  | none =>
    cases hpending : m.pendingOrders.find? symbol with
    | none => exact .of_eq rfl fun _ h => h
    | some order => exact .of_eq rfl fun _ h => isSome_position?_push rfl h

theorem leavesMarks_syncPosition (m : PositionManager) (exchange : String)
    (report : PositionReport) : LeavesMarks m (m.syncPosition exchange report) := by
  unfold syncPosition
  split
  · exact .of_eq rfl fun _ h => h
  · split
    · exact .of_eq rfl fun _ h => m.isSome_position?_setPosition _ h
    · split
      · exact .of_eq rfl fun _ h => h
      · exact .of_eq rfl fun _ h => isSome_position?_push rfl h

theorem under_reconcile_of_marked (exchangeSymbols : List String) (exchange : String)
    (positions : List Position) {since : ℤ} (acc : List String × PositionManager)
    (hsince : (positions.foldl (reconcileOne exchangeSymbols exchange) acc).2.closingSince.find?
      symbol = some since) : acc.2.closingSince.find? symbol = some since ∧
      KeyedList.under Position.symbol symbol
          (positions.foldl (reconcileOne exchangeSymbols exchange) acc).2.positions =
        KeyedList.under Position.symbol symbol acc.2.positions ++
          KeyedList.under Position.symbol symbol positions := by
  induction positions generalizing acc with
  | nil => exact ⟨hsince, (List.append_nil _).symm⟩
  | cons pos rest ih =>
    rw [List.foldl_cons] at hsince ⊢
    obtain ⟨hmarked, hunder⟩ := ih _ hsince
    rw [hunder]
    obtain ⟨removed, m⟩ := acc
    have hkeep : KeyedList.under Position.symbol symbol (m.positions ++ [pos]) ++
          KeyedList.under Position.symbol symbol rest =
        KeyedList.under Position.symbol symbol m.positions ++
          KeyedList.under Position.symbol symbol (pos :: rest) := by
      rw [KeyedList.under_append, List.append_assoc, ← KeyedList.under_append]
      rfl
    simp only [reconcileOne] at hmarked ⊢
    split_ifs at hmarked ⊢
    · exact ⟨hmarked, hkeep⟩
    · exact ⟨hmarked, hkeep⟩
    · -- The position is dropped and its mark with it, so it is of another symbol.
      rw [Dict.find?_erase] at hmarked
      split_ifs at hmarked with hsame
      refine ⟨hmarked, ?_⟩
      rw [KeyedList.under_cons_of_ne (Ne.symm hsame)]

theorem leavesMarks_reconcilePositions (m : PositionManager) (exchangeSymbols : List String)
    (exchange : String) : LeavesMarks m (m.reconcilePositions exchangeSymbols exchange).2 := by
  intro symbol since hsince
  obtain ⟨hmarked, hunder⟩ := under_reconcile_of_marked exchangeSymbols exchange m.positions _ hsince
  refine ⟨hmarked, fun h => ?_⟩
  rw [position?_eq] at h ⊢
  rw [reconcilePositions, hunder]
  exact h

theorem leavesMarks_updateAllPnl (m : PositionManager) (prices : Dict String ℚ) :
    LeavesMarks m (m.updateAllPnl prices) := by
  refine .of_eq rfl fun symbol h => ?_
  have hunder : KeyedList.under Position.symbol symbol (m.updateAllPnl prices).positions =
      (KeyedList.under Position.symbol symbol m.positions).map _ :=
    KeyedList.under_map (fun pos => by split <;> rfl) symbol m.positions
  rw [position?_eq] at h ⊢
  rw [hunder, List.head?_map, Option.isSome_map]
  exact h

end PositionManager

theorem BotContext.leavesMarks_step (defaultExchange : String) (x : BotContext) {e : BotEvent}
    (hmark : ∀ symbol now, e ≠ .markClosing symbol now) :
    x.posMgr.LeavesMarks (x.step defaultExchange e).posMgr := by
  cases e with
  | submitOrder signal quantity =>
    simp only [step]
    split <;> exact .of_eq rfl fun _ h => h
  | addPendingOrder signal quantity =>
    simp only [step, PositionManager.addPendingOrder]
    split <;> exact .of_eq rfl fun _ h => h
  | markClosing symbol now => exact absurd rfl (hmark symbol now)
  | updateAllPnl prices => exact x.posMgr.leavesMarks_updateAllPnl prices
  | fill o =>
    change x.posMgr.LeavesMarks (x.onFill o).posMgr
    obtain hkept | ⟨-, hexecuted⟩ | hreleased := x.posMgr_onFill_cases o
    · rw [hkept]
      exact .of_eq rfl fun _ h => h
    · rw [hexecuted]
      exact x.posMgr.leavesMarks_applyExecution _ _ _ _ _
    · rw [hreleased]
      exact .of_erase rfl fun _ _ h => h
  | storeBalance balance => exact .of_eq rfl fun _ h => h
  | syncPosition report => exact x.posMgr.leavesMarks_syncPosition defaultExchange report
  | reconcilePositions exchangeSymbols =>
    exact x.posMgr.leavesMarks_reconcilePositions exchangeSymbols defaultExchange
  | orderCancelled o =>
    simp only [step, onOrderCancelled]
    split <;> exact .of_eq rfl fun _ h => h
  | ordersCancelled orders => exact .of_eq rfl fun _ h => h

/-- The answer to a close order clears the mark when the book holds a position that the answer
reduces or closes, or that the exchange would not close. -/
theorem BotContext.closingSince_onFill_of_settles {x : BotContext} {o : OrderUpdate}
    (hsettles : o.Settles) {pos : Position} (hpos : x.posMgr.position? o.symbol = some pos)
    (hopposite : o.Executes → pos.side ≠ o.side) :
    (x.onFill o).posMgr.closingSince.find? o.symbol = none := by
  by_cases hexecutes : o.Executes
  · have hsymbol := PositionManager.symbol_of_position? hpos
    rw [posMgr_onFill_of_executes hexecutes, PositionManager.applyExecution, hpos]
    simp only [PositionManager.fillPosition, if_neg (hopposite hexecutes)]
    split_ifs
    · simp only [PositionManager.reduce, hsymbol, Dict.find?_erase, if_true]
    · simp only [PositionManager.close, hsymbol, Dict.find?_erase, if_true]
  · rw [posMgr_onFill]
    obtain hfilled | hstatus | hstatus := hsettles
    · exact absurd hfilled hexecutes
    · rw [hstatus]
      simp only [PositionManager.applyFill, Dict.find?_erase, if_true]
    · rw [hstatus]
      simp only [PositionManager.applyFill, Dict.find?_erase, if_true]

/-- A close order that was sent. `opening` numbers the event that opened the position it was sent
for, if there was one. -/
structure CloseRequest where
  symbol : String
  opening : Option ℕ
  sentAt : ℤ
  answered : Bool := false
  deriving DecidableEq

/-- What happens around close orders: one is sent or answered, the main loop sets the mark of the last one,
the stops are checked, or anything else that sets no mark. -/
inductive CloseEvent where
  | requestClose (symbol : String) (now : ℤ)
  | answer (request : ℕ) (o : OrderUpdate)
  | markClosing (now : ℤ)
  | check (prices : Dict String ℚ) (now : ℤ)
  | other (e : BotEvent) (hmark : ∀ symbol now, e ≠ .markClosing symbol now)

/-- The bot with its close orders, and as bookkeeping the number of events, which of them opened a position,
and which close order set a mark. -/
structure CloseRun where
  bot : BotContext := {}
  requests : List CloseRequest := []
  events : ℕ := 0
  openedAt : String → ℕ := fun _ => 0
  marker : String → ℕ := fun _ => 0

namespace CloseRun

/-- Let the bot take a step; a symbol that gets a position gets it from this event. -/
def advance (x : CloseRun) (bot : BotContext) : CloseRun :=
  { x with
    bot := bot
    events := x.events + 1
    openedAt := fun symbol =>
      if (x.bot.posMgr.position? symbol).isNone ∧ (bot.posMgr.position? symbol).isSome then x.events
      else x.openedAt symbol }

/-- The event that opened the position held under a symbol. -/
def opening? (x : CloseRun) (symbol : String) : Option ℕ :=
  (x.bot.posMgr.position? symbol).map fun _ => x.openedAt symbol

/-- The close order that the main loop has sent last. -/
def lastRequest? (x : CloseRun) : Option CloseRequest := x.requests.getLast?

/-- Deliver the answer to a close order; it is about the symbol of that order. -/
def deliver (x : CloseRun) (request : ℕ) (o : OrderUpdate) : CloseRun :=
  match x.requests[request]? with
  | some r =>
    { x.advance (x.bot.onFill { o with symbol := r.symbol }) with
      requests := x.requests.set request { r with answered := true } }
  | none => x

/-- Set the mark of the close order sent last. -/
def mark (defaultExchange : String) (x : CloseRun) (now : ℤ) : CloseRun :=
  match x.lastRequest? with
  | some r =>
    { x with
      bot := x.bot.step defaultExchange (.markClosing r.symbol now)
      marker := Function.update x.marker r.symbol (x.requests.length - 1) }
  | none => x

def step (defaultExchange : String) (x : CloseRun) : CloseEvent → CloseRun
  | .requestClose symbol now =>
    { x with
      requests := x.requests ++ [{ symbol := symbol, opening := x.opening? symbol, sentAt := now }] }
  | .answer request o => x.deliver request o
  | .markClosing now => x.mark defaultExchange now
  | .check _ _ => x
  | .other e _ => x.advance (x.bot.step defaultExchange e)

/-- A close order that was sent for the position now held under its symbol waits for its answer. -/
def Outstanding (x : CloseRun) (symbol : String) (r : CloseRequest) : Prop :=
  r.symbol = symbol ∧ r.opening = some (x.openedAt symbol) ∧ r.answered = false

/-- Where a check finds a stop or target hit, it reports the position, unless a close order younger
than ten seconds is outstanding for that very position. -/
def ShieldsOwn (x : CloseRun) : CloseEvent → Prop
  | .check prices now =>
    ∀ pos ∈ x.bot.posMgr.positions, ∀ price ∈ prices.find? pos.symbol, ∀ t ∈ trigger? pos price,
        t ∈ x.bot.posMgr.checkSlTp prices now ∨
          ∃ r ∈ x.requests, x.Outstanding pos.symbol r ∧ now - r.sentAt < closeRetryNs
  | _ => True

/-- The mark is set before the close order is answered and while its position is on the book; its answer
reduces or closes the position or reports a failed close; and a check that finds a mark younger than ten
seconds finds its close order so, too. -/
def MarksInTime (x : CloseRun) : CloseEvent → Prop
  | .markClosing _ => ∀ r ∈ x.lastRequest?, r.answered = false ∧ r.opening = x.opening? r.symbol ∧
      (x.opening? r.symbol).isSome
  | .answer request o => ∀ r ∈ x.requests[request]?, x.marker r.symbol = request →
      (x.bot.posMgr.closingSince.find? r.symbol).isSome →
        ∀ pos ∈ x.bot.posMgr.position? r.symbol, o.Settles ∧ (o.Executes → pos.side ≠ o.side)
  | .check _ now => ∀ entry ∈ x.bot.posMgr.closingSince.entries, ∀ r ∈ x.requests[x.marker entry.1]?,
        now - entry.2 < closeRetryNs → now - r.sentAt < closeRetryNs
  | _ => True

instance (x : CloseRun) (symbol : String) (r : CloseRequest) : Decidable (x.Outstanding symbol r) :=
  inferInstanceAs (Decidable (_ ∧ _ ∧ _))

instance (x : CloseRun) (e : CloseEvent) : Decidable (x.ShieldsOwn e) := by
  cases e <;> unfold ShieldsOwn <;> infer_instance

instance (x : CloseRun) (e : CloseEvent) : Decidable (x.MarksInTime e) := by
  cases e <;> unfold MarksInTime <;> infer_instance

/-- Every mark belongs to the position that is held: its close order is outstanding. -/
def Marked (x : CloseRun) : Prop :=
  ∀ symbol since, x.bot.posMgr.closingSince.find? symbol = some since →
    (x.bot.posMgr.position? symbol).isSome ∧
      ∃ r, x.requests[x.marker symbol]? = some r ∧ x.Outstanding symbol r

theorem marked_init : Marked {} := by
  intro symbol since hsince
  cases hsince

variable {x : CloseRun}

/-- A held position keeps its opening through a step. -/
theorem openedAt_advance (bot : BotContext) {symbol : String} (h : (x.bot.posMgr.position? symbol).isSome) :
    (x.advance bot).openedAt symbol = x.openedAt symbol := by
  have hheld : ¬ (x.bot.posMgr.position? symbol).isNone := by
    rw [Option.isNone_iff_eq_none, ← Ne, Option.ne_none_iff_isSome]
    exact h
  simp only [advance, hheld, false_and, Bool.false_eq_true, if_false]

theorem marked_advance (hmarked : x.Marked) {bot : BotContext}
    (hleaves : x.bot.posMgr.LeavesMarks bot.posMgr) : (x.advance bot).Marked := by
  intro symbol since hsince
  obtain ⟨hbefore, hkept⟩ := hleaves symbol since hsince
  obtain ⟨hheld, r, hr, hsymbol, hopening, hunanswered⟩ := hmarked symbol since hbefore
  refine ⟨hkept hheld, r, hr, hsymbol, ?_, hunanswered⟩
  rw [openedAt_advance bot hheld]
  exact hopening

/-- Setting the mark of the close order sent last. -/
theorem marked_mark (defaultExchange : String) (hmarked : x.Marked) {now : ℤ}
    (hin : x.MarksInTime (.markClosing now)) : (x.mark defaultExchange now).Marked := by
  unfold mark
  cases hlast : x.lastRequest? with
  | none => exact hmarked
  | some r =>
    obtain ⟨hunanswered, hopening, hopen⟩ := hin r hlast
    intro symbol since hsince
    simp only [BotContext.step, PositionManager.markClosing, Dict.find?_insert] at hsince ⊢
    split_ifs at hsince with hsame
    · subst hsame
      rw [opening?, Option.isSome_map] at hopen
      refine ⟨hopen, r, ?_, rfl, ?_, hunanswered⟩
      · rw [Function.update_self, ← hlast, lastRequest?, List.getLast?_eq_getElem?]
      · obtain ⟨pos, hpos⟩ := Option.isSome_iff_exists.mp hopen
        rw [hopening, opening?, hpos]
        rfl
    · obtain ⟨hheld, r', hr', houtstanding⟩ := hmarked symbol since hsince
      refine ⟨hheld, r', ?_, houtstanding⟩
      rw [Function.update_of_ne hsame]
      exact hr'

theorem marked_deliver (hmarked : x.Marked) {request : ℕ} {o : OrderUpdate}
    (hin : x.MarksInTime (.answer request o)) : (x.deliver request o).Marked := by
  unfold deliver
  cases hr : x.requests[request]? with
  | none => exact hmarked
  | some r =>
    have hleaves := x.bot.leavesMarks_step o.exchange (e := .fill { o with symbol := r.symbol })
      (fun _ _ => BotEvent.noConfusion)
    intro symbol since hsince
    obtain ⟨hheld, r', hr', houtstanding⟩ := marked_advance hmarked hleaves symbol since hsince
    refine ⟨hheld, r', ?_, houtstanding⟩
    have hne : request ≠ x.marker symbol := by
      -- The answer to the order that set the mark would have cleared it.
      rintro rfl
      obtain rfl : r = r' := Option.some_inj.mp (hr.symm.trans hr')
      obtain rfl : r.symbol = symbol := houtstanding.1
      have hbefore := (hleaves r.symbol since hsince).1
      obtain ⟨pos, hpos⟩ := Option.isSome_iff_exists.mp (hmarked r.symbol since hbefore).1
      obtain ⟨hsettles, hopposite⟩ := hin r hr rfl (Option.isSome_of_eq_some hbefore) pos hpos
      have hcleared := BotContext.closingSince_onFill_of_settles
        (o := { o with symbol := r.symbol }) hsettles hpos hopposite
      cases hcleared.symm.trans hsince
    exact (List.getElem?_set_ne hne).trans hr'

theorem marked_step (defaultExchange : String) (x : CloseRun) (e : CloseEvent)
    (hmarked : x.Marked) (hin : x.MarksInTime e) : (x.step defaultExchange e).Marked := by
  cases e with
  | requestClose symbol now =>
    intro symbol' since hsince
    obtain ⟨hheld, r, hr, houtstanding⟩ := hmarked symbol' since hsince
    refine ⟨hheld, r, ?_, houtstanding⟩
    obtain ⟨hindex, -⟩ := List.getElem?_eq_some_iff.mp hr
    exact (List.getElem?_append_left hindex).trans hr
  | answer request o => exact marked_deliver hmarked hin
  | markClosing now => exact marked_mark defaultExchange hmarked hin
  | check prices now => exact hmarked
  | other e hmark => exact marked_advance hmarked (x.bot.leavesMarks_step defaultExchange hmark)

/-- A check that shields a position finds its close order outstanding. -/
theorem shieldsOwn_of_marked (hmarked : x.Marked) {e : CloseEvent}
    (hin : x.MarksInTime e) : x.ShieldsOwn e := by
  cases e with
  | check prices now =>
    intro pos hpos price hprice t ht
    cases hsince : x.bot.posMgr.closingSince.find? pos.symbol with
    | none =>
      left
      refine List.mem_filterMap.mpr ⟨pos, hpos, ?_⟩
      rw [Option.mem_def.mp hprice, hsince]
      exact ht
    | some since =>
      by_cases hfresh : now - since < closeRetryNs
      · obtain ⟨-, r, hr, houtstanding⟩ := hmarked pos.symbol since hsince
        exact Or.inr ⟨r, List.mem_of_getElem? hr, houtstanding,
          hin (pos.symbol, since) ((Dict.mem_entries_iff ..).mpr hsince) r hr hfresh⟩
      · left
        refine List.mem_filterMap.mpr ⟨pos, hpos, ?_⟩
        rw [Option.mem_def.mp hprice, hsince]
        simp only [hfresh, if_false]
        exact ht
  | _ => trivial

/-- In a run that sets every mark in time, checks shield a position only behind its own close
order. -/
theorem shieldsOwn_of_marksInTime (defaultExchange : String) (events : List CloseEvent)
    (hin : Along (step defaultExchange) MarksInTime {} events) :
    Along (step defaultExchange) ShieldsOwn {} events :=
  along_imp Marked (marked_step defaultExchange) (fun _ _ h => shieldsOwn_of_marked h) marked_init hin

section Example

def longWithStop : Signal where
  symbol := "BTC"
  direction := .long
  stopLoss := 95

/-- One unit filled at 100. -/
def oneFilled (side : Exchange.Side) : OrderUpdate where
  symbol := "BTC"
  exchange := "binance"
  side := side
  status := .filled
  filledQuantity := 1
  filledPrice := 100

/-- The bot opens a long position. -/
def openLong : List CloseEvent :=
  [.other (.addPendingOrder longWithStop 1) (fun _ _ => BotEvent.noConfusion),
    .other (.fill (oneFilled .buy)) (fun _ _ => BotEvent.noConfusion)]

def checkBelowStop (now : ℤ) : CloseEvent := .check (Dict.empty.insert "BTC" 90) now

end Example

/-- The close fill arrives before the mark is set; the next position's stop is then ignored. -/
theorem not_shieldsOwn_markedLate : ¬ Along (step "binance") ShieldsOwn {}
      (openLong ++ [.requestClose "BTC" 0, .answer 0 (oneFilled .sell), .markClosing 1] ++
        openLong ++ [checkBelowStop 2]) := by
  decide +kernel

/-- Marked in time, the position is shielded until the close fill, and the next one is not. -/
theorem shieldsOwn_markedInTime : Along (step "binance") ShieldsOwn {}
      (openLong ++ [.requestClose "BTC" 0, .markClosing 1, checkBelowStop 2,
        .answer 0 (oneFilled .sell)] ++ openLong ++ [checkBelowStop 3]) :=
  shieldsOwn_of_marksInTime "binance" _ (by decide +kernel)

end CloseRun

end TradingSim.Bot
