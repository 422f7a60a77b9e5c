import TradingSim.Exchange.Runs
import TradingSim.Foundations.RecentKeys
import TradingSim.Gateway.OrderHandler

/-!
# At most one order for a client's key

Looking a key up, submitting the order and remembering it is one step for every other task: the
handler awaits in between only to answer an error, and then it submits nothing. So the memory
holds the last keys under which orders were submitted, each once.
-/

namespace TradingSim.Gateway

open Foundations
open Exchange (MarketView SimulatedExchange)
open Coroutine (Outcome)

variable {rt : Runtime} {m : MarketView} {client : ℕ} {exchangeId : String}
  {exchange : SimulatedExchange} {key : Option String} {data : Dict String Json}

namespace Server

/-- The orders submitted under a key, oldest first. -/
def accepted (x : Server) : List (String × OrderRef) :=
  x.submitted.filterMap fun s => s.1.map fun key => (key, s.2)

/-- Two states have the same memory of orders. -/
structure SameMemory (x y : Server) : Prop where
  orderDedup : y.orderDedup = x.orderDedup
  orderDedupKeys : y.orderDedupKeys = x.orderDedupKeys
  submitted : y.submitted = x.submitted

theorem SameMemory.refl (x : Server) : SameMemory x x := ⟨rfl, rfl, rfl⟩

/-- The memory holds the last orders submitted under a key, and no key was submitted again while
it was remembered. -/
structure Remembers (x : Server) : Prop where
  keys : x.orderDedupKeys = recent orderDedupMax (x.accepted.map Prod.fst)
  spaced : Spaced orderDedupMax (x.accepted.map Prod.fst)
  entries : ∀ e, e ∈ x.orderDedup.entries ↔ e ∈ recent orderDedupMax x.accepted

theorem Remembers.congr {x y : Server} (h : x.Remembers) (hsame : SameMemory x y) : y.Remembers := by
  have haccepted : y.accepted = x.accepted := by rw [accepted, accepted, hsame.submitted]
  constructor
  · rw [hsame.orderDedupKeys, haccepted, h.keys]
  · rw [haccepted]
    exact h.spaced
  · intro e
    rw [hsame.orderDedup, haccepted]
    exact h.entries e

theorem Remembers.find?_eq_some_iff {x : Server} (h : x.Remembers) (k : String) (o : OrderRef) :
    x.orderDedup.find? k = some o ↔ (k, o) ∈ recent orderDedupMax x.accepted := by
  rw [← Dict.mem_entries_iff]
  exact h.entries (k, o)

/-- A key that looks up to nothing is not among the remembered ones. -/
theorem Remembers.not_mem_recent {x : Server} (h : x.Remembers) {k : String}
    (hk : x.orderDedup.find? k = none) : k ∉ recent orderDedupMax (x.accepted.map Prod.fst) := by
  rw [← map_recent]
  intro hmem
  obtain ⟨⟨k', o⟩, hentry, rfl⟩ := List.mem_map.mp hmem
  rw [(h.find?_eq_some_iff k' o).mpr hentry] at hk
  cases hk

/-- Dropping the oldest entry drops the entries of its key. -/
theorem mem_tail_iff {e : String × OrderRef} {rest : List (String × OrderRef)}
    (hnodup : ((e :: rest).map Prod.fst).Nodup) (e' : String × OrderRef) :
    e' ∈ rest ↔ e'.1 ≠ e.1 ∧ e' ∈ e :: rest := by
  rw [List.map_cons, List.nodup_cons] at hnodup
  constructor
  · intro hmem
    refine ⟨fun heq => hnodup.1 ?_, List.mem_cons_of_mem _ hmem⟩
    rw [← heq]
    exact List.mem_map_of_mem hmem
  · rintro ⟨hne, hmem⟩
    rcases List.mem_cons.mp hmem with rfl | hrest
    · exact absurd rfl hne
    · exact hrest

theorem remember_of_keys {x : Server} {k oldest : String} {rest : List String} (o : OrderRef)
    (hkeys : x.orderDedupKeys ++ [k] = oldest :: rest) : x.remember (some k) o =
      if orderDedupMax < (oldest :: rest).length then
        { x with orderDedup := (x.orderDedup.insert k o).erase oldest, orderDedupKeys := rest }
      else { x with orderDedup := x.orderDedup.insert k o, orderDedupKeys := oldest :: rest } := by
  simp only [Server.remember, hkeys]

/-- A new key and its order come last in the memory. -/
theorem Remembers.mem_insert {x : Server} (h : x.Remembers) {k : String}
    (hnew : x.orderDedup.find? k = none) (o : OrderRef) (e : String × OrderRef) :
    e ∈ (x.orderDedup.insert k o).entries ↔ e ∈ recent orderDedupMax x.accepted ++ [(k, o)] := by
  rw [Dict.mem_insert_entries, h.entries, List.mem_append, List.mem_singleton, Prod.mk.injEq]
  constructor
  · rintro (hlast | ⟨-, hold⟩)
    · exact Or.inr hlast
    · exact Or.inl hold
  · rintro (hold | hlast)
    · refine Or.inr ⟨?_, hold⟩
      rintro rfl
      apply h.not_mem_recent hnew
      rw [← map_recent]
      exact List.mem_map_of_mem hold
    · exact Or.inl hlast

theorem Remembers.keys_concat {x : Server} (h : x.Remembers) {k : String}
    (hnew : x.orderDedup.find? k = none) (o : OrderRef) :
    (recent orderDedupMax x.accepted ++ [(k, o)]).map Prod.fst = x.orderDedupKeys ++ [k] ∧
      (x.orderDedupKeys ++ [k]).Nodup := by
  constructor
  · rw [List.map_append, map_recent, h.keys]
    rfl
  · rw [h.keys]
    exact h.spaced.nodup_recent.append (List.nodup_singleton k)
      (List.disjoint_singleton.mpr (h.not_mem_recent hnew))

/-- An order that is submitted under a new key is remembered, and the oldest one forgotten if the
memory is full. -/
theorem Remembers.remember {x y : Server} {o : OrderRef} (h : x.Remembers)
    (hdedup : y.orderDedup = x.orderDedup) (hkeys : y.orderDedupKeys = x.orderDedupKeys)
    (hsubmitted : y.submitted = x.submitted ++ [(key, o)])
    (hnew : key.bind x.orderDedup.find? = none) : (y.remember key o).Remembers := by
  cases key with
  | none =>
    have haccepted : y.accepted = x.accepted := by simp [accepted, hsubmitted]
    constructor
    · rw [Server.remember, hkeys, haccepted, h.keys]
    · rw [Server.remember, haccepted]
      exact h.spaced
    · intro e
      rw [Server.remember, hdedup, haccepted]
      exact h.entries e
  | some k =>
    have haccepted : y.accepted = x.accepted ++ [(k, o)] := by simp [accepted, hsubmitted]
    have hspaced : Spaced orderDedupMax (y.accepted.map Prod.fst) := by
      rw [haccepted, List.map_append]
      exact h.spaced.concat (h.not_mem_recent hnew)
    have hinserted := h.mem_insert hnew o
    obtain ⟨hwindowKeys, hnodup⟩ := h.keys_concat hnew o
    have hwindow := recent_concat orderDedupMax x.accepted (k, o)
    rw [← haccepted] at hwindow
    rw [← hwindowKeys] at hnodup
    rw [← hkeys] at hwindowKeys
    rw [← hdedup] at hinserted
    cases hlist : recent orderDedupMax x.accepted ++ [(k, o)] with
    | nil => exact absurd hlist (by simp)
    | cons oldest rest =>
      rw [hlist] at hwindow hwindowKeys hnodup hinserted
      have hlength : (oldest.1 :: rest.map Prod.fst).length = (oldest :: rest).length := by simp
      rw [remember_of_keys o hwindowKeys.symm, hlength]
      split
      · rename_i hfull
        rw [if_pos hfull] at hwindow
        constructor
        · change rest.map Prod.fst = recent orderDedupMax (y.accepted.map Prod.fst)
          rw [← map_recent, hwindow, List.tail_cons]
        · exact hspaced
        · rintro ⟨k', o'⟩
          change (k', o') ∈ ((y.orderDedup.insert k o).erase oldest.1).entries ↔
            (k', o') ∈ recent orderDedupMax y.accepted
          rw [Dict.mem_erase_entries, hinserted, hwindow, List.tail_cons, mem_tail_iff hnodup]
      · rename_i hfits
        rw [if_neg hfits] at hwindow
        constructor
        · change (oldest :: rest).map Prod.fst = recent orderDedupMax (y.accepted.map Prod.fst)
          rw [← map_recent, hwindow]
        · exact hspaced
        · intro e
          change e ∈ (y.orderDedup.insert k o).entries ↔ e ∈ recent orderDedupMax y.accepted
          rw [hinserted, hwindow]

/-- Writing a `client_order_id` leaves the memory alone. -/
theorem sameMemory_label (x : Server) (o : OrderRef) (clientOrderId : Option String) :
    SameMemory x (x.label o clientOrderId) := by
  unfold label
  split
  · exact .refl x
  · exact ⟨rfl, rfl, rfl⟩

end Server

open Server (SameMemory)

/-- What becomes of a submission until it awaits or ends: an error was answered or raised, or an order was
submitted without any await before. -/
inductive SubmitRun (x : Server) (client : ℕ) (key : Option String) :
    Server × Outcome Server Output (Option OrderRef) → Prop
  | refused (y : Server) (text : String) : SameMemory x y →
      SubmitRun x client key (y, .awaits (.send client (.error text)) (pure none))
  | raised (y : Server) : SameMemory x y → SubmitRun x client key (y, .ended none)
  | submitted (y : Server) (o : OrderRef) : y.orderDedup = x.orderDedup →
      y.orderDedupKeys = x.orderDedupKeys → y.submitted = x.submitted ++ [(key, o)] →
      SubmitRun x client key (y, .ended (some o))

/-- An answered error ends the submission. -/
theorem submitRun_refuse {x y : Server} (hsame : SameMemory x y) (text : String) :
    SubmitRun x client key ((refuse client text).advance y) := .refused y text hsame

theorem submitRun_placeOrder (quantity : ℚ) (timeInForce : String) (expireTs : Option (Option ℚ))
    (x : Server) : SubmitRun x client key
      ((placeOrder rt m client exchangeId exchange key data quantity timeInForce expireTs).advance x) := by
  simp only [placeOrder, Coroutine.advance_modify_bind]
  have hput : SameMemory x (x.putExchange exchangeId
      (callSubmitOrder rt m exchange data quantity timeInForce expireTs).1) := ⟨rfl, rfl, rfl⟩
  cases (callSubmitOrder rt m exchange data quantity timeInForce expireTs).2 with
  | order r => exact .submitted _ ⟨exchangeId, r⟩ rfl rfl rfl
  | invalid error => exact submitRun_refuse hput _
  | raised => exact .raised _ hput

theorem submitRun_submitExchangeOrder (x : Server) : SubmitRun x client key
    ((submitExchangeOrder rt m client exchangeId exchange key data).advance x) := by
  unfold submitExchangeOrder
  split
  · exact submitRun_refuse (.refl x) _
  · exact submitRun_refuse (.refl x) _
  · split
    · exact submitRun_refuse (.refl x) _
    · dsimp only
      split
      · exact submitRun_refuse (.refl x) _
      · split
        · exact submitRun_placeOrder _ _ _ x
        · split
          · exact .raised x (.refl x)
          · exact submitRun_placeOrder _ _ _ x

theorem handleNewOrder_keeps {x : Server} (h : x.Remembers) (hnew : key.bind x.orderDedup.find? = none) :
    ((handleNewOrder rt m client exchangeId exchange key data).advance x).1.Remembers ∧
      ((handleNewOrder rt m client exchangeId exchange key data).advance x).2.Quiet := by
  have hrun : SubmitRun x client key
      ((submitExchangeOrder rt m client exchangeId exchange key data).advance x) :=
    submitRun_submitExchangeOrder x
  rw [handleNewOrder, Coroutine.advance_bind]
  generalize (submitExchangeOrder rt m client exchangeId exchange key data).advance x = ran at hrun
  cases hrun with
  | refused y text hsame => exact ⟨h.congr hsame, trivial⟩
  | raised y hsame => exact ⟨h.congr hsame, trivial⟩
  | submitted y o hdedup hkeys hsubmitted =>
    have hlabel := y.sameMemory_label o (clientOrderIdOf rt (member data "client_order_id"))
    refine ⟨h.remember ?_ ?_ ?_ hnew, trivial⟩
    · rw [hlabel.orderDedup, hdedup]
    · rw [hlabel.orderDedupKeys, hkeys]
    · rw [hlabel.submitted, hsubmitted]

/-- Up to its first await the handler leaves a state that remembers, and it never writes later. -/
theorem handleOrderInner_keeps {x : Server} (h : x.Remembers) :
    ((handleOrderInner rt m client data).advance x).1.Remembers ∧
      ((handleOrderInner rt m client data).advance x).2.Quiet := by
  have hanswer : ∀ text : String, ((sendError client text).advance x).1.Remembers ∧
      ((sendError client text).advance x).2.Quiet := fun text => ⟨h, trivial⟩
  simp only [handleOrderInner, Coroutine.advance_get_bind]
  split
  · exact hanswer _
  · split
    · exact ⟨h, trivial⟩
    · split
      · exact hanswer _
      · split
        · exact hanswer _
        · split
          · exact ⟨h, trivial⟩
          · rename_i hnew
            exact handleNewOrder_keeps h hnew
    · exact hanswer _

/-! ### Runs -/

/-- What may happen next at the server: an order message arrives, a handler that awaits goes on, or
other code leaves the exchanges and the trading switch as it likes. -/
inductive Event
  | order (client : ℕ) (m : MarketView) (data : Dict String Json)
  | resume (i : ℕ)
  | elsewhere (tradingActive : Bool) (exchanges : Dict String SimulatedExchange)

/-- The step of the event loop. -/
def Event.toLoop (rt : Runtime) : Event → EventLoop.Event Server Output
  | .order client m data => .start (handleOrderInner rt m client data)
  | .resume i => .resume i
  | .elsewhere tradingActive exchanges => .outside fun x =>
      { x with tradingActive := tradingActive, exchanges := exchanges }

/-- The event loop of a server that has started with its exchanges. -/
def start (exchanges : Dict String SimulatedExchange) : EventLoop Server Output :=
  { state := { exchanges := exchanges } }

/-- The event loop after a sequence of events. -/
def after (rt : Runtime) (exchanges : Dict String SimulatedExchange) (events : List Event) :
    EventLoop Server Output :=
  run (fun loop e => loop.step (Event.toLoop rt e)) (start exchanges) events

theorem keeps_start (exchanges : Dict String SimulatedExchange) :
    (start exchanges).Keeps Server.Remembers := by
  have haccepted : (start exchanges).state.accepted = [] := rfl
  constructor
  · constructor
    · rw [haccepted, List.map_nil, recent_nil]
      rfl
    · exact .nil _
    · intro e
      rw [haccepted, recent_nil]
      rfl
  · exact fun _ htask => absurd htask List.not_mem_nil

theorem keeps_step {loop : EventLoop Server Output} (h : loop.Keeps Server.Remembers) (e : Event) :
    (loop.step (e.toLoop rt)).Keeps Server.Remembers := by
  apply h.step
  · intro task htask x hx
    cases e with
    | order client m data =>
      obtain rfl := EventLoop.Event.start.inj htask
      exact handleOrderInner_keeps hx
    | resume i => cases htask
    | elsewhere tradingActive exchanges => cases htask
  · intro change hchange x hx
    cases e with
    | order client m data => cases hchange
    | resume i => cases hchange
    | elsewhere tradingActive exchanges =>
      obtain rfl := EventLoop.Event.outside.inj hchange
      exact hx.congr ⟨rfl, rfl, rfl⟩

theorem remembers_after (exchanges : Dict String SimulatedExchange) (events : List Event) :
    (after rt exchanges events).state.Remembers := by
  have hstep : ∀ (loop : EventLoop Server Output) (e : Event), loop.Keeps Server.Remembers →
      (loop.step (e.toLoop rt)).Keeps Server.Remembers := fun _ e h => keeps_step h e
  exact (run_invariant hstep events (keeps_start exchanges)).state

/-- The dictionary and the queue hold the same distinct keys, not more than the bound. -/
structure Server.Aligned (x : Server) : Prop where
  perm : x.orderDedup.keys.Perm x.orderDedupKeys
  nodup : x.orderDedupKeys.Nodup
  bounded : x.orderDedupKeys.length ≤ orderDedupMax

theorem Server.Remembers.aligned {x : Server} (h : x.Remembers) : x.Aligned := by
  have hnodup : x.orderDedupKeys.Nodup := h.keys ▸ h.spaced.nodup_recent
  have hmem : ∀ key, key ∈ x.orderDedup.keys ↔ key ∈ x.orderDedupKeys := by
    intro key
    rw [Dict.mem_keys_iff, h.keys, ← map_recent, List.mem_map]
    constructor
    · rintro ⟨o, hfind⟩
      exact ⟨(key, o), (h.find?_eq_some_iff key o).mp hfind, rfl⟩
    · rintro ⟨⟨_, o⟩, hentry, rfl⟩
      exact ⟨o, (h.find?_eq_some_iff _ o).mpr hentry⟩
  constructor
  · exact (List.perm_ext_iff_of_nodup x.orderDedup.nodup hnodup).mpr hmem
  · exact hnodup
  · rw [h.keys, length_recent]
    exact Nat.min_le_left _ _

/-- The exchange that a message names. -/
def exchangeName (data : Dict String Json) : Json := (data.find? "exchange").getD (.text "binance")

def messageKey (rt : Runtime) (data : Dict String Json) : Option String :=
  match exchangeName data with
  | .text exchangeId => dedupKey rt exchangeId (member data "client_order_id")
  | _ => none

/-- The guards in front of the lookup let a message through: trading is active, the exchange is
known, and no required field is missing. -/
def Server.Passes (x : Server) (data : Dict String Json) : Prop :=
  x.tradingActive = true ∧
    (∃ exchangeId exchange, exchangeName data = .text exchangeId ∧
      x.exchanges.find? exchangeId = some exchange) ∧
    missingFields data = []

/-- Every message with a key that the guards let through is answered with an order, and nothing
else happens on it. -/
def Server.AnswersWith (rt : Runtime) (x : Server) (key : String) (o : OrderRef) : Prop :=
  ∀ m client data, messageKey rt data = some key → x.Passes data →
    ∃ next, (handleOrderInner rt m client data).advance x =
      (x, .awaits (.send client (.fill o (x.order o) true)) next) ∧ next.Quiet

theorem Server.Remembers.answersWith {x : Server} (h : x.Remembers) {k : String} {o : OrderRef}
    (hmem : (k, o) ∈ recent orderDedupMax x.accepted) : x.AnswersWith rt k o := by
  rintro m client data hkey ⟨hactive, ⟨exchangeId, exchange, hname, hexchange⟩, hfields⟩
  have hfind := (h.find?_eq_some_iff k o).mpr hmem
  simp only [messageKey, hname] at hkey
  rw [exchangeName] at hname
  simp only [handleOrderInner, Coroutine.advance_get_bind, hactive, hname, hexchange, hfields, hkey,
    Option.bind_some, hfind, Bool.not_true, Bool.false_eq_true, if_false, ne_eq, not_true_eq_false]
  exact ⟨_, rfl, trivial⟩

/-- In any run the dictionary and the queue are in step, and an order submitted under a key, with fewer than the
bound of other keys after it, is the only one since under that key and answers every message of it that passes
the guards. -/
theorem submitted_once (exchanges : Dict String SimulatedExchange) (events : List Event) :
    (after rt exchanges events).state.Aligned ∧ ∀ earlier key o later,
        (after rt exchanges events).state.accepted = earlier ++ (key, o) :: later →
        ((later.map Prod.fst).toFinset.erase key).card < orderDedupMax →
          key ∉ later.map Prod.fst ∧ (after rt exchanges events).state.AnswersWith rt key o := by
  have h : (after rt exchanges events).state.Remembers := remembers_after exchanges events
  refine ⟨h.aligned, fun earlier key o later hsplit hfew => ?_⟩
  have hspaced := h.spaced
  rw [hsplit, List.map_append, List.map_cons] at hspaced
  obtain ⟨honce, hlength⟩ := hspaced.remembered hfew
  rw [List.length_map] at hlength
  have hrecent : (key, o) :: later <:+ recent orderDedupMax (earlier ++ (key, o) :: later) :=
    recent_append earlier hlength
  rw [← hsplit] at hrecent
  exact ⟨honce, h.answersWith (hrecent.subset List.mem_cons_self)⟩

/-- A runtime for messages whose values are of the annotated types. -/
def typedRuntime : Runtime where
  numerics := .decimal
  str := fun _ => ""
  upper := id
  floatOfText := fun _ => .error "could not convert string to float"
  notFinite := fun _ => "nan"
  floatError := fun _ => "float() argument must be a string or a real number"
  enumError := fun _ => "not a valid member"
  untyped := fun exchange _ => (exchange, .raised)

/-- One exchange with an account of 10000. -/
def oneExchange : Dict String SimulatedExchange :=
  Dict.empty.insert "binance" (SimulatedExchange.init "binance" (1 / 10) 1)

/-- A market order with a `client_order_id`. -/
def orderMessage : Dict String Json := Dict.ofList Prod.fst Prod.snd [
  ("type", .text "order"), ("exchange", .text "binance"), ("symbol", .text "BTC"),
  ("side", .text "BUY"), ("quantity", .int 1), ("client_order_id", .text "a")]

/-- The same message without its quantity. -/
def incompleteMessage : Dict String Json := orderMessage.erase "quantity"

/-- A later message of the same `client_order_id` is answered with an error, if it lacks a required
field: the guards come before the lookup. -/
theorem not_answered_incomplete :
    (after typedRuntime oneExchange [.order 0 (SimulatedExchange.flatMarket 100) orderMessage]).state.accepted =
        [("binance:a", ⟨"binance", 0⟩)] ∧ messageKey typedRuntime incompleteMessage = some "binance:a" ∧
      ((handleOrderInner typedRuntime (SimulatedExchange.flatMarket 100) 1 incompleteMessage).advance
        (after typedRuntime oneExchange
          [.order 0 (SimulatedExchange.flatMarket 100) orderMessage]).state).2.output =
        some (.send 1 (.error "Missing required order fields: ['quantity']")) := by
  decide +kernel

end TradingSim.Gateway
