import TradingSim.Bot.OrderExecutor
import TradingSim.Gateway.Idempotence

/-!
# The keys of the bot's orders

The key of an order is made of its signal's symbol and timestamp. Each producer of signals fills the
timestamp in its own way, and the shared memory ring not at all. As long as the clock goes on, the
orders of the engines have keys of their own; those of the messages have them if symbols and
timestamps tell the messages apart.
-/

namespace TradingSim.Bot

open Foundations
open Exchange (truncate SimulatedExchange)
open Feed (BookEntry)
open OrderExecutor (Call)

/-- Where a signal comes from, with what its timestamp is filled from. -/
inductive SignalSource
  /-- The steady clock when the order is made. -/
  | engineV1 (now : ℤ)
  /-- The steady clock of the sweep, one reading for all symbols. -/
  | engineV2 (tick : ℤ)
  /-- The message's member, if there is one. -/
  | websocket (timestamp : Option Json)
  | shm
  deriving DecidableEq

/-- `data.value("timestamp", 0)`, of type `int`; `none` for a value that cannot be converted. -/
def websocketTimestamp : Option Json → Option ℤ
  | none => some 0
  | some (.int n) => some (n.bmod (2 ^ 32))
  | some (.decimal x) => some ((truncate x).bmod (2 ^ 32))
  | some (.bool b) => some (if b then 1 else 0)
  | some _ => none

/-- `FastSignal::set_symbol`, for symbols of single-byte characters. -/
def fixedSymbol (symbol : String) : String := String.ofList (symbol.toList.take 31)

namespace SignalSource

/-- The timestamp that a source gives its signals. -/
def timestamp : SignalSource → Option ℤ
  | .engineV1 now => some now
  | .engineV2 tick => some tick
  | .websocket timestamp => websocketTimestamp timestamp
  | .shm => some 0

/-- The symbol that a source gives its signals. -/
def symbol : SignalSource → String → String
  | .engineV2 _, symbol => fixedSymbol symbol
  | _, symbol => symbol

/-- The signal that reaches the executor: `convert_fast_signal`, `handle_signal_msg`, the callback
of `init_shm_signal_consumer` and the first engine's loop. -/
def fill (source : SignalSource) (draft : Signal) : Option Signal :=
  source.timestamp.map fun timestamp =>
    { draft with symbol := source.symbol draft.symbol, timestamp := timestamp }

/-- Whether a signal comes in a message, not from an engine of the bot. -/
def isMessage : SignalSource → Bool
  | .engineV1 _ | .engineV2 _ => false
  | .websocket _ | .shm => true

end SignalSource

/-- An attempt of the bot to send the order of a signal. -/
structure OrderAttempt where
  source : SignalSource
  draft : Signal
  confidence : ℚ
  quantity : ℚ
  book : BookEntry
  kind : Option (OrderKind × ℚ × ℤ)
  connected : Bool

namespace OrderAttempt

/-- The call of `submit_order` for a signal. -/
def call (a : OrderAttempt) (signal : Signal) : Call :=
  let o := {
    signal := signal
    confidence := a.confidence
    quantity := a.quantity
    book := a.book }
  match a.kind with
  | none => .plain o
  | some (kind, limitPrice, expireNs) => .ofKind o kind limitPrice expireNs

/-- What is handed to the socket. -/
def wire (exchangeId : String) (a : OrderAttempt) : Option WireOrder :=
  (a.source.fill a.draft).bind fun signal =>
    (⟨exchangeId, a.connected⟩ : OrderExecutor).send (a.call signal)

/-- The `client_order_id` on the wire. -/
def clientOrderId (exchangeId : String) (a : OrderAttempt) : Option Json :=
  (a.wire exchangeId).map fun w => decoded w.members "client_order_id"

/-- What the key of the order is made of: the symbol and the timestamp as the source gives them. -/
def stamp (a : OrderAttempt) : String × Option ℤ := (a.source.symbol a.draft.symbol, a.source.timestamp)

end OrderAttempt

/-- The loop of the second or third engine starts a sweep with one reading of the clock, or comes to its next
symbol; the first engine sends an order with a reading of its own; or a message leads to one. -/
inductive OrderEvent where
  | sweep (now : ℤ)
  | next (order : Option OrderAttempt)
  | engineV1 (now : ℤ) (order : OrderAttempt)
  | websocket (timestamp : Option Json) (order : OrderAttempt)
  | shm (order : OrderAttempt)

/-- The bot with its symbols, the last readings of the clock by any loop and by a sweep, the symbols that
the sweep has not come to, and the orders sent. -/
structure OrderRun where
  exchangeId : String
  symbols : List String
  clock : ℤ
  tick : ℤ := 0
  left : List String := []
  sent : List OrderAttempt := []

namespace OrderRun

variable (x : OrderRun)

def submit (a : OrderAttempt) : OrderRun :=
  if (a.wire x.exchangeId).isSome then { x with sent := x.sent ++ [a] } else x

def step (x : OrderRun) : OrderEvent → OrderRun
  | .sweep now => { x with clock := now, tick := now, left := x.symbols }
  | .next order =>
    match x.left, order with
    | symbol :: rest, some a =>
      { x with left := rest }.submit
        { a with source := .engineV2 x.tick, draft := { a.draft with symbol := symbol } }
    | _ :: rest, none => { x with left := rest }
    | [], _ => x
  | .engineV1 now a => { x with clock := now }.submit { a with source := .engineV1 now }
  | .websocket timestamp a => x.submit { a with source := .websocket timestamp }
  | .shm a => x.submit { a with source := .shm }

/-- After a step no two orders sent carry one key. -/
def DistinctKeys (x : OrderRun) (e : OrderEvent) : Prop :=
  ((x.step e).sent.map (OrderAttempt.clientOrderId x.exchangeId)).Nodup

/-- Every reading of the clock is later than those before it and has left the range of 32 bits, and the
engine's loop can tell the symbols apart. -/
def Clocked (x : OrderRun) : OrderEvent → Prop
  | .sweep now => x.clock < now ∧ 2 ^ 31 ≤ now ∧ (x.symbols.map fixedSymbol).Nodup
  | .engineV1 now _ => x.clock < now ∧ 2 ^ 31 ≤ now
  | _ => True

/-- Whether two messages are filled with one timestamp: ring messages always are, and others as their
members say. -/
def SameTime : SignalSource → SignalSource → Prop
  | .shm, .shm => True
  | .shm, .websocket t | .websocket t, .shm => websocketTimestamp t = some 0
  | .websocket t, .websocket t' => websocketTimestamp t = websocketTimestamp t'
  | _, _ => False

/-- No message for the symbol of this one and filled with the same timestamp led to an order before, if
this one is sent. -/
def Unused (a : OrderAttempt) : Prop :=
  (a.wire x.exchangeId).isSome → ∀ b ∈ x.sent, SameTime b.source a.source → b.draft.symbol ≠ a.draft.symbol

/-- Every message that leads to an order is told apart by its symbol and what fills its timestamp. -/
def NewMessage (x : OrderRun) : OrderEvent → Prop
  | .websocket timestamp a => x.Unused { a with source := .websocket timestamp }
  | .shm a => x.Unused { a with source := .shm }
  | _ => True

end OrderRun

/-- A separator that neither ending contains splits a text in one way. -/
theorem append_separator_inj {α : Type*} {first first' second second' : List α} {sep : α}
    (h : first ++ sep :: second = first' ++ sep :: second') (hsecond : sep ∉ second)
    (hsecond' : sep ∉ second') : first = first' ∧ second = second' := by
  rcases List.append_eq_append_iff.mp h with ⟨between, rfl, hrest⟩ | ⟨between, rfl, hrest⟩
  · cases between with
    | nil => exact ⟨(List.append_nil first).symm, (List.cons.inj hrest).2⟩
    | cons c between =>
      exact absurd ((List.cons.inj hrest).2 ▸ List.mem_append_right _ List.mem_cons_self) hsecond
  · cases between with
    | nil => exact ⟨List.append_nil first', (List.cons.inj hrest).2.symm⟩
    | cons c between =>
      exact absurd ((List.cons.inj hrest).2 ▸ List.mem_append_right _ List.mem_cons_self) hsecond'

theorem underscore_not_mem_toString (n : ℤ) : '_' ∉ (toString n).toList := by
  rw [Json.toList_toString_int, List.mem_append, not_or]
  constructor
  · unfold Json.sign
    split <;> simp
  · exact fun hdigit => absurd (Json.isDigit_toDigits _ _ hdigit) (by decide)

/-- A number is read back from its digits. -/
theorem toString_int_injective {n n' : ℤ} (h : toString n = toString n') : n = n' := by
  have hread : ∀ k : ℤ, Json.readValue (toString k).toList = some (.int k, []) := by
    intro k
    have hwell : (Json.Token.int k).WellFormed := trivial
    have hrender := Json.readValue_render hwell (Or.inl rfl : Json.Follows [])
    rwa [List.append_nil, Json.Token.render, ← Json.toList_toString_int] at hrender
  have hvalue := hread n
  rw [h, hread n'] at hvalue
  simpa using hvalue.symm

/-- The key tells the orders of two signals apart exactly if the symbol or the timestamp does. -/
theorem clientOrderId_eq_iff (signal signal' : Signal) : signal.clientOrderId = signal'.clientOrderId ↔
      signal.symbol = signal'.symbol ∧ signal.timestamp = signal'.timestamp := by
  constructor
  · intro h
    have hlists := congrArg String.toList h
    simp only [Signal.clientOrderId, String.toList_append, List.append_assoc] at hlists
    obtain ⟨hsymbol, htimestamp⟩ := append_separator_inj (List.append_cancel_left hlists)
      (underscore_not_mem_toString _) (underscore_not_mem_toString _)
    exact ⟨String.toList_inj.mp hsymbol, toString_int_injective (String.toList_inj.mp htimestamp)⟩
  · rintro ⟨hsymbol, htimestamp⟩
    rw [Signal.clientOrderId, Signal.clientOrderId, hsymbol, htimestamp]

namespace OrderExecutor

/-- Every message carries the key of its signal. -/
theorem decoded_clientOrderId {ex : OrderExecutor} {call : Call} {w : WireOrder}
    (hsent : ex.send call = some w) :
    decoded w.members "client_order_id" = .text call.order.signal.clientOrderId := by
  have hplain : ∀ o, ex.submitOrder o = some w →
      decoded w.members "client_order_id" = .text o.signal.clientOrderId := by
    intro o ho
    rw [(submitOrder_eq_some ho).1, orderMembers]
    split
    · simp [decoded, plainMembers, Json.Token.value]
    · split
      · simp [decoded, plainMembers, Json.Token.value]
      · simp [decoded, plainMembers, Json.Token.value]
  cases call with
  | plain o => exact hplain o hsent
  | ofKind o kind limitPrice expireNs =>
    by_cases hkind : kind = .market
    · rw [send, submitOrderOfKind, if_pos hkind] at hsent
      exact hplain o hsent
    · rw [(submitOrderOfKind_eq_some hkind hsent).1, expiringMembers]
      split
      · simp [decoded, kindMembers, Json.Token.value, Call.order]
      · simp [decoded, kindMembers, Json.Token.value, Call.order]

end OrderExecutor

namespace OrderAttempt

variable {exchangeId : String} {a a' : OrderAttempt}

theorem clientOrderId_of_sent (hsent : (a.wire exchangeId).isSome) :
    ∃ signal : Signal, a.clientOrderId exchangeId = some (.text signal.clientOrderId) ∧
      a.stamp = (signal.symbol, some signal.timestamp) := by
  obtain ⟨w, hw⟩ := Option.isSome_iff_exists.mp hsent
  obtain ⟨signal, hfill, hsend⟩ := Option.bind_eq_some_iff.mp hw
  obtain ⟨timestamp, htimestamp, rfl⟩ := Option.map_eq_some_iff.mp hfill
  refine ⟨{ a.draft with symbol := a.source.symbol a.draft.symbol, timestamp := timestamp }, ?_, ?_⟩
  · rw [clientOrderId, hw, Option.map_some, OrderExecutor.decoded_clientOrderId hsend]
    unfold call
    split
    · rfl
    · rfl
  · rw [stamp, htimestamp]

/-- Two sent orders carry one key exactly if their sources give them one symbol and timestamp. -/
theorem clientOrderId_eq_iff_stamp (hsent : (a.wire exchangeId).isSome)
    (hsent' : (a'.wire exchangeId).isSome) :
    a.clientOrderId exchangeId = a'.clientOrderId exchangeId ↔ a.stamp = a'.stamp := by
  obtain ⟨signal, hid, hstamp⟩ := clientOrderId_of_sent hsent
  obtain ⟨signal', hid', hstamp'⟩ := clientOrderId_of_sent hsent'
  rw [hid, hid', hstamp, hstamp']
  simp only [Option.some.injEq, Json.text.injEq, Prod.mk.injEq, clientOrderId_eq_iff]

end OrderAttempt

/-- Orders that are sent carry distinct keys exactly if no two of them have both the symbol and the
timestamp that their sources give them in common. -/
theorem clientOrderIds_nodup_iff {exchangeId : String} {sent : List OrderAttempt}
    (hsent : ∀ a ∈ sent, (a.wire exchangeId).isSome) :
    (sent.map (OrderAttempt.clientOrderId exchangeId)).Nodup ↔ (sent.map OrderAttempt.stamp).Nodup := by
  rw [List.Nodup, List.Nodup, List.pairwise_map, List.pairwise_map]
  apply List.Pairwise.iff_of_mem
  intro a a' ha ha'
  rw [not_iff_not]
  exact OrderAttempt.clientOrderId_eq_iff_stamp (hsent a ha) (hsent a' ha')

/-- A message's timestamp has 32 bits. -/
theorem websocketTimestamp_lt {timestamp : Option Json} {t : ℤ} (h : websocketTimestamp timestamp = some t) :
    t < 2 ^ 31 := by
  have hwrapped : ∀ n : ℤ, n.bmod (2 ^ 32) < 2 ^ 31 := fun n => by
    have := Int.bmod_lt (x := n) (m := 2 ^ 32) (by decide)
    omega
  unfold websocketTimestamp at h
  split at h
  · cases h
    decide
  · cases h
    exact hwrapped _
  · cases h
    exact hwrapped _
  · cases h
    split <;> decide
  · cases h

namespace OrderRun

variable {x : OrderRun} {a : OrderAttempt}

/-- The range of the timestamps that a source gives: those of messages fit 32 bits, and those of the
engines lie beyond, up to the last reading of the clock. -/
def InRange (clock : ℤ) (source : SignalSource) : Prop :=
  match source with
  | .engineV1 now => 2 ^ 31 ≤ now ∧ now ≤ clock
  | .engineV2 tick => 2 ^ 31 ≤ tick ∧ tick ≤ clock
  | _ => True

/-- What holds of the orders sent while the clock goes on: their symbols and timestamps differ, and the
sweep has sent none yet for the symbols that are left. -/
structure Sound (x : OrderRun) : Prop where
  sent : ∀ a ∈ x.sent, (a.wire x.exchangeId).isSome
  stamps : (x.sent.map OrderAttempt.stamp).Nodup
  ranges : ∀ a ∈ x.sent, InRange x.clock a.source
  ticked : x.left ≠ [] → 2 ^ 31 ≤ x.tick ∧ x.tick ≤ x.clock
  apart : (x.left.map fixedSymbol).Nodup
  waiting : ∀ symbol ∈ x.left, ∀ a ∈ x.sent, a.stamp ≠ (fixedSymbol symbol, some x.tick)

/-- A timestamp in the range of 32 bits comes from a message, and no other does. -/
theorem timestamp_lt_iff {clock : ℤ} {source : SignalSource} (h : InRange clock source) {t : ℤ}
    (ht : source.timestamp = some t) : t < 2 ^ 31 ↔ source.isMessage = true := by
  cases source with
  | engineV1 now =>
    cases ht
    exact iff_of_false (not_lt.mpr h.1) (by simp [SignalSource.isMessage])
  | engineV2 tick =>
    cases ht
    exact iff_of_false (not_lt.mpr h.1) (by simp [SignalSource.isMessage])
  | websocket timestamp => exact iff_of_true (websocketTimestamp_lt ht) rfl
  | shm =>
    cases ht
    exact iff_of_true (by decide) rfl

theorem inRange_of_isMessage (clock : ℤ) {source : SignalSource} (h : source.isMessage = true) :
    InRange clock source := by
  cases source with
  | engineV1 now => cases h
  | engineV2 tick => cases h
  | websocket timestamp => trivial
  | shm => trivial

theorem reading_le {clock : ℤ} {source : SignalSource} (h : InRange clock source)
    (hengine : ¬ source.isMessage = true) {t : ℤ} (ht : source.timestamp = some t) : t ≤ clock := by
  cases source with
  | engineV1 now =>
    cases ht
    exact h.2
  | engineV2 tick =>
    cases ht
    exact h.2
  | websocket timestamp => exact absurd rfl hengine
  | shm => exact absurd rfl hengine

/-- What a step may send keeps the timestamps apart exactly if no order before has its symbol and its
timestamp. -/
theorem stamps_submit_iff (h : (x.sent.map OrderAttempt.stamp).Nodup) (a : OrderAttempt) :
    ((x.submit a).sent.map OrderAttempt.stamp).Nodup ↔
      ((a.wire x.exchangeId).isSome → ∀ b ∈ x.sent, b.stamp ≠ a.stamp) := by
  unfold submit
  split_ifs with hsent
  · simp only [List.map_append, List.map_cons, List.map_nil, List.nodup_append, h, List.nodup_singleton,
      List.mem_map, List.mem_singleton, true_and, hsent, forall_true_left]
    constructor
    · intro hapart b hb
      exact hapart _ ⟨b, hb, rfl⟩ _ rfl
    · rintro hapart _ ⟨b, hb, rfl⟩ _ rfl
      exact hapart b hb
  · exact iff_of_true h (fun hwire => absurd hwire hsent)

theorem Sound.submit (h : x.Sound) (hrange : InRange x.clock a.source)
    (hnew : (a.wire x.exchangeId).isSome → ∀ b ∈ x.sent, b.stamp ≠ a.stamp)
    (hwaiting : ∀ symbol ∈ x.left, a.stamp ≠ (fixedSymbol symbol, some x.tick)) : (x.submit a).Sound := by
  have hstamps := (stamps_submit_iff h.stamps a).mpr hnew
  unfold OrderRun.submit at hstamps ⊢
  split_ifs at hstamps ⊢ with hsent
  · have hboth : ∀ {P : OrderAttempt → Prop}, (∀ b ∈ x.sent, P b) → P a → ∀ b ∈ x.sent ++ [a], P b := by
      intro P hold hlast b hb
      rcases List.mem_append.mp hb with hb | hb
      · exact hold b hb
      · exact List.mem_singleton.mp hb ▸ hlast
    exact ⟨hboth h.sent hsent, hstamps, hboth h.ranges hrange, h.ticked, h.apart,
      fun symbol hsymbol => hboth (h.waiting symbol hsymbol) (hwaiting symbol hsymbol)⟩
  · exact h

theorem wire_submit (h : ∀ b ∈ x.sent, (b.wire x.exchangeId).isSome) (a : OrderAttempt) :
    ∀ b ∈ (x.submit a).sent, (b.wire x.exchangeId).isSome := by
  unfold submit
  split_ifs with hsent
  · intro b hb
    rcases List.mem_append.mp hb with hold | hnew
    · exact h b hold
    · exact List.mem_singleton.mp hnew ▸ hsent
  · exact h

theorem exchangeId_step (x : OrderRun) (e : OrderEvent) : (x.step e).exchangeId = x.exchangeId := by
  have hsubmit : ∀ (y : OrderRun) (a : OrderAttempt), (y.submit a).exchangeId = y.exchangeId := by
    intro y a
    unfold submit
    split_ifs <;> rfl
  cases e with
  | sweep now => rfl
  | next order =>
    simp only [step]
    split
    · exact hsubmit _ _
    · rfl
    · rfl
  | engineV1 now a => exact hsubmit _ _
  | websocket timestamp a => exact hsubmit _ _
  | shm a => exact hsubmit _ _

/-- No order sent before has a reading of the clock that is later than all before. -/
theorem Sound.stamp_ne_reading (h : x.Sound) {now : ℤ} (hlater : x.clock < now) (hlarge : 2 ^ 31 ≤ now)
    (symbol : String) : ∀ b ∈ x.sent, b.stamp ≠ (symbol, some now) := by
  intro b hb hsame
  have hnow : b.source.timestamp = some now := congrArg Prod.snd hsame
  have hengine := (timestamp_lt_iff (h.ranges b hb) hnow).not.mp (not_lt.mpr hlarge)
  exact absurd (reading_le (h.ranges b hb) hengine hnow) (not_le.mpr hlater)

/-- Later readings leave the range of those before. -/
theorem InRange.mono {clock now : ℤ} (hle : clock ≤ now) {source : SignalSource}
    (h : InRange clock source) : InRange now source := by
  cases source with
  | engineV1 t => exact ⟨h.1, h.2.trans hle⟩
  | engineV2 t => exact ⟨h.1, h.2.trans hle⟩
  | websocket timestamp => trivial
  | shm => trivial

/-- Messages have the same time if they are filled with the same timestamp. -/
theorem sameTime_iff {source source' : SignalSource} (hmessage : source'.isMessage = true) :
    SameTime source source' ↔ source.isMessage = true ∧ source.timestamp = source'.timestamp := by
  cases source' with
  | engineV1 now => cases hmessage
  | engineV2 tick => cases hmessage
  | websocket t =>
    cases source <;> simp [SameTime, SignalSource.isMessage, SignalSource.timestamp, eq_comm]
  | shm => cases source <;> simp [SameTime, SignalSource.isMessage, SignalSource.timestamp]

theorem symbol_of_isMessage {source : SignalSource} (hmessage : source.isMessage = true) (symbol : String) :
    source.symbol symbol = symbol := by
  cases source with
  | engineV2 tick => cases hmessage
  | _ => rfl

/-- An order is stamped like that of a message if it is a message's, too, for one symbol and with the same
time. -/
theorem Sound.stamp_eq_iff (h : x.Sound) (hmessage : a.source.isMessage = true)
    (hsent : (a.wire x.exchangeId).isSome) {b : OrderAttempt} (hb : b ∈ x.sent) :
    b.stamp = a.stamp ↔ SameTime b.source a.source ∧ b.draft.symbol = a.draft.symbol := by
  rw [sameTime_iff hmessage, OrderAttempt.stamp, OrderAttempt.stamp, Prod.mk.injEq,
    symbol_of_isMessage hmessage]
  constructor
  · rintro ⟨hsymbol, htime⟩
    obtain ⟨signal, -, hstamp⟩ := OrderAttempt.clientOrderId_of_sent hsent
    have ha : a.source.timestamp = some signal.timestamp := congrArg Prod.snd hstamp
    have hsmall := (timestamp_lt_iff (inRange_of_isMessage 0 hmessage) ha).mpr hmessage
    have hother := (timestamp_lt_iff (h.ranges b hb) (htime.trans ha)).mp hsmall
    rw [symbol_of_isMessage hother] at hsymbol
    exact ⟨⟨hother, htime⟩, hsymbol⟩
  · rintro ⟨⟨hother, htime⟩, hsymbol⟩
    rw [symbol_of_isMessage hother]
    exact ⟨hsymbol, htime⟩

theorem Sound.unused_iff (h : x.Sound) (hmessage : a.source.isMessage = true) : x.Unused a ↔
    ((a.wire x.exchangeId).isSome → ∀ b ∈ x.sent, b.stamp ≠ a.stamp) := by
  refine forall_congr' fun hsent => forall₂_congr fun b hb => ?_
  rw [Ne, Ne, h.stamp_eq_iff hmessage hsent hb, not_and]

/-- The symbols that the sweep has not come to have a reading that no message brings. -/
theorem Sound.stamp_ne_tick (h : x.Sound) (hmessage : a.source.isMessage = true) {symbol : String}
    (hleft : symbol ∈ x.left) : a.stamp ≠ (fixedSymbol symbol, some x.tick) := by
  intro hsame
  have htick : a.source.timestamp = some x.tick := congrArg Prod.snd hsame
  have hlarge := (h.ticked (List.ne_nil_of_mem hleft)).1
  have hsmall := (timestamp_lt_iff (inRange_of_isMessage 0 hmessage) htick).mpr hmessage
  exact absurd hsmall (not_lt.mpr hlarge)

theorem Sound.message (h : x.Sound) (hmessage : a.source.isMessage = true) (hnew : x.Unused a) :
    (x.submit a).Sound :=
  h.submit (inRange_of_isMessage _ hmessage) ((h.unused_iff hmessage).mp hnew) fun _ hleft =>
    h.stamp_ne_tick hmessage hleft

/-- **A step keeps the keys apart** while the clock goes on and the messages differ. -/
theorem Sound.step (h : x.Sound) (e : OrderEvent) (hclock : x.Clocked e) (hnew : x.NewMessage e) :
    (x.step e).Sound := by
  cases e with
  | sweep now =>
    obtain ⟨hlater, hlarge, hsymbols⟩ := hclock
    exact ⟨h.sent, h.stamps, fun a ha => (h.ranges a ha).mono hlater.le, fun _ => ⟨hlarge, le_rfl⟩,
      hsymbols, fun symbol _ => h.stamp_ne_reading hlater hlarge (fixedSymbol symbol)⟩
  | next order =>
    simp only [OrderRun.step]
    split
    · rename_i symbol rest a hleft
      have hnext : symbol ∈ x.left := hleft ▸ List.mem_cons_self
      have hrest : ∀ s ∈ rest, s ∈ x.left := fun s hs => hleft ▸ List.mem_cons_of_mem _ hs
      have hapart := h.apart
      rw [hleft, List.map_cons, List.nodup_cons] at hapart
      have hticked := h.ticked (List.ne_nil_of_mem hnext)
      have hy : ({ x with left := rest } : OrderRun).Sound :=
        ⟨h.sent, h.stamps, h.ranges, fun _ => hticked, hapart.2, fun s hs => h.waiting s (hrest s hs)⟩
      refine hy.submit hticked (fun _ => h.waiting symbol hnext) fun s hs hsame => ?_
      have hsymbol : fixedSymbol symbol = fixedSymbol s := congrArg Prod.fst hsame
      exact hapart.1 (hsymbol ▸ List.mem_map_of_mem hs)
    · rename_i symbol rest hleft
      have hrest : ∀ s ∈ rest, s ∈ x.left := fun s hs => hleft ▸ List.mem_cons_of_mem _ hs
      have hapart := h.apart
      rw [hleft, List.map_cons, List.nodup_cons] at hapart
      exact ⟨h.sent, h.stamps, h.ranges, fun _ => h.ticked (by simp [hleft]), hapart.2,
        fun s hs => h.waiting s (hrest s hs)⟩
    · exact h
  | engineV1 now a =>
    obtain ⟨hlater, hlarge⟩ := hclock
    have hticked : x.left ≠ [] → 2 ^ 31 ≤ x.tick ∧ x.tick ≤ now := fun hleft =>
      ⟨(h.ticked hleft).1, (h.ticked hleft).2.trans hlater.le⟩
    have hy : ({ x with clock := now } : OrderRun).Sound :=
      ⟨h.sent, h.stamps, fun b hb => (h.ranges b hb).mono hlater.le, hticked, h.apart, h.waiting⟩
    refine hy.submit ⟨hlarge, le_rfl⟩ (fun _ => h.stamp_ne_reading hlater hlarge _) fun s hs hsame => ?_
    have htick : now = x.tick := Option.some.inj (congrArg Prod.snd hsame)
    have hold := (h.ticked (List.ne_nil_of_mem hs)).2
    omega
  | websocket timestamp a => exact h.message rfl hnew
  | shm a => exact h.message rfl hnew

theorem Sound.distinctKeys_iff (h : x.Sound) (e : OrderEvent) (hclock : x.Clocked e) :
    x.DistinctKeys e ↔ x.NewMessage e := by
  have hmessage : ∀ a : OrderAttempt, a.source.isMessage = true →
      ((x.submit a).sent.map (OrderAttempt.clientOrderId x.exchangeId)).Nodup → x.Unused a := by
    intro a hmessage hkeys
    rw [clientOrderIds_nodup_iff (wire_submit h.sent a), stamps_submit_iff h.stamps] at hkeys
    exact (h.unused_iff hmessage).mpr hkeys
  constructor
  · intro hkeys
    cases e with
    | websocket timestamp a => exact hmessage _ rfl hkeys
    | shm a => exact hmessage _ rfl hkeys
    | _ => trivial
  · intro hnew
    have hnext := h.step e hclock hnew
    have hsent := hnext.sent
    rw [exchangeId_step] at hsent
    exact (clientOrderIds_nodup_iff hsent).mpr hnext.stamps

/-- In every run in which the clock goes on, all orders sent carry distinct keys, after every step, exactly
if every message that leads to an order is told apart by its symbol and its timestamp. -/
theorem distinctKeys_iff_newMessage (exchangeId : String) (symbols : List String) (clock : ℤ)
    (events : List OrderEvent) :
    let x : OrderRun := { exchangeId := exchangeId, symbols := symbols, clock := clock }
    Along step (fun x e => x.Clocked e ∧ x.DistinctKeys e) x events ↔
      Along step (fun x e => x.Clocked e ∧ x.NewMessage e) x events := by
  intro x
  apply along_congr Sound
  · intro x e h hstep
    exact h.step e hstep.1 ((h.distinctKeys_iff e hstep.1).mp hstep.2)
  · intro x e h
    exact and_congr_right (h.distinctKeys_iff e)
  · refine ⟨?_, List.nodup_nil, ?_, fun hleft => absurd rfl hleft, List.nodup_nil, ?_⟩
    · exact fun a ha => absurd ha List.not_mem_nil
    · exact fun a ha => absurd ha List.not_mem_nil
    · exact fun symbol hsymbol => absurd hsymbol List.not_mem_nil

end OrderRun

/-- A long signal from shared memory at a price, sent as a market order. -/
def shmAttempt (entryPrice stopLoss takeProfit : ℚ) : OrderAttempt where
  source := .shm
  draft := {
    symbol := "BTC/USDT"
    direction := .long
    entryPrice := entryPrice
    stopLoss := stopLoss
    takeProfit := takeProfit }
  confidence := 90
  quantity := 1
  book := ⟨"BTC/USDT", "binance", [⟨100, 1⟩], [⟨100, 1⟩]⟩
  kind := none
  connected := true

/-- The order that an output reports as filled, and whether as one that was already known. -/
def reportedFill : Gateway.Output → Option (Gateway.OrderRef × Bool)
  | .send _ (.fill o _ deduplicated) => some (o, deduplicated)
  | _ => none

/-- Two signals of one symbol from shared memory are sent under one key, and the exchange answers the
second order with the fill of the first. -/
theorem clientOrderId_repeated :
    let bot := run OrderRun.step { exchangeId := "binance", symbols := ["BTC/USDT"], clock := 0 }
      [.shm (shmAttempt 100 90 120), .shm (shmAttempt 110 100 130)]
    bot.sent.map (OrderAttempt.clientOrderId "binance") =
      [some (.text "hft_BTC/USDT_0"), some (.text "hft_BTC/USDT_0")] ∧
    ((((shmAttempt 100 90 120).wire "binance").bind WireOrder.data).bind fun first =>
      (((shmAttempt 110 100 130).wire "binance").bind WireOrder.data).map fun second =>
        (Gateway.after Gateway.typedRuntime Gateway.oneExchange [
          .order 0 (SimulatedExchange.flatMarket 100) first,
          .order 0 (SimulatedExchange.flatMarket 110) second]).handedOut.filterMap reportedFill) =
      some [(⟨"binance", 0⟩, false), (⟨"binance", 0⟩, true)] := by
  decide +kernel

end TradingSim.Bot
