import TradingSim.Feed.Followers

/-!
# Lost broadcasts and the requests for them

A client that finds a gap in the numbers asks for the candles after the last message it has processed.
That message carries the clock after its tick, and so do the candles of the tick that comes next: they
are not after it. A gap that is found within five seconds of the last request is not asked for at all,
and the next message moves both the number and the time past it.
-/

namespace TradingSim.Feed

open Foundations
open Market
open Session (tapedLibrary stillMarket)

/-- A server and one of its clients, with the times of its last request, the candles broadcast to it since it
connected, whether it was sent the latest candles since the last tick, whether their broadcast was lost, and
whether any was. -/
structure GapSession (σ : Type) where
  server : Server σ
  connection : Option ℕ := none
  asked : List ℤ := []
  follower : Follower
  lastRequest : Option ℤ := none
  broadcast : List Candle := []
  told : Bool := false
  untold : Bool := false
  missed : Bool := false

/-- What happens. The client connects, maybe with a request, and leaves; the server sends a snapshot or
answers its request; the broadcast loop goes on, and a broadcast is lost or arrives; other clients act. -/
inductive GapEvent where
  | join (request : Option ℤ)
  | leave
  | snapshot
  | answer
  | loop (lost : Bool) (now : ℤ)
  | other (e : Event)
  deriving DecidableEq

/-- Whether an event is about a connection, or the broadcast loop. -/
def Event.concerns (id : Option ℕ) : Event → Bool
  | .disconnect client => id = some client
  | .snapshot client => id = some client
  | .subscribe client _ => id = some client
  | .unsubscribe client _ => id = some client
  | .syncState client _ => id = some client
  | .loop => true
  | .connect => false
  | .readBook _ => false

namespace GapSession

variable {σ : Type} (L : Library σ) (c : MarketConfig) (d : Decoder)

/-- The messages of a server step to the client. -/
def messages (x : GapSession σ) (e : Event) : List MarketMessage :=
  match x.connection with
  | some id => Session.addressed id (x.server.step L c e).2
  | none => []

/-- A message has all latest candles. -/
def Tells (s : Server σ) (message : MarketMessage) : Prop :=
  ∀ candle ∈ s.market.getLatestCandles c, candle ∈ message.candles

instance (s : Server σ) (message : MarketMessage) : Decidable (Tells c s message) :=
  inferInstanceAs (Decidable (∀ candle ∈ s.market.getLatestCandles c, candle ∈ message.candles))

/-- A message arrives. -/
def receive (now : ℤ) (x : GapSession σ) (message : MarketMessage) : GapSession σ :=
  let request := x.follower.request d now message
  { x with
    follower := x.follower.process d now message
    asked := x.asked ++ request.toList
    lastRequest := if request.isSome then some now else x.lastRequest
    told := x.told || decide (Tells c x.server message)
    untold := x.untold && !decide (Tells c x.server message) }

/-- A server step, whose messages to the client arrive. -/
def serve (now : ℤ) (x : GapSession σ) (e : Event) : GapSession σ :=
  (x.messages L c e).foldl (receive c d now) { x with server := (x.server.step L c e).1 }

/-- A tick: what the client has not been told by now it has missed. -/
def tick (x : GapSession σ) : GapSession σ :=
  { x with
    server := (x.server.step L c .loop).1
    told := false
    untold := false
    missed := x.missed || x.untold }

/-- A broadcast, which is noted, and lost or not. -/
def broadcastTo (lost : Bool) (now : ℤ) (x : GapSession σ) : GapSession σ :=
  let sent := x.messages L c .loop
  let y := { x with broadcast := x.broadcast ++ sent.flatMap MarketMessage.candles }
  if lost then
    { y with
      server := (x.server.step L c .loop).1
      untold := x.untold || (decide (sent ≠ []) && !x.told) }
  else y.serve L c d now .loop

/-- One event. What is not possible changes nothing. -/
def step (x : GapSession σ) : GapEvent → GapSession σ
  | .join request =>
    match x.connection with
    | some _ => x
    | none =>
      { x with
        server := (x.server.step L c .connect).1
        connection := some x.server.nextClient
        asked := request.toList
        follower := { x.follower with lastSeq := 0 }
        broadcast := []
        untold := false
        missed := false }
  | .leave =>
    match x.connection with
    | some id =>
      { x with
        server := (x.server.step L c (.disconnect id)).1
        connection := none
        asked := [] }
    | none => x
  | .snapshot =>
    match x.connection with
    | some id => x.serve L c d 0 (.snapshot id)
    | none => x
  | .answer =>
    match x.connection, x.asked with
    | some id, ts :: _ =>
      let y := x.serve L c d 0 (.syncState id ts)
      { y with asked := y.asked.tail }
    | _, _ => x
  | .loop lost now =>
    if x.server.phase = .ticked then x.broadcastTo L c d lost now
    else if (x.server.step L c .loop).1.phase = .ticked then x.tick L c
    else x
  | .other e => if e.concerns x.connection then x else { x with server := (x.server.step L c e).1 }

/-- A server that has just started and a client that has never been connected. -/
def init (rng : σ) : GapSession σ where
  server := Server.init L c rng
  follower := { store := d.emptyStore }

/-- An answer comes before the next broadcast. -/
def Prompt (x : GapSession σ) : GapEvent → Prop
  | .loop _ _ => x.server.phase = .ticked → x.asked = []
  | _ => True

instance (x : GapSession σ) (e : GapEvent) : Decidable (x.Prompt e) := by
  cases e <;> unfold Prompt <;> infer_instance

/-- A broadcast reaches the client at least five seconds after its last request. -/
def Checks (x : GapSession σ) : GapEvent → Prop
  | .loop false now => x.server.phase = .ticked ∧ x.connection.isSome ∧
      ∀ last ∈ x.lastRequest, last + 5000 ≤ now
  | _ => False

instance (x : GapSession σ) (e : GapEvent) : Decidable (x.Checks e) := by
  unfold Checks
  split
  · infer_instance
  · infer_instance

/-- Then the client has got every candle that was broadcast since it connected, or has just asked for
the candles after a time that lies before all that it lacks. -/
def Repaired (x : GapSession σ) (e : GapEvent) : Prop :=
  x.Checks e →
    (∀ candle ∈ (x.step L c d e).broadcast, (x.step L c d e).follower.Got (candleKey candle)) ∨
      ∃ ts ∈ (x.step L c d e).asked.drop x.asked.length, ∀ candle ∈ (x.step L c d e).broadcast,
        ¬ (x.step L c d e).follower.Got (candleKey candle) → ts < candle.timestamp

instance (x : GapSession σ) (e : GapEvent) : Decidable (x.Repaired L c d e) :=
  inferInstanceAs (Decidable (_ → _))

/-- Then no tick since it connected came before the client was told of the tick before. -/
def Unbroken (x : GapSession σ) (e : GapEvent) : Prop := x.Checks e → x.missed = false

end GapSession

/-! ### What a message brings -/

section Messages

variable {σ : Type} {L : Library σ} {c : MarketConfig} {s : Server σ}

/-- The candles of the last tick, or the last ones of the warm-up, carry one time. -/
def Together (c : MarketConfig) (m : MarketSimulator σ) : Prop :=
  ∀ candle ∈ m.getLatestCandles c, ∀ candle' ∈ m.getLatestCandles c,
    candle.timestamp = candle'.timestamp

/-- A message of a server carries the clock, its candles lie before that, and it has all of the latest
candles or none of their time. Only broadcasts are numbered. -/
structure Timely (c : MarketConfig) (s : Server σ) (message : MarketMessage) : Prop where
  stamp : message.timestamp = s.market.currentTs
  past : ∀ candle ∈ message.candles, candle.timestamp < s.market.currentTs
  whole : GapSession.Tells c s message ∨ ∀ candle ∈ message.candles,
    ∀ latest ∈ s.market.getLatestCandles c, candle.timestamp ≠ latest.timestamp
  numbered : ∀ seq, message.seq = some seq → seq ≠ 0 ∧ GapSession.Tells c s message

theorem latest_congr {m m' : MarketSimulator σ} (h : m'.candleHistory = m.candleHistory) :
    m'.getLatestCandles c = m.getLatestCandles c := by
  simp only [MarketSimulator.getLatestCandles, h]

theorem Timely.congr {s' : Server σ} {message : MarketMessage} (h : Timely c s message)
    (hhistory : s'.market.candleHistory = s.market.candleHistory)
    (htime : s'.market.currentTs = s.market.currentTs) : Timely c s' message := by
  have hlatest := latest_congr (c := c) hhistory
  constructor
  · rw [htime]
    exact h.stamp
  · rw [htime]
    exact h.past
  · unfold GapSession.Tells
    rw [hlatest]
    exact h.whole
  · unfold GapSession.Tells
    rw [hlatest]
    exact h.numbered

theorem past_of_latest (h : s.market.Ordered) {candle : Candle}
    (hcandle : candle ∈ s.market.getLatestCandles c) : candle.timestamp < s.market.currentTs := by
  obtain ⟨pair, -, hlast⟩ := List.mem_filterMap.mp hcandle
  exact h.past pair candle (List.mem_of_getLast? hlast)

theorem timely_of_latest (h : s.market.Ordered) {message : MarketMessage}
    (hstamp : message.timestamp = s.market.currentTs)
    (hcandles : message.candles = s.market.getLatestCandles c)
    (hnumber : ∀ seq, message.seq = some seq → seq ≠ 0) : Timely c s message where
  stamp := hstamp
  past := by
    rw [hcandles]
    exact fun candle hcandle => past_of_latest h hcandle
  whole := Or.inl fun _ hcandle => hcandles.symm ▸ hcandle
  numbered seq hseq := ⟨hnumber seq hseq, fun _ hcandle => hcandles.symm ▸ hcandle⟩

/-- The latest candle of a pair is among its last ones. -/
theorem mem_getHistory {m : MarketSimulator σ} {pair : String × String} {candle : Candle}
    (h : (m.candleHistory pair).getLast? = some candle) : candle ∈ m.getHistory pair 200 := by
  unfold MarketSimulator.getHistory
  simp only
  split
  · rename_i hlong
    rw [lastN, if_neg (by decide)]
    apply List.mem_of_getLast?
    rw [List.getLast?_drop, if_neg (by omega)]
    exact h
  · exact List.mem_of_getLast? h

/-- The reply to a request has the latest candles exactly if their time is after the one asked for. -/
theorem timely_sendSyncState (h : s.market.Ordered) (htogether : Together c s.market) (ts : ℤ) :
    Timely c s (s.sendSyncState L c ts).1 where
  stamp := rfl
  past candle hcandle := by
    obtain ⟨pair, -, hmem⟩ := List.mem_flatMap.mp hcandle
    exact h.past pair candle ((MarketSimulator.getHistory_sublist s.market pair 200).subset
      (List.mem_of_mem_filter hmem))
  whole := by
    by_cases hafter : ∃ latest ∈ s.market.getLatestCandles c, ts < latest.timestamp
    · left
      obtain ⟨latest, hlatest, hlt⟩ := hafter
      intro candle hcandle
      have htime := htogether candle hcandle latest hlatest
      obtain ⟨pair, hpair, hlast⟩ := List.mem_filterMap.mp hcandle
      exact List.mem_flatMap.mpr ⟨pair, hpair, List.mem_filter.mpr
        ⟨mem_getHistory hlast, decide_eq_true (htime ▸ hlt)⟩⟩
    · right
      intro candle hcandle latest hlatest heq
      exact hafter ⟨latest, hlatest, heq ▸ lt_of_mem_syncState hcandle⟩
  numbered seq hseq := nomatch hseq

theorem latest_generateCandlesInner (m : MarketSimulator σ) :
    (∀ candle ∈ (m.generateCandlesInner L c).getLatestCandles c, candle.timestamp = m.currentTs) ∧
      (m.generateCandlesInner L c).getLatestCandles c ≠ [] := by
  have hfresh : ∀ pair ∈ c.pairs, (m.generateCandlesInner L c).Fresh m.currentTs pair :=
    fun pair hpair => MarketSimulator.fresh_generateCandlesInner m hpair
  constructor
  · intro candle hcandle
    obtain ⟨pair, hpair, hlast⟩ := List.mem_filterMap.mp hcandle
    obtain ⟨candle', hlast', htime⟩ := hfresh pair hpair
    rw [hlast, Option.some_inj] at hlast'
    rw [hlast', htime]
  · obtain ⟨exchange, hexchange⟩ := List.exists_mem_of_ne_nil _ c.exchanges_ne_nil
    obtain ⟨symbol, hsymbol⟩ := List.exists_mem_of_ne_nil _ c.symbols_ne_nil
    have hpair : (exchange, symbol) ∈ c.pairs := List.mem_product.mpr ⟨hexchange, hsymbol⟩
    obtain ⟨candle, hlast, -⟩ := hfresh _ hpair
    exact List.ne_nil_of_mem (List.mem_filterMap.mpr ⟨_, hpair, hlast⟩)

/-- The last tick of the warm-up leaves the latest candles together. -/
theorem together_init (rng : σ) : Together c (MarketSimulator.init L c rng) := by
  unfold MarketSimulator.init
  cases c.warmupCandles with
  | zero =>
    intro candle hcandle
    obtain ⟨pair, -, hlast⟩ := List.mem_filterMap.mp hcandle
    cases hlast
  | succ n =>
    rw [Function.iterate_succ_apply']
    intro candle hcandle candle' hcandle'
    have htimes := (latest_generateCandlesInner (L := L) (c := c)
      ((MarketSimulator.generateCandlesInner L c)^[n] { rng := rng, prices := c.initialPrices })).1
    rw [htimes candle hcandle, htimes candle' hcandle']

theorem clock_tick (h : s.market.Ordered) : s.market.currentTs < (s.tick L c).market.currentTs := by
  obtain ⟨htimes, hsome⟩ := latest_generateCandlesInner (L := L) (c := c) s.market
  obtain ⟨candle, hcandle⟩ := List.exists_mem_of_ne_nil _ hsome
  have hordered : (s.tick L c).market.Ordered :=
    (h.generateCandlesInner (L := L) (c := c)).congr rfl rfl
  exact htimes candle hcandle ▸ past_of_latest hordered hcandle

theorem step_of_ne_loop (s : Server σ) {e : Event} (h : e ≠ .loop) :
    (s.step L c e).1.market.candleHistory = s.market.candleHistory ∧
      (s.step L c e).1.market.currentTs = s.market.currentTs ∧ (s.step L c e).1.phase = s.phase := by
  have hphase : (s.step L c e).1.phase = s.phase := by
    cases e with
    | connect => rfl
    | disconnect client => rfl
    | snapshot client =>
      simp only [Server.step]
      split
      · rfl
      · rfl
    | subscribe client symbols =>
      simp only [Server.step]
      split
      · rfl
      · rfl
    | unsubscribe client symbols =>
      simp only [Server.step]
      split
      · rfl
      · rfl
    | syncState client ts =>
      simp only [Server.step]
      split
      · rfl
      · rfl
    | readBook pair => rfl
    | loop => exact absurd rfl h
  cases step_moves (L := L) (c := c) s e with
  | quiet _ _ hhistory htime => exact ⟨hhistory, htime, hphase⟩
  | tick hwaiting hticked _ =>
    rw [hphase, hwaiting] at hticked
    cases hticked
  | broadcast _ _ hhistory htime => exact ⟨hhistory, htime, hphase⟩

/-- Other clients do not change the set of a client. -/
theorem find?_step_of_other {id : ℕ} (hid : id < s.nextClient) {e : Event}
    (h : e.concerns (some id) = false) : id < (s.step L c e).1.nextClient ∧
      (s.step L c e).1.clientSubscriptions.find? id = s.clientSubscriptions.find? id := by
  cases e with
  | connect => exact ⟨Nat.lt_succ_of_lt hid, Dict.find?_insert_of_ne _ hid.ne _⟩
  | disconnect k =>
    have hne : some id ≠ some k := of_decide_eq_false h
    exact ⟨hid, Dict.find?_erase_of_ne _ fun heq => hne (congrArg some heq)⟩
  | snapshot k =>
    simp only [Server.step]
    split
    · exact ⟨hid, rfl⟩
    · exact ⟨hid, rfl⟩
  | subscribe k symbols =>
    have hne : some id ≠ some k := of_decide_eq_false h
    simp only [Server.step]
    split
    · exact ⟨hid, Dict.find?_insert_of_ne _ (fun heq => hne (congrArg some heq)) _⟩
    · exact ⟨hid, rfl⟩
  | unsubscribe k symbols =>
    have hne : some id ≠ some k := of_decide_eq_false h
    simp only [Server.step]
    split
    · exact ⟨hid, Dict.find?_insert_of_ne _ (fun heq => hne (congrArg some heq)) _⟩
    · exact ⟨hid, rfl⟩
  | syncState k ts =>
    simp only [Server.step]
    split
    · exact ⟨hid, rfl⟩
    · exact ⟨hid, rfl⟩
  | readBook pair => exact ⟨hid, rfl⟩
  | loop => cases h

end Messages

namespace GapSession

variable {σ : Type} {L : Library σ} {c : MarketConfig} {d : Decoder} {x : GapSession σ}

/-- A candle that has been broadcast and will not be asked for any more. -/
structure Lacks (c : MarketConfig) (x : GapSession σ) (candle : Candle) : Prop where
  broadcast : candle ∈ x.broadcast
  absent : ¬ x.follower.Got (candleKey candle)
  past : candle.timestamp < x.server.market.currentTs
  old : ∀ latest ∈ x.server.market.getLatestCandles c, candle.timestamp < latest.timestamp
  asked : ∀ ts ∈ x.asked, candle.timestamp ≤ ts
  cursor : x.follower.lastSeq ≠ 0 → candle.timestamp ≤ x.follower.lastTimestamp

/-- What holds of the market, the connection, and what has reached the client. -/
structure Sound (c : MarketConfig) (x : GapSession σ) : Prop where
  ordered : x.server.market.Ordered
  together : Together c x.server.market
  ticked : x.server.phase = .ticked → x.server.market.getLatestCandles c ≠ []
  subscribed : ∀ id, x.connection = some id → id < x.server.nextClient ∧
    x.server.clientSubscriptions.find? id = some c.symbols.toFinset
  cursor : 0 ≤ x.follower.lastTimestamp
  past : ∀ key, x.follower.Got key → key.2.2 < x.server.market.currentTs
  told : x.told = true → (∀ candle ∈ x.server.market.getLatestCandles c,
    x.follower.Got (candleKey candle)) ∧ x.server.market.currentTs ≤ x.follower.lastTimestamp
  fresh : x.told = false → ∀ candle ∈ x.server.market.getLatestCandles c,
    ¬ x.follower.Got (candleKey candle)

/-- What holds of the candles broadcast to the client: it has got them all, the latest maybe apart, or
it lacks one for good. -/
structure Followed (c : MarketConfig) (x : GapSession σ) : Prop extends Sound c x where
  untold : x.untold = true → x.told = false ∧ x.asked = [] ∧ x.server.phase = .waiting ∧
    x.server.market.getLatestCandles c ≠ [] ∧
      ∀ candle ∈ x.server.market.getLatestCandles c, candle ∈ x.broadcast
  reached : x.connection.isSome → x.missed = false → x.follower.lastSeq ≠ 0 →
    (∀ candle ∈ x.server.market.getLatestCandles c,
      candle.timestamp ≤ x.follower.lastTimestamp) ∧
        (x.untold = false → x.server.phase = .waiting →
          x.server.market.currentTs ≤ x.follower.lastTimestamp)
  complete : x.connection.isSome → x.missed = false → ∀ candle ∈ x.broadcast,
    x.follower.Got (candleKey candle) ∨
      (x.untold = true ∧ candle ∈ x.server.market.getLatestCandles c)
  doomed : x.connection.isSome → x.missed = true → ∃ candle, x.Lacks c candle

variable {message : MarketMessage}

/-- A message does not take away what has reached the client. -/
theorem got_receive {now : ℤ} {key : String × String × ℤ} : (receive c d now x message).follower.Got key ↔
      x.follower.Got key ∨ key ∈ message.candles.map candleKey :=
  Follower.got_process

theorem Sound.receive (h : x.Sound c) (now : ℤ)
    (hmessage : Timely c x.server message) : (receive c d now x message).Sound c := by
  have hclock : x.server.market.currentTs ≤ (x.follower.process d now message).lastTimestamp :=
    hmessage.stamp ▸ Follower.timestamp_le_process h.cursor
  refine ⟨h.ordered, h.together, h.ticked, h.subscribed,
    h.cursor.trans Follower.lastTimestamp_le_process, ?_, ?_, ?_⟩
  · intro key hkey
    rcases got_receive.mp hkey with hold | hnew
    · exact h.past key hold
    · obtain ⟨candle, hcandle, rfl⟩ := List.mem_map.mp hnew
      exact hmessage.past candle hcandle
  · intro htold
    refine ⟨fun candle hcandle => got_receive.mpr ?_, hclock⟩
    rcases (Bool.or_eq_true _ _).mp htold with hbefore | htells
    · exact Or.inl ((h.told hbefore).1 candle hcandle)
    · exact Or.inr (List.mem_map_of_mem (of_decide_eq_true htells candle hcandle))
  · intro htold candle hcandle hgot
    obtain ⟨hbefore, htells⟩ := (Bool.or_eq_false_iff).mp htold
    rcases got_receive.mp hgot with hold | hnew
    · exact h.fresh hbefore candle hcandle hold
    · obtain ⟨other, hother, hkey⟩ := List.mem_map.mp hnew
      rcases hmessage.whole with hall | hnone
      · exact of_decide_eq_false htells hall
      · exact hnone other hother candle hcandle (congrArg (fun key => key.2.2) hkey)

/-- A message that cannot bring what the client lacks for good. -/
theorem Lacks.receive {candle : Candle} (h : x.Lacks c candle) (hcursor : 0 ≤ x.follower.lastTimestamp)
    {now : ℤ} (hmessage : Timely c x.server message)
    (hnew : ∀ other ∈ message.candles, candle.timestamp < other.timestamp) :
    (GapSession.receive c d now x message).Lacks c candle where
  broadcast := h.broadcast
  absent hgot := by
    rcases got_receive.mp hgot with hold | hbrought
    · exact h.absent hold
    · obtain ⟨other, hother, hkey⟩ := List.mem_map.mp hbrought
      have htime : other.timestamp = candle.timestamp := congrArg (fun key => key.2.2) hkey
      exact absurd (hnew other hother) (htime ▸ lt_irrefl _)
  past := h.past
  old := h.old
  asked ts hts := by
    rcases List.mem_append.mp hts with hold | hrequest
    · exact h.asked ts hold
    · obtain ⟨rfl, hseq⟩ := Follower.request_eq_some (Option.mem_toList.mp hrequest)
      exact h.cursor hseq
  cursor _ := h.past.le.trans (hmessage.stamp ▸ Follower.timestamp_le_process hcursor)

theorem Followed.receive (h : x.Followed c) {now : ℤ} (hmessage : Timely c x.server message)
    (hnew : ∀ candle, x.Lacks c candle → ∀ other ∈ message.candles,
      candle.timestamp < other.timestamp) : (receive c d now x message).Followed c := by
  have hsound := h.toSound.receive (d := d) now hmessage
  have hclock : x.server.market.currentTs ≤ (x.follower.process d now message).lastTimestamp :=
    hmessage.stamp ▸ Follower.timestamp_le_process h.cursor
  refine ⟨hsound, ?_, ?_, ?_, ?_⟩
  · intro huntold
    obtain ⟨hbefore, htells⟩ := (Bool.and_eq_true _ _).mp huntold
    have hnot : ¬ Tells c x.server message := by simpa using htells
    obtain ⟨htold, hasked, hrest⟩ := h.untold hbefore
    have hnumber : message.seq = none := by
      rw [Option.eq_none_iff_forall_ne_some]
      intro seq hseq
      exact hnot (hmessage.numbered seq hseq).2
    have hrequest : x.follower.request d now message = none := by
      simp [Follower.request, Follower.gap, hnumber]
    refine ⟨Bool.or_eq_false_iff.mpr ⟨htold, decide_eq_false hnot⟩, ?_, hrest⟩
    change x.asked ++ (x.follower.request d now message).toList = []
    rw [hasked, hrequest]
    rfl
  · intro _ _ _
    exact ⟨fun candle hcandle => (past_of_latest h.ordered hcandle).le.trans hclock, fun _ _ => hclock⟩
  · intro hconnected hmissed candle hcandle
    rcases h.complete hconnected hmissed candle hcandle with hgot | ⟨huntold, hlatest⟩
    · exact Or.inl (got_receive.mpr (Or.inl hgot))
    · by_cases htells : Tells c x.server message
      · exact Or.inl (got_receive.mpr (Or.inr (List.mem_map_of_mem (htells candle hlatest))))
      · refine Or.inr ⟨(Bool.and_eq_true _ _).mpr ⟨huntold, ?_⟩, hlatest⟩
        simpa using htells
  · intro hconnected hmissed
    obtain ⟨candle, hlacks⟩ := h.doomed hconnected hmissed
    exact ⟨candle, hlacks.receive h.cursor hmessage (hnew candle hlacks)⟩

/-- A server step that leaves the candles, the clock and the loop alone. -/
theorem Followed.withServer (h : x.Followed c) {s : Server σ}
    (hhistory : s.market.candleHistory = x.server.market.candleHistory)
    (htime : s.market.currentTs = x.server.market.currentTs) (hphase : s.phase = x.server.phase)
    (hsubscribed : ∀ id, x.connection = some id → id < s.nextClient ∧
      s.clientSubscriptions.find? id = some c.symbols.toFinset) :
    ({ x with server := s } : GapSession σ).Followed c := by
  have hlatest := latest_congr (c := c) hhistory
  refine ⟨⟨h.ordered.congr hhistory htime, ?_, ?_, hsubscribed, h.cursor, ?_, ?_, ?_⟩, ?_, ?_, ?_, ?_⟩
  · change ∀ candle ∈ s.market.getLatestCandles c, _
    rw [hlatest]
    exact h.together
  · rw [hlatest, hphase]
    exact h.ticked
  · rw [htime]
    exact h.past
  · rw [hlatest, htime]
    exact h.told
  · rw [hlatest]
    exact h.fresh
  · rw [hlatest, hphase]
    exact h.untold
  · rw [hlatest, hphase, htime]
    exact h.reached
  · rw [hlatest]
    exact h.complete
  · intro hconnected hmissed
    obtain ⟨candle, hlacks⟩ := h.doomed hconnected hmissed
    refine ⟨candle, hlacks.broadcast, hlacks.absent, htime ▸ hlacks.past, ?_, hlacks.asked,
      hlacks.cursor⟩
    rw [hlatest]
    exact hlacks.old

theorem Followed.tick (h : x.Followed c) (hwaiting : x.server.phase = .waiting)
    (hstep : (x.server.step L c .loop).1 = x.server.tick L c) : (x.tick L c).Followed c := by
  obtain ⟨htimes, hsome⟩ := latest_generateCandlesInner (L := L) (c := c) x.server.market
  have hclock := clock_tick (L := L) (c := c) h.ordered
  have hordered : (x.server.tick L c).market.Ordered :=
    (h.ordered.generateCandlesInner (L := L) (c := c)).congr rfl rfl
  unfold GapSession.tick
  rw [hstep]
  refine ⟨⟨hordered, ?_, fun _ => hsome, h.subscribed, h.cursor, ?_, (nomatch ·), ?_⟩,
    (nomatch ·), ?_, ?_, ?_⟩
  · intro candle hcandle candle' hcandle'
    exact (htimes candle hcandle).trans (htimes candle' hcandle').symm
  · exact fun key hkey => (h.past key hkey).trans hclock
  · intro _ candle hcandle hgot
    exact absurd (h.past _ hgot) (by rw [candleKey, htimes candle hcandle]; exact lt_irrefl _)
  · intro hconnected hmissed hseq
    obtain ⟨hbefore, huntold⟩ := Bool.or_eq_false_iff.mp hmissed
    have hreached := (h.reached hconnected hbefore hseq).2 huntold hwaiting
    exact ⟨fun candle hcandle => (htimes candle hcandle).le.trans hreached, fun _ hphase => nomatch hphase⟩
  · intro hconnected hmissed candle hcandle
    obtain ⟨hbefore, huntold⟩ := Bool.or_eq_false_iff.mp hmissed
    rcases h.complete hconnected hbefore candle hcandle with hgot | ⟨htrue, -⟩
    · exact Or.inl hgot
    · rw [huntold] at htrue
      cases htrue
  · intro hconnected hmissed
    by_cases hbefore : x.missed = true
    · obtain ⟨candle, hlacks⟩ := h.doomed hconnected hbefore
      refine ⟨candle, hlacks.broadcast, hlacks.absent, hlacks.past.trans hclock, ?_, hlacks.asked,
        hlacks.cursor⟩
      exact fun latest hlatest => hlacks.past.trans_eq (htimes latest hlatest).symm
    · have huntold : x.untold = true := ((Bool.or_eq_true _ _).mp hmissed).resolve_left hbefore
      obtain ⟨htold, hasked, -, hlatest, hbroadcast⟩ := h.untold huntold
      obtain ⟨candle, hcandle⟩ := List.exists_mem_of_ne_nil _ hlatest
      have hpast := past_of_latest h.ordered hcandle
      refine ⟨candle, hbroadcast candle hcandle, h.fresh htold candle hcandle, hpast.trans hclock, ?_,
        ?_, ?_⟩
      · exact fun latest hnew => hpast.trans_eq (htimes latest hnew).symm
      · rw [hasked]
        exact fun ts hts => nomatch hts
      · exact fun hseq => (h.reached hconnected (by simpa using hbefore) hseq).1 candle hcandle

/-- The broadcast as the client would receive it. -/
def fullMessage (L : Library σ) (c : MarketConfig) (s : Server σ) : MarketMessage :=
  s.buildFullMessage c (s.sequenceNumber + 1) (s.buildOrderbookData L c)

theorem Sound.broadcast (h : x.Sound c) (hphase : x.server.phase = .ticked) :
    x.messages L c .loop = (if x.connection.isSome then [fullMessage L c x.server] else []) ∧
      (x.server.step L c .loop).1.market.candleHistory = x.server.market.candleHistory ∧
      (x.server.step L c .loop).1.market.currentTs = x.server.market.currentTs ∧
      (x.server.step L c .loop).1.phase = .waiting ∧
      (x.server.step L c .loop).1.nextClient = x.server.nextClient ∧
      (x.server.step L c .loop).1.clientSubscriptions = x.server.clientSubscriptions := by
  have hstep : x.server.step L c .loop = x.server.broadcastMarketData L c := by
    simp only [Server.step, Server.broadcastLoop, hphase]
  obtain ⟨hhistory, htime⟩ :=
    MarketSimulator.generateOrderBooks_frame (L := L) (c := c) x.server.market c.pairs
  refine ⟨?_, ?_, ?_, ?_, ?_, ?_⟩
  · unfold messages
    cases hconnection : x.connection with
    | none => rfl
    | some id =>
      simp only [hstep, Session.addressed_broadcast, (h.subscribed id hconnection).2, Option.map_some,
        Option.toList_some, Server.messageFor, true_or, if_true, Option.isSome_some]
      rfl
  · rw [hstep]
    exact hhistory
  · rw [hstep]
    exact htime
  · rw [hstep]
    rfl
  · rw [hstep]
    rfl
  · rw [hstep]
    rfl

/-- A lost broadcast. -/
theorem Followed.lose (h : x.Followed c) (hphase : x.server.phase = .ticked) (hasked : x.asked = [])
    (now : ℤ) : (x.broadcastTo L c d true now).Followed c := by
  obtain ⟨hmessages, hhistory, htime, hwaiting, hnext, hsubs⟩ := h.broadcast (L := L) hphase
  have hlatest := latest_congr (c := c) hhistory
  have hbefore : x.untold = false := by
    by_contra huntold
    have hidle := (h.untold (by simpa using huntold)).2.2.1
    rw [hphase] at hidle
    cases hidle
  have hstate : x.broadcastTo L c d true now =
      { x with
        server := (x.server.step L c .loop).1
        broadcast := x.broadcast ++
          if x.connection.isSome then x.server.market.getLatestCandles c else []
        untold := x.connection.isSome && !x.told } := by
    unfold broadcastTo
    simp only [if_true, hmessages, hbefore, Bool.false_or]
    cases x.connection with
    | none => rfl
    | some id => simp [fullMessage, Server.buildFullMessage]
  have hbroadcast : x.connection.isSome → ∀ candle ∈ x.server.market.getLatestCandles c,
      candle ∈ (x.broadcast ++ if x.connection.isSome then x.server.market.getLatestCandles c
        else []) := by
    intro hconnected candle hcandle
    rw [if_pos hconnected]
    exact List.mem_append_right _ hcandle
  rw [hstate]
  refine ⟨⟨h.ordered.congr hhistory htime, ?_, ?_, ?_, h.cursor, ?_, ?_, ?_⟩, ?_, ?_, ?_, ?_⟩
  · change ∀ candle ∈ (x.server.step L c .loop).1.market.getLatestCandles c, _
    rw [hlatest]
    exact h.together
  · intro hticked
    cases hwaiting.symm.trans hticked
  · intro id hid
    rw [hnext, hsubs]
    exact h.subscribed id hid
  · rw [htime]
    exact h.past
  · rw [hlatest, htime]
    exact h.told
  · rw [hlatest]
    exact h.fresh
  · intro huntold
    obtain ⟨hconnected, htold⟩ := (Bool.and_eq_true _ _).mp huntold
    rw [hlatest]
    exact ⟨by simpa using htold, hasked, hwaiting, h.ticked hphase, hbroadcast hconnected⟩
  · rw [hlatest, htime]
    intro hconnected hmissed hseq
    refine ⟨(h.reached hconnected hmissed hseq).1, fun huntold _ => (h.told ?_).2⟩
    have hconnected' : x.connection.isSome = true := hconnected
    rw [hconnected', Bool.true_and] at huntold
    simpa using huntold
  · intro hconnected hmissed candle hcandle
    have hconnected' : x.connection.isSome = true := hconnected
    rw [hlatest, hconnected', Bool.true_and]
    rcases List.mem_append.mp hcandle with hold | hnew
    · rcases h.complete hconnected hmissed candle hold with hgot | ⟨huntold, -⟩
      · exact Or.inl hgot
      · rw [hbefore] at huntold
        cases huntold
    · rw [if_pos hconnected'] at hnew
      cases htold : x.told with
      | true => exact Or.inl ((h.told htold).1 candle hnew)
      | false => exact Or.inr ⟨rfl, hnew⟩
  · intro hconnected hmissed
    obtain ⟨candle, hlacks⟩ := h.doomed hconnected hmissed
    refine ⟨candle, List.mem_append_left _ hlacks.broadcast, hlacks.absent, htime ▸ hlacks.past, ?_,
      hlacks.asked, hlacks.cursor⟩
    rw [hlatest]
    exact hlacks.old

theorem timely_fullMessage {s : Server σ} (h : s.market.Ordered) : Timely c s (fullMessage L c s) := by
  refine timely_of_latest h rfl rfl ?_
  intro seq hseq
  cases hseq
  exact Nat.succ_ne_zero _

theorem Sound.tells (h : x.Sound c) (hphase : x.server.phase = .ticked) :
    Tells c (x.server.step L c .loop).1 (fullMessage L c x.server) := by
  obtain ⟨-, hhistory, htime, -⟩ := h.broadcast (L := L) hphase
  exact (((timely_fullMessage (L := L) h.ordered).congr hhistory htime).numbered _ rfl).2

theorem Sound.arrive_eq (h : x.Sound c) (hphase : x.server.phase = .ticked)
    (hconnected : x.connection.isSome = true) (now : ℤ) : x.broadcastTo L c d false now =
      GapSession.receive c d now (x.broadcastTo L c d true now) (fullMessage L c x.server) := by
  have hmessages := (h.broadcast (L := L) hphase).1
  have htells := h.tells (L := L) hphase
  have hmessages' : ∀ y : GapSession σ, y.server = x.server → y.connection = x.connection →
      y.messages L c .loop = [fullMessage L c x.server] := by
    intro y hserver hconnection
    unfold messages
    rw [hserver, hconnection]
    exact hmessages.trans (if_pos hconnected)
  unfold broadcastTo serve
  simp only [Bool.false_eq_true, if_false]
  rw [hmessages' x rfl rfl, hmessages' { x with
    broadcast := x.broadcast ++ [fullMessage L c x.server].flatMap MarketMessage.candles } rfl rfl]
  simp only [List.foldl_cons, List.foldl_nil, GapSession.receive, if_true, htells, decide_true,
    Bool.not_true, Bool.and_false]

theorem Followed.arrive (h : x.Followed c) (hphase : x.server.phase = .ticked) (hasked : x.asked = [])
    (now : ℤ) : (x.broadcastTo L c d false now).Followed c := by
  have hlost := h.lose (L := L) (d := d) hphase hasked now
  cases hconnected : x.connection.isSome with
  | true =>
    obtain ⟨-, hhistory, htime, -⟩ := h.broadcast (L := L) hphase
    rw [h.arrive_eq hphase hconnected]
    have hlatest := latest_congr (c := c) hhistory
    refine hlost.receive ((timely_fullMessage h.ordered).congr hhistory htime) ?_
    intro candle hlacks other hother
    refine hlacks.old other ?_
    change other ∈ (x.server.step L c .loop).1.market.getLatestCandles c
    rw [hlatest]
    exact hother
  | false =>
    have hnone : x.connection = none := by simpa using hconnected
    have hsame : x.broadcastTo L c d false now = x.broadcastTo L c d true now := by
      simp [broadcastTo, serve, messages, hnone]
    rw [hsame]
    exact hlost

theorem Followed.serve (h : x.Followed c) {id : ℕ} (hconnection : x.connection = some id) {e : Event}
    (hloop : e ≠ .loop) (hsent : (x.server.step L c e).2 = [(id, message)])
    (hnext : (x.server.step L c e).1.nextClient = x.server.nextClient)
    (hsubs : (x.server.step L c e).1.clientSubscriptions = x.server.clientSubscriptions)
    (hmessage : Timely c x.server message) (hnew : ∀ candle, x.Lacks c candle → ∀ other ∈ message.candles,
      candle.timestamp < other.timestamp) : (x.serve L c d 0 e).Followed c := by
  obtain ⟨hhistory, htime, hphase⟩ := step_of_ne_loop (L := L) (c := c) x.server hloop
  have hmessages : x.messages L c e = [message] := by
    unfold messages
    rw [hconnection]
    simp only [hsent, Session.addressed_single, if_true]
  have hserved : ({ x with server := (x.server.step L c e).1 } : GapSession σ).Followed c := by
    apply h.withServer hhistory htime hphase
    rw [hnext, hsubs]
    exact h.subscribed
  unfold GapSession.serve
  rw [hmessages]
  refine hserved.receive (hmessage.congr hhistory htime) ?_
  intro candle hlacks
  refine hnew candle ⟨hlacks.broadcast, hlacks.absent, htime ▸ hlacks.past, ?_, hlacks.asked,
    hlacks.cursor⟩
  rw [← latest_congr (c := c) hhistory]
  exact hlacks.old

/-- What the client lacks for good is older than all latest candles. -/
theorem Followed.snapshot (h : x.Followed c) {id : ℕ} (hconnection : x.connection = some id) :
    (x.serve L c d 0 (.snapshot id)).Followed c := by
  have hstep : x.server.step L c (.snapshot id) = x.server.snapshotTo L c id := by
    simp only [Server.step, (h.subscribed id hconnection).2]
  have hmessage : Timely c x.server (x.server.sendMarketSnapshot L c).1 :=
    timely_of_latest h.ordered rfl rfl fun seq hseq => by cases hseq
  refine h.serve hconnection (by simp) (by rw [hstep]; rfl) (by rw [hstep]; rfl) (by rw [hstep]; rfl)
    hmessage ?_
  exact fun candle hlacks other hother => hlacks.old other hother

theorem Followed.answer (h : x.Followed c) {id : ℕ} (hconnection : x.connection = some id) {ts : ℤ}
    (hts : ts ∈ x.asked) : (x.serve L c d 0 (.syncState id ts)).Followed c := by
  have hstep : x.server.step L c (.syncState id ts) =
      ((x.server.sendSyncState L c ts).2, [(id, (x.server.sendSyncState L c ts).1)]) := by
    simp only [Server.step, (h.subscribed id hconnection).2]
  refine h.serve hconnection (by simp) (by rw [hstep]) (by rw [hstep]; rfl) (by rw [hstep]; rfl)
    (timely_sendSyncState h.ordered h.together ts) ?_
  exact fun candle hlacks other hother => (hlacks.asked ts hts).trans_lt (lt_of_mem_syncState hother)

/-- A request that is done with. -/
theorem Followed.withAsked (h : x.Followed c) {asked : List ℤ} (hsub : asked ⊆ x.asked) :
    ({ x with asked := asked } : GapSession σ).Followed c where
  toSound := ⟨h.ordered, h.together, h.ticked, h.subscribed, h.cursor, h.past, h.told, h.fresh⟩
  untold huntold := by
    obtain ⟨htold, hasked, hrest⟩ := h.untold huntold
    refine ⟨htold, ?_, hrest⟩
    rw [hasked] at hsub
    exact List.subset_nil.mp hsub
  reached := h.reached
  complete := h.complete
  doomed hconnected hmissed := by
    obtain ⟨candle, hlacks⟩ := h.doomed hconnected hmissed
    exact ⟨candle, hlacks.broadcast, hlacks.absent, hlacks.past, hlacks.old,
      fun ts hts => hlacks.asked ts (hsub hts), hlacks.cursor⟩

/-- A new connection. -/
theorem Followed.join (h : x.Followed c) (hnone : x.connection = none) (request : Option ℤ) :
    (x.step L c d (.join request)).Followed c := by
  have hstep : x.step L c d (.join request) =
      { x with
        server := (x.server.step L c .connect).1
        connection := some x.server.nextClient
        asked := request.toList
        follower := { x.follower with lastSeq := 0 }
        broadcast := []
        untold := false
        missed := false } := by
    simp only [GapSession.step, hnone]
  rw [hstep]
  refine ⟨⟨h.ordered.congr rfl rfl, h.together, h.ticked, ?_, h.cursor, h.past, h.told, h.fresh⟩,
    (nomatch ·), ?_, ?_, fun _ hmissed => nomatch hmissed⟩
  · intro id hid
    cases hid
    exact ⟨Nat.lt_succ_self _, Dict.find?_insert_self _ _ _⟩
  · exact fun _ _ hseq => absurd rfl hseq
  · exact fun _ _ candle hcandle => nomatch hcandle

/-- The end of a connection. -/
theorem Followed.leave (h : x.Followed c) {id : ℕ} : ({ x with
      server := (x.server.step L c (.disconnect id)).1
      connection := none
      asked := [] } : GapSession σ).Followed c where
  toSound := ⟨h.ordered.congr rfl rfl, h.together, h.ticked, (fun _ hid => nomatch hid), h.cursor,
    h.past, h.told, h.fresh⟩
  untold huntold := by
    obtain ⟨htold, -, hrest⟩ := h.untold huntold
    exact ⟨htold, rfl, hrest⟩
  reached hconnected := nomatch hconnected
  complete hconnected := nomatch hconnected
  doomed hconnected := nomatch hconnected

/-- Every event. -/
theorem Followed.step (h : x.Followed c) {e : GapEvent} (hprompt : x.Prompt e) :
    (x.step L c d e).Followed c := by
  cases e with
  | join request =>
    cases hconnection : x.connection with
    | none => exact h.join hconnection request
    | some id =>
      simp only [GapSession.step, hconnection]
      exact h
  | leave =>
    cases hconnection : x.connection with
    | none =>
      simp only [GapSession.step, hconnection]
      exact h
    | some id =>
      simp only [GapSession.step, hconnection]
      exact h.leave
  | snapshot =>
    cases hconnection : x.connection with
    | none =>
      simp only [GapSession.step, hconnection]
      exact h
    | some id =>
      simp only [GapSession.step, hconnection]
      exact h.snapshot hconnection
  | answer =>
    cases hconnection : x.connection with
    | none =>
      simp only [GapSession.step, hconnection]
      exact h
    | some id =>
      cases hasked : x.asked with
      | nil =>
        simp only [GapSession.step, hconnection, hasked]
        exact h
      | cons ts rest =>
        simp only [GapSession.step, hconnection, hasked]
        have hts : ts ∈ x.asked := hasked ▸ List.mem_cons_self
        exact (h.answer hconnection hts).withAsked (List.tail_subset _)
  | loop lost now =>
    rw [GapSession.step]
    split
    · rename_i hphase
      cases lost with
      | true => exact h.lose hphase (hprompt hphase) now
      | false => exact h.arrive hphase (hprompt hphase) now
    · rename_i hphase
      split
      · rename_i hticks
        have hwaiting : x.server.phase = .waiting := by
          cases hnow : x.server.phase with
          | waiting => rfl
          | ticked => exact absurd hnow hphase
        refine h.tick hwaiting ?_
        simp only [Server.step, Server.broadcastLoop, hwaiting] at hticks ⊢
        split at hticks
        · rw [hwaiting] at hticks
          cases hticks
        · exact congrArg Prod.fst (if_neg ‹_›)
      · exact h
  | other e =>
    rw [GapSession.step]
    split
    · exact h
    · rename_i hforeign
      have hloop : e ≠ .loop := by
        rintro rfl
        exact hforeign rfl
      obtain ⟨hhistory, htime, hphase⟩ := step_of_ne_loop (L := L) (c := c) x.server hloop
      apply h.withServer hhistory htime hphase
      intro id hid
      obtain ⟨hknown, hsubs⟩ := h.subscribed id hid
      rw [hid] at hforeign
      obtain ⟨hknown', hsame⟩ :=
        find?_step_of_other (L := L) (c := c) hknown (by simpa using hforeign)
      exact ⟨hknown', hsame.trans hsubs⟩

theorem followed_init (L : Library σ) (c : MarketConfig) (d : Decoder) (rng : σ) :
    (init L c d rng).Followed c := by
  have hnothing : ∀ key, ¬ (init L c d rng).follower.Got key := by
    intro key hgot
    rcases hgot with hheld | hdropped
    · cases d with
      | dashboard => cases hheld
      | bot => cases hheld
    · cases hdropped
  refine ⟨⟨MarketSimulator.ordered_init rng, together_init rng, (nomatch ·),
    (fun _ hid => nomatch hid), le_refl _, fun key hgot => absurd hgot (hnothing key), (nomatch ·),
    fun _ candle _ => hnothing _⟩, (nomatch ·), (nomatch ·), (nomatch ·), (nomatch ·)⟩

theorem of_checks {e : GapEvent} (h : x.Checks e) :
    ∃ now, e = .loop false now ∧ x.server.phase = .ticked ∧ x.connection.isSome = true := by
  unfold Checks at h
  split at h
  · rename_i now
    exact ⟨now, rfl, h.1, h.2.1⟩
  · exact h.elim

/-- After a broadcast that arrives the client has got all, or has asked in vain. -/
theorem Followed.repaired_iff (h : x.Followed c) {e : GapEvent} (hprompt : x.Prompt e) :
    x.Repaired L c d e ↔ x.Unbroken e := by
  refine imp_congr_right fun hchecks => ?_
  obtain ⟨now, rfl, hphase, hconnected⟩ := of_checks hchecks
  have hafter := h.step (L := L) (d := d) hprompt
  have hstep : x.step L c d (.loop false now) = x.broadcastTo L c d false now := if_pos hphase
  have harrive := h.arrive_eq (L := L) (d := d) hphase hconnected now
  have hconnected' : (x.step L c d (.loop false now)).connection.isSome = true := by
    rw [hstep, harrive]
    exact hconnected
  have hmissed : (x.step L c d (.loop false now)).missed = x.missed := by
    rw [hstep, harrive]
    rfl
  have huntold : (x.step L c d (.loop false now)).untold = false := by
    rw [hstep, harrive]
    have htells : Tells c (x.broadcastTo L c d true now).server (fullMessage L c x.server) :=
      h.tells hphase
    exact Bool.and_eq_false_iff.mpr (Or.inr (by simpa using htells))
  constructor
  · intro hrepaired
    by_contra hbroken
    have hmissed' : (x.step L c d (.loop false now)).missed = true := by
      rw [hmissed]
      simpa using hbroken
    obtain ⟨candle, hlacks⟩ := hafter.doomed hconnected' hmissed'
    rcases hrepaired with hall | ⟨ts, hasks, hbefore⟩
    · exact hlacks.absent (hall candle hlacks.broadcast)
    · have hlt := hbefore candle hlacks.broadcast hlacks.absent
      have hle := hlacks.asked ts (List.mem_of_mem_drop hasks)
      exact absurd hlt (not_lt.mpr hle)
  · intro hunbroken
    left
    intro candle hcandle
    rcases hafter.complete hconnected' (hmissed.trans hunbroken) candle hcandle with hgot | ⟨htrue, -⟩
    · exact hgot
    · rw [huntold] at htrue
      cases htrue

/-- Along a run in which requests are answered in time, the client has got all that was broadcast, or
asks for all that it lacks, at each broadcast that it may ask at, exactly if it has missed nothing by
then. -/
theorem repaired_iff_unbroken (L : Library σ) (c : MarketConfig) (d : Decoder) (rng : σ)
    {events : List GapEvent} (hprompt : Along (step L c d) Prompt (init L c d rng) events) :
    Along (step L c d) (Repaired L c d) (init L c d rng) events ↔
      Along (step L c d) Unbroken (init L c d rng) events := by
  have hinit := followed_init L c d rng
  generalize init L c d rng = x at hprompt hinit
  induction events generalizing x with
  | nil => exact Iff.rfl
  | cons e rest ih =>
    rw [Along, Along, hinit.repaired_iff hprompt.1]
    exact and_congr_right fun _ => ih _ hprompt.2 (hinit.step hprompt.1)

/-- The client processes the first broadcast, the second one is lost, and the third one arrives. -/
def secondLost : List GapEvent :=
  [.join none, .snapshot, .loop false 0, .loop false 10000, .loop false 0, .loop true 0, .loop false 0,
    .loop false 20000]

/-- The equivalence over these events. -/
theorem repaired_iff_unbroken_secondLost : Along (step (tapedLibrary []) stillMarket .dashboard)
        (Repaired (tapedLibrary []) stillMarket .dashboard)
        (init (tapedLibrary []) stillMarket .dashboard 0) secondLost ↔
      Along (step (tapedLibrary []) stillMarket .dashboard) Unbroken
        (init (tapedLibrary []) stillMarket .dashboard 0) secondLost :=
  repaired_iff_unbroken (tapedLibrary []) stillMarket .dashboard 0 (by decide +kernel)

/-- The client asks for what comes after the time of the first broadcast, which is the time of the
second one's candle. -/
theorem not_repaired_secondLost : ¬ Along (step (tapedLibrary []) stillMarket .dashboard)
        (Repaired (tapedLibrary []) stillMarket .dashboard)
        (init (tapedLibrary []) stillMarket .dashboard 0) secondLost ∧
      ¬ Along (step (tapedLibrary []) stillMarket .bot) (Repaired (tapedLibrary []) stillMarket .bot)
        (init (tapedLibrary []) stillMarket .bot 0) secondLost := by
  decide +kernel

end GapSession

end TradingSim.Feed
