import TradingSim.Bot.CandleHistories

/-!
# Clients that follow the broadcasts

The dashboard and the bot keep the number of the last broadcast and the time of the last message.
When a number is skipped they ask for the candles after that time, but at most once in five seconds.
The candles of a message go into a store with a cap: the dashboard keeps the 500 latest of all, the
bot the last 200 of each symbol.
-/

namespace TradingSim.Feed

open Foundations
open Market
open TradingSim.Bot (CandleClient pushBounded)

/-- What makes a candle the same one: the key of the dashboard's map. -/
def candleKey (candle : Candle) : String × String × ℤ :=
  (candle.exchange, candle.symbol, candle.timestamp)

/-- The candles of a client: the dashboard's map, in the order of its keys, or the bot's histories by
symbol. -/
inductive CandleStore where
  | candleMap (candles : List Candle)
  | candleHistory (histories : Dict String (List Candle))

def maxMappedCandles : ℕ := 500

/-- `candleMap.set`. -/
def mapCandle (candles : List Candle) (candle : Candle) : List Candle :=
  KeyedList.put candleKey (fun l b => l ++ [b]) candles candle

/-- A store without candles. -/
def Decoder.emptyStore : Decoder → CandleStore
  | .dashboard => .candleMap []
  | .bot => .candleHistory Dict.empty

/-- Keep the latest candles of a map that has grown too large, and say which ones go. -/
def trimMap (candles : List Candle) : List Candle × List Candle :=
  if maxMappedCandles < candles.length then
    let all := candles.mergeSort fun a b => decide (a.timestamp ≤ b.timestamp)
    let excess := all.length - maxMappedCandles
    ((all.drop excess).foldl mapCandle [], all.take excess)
  else (candles, [])

/-- What a candle makes a history of the bot let go: its oldest candle, or the new one if it has no
symbol. -/
def letGo (history : List Candle) (candle : Candle) : List Candle :=
  if candle.symbol = "" then [candle]
  else (history ++ [candle]).take ((history ++ [candle]).length - 200)

/-- Append a candle to the history of its symbol, and say which one goes. -/
def appendHistory (entry : Dict String (List Candle) × List Candle) (candle : Candle) :
    Dict String (List Candle) × List Candle :=
  (CandleClient.appendCandle entry.1 candle,
    entry.2 ++ letGo ((entry.1.find? candle.symbol).getD []) candle)

/-- Put the candles of a message into a store, and say which ones go. -/
def CandleStore.merge (store : CandleStore) (candles : List Candle) : CandleStore × List Candle :=
  match store with
  | .candleMap held =>
    let (held, dropped) := trimMap (candles.foldl mapCandle held)
    (.candleMap held, dropped)
  | .candleHistory histories =>
    let (histories, dropped) := candles.foldl appendHistory (histories, [])
    (.candleHistory histories, dropped)

def CandleStore.candles : CandleStore → List Candle
  | .candleMap held => held
  | .candleHistory histories => histories.values.flatten

/-- What a client keeps to follow the broadcasts, and its candles. `dropped` is bookkeeping: the
candles that the store has let go again. -/
structure Follower where
  lastSeq : ℕ := 0
  lastTimestamp : ℤ := 0
  lastResyncReq : ℤ := 0
  store : CandleStore
  dropped : List Candle := []

/-- Whether the time since the last request allows another one, in milliseconds. -/
def Decoder.mayRequest (d : Decoder) (now lastResyncReq : ℤ) : Bool :=
  match d with
  | .dashboard => 5000 < now - lastResyncReq
  | .bot => ¬ now - lastResyncReq < 5000

namespace Follower

/-- A message shows that broadcasts were lost. -/
def gap (f : Follower) (message : MarketMessage) : Bool :=
  match message.seq with
  | some seq => f.lastSeq ≠ 0 ∧ f.lastSeq + 1 < seq
  | none => false

/-- The time that is sent with a request, if processing a message makes one. -/
def request (d : Decoder) (now : ℤ) (f : Follower) (message : MarketMessage) : Option ℤ :=
  if f.gap message ∧ d.mayRequest now f.lastResyncReq then some f.lastTimestamp else none

/-- Process a market message that arrives at some time. -/
def process (d : Decoder) (now : ℤ) (f : Follower) (message : MarketMessage) : Follower where
  lastSeq := message.seq.getD f.lastSeq
  lastTimestamp :=
    if message.timestamp ≠ 0 then max f.lastTimestamp message.timestamp else f.lastTimestamp
  lastResyncReq := if (f.request d now message).isSome then now else f.lastResyncReq
  store := (f.store.merge message.candles).1
  dropped := f.dropped ++ (f.store.merge message.candles).2

/-- A candle has reached the client: it holds it, or has let it go again. -/
def Got (f : Follower) (key : String × String × ℤ) : Prop :=
  key ∈ f.store.candles.map candleKey ∨ key ∈ f.dropped.map candleKey

instance (f : Follower) (key : String × String × ℤ) : Decidable (f.Got key) :=
  inferInstanceAs (Decidable (_ ∨ _))

end Follower

variable {key : String × String × ℤ} {candles : List Candle}

theorem mem_keys_mapCandle {candle : Candle} : key ∈ (mapCandle candles candle).map candleKey ↔
      key ∈ candles.map candleKey ∨ key = candleKey candle := by
  have hkeys (l : List Candle) : key ∈ l.map candleKey ↔ KeyedList.under candleKey key l ≠ [] := by
    rw [Ne, KeyedList.under_eq_nil_iff, List.mem_map]
    push Not
    rfl
  rw [hkeys, hkeys, mapCandle, KeyedList.under_put KeyedList.joins_push]
  by_cases hkey : candleKey candle = key
  · simp [hkey]
  · simp [hkey, Ne.symm hkey]

theorem mem_keys_foldl_mapCandle {new candles : List Candle} :
    key ∈ (new.foldl mapCandle candles).map candleKey ↔
      key ∈ candles.map candleKey ∨ key ∈ new.map candleKey := by
  induction new generalizing candles with
  | nil => simp
  | cons candle rest ih =>
    rw [List.foldl_cons, ih, mem_keys_mapCandle, List.map_cons, List.mem_cons, or_assoc]

theorem mem_keys_trimMap :
    (key ∈ (trimMap candles).1.map candleKey ∨ key ∈ (trimMap candles).2.map candleKey) ↔
      key ∈ candles.map candleKey := by
  unfold trimMap
  split
  · simp only [mem_keys_foldl_mapCandle, List.map_nil, List.not_mem_nil, false_or]
    rw [or_comm, ← List.mem_append, ← List.map_append, List.take_append_drop]
    exact ((List.mergeSort_perm _ _).map candleKey).mem_iff
  · simp

theorem mem_keys_histories {histories : Dict String (List Candle)} :
    key ∈ (CandleStore.candleHistory histories).candles.map candleKey ↔
      ∃ symbol, key ∈ ((histories.find? symbol).getD []).map candleKey := by
  rw [CandleStore.candles, List.map_flatten, List.mem_flatten]
  constructor
  · rintro ⟨keys, hkeys, hkey⟩
    obtain ⟨hist, hhist, rfl⟩ := List.mem_map.mp hkeys
    obtain ⟨⟨symbol, hist⟩, hentry, rfl⟩ := List.mem_map.mp hhist
    refine ⟨symbol, ?_⟩
    rw [(Dict.mem_entries_iff _ _ _).mp hentry]
    exact hkey
  · rintro ⟨symbol, hkey⟩
    cases hfind : histories.find? symbol with
    | none =>
      rw [hfind] at hkey
      cases hkey
    | some hist =>
      rw [hfind] at hkey
      refine ⟨_, List.mem_map_of_mem (List.mem_map.mpr ⟨(symbol, hist), ?_, rfl⟩), hkey⟩
      exact (Dict.mem_entries_iff _ _ _).mpr hfind

theorem mem_keys_appendHistory {entry : Dict String (List Candle) × List Candle} {candle : Candle} :
    (key ∈ (CandleStore.candleHistory (appendHistory entry candle).1).candles.map candleKey ∨
        key ∈ (appendHistory entry candle).2.map candleKey) ↔
      (key ∈ (CandleStore.candleHistory entry.1).candles.map candleKey ∨
        key ∈ entry.2.map candleKey) ∨ key = candleKey candle := by
  obtain ⟨histories, dropped⟩ := entry
  generalize hhist : (histories.find? candle.symbol).getD [] = hist
  by_cases hnone : candle.symbol = ""
  · simp only [appendHistory, CandleClient.appendCandle, letGo, if_pos hnone, List.map_append,
      List.mem_append, List.map_singleton, List.mem_singleton, or_assoc]
  generalize hn : (hist ++ [candle]).length - 200 = n
  have happend : appendHistory (histories, dropped) candle =
      (histories.insert candle.symbol ((hist ++ [candle]).drop n),
        dropped ++ (hist ++ [candle]).take n) := by
    simp only [appendHistory, CandleClient.appendCandle, letGo, pushBounded, if_neg hnone, hhist, hn]
  have hsplit : key ∈ ((hist ++ [candle]).take n).map candleKey ∨
      key ∈ ((hist ++ [candle]).drop n).map candleKey ↔
        key ∈ hist.map candleKey ∨ key = candleKey candle := by
    rw [← List.mem_append, ← List.map_append, List.take_append_drop, List.map_append,
      List.mem_append, List.map_singleton, List.mem_singleton]
  rw [happend]
  simp only [mem_keys_histories, List.map_append, List.mem_append]
  constructor
  · rintro (⟨symbol, hkey⟩ | hdropped | htaken)
    · rw [Dict.find?_insert] at hkey
      split at hkey
      · rcases hsplit.mp (Or.inr hkey) with hold | hnew
        · exact Or.inl (Or.inl ⟨candle.symbol, hhist ▸ hold⟩)
        · exact Or.inr hnew
      · exact Or.inl (Or.inl ⟨symbol, hkey⟩)
    · exact Or.inl (Or.inr hdropped)
    · rcases hsplit.mp (Or.inl htaken) with hold | hnew
      · exact Or.inl (Or.inl ⟨candle.symbol, hhist ▸ hold⟩)
      · exact Or.inr hnew
  · have hhere : key ∈ hist.map candleKey ∨ key = candleKey candle →
        (∃ symbol, key ∈ (((histories.insert candle.symbol
          ((hist ++ [candle]).drop n)).find? symbol).getD []).map candleKey) ∨
            key ∈ dropped.map candleKey ∨ key ∈ ((hist ++ [candle]).take n).map candleKey := by
      intro hkey
      rcases hsplit.mpr hkey with htaken | hkept
      · exact Or.inr (Or.inr htaken)
      · refine Or.inl ⟨candle.symbol, ?_⟩
        rw [Dict.find?_insert_self]
        exact hkept
    rintro ((⟨symbol, hkey⟩ | hdropped) | hnew)
    · by_cases hsymbol : symbol = candle.symbol
      · rw [hsymbol, hhist] at hkey
        exact hhere (Or.inl hkey)
      · refine Or.inl ⟨symbol, ?_⟩
        rw [Dict.find?_insert_of_ne _ hsymbol]
        exact hkey
    · exact Or.inr (Or.inl hdropped)
    · exact hhere (Or.inr hnew)

/-- What a store holds or has let go after a message. -/
theorem mem_keys_merge {store : CandleStore} : (key ∈ (store.merge candles).1.candles.map candleKey ∨
        key ∈ (store.merge candles).2.map candleKey) ↔
      key ∈ store.candles.map candleKey ∨ key ∈ candles.map candleKey := by
  cases store with
  | candleMap held =>
    simp only [CandleStore.merge, CandleStore.candles]
    rw [mem_keys_trimMap, mem_keys_foldl_mapCandle]
  | candleHistory histories =>
    have hfold (entry : Dict String (List Candle) × List Candle) :
        (key ∈ (CandleStore.candleHistory (candles.foldl appendHistory entry).1).candles.map
            candleKey ∨ key ∈ (candles.foldl appendHistory entry).2.map candleKey) ↔
          (key ∈ (CandleStore.candleHistory entry.1).candles.map candleKey ∨
            key ∈ entry.2.map candleKey) ∨ key ∈ candles.map candleKey := by
      induction candles generalizing entry with
      | nil => simp
      | cons candle rest ih =>
        rw [List.foldl_cons, ih, mem_keys_appendHistory, List.map_cons, List.mem_cons, or_assoc]
    refine (hfold (histories, [])).trans ?_
    simp

namespace Follower

variable {d : Decoder} {now : ℤ} {f : Follower} {message : MarketMessage}

/-- What has reached a client after a message. -/
theorem got_process {key : String × String × ℤ} :
    (f.process d now message).Got key ↔ f.Got key ∨ key ∈ message.candles.map candleKey := by
  change key ∈ (f.store.merge message.candles).1.candles.map candleKey ∨
    key ∈ (f.dropped ++ (f.store.merge message.candles).2).map candleKey ↔ _
  rw [List.map_append, List.mem_append, or_left_comm, mem_keys_merge, Got, or_left_comm, or_assoc]

theorem lastTimestamp_le_process : f.lastTimestamp ≤ (f.process d now message).lastTimestamp := by
  change _ ≤ (if message.timestamp ≠ 0 then max f.lastTimestamp message.timestamp
    else f.lastTimestamp)
  split
  · exact le_max_left _ _
  · exact le_refl _

/-- A follower has seen the time of every message that it has processed. -/
theorem timestamp_le_process (h : 0 ≤ f.lastTimestamp) :
    message.timestamp ≤ (f.process d now message).lastTimestamp := by
  change _ ≤ (if message.timestamp ≠ 0 then max f.lastTimestamp message.timestamp
    else f.lastTimestamp)
  split
  · exact le_max_right _ _
  · rename_i hzero
    rw [not_not.mp hzero]
    exact h

theorem request_eq_some {ts : ℤ} (h : f.request d now message = some ts) :
    ts = f.lastTimestamp ∧ f.lastSeq ≠ 0 := by
  unfold request at h
  split at h
  · rename_i hrequest
    cases h
    have hgap := hrequest.1
    unfold gap at hgap
    split at hgap
    · exact ⟨rfl, (of_decide_eq_true hgap).1⟩
    · cases hgap
  · cases h

end Follower

end TradingSim.Feed
