import Mathlib.Tactic.GCongr
import TradingSim.Bot.PositionManager
import TradingSim.Shm.SinglePrecision

/-!
# Trading signals in shared memory

The signal engine packs a signal dictionary into a fixed record and pushes it into a ring. The
record carries the symbol's number, the prices in single precision and the confidence as a fraction;
the bot turns the number back into a name.
-/

namespace TradingSim.Shm

open Foundations
open TradingSim.Bot (Direction)

/-- The fields of a signal dictionary that are packed. -/
structure SignalDict where
  symbol : Option String := none
  direction : Option String := none
  timestamp : Option ℤ := none
  confidence : Option ℚ := none
  entryPrice : Option ℚ := none
  price : Option ℚ := none
  stopLoss : Option ℚ := none
  takeProfit : Option ℚ := none
  leverage : Option ℤ := none

/-- A signal record in the ring. -/
structure SignalMsg where
  timestamp : ℕ
  symbolId : ℕ
  action : ℕ
  confidence : ℚ
  price : ℚ
  sl : ℚ
  tp : ℚ
  leverage : ℕ
  deriving DecidableEq

/-- An unsigned field of some bits; none for a number it cannot hold. -/
def packUnsigned (bits : ℕ) (n : ℤ) : Option ℕ :=
  if 0 ≤ n ∧ n < 2 ^ bits then some n.toNat else none

/-- Pack a record; none if a field does not fit its format. -/
def packSignal (timestamp symbolId action : ℤ) (confidence price sl tp : ℚ) (leverage : ℤ) :
    Option SignalMsg := do
  let timestamp ← packUnsigned 64 timestamp
  let symbolId ← packUnsigned 8 symbolId
  let action ← packUnsigned 8 action
  let confidence ← packSingle confidence
  let price ← packSingle price
  let sl ← packSingle sl
  let tp ← packSingle tp
  let leverage ← packUnsigned 8 leverage
  return { timestamp, symbolId, action, confidence, price, sl, tp, leverage }

/-- Push a record into a ring with the given records in it. A full ring refuses; a record that
does not pack raises. -/
def pushSignal (capacity : ℕ) (queue : List SignalMsg) (packed : Option SignalMsg) :
    Option (Bool × List SignalMsg) :=
  if capacity ≤ queue.length then some (false, queue)
  else packed.map fun msg => (true, queue ++ [msg])

/-- Unix seconds in nanoseconds; larger numbers are taken for nanoseconds already. -/
def signalTimestamp (ts : ℤ) : ℤ := if ts < 10 ^ 15 then ts * 10 ^ 9 else ts

/-- The record of a signal dictionary, with the defaults of its missing fields. -/
def packSignalDict (signal : SignalDict) (symbolMap : Dict String ℕ) (nowNs : ℤ) : Option SignalMsg :=
  let symbolId : ℕ := (symbolMap.find? (signal.symbol.getD "BTC")).getD 0
  let action : ℤ :=
    if signal.direction = some "LONG" then 1
    else if signal.direction = some "SHORT" then 2 else 0
  packSignal (signalTimestamp (signal.timestamp.getD nowNs)) symbolId action
    (signal.confidence.getD 0 / 100) (signal.entryPrice.getD (signal.price.getD 0))
    (signal.stopLoss.getD 0) (signal.takeProfit.getD 0) (signal.leverage.getD 1)

/-- Push a signal dictionary. -/
def pushSignalDict (capacity : ℕ) (queue : List SignalMsg) (signal : SignalDict)
    (symbolMap : Dict String ℕ) (nowNs : ℤ) : Option (Bool × List SignalMsg) :=
  pushSignal capacity queue (packSignalDict signal symbolMap nowNs)

/-- A signal as the bot's consumer builds it. Its timestamp stays zero. -/
structure ConsumedSignal where
  symbol : String
  direction : Direction
  confidence : ℚ
  entryPrice : ℚ
  stopLoss : ℚ
  takeProfit : ℚ
  leverage : ℕ
  timestamp : ℤ := 0
  deriving DecidableEq

/-- The configured symbol of a number. -/
def configuredSymbol (symbols : List String) (id : ℕ) : String := symbols.getD id "UNKNOWN"

/-- The consumer callback's signal for a record. -/
def consumeSignal (symbols : List String) (msg : SignalMsg) : ConsumedSignal where
  symbol := configuredSymbol symbols msg.symbolId
  direction := if msg.action = 1 then .long else if msg.action = 2 then .short else .neutral
  confidence := single (msg.confidence * 100)
  entryPrice := msg.price
  stopLoss := msg.sl
  takeProfit := msg.tp
  leverage := msg.leverage

/-- What the consumer callback queues for the trading loop. -/
def deliveredSignal (symbols : List String) (msg : SignalMsg) : Option ConsumedSignal :=
  if (consumeSignal symbols msg).direction = .neutral then none
  else some (consumeSignal symbols msg)

/-- A signal of a strategy. -/
structure StrategySignal where
  symbol : String
  direction : Direction
  confidence : ℚ
  entryPrice : ℚ
  stopLoss : ℚ
  takeProfit : ℚ
  leverage : ℤ
  timestamp : ℤ

def directionText : Direction → String
  | .long => "LONG"
  | .short => "SHORT"
  | .neutral => "NEUTRAL"

/-- A strategy signal as a dictionary. -/
def StrategySignal.toDict (signal : StrategySignal) : SignalDict where
  symbol := some signal.symbol
  direction := some (directionText signal.direction)
  timestamp := some signal.timestamp
  confidence := some signal.confidence
  entryPrice := some signal.entryPrice
  stopLoss := some signal.stopLoss
  takeProfit := some signal.takeProfit
  leverage := some signal.leverage

/-- The same signal, with prices rounded to single precision and the confidence rounded as a
fraction and again as a percentage. -/
structure Reconstructs (signal : StrategySignal) (consumed : ConsumedSignal) : Prop where
  symbol : consumed.symbol = signal.symbol
  direction : consumed.direction = signal.direction
  leverage : (consumed.leverage : ℤ) = signal.leverage
  entryPrice : consumed.entryPrice = single signal.entryPrice
  stopLoss : consumed.stopLoss = single signal.stopLoss
  takeProfit : consumed.takeProfit = single signal.takeProfit
  confidence : consumed.confidence = single (single (signal.confidence / 100) * 100)

/-- The two roundings of a confidence together move it by less than two units in the 23rd binary place, or
some hundred times the smallest positive number. -/
theorem abs_confidence_sub_le (confidence : ℚ) :
    |single (single (confidence / 100) * 100) - confidence| ≤
      3 * |confidence| / 2 ^ 24 + 102 / 2 ^ 150 := by
  set fraction := single (confidence / 100)
  have hfraction : |fraction - confidence / 100| ≤ |confidence / 100| / 2 ^ 24 + 1 / 2 ^ 150 :=
    abs_single_sub_le (confidence / 100)
  have hpercent := abs_single_sub_le (fraction * 100)
  have hscaled : |fraction * 100 - confidence| = 100 * |fraction - confidence / 100| := by
    have heq : fraction * 100 - confidence = 100 * (fraction - confidence / 100) := by ring
    rw [heq, abs_mul, abs_of_pos (by norm_num : (0 : ℚ) < 100)]
  have hhundredth : |confidence / 100| = |confidence| / 100 := by
    rw [abs_div, abs_of_pos (by norm_num : (0 : ℚ) < 100)]
  have hsize : |fraction * 100| ≤ |fraction * 100 - confidence| + |confidence| := by
    simpa using abs_add_le (fraction * 100 - confidence) confidence
  have htriangle := abs_sub_le (single (fraction * 100)) (fraction * 100) confidence
  have hnonneg := abs_nonneg confidence
  rw [hhundredth] at hfraction
  norm_num at hfraction hpercent hsize ⊢
  linarith

theorem packUnsigned_eq_some {bits : ℕ} {n : ℤ} {packed : ℕ} (h : packUnsigned bits n = some packed) :
    (packed : ℤ) = n := by
  unfold packUnsigned at h
  split at h
  · rename_i hrange
    rw [← Option.some.inj h, Int.toNat_of_nonneg hrange.1]
  · cases h

/-- A packed record holds its fields, the numbers rounded to single precision. -/
theorem packSignal_eq_some {timestamp symbolId action leverage : ℤ} {confidence price sl tp : ℚ}
    {msg : SignalMsg}
    (h : packSignal timestamp symbolId action confidence price sl tp leverage = some msg) :
    (msg.symbolId : ℤ) = symbolId ∧ (msg.action : ℤ) = action ∧ (msg.leverage : ℤ) = leverage ∧
      msg.confidence = single confidence ∧ msg.price = single price ∧ msg.sl = single sl ∧
      msg.tp = single tp := by
  simp only [packSignal, Option.bind_eq_bind, Option.bind_eq_some_iff] at h
  obtain ⟨_, _, _, hid, _, haction, _, hconf, _, hprice, _, hsl, _, htp, _, hlev, hmsg⟩ := h
  cases hmsg
  exact ⟨packUnsigned_eq_some hid, packUnsigned_eq_some haction, packUnsigned_eq_some hlev,
    packSingle_eq_some hconf, packSingle_eq_some hprice, packSingle_eq_some hsl,
    packSingle_eq_some htp⟩

theorem pushSignal_eq_true {capacity : ℕ} {queue queue' : List SignalMsg} {packed : Option SignalMsg}
    (h : pushSignal capacity queue packed = some (true, queue')) :
    ∃ msg, packed = some msg ∧ queue' = queue ++ [msg] := by
  unfold pushSignal at h
  split at h
  · cases h
  · obtain ⟨msg, hmsg, heq⟩ := Option.map_eq_some_iff.mp h
    cases heq
    exact ⟨msg, hmsg, rfl⟩

/-- Everything but the symbol survives the record. -/
theorem reconstructs_iff {signal : StrategySignal} {symbolMap : Dict String ℕ} {nowNs : ℤ}
    {symbols : List String} {msg : SignalMsg}
    (h : packSignalDict signal.toDict symbolMap nowNs = some msg) :
    Reconstructs signal (consumeSignal symbols msg) ↔
      configuredSymbol symbols ((symbolMap.find? signal.symbol).getD 0) = signal.symbol := by
  obtain ⟨hid, haction, hleverage, hconfidence, hprice, hsl, htp⟩ := packSignal_eq_some h
  have hsymbol : (consumeSignal symbols msg).symbol =
      configuredSymbol symbols ((symbolMap.find? signal.symbol).getD 0) :=
    congrArg (configuredSymbol symbols) (Nat.cast_injective hid)
  constructor
  · intro hsame
    exact hsymbol.symm.trans hsame.symbol
  · intro hsame
    constructor
    · exact hsymbol.trans hsame
    · cases hdir : signal.direction with
      | long =>
        have hact : (msg.action : ℤ) = 1 := by
          simpa [StrategySignal.toDict, hdir, directionText] using haction
        have hact' : msg.action = 1 := by omega
        simp [consumeSignal, hact']
      | short =>
        have hact : (msg.action : ℤ) = 2 := by
          simpa [StrategySignal.toDict, hdir, directionText] using haction
        have hact' : msg.action = 2 := by omega
        simp [consumeSignal, hact']
      | neutral =>
        have hact : (msg.action : ℤ) = 0 := by
          simpa [StrategySignal.toDict, hdir, directionText] using haction
        have hact' : msg.action = 0 := by omega
        simp [consumeSignal, hact']
    · exact hleverage
    · exact hprice
    · exact hsl
    · exact htp
    · exact congrArg (fun c => single (c * 100)) hconfidence

/-- A signal that is pushed arrives as the same one, and not under another symbol, exactly when
its symbol has a number or is the one that number zero stands for. -/
theorem reconstructs_iff_mapped {symbols : List String} {symbolMap : Dict String ℕ}
    (hmap : ∀ sym id, symbolMap.find? sym = some id → symbols[id]? = some sym)
    {signal : StrategySignal} {nowNs : ℤ} {capacity : ℕ} {queue queue' : List SignalMsg}
    (hpush : pushSignalDict capacity queue signal.toDict symbolMap nowNs = some (true, queue')) :
    ∃ msg, queue' = queue ++ [msg] ∧ ((Reconstructs signal (consumeSignal symbols msg) ∧
          |(consumeSignal symbols msg).confidence - signal.confidence| ≤
            3 * |signal.confidence| / 2 ^ 24 + 102 / 2 ^ 150 ∧ (symbolMap.find? signal.symbol = none →
            ∀ delivered ∈ deliveredSignal symbols msg, delivered.symbol = signal.symbol)) ↔
        symbolMap.find? signal.symbol ≠ none ∨ configuredSymbol symbols 0 = signal.symbol) := by
  obtain ⟨msg, hpacked, rfl⟩ := pushSignal_eq_true hpush
  refine ⟨msg, rfl, ?_⟩
  constructor
  · rintro ⟨hsame, _, _⟩
    have hsymbol := (reconstructs_iff hpacked).mp hsame
    by_contra hneither
    rw [not_or, not_not] at hneither
    rw [hneither.1] at hsymbol
    exact hneither.2 hsymbol
  · intro hmapped
    have hsymbol : configuredSymbol symbols ((symbolMap.find? signal.symbol).getD 0) =
        signal.symbol := by
      cases hfind : symbolMap.find? signal.symbol with
      | none => exact hmapped.resolve_left (not_not.mpr hfind)
      | some id => simp [configuredSymbol, List.getD, hmap signal.symbol id hfind]
    have hsame : Reconstructs signal (consumeSignal symbols msg) :=
      (reconstructs_iff hpacked).mpr hsymbol
    refine ⟨hsame, ?_, ?_⟩
    · rw [hsame.confidence]
      exact abs_confidence_sub_le signal.confidence
    · intro _ delivered hdelivered
      unfold deliveredSignal at hdelivered
      split at hdelivered
      · cases hdelivered
      · cases hdelivered
        exact hsame.symbol

/-- A signal for a symbol that is neither numbered nor configured is traded as another one. -/
def unmappedSignal : StrategySignal where
  symbol := "DOGE/USDT"
  direction := .long
  confidence := 80
  entryPrice := 1 / 8
  stopLoss := 1 / 16
  takeProfit := 1 / 4
  leverage := 1
  timestamp := 1704067200

theorem delivered_under_other_symbol :
    ∃ queue', pushSignalDict 4 [] unmappedSignal.toDict (Dict.empty.insert "BTC/USDT" 0) 0 =
        some (true, queue') ∧
      queue'.map (fun msg => (deliveredSignal ["BTC/USDT"] msg).map ConsumedSignal.symbol) =
        [some "BTC/USDT"] := by
  have hpushed : (pushSignalDict 4 [] unmappedSignal.toDict (Dict.empty.insert "BTC/USDT" 0) 0).map
      (fun result => (result.1, result.2.map fun msg =>
        (deliveredSignal ["BTC/USDT"] msg).map ConsumedSignal.symbol)) =
      some (true, [some "BTC/USDT"]) := by decide +kernel
  obtain ⟨⟨accepted, queue'⟩, hpush, hresult⟩ := Option.map_eq_some_iff.mp hpushed
  simp only [Prod.mk.injEq] at hresult
  exact ⟨queue', by rw [hpush, hresult.1], hresult.2⟩

/-- A signal for a numbered symbol arrives as it was sent. -/
theorem reconstructs_mappedSignal :
    ∃ queue' msg, pushSignalDict 4 [] { unmappedSignal with symbol := "BTC/USDT" }.toDict
        (Dict.empty.insert "BTC/USDT" 0) 0 = some (true, queue') ∧ queue' = [] ++ [msg] ∧
      Reconstructs { unmappedSignal with symbol := "BTC/USDT" } (consumeSignal ["BTC/USDT"] msg) := by
  have hpushed : (pushSignalDict 4 [] { unmappedSignal with symbol := "BTC/USDT" }.toDict
      (Dict.empty.insert "BTC/USDT" 0) 0).map Prod.fst = some true := by decide +kernel
  obtain ⟨⟨accepted, queue'⟩, hpush, rfl⟩ := Option.map_eq_some_iff.mp hpushed
  have hmap (sym : String) (id : ℕ)
      (h : (Dict.empty.insert "BTC/USDT" 0 : Dict String ℕ).find? sym = some id) :
      ["BTC/USDT"][id]? = some sym := by
    rw [Dict.find?_insert] at h
    split at h
    · rename_i hsym
      rw [← Option.some.inj h, hsym]
      rfl
    · cases h
  obtain ⟨msg, hqueue, hiff⟩ := reconstructs_iff_mapped hmap hpush
  exact ⟨queue', msg, hpush, hqueue, (hiff.mpr (by decide +kernel)).1⟩

end TradingSim.Shm
