import Mathlib.Algebra.BigOperators.Group.List.Lemmas
import Mathlib.Algebra.Order.BigOperators.Group.List
import Mathlib.Algebra.Order.Field.Basic
import Mathlib.Data.List.Sort
import Mathlib.Data.Real.Basic
import Mathlib.Tactic.Linarith
import Mathlib.Tactic.Positivity
import TradingSim.Foundations.FieldNumerals
import TradingSim.Foundations.Loops
import TradingSim.Foundations.MachineIntegers

/-!
# Order book imbalance

The imbalance of a book is the difference of the quantities of its first levels over their sum. The signal
engine and the pressure model compute several of them in one pass over the levels, which keeps the running
sums at the depths that were asked for and fills in what a short book did not reach. The pressure model
measures nothing of a book whose middle is not positive.
-/

namespace TradingSim.Bot

open Foundations

/-- A level of a side of a book. -/
structure DepthLevel (F : Type*) where
  price : F
  quantity : F

/-- What the imbalances read of an order book, best levels first. -/
structure DepthBook (F : Type*) where
  bids : List (DepthLevel F)
  asks : List (DepthLevel F)

/-- A trade of the tape. -/
structure TradeTick (F : Type*) where
  buyerInitiated : Bool
  quantity : F

structure ObiResult (F : Type*) where
  obi5 : F
  obi10 : F
  obiWeighted : F

inductive SpreadRegime
  | tight
  | normal
  | wide
  deriving DecidableEq

structure PressureResult (F : Type*) where
  obi5 : F
  obi10 : F
  obi20 : F
  obiWeighted : F
  tradeImbalance : F
  toxicScore : F
  micropriceDev : F
  queuePosBid : F
  queuePosAsk : F
  predictedImpact : F
  hasTradeFlow : Bool
  spreadRegime : SpreadRegime
  spreadBps : F

/-- `PressureModel::Params`, as far as it is read. -/
structure PressureParams (F : Type*) where
  obiLevels5 : ℤ
  obiLevels10 : ℤ
  obiLevels20 : ℤ
  toxicSizeThreshold : F
  micropriceEnabled : Bool

namespace DepthBook

variable {F : Type*} {ob : DepthBook F}

/-- The depth of the shorter side, as a 32-bit integer. -/
def depth (ob : DepthBook F) : ℤ := wrap32 (min ob.bids.length ob.asks.length : ℕ)

/-- The quantities of the levels that a loop goes through. -/
def levels (ob : DepthBook F) (n : ℤ) : List (F × F) :=
  ((ob.bids.zip ob.asks).take n.toNat).map fun e => (e.1.quantity, e.2.quantity)

/-- The book with its sides swapped. -/
def swap (ob : DepthBook F) : DepthBook F := ⟨ob.asks, ob.bids⟩

theorem depth_le (ob : DepthBook F) : ob.depth ≤ min ob.bids.length ob.asks.length := by
  have hle := wrap32_le (n := (min ob.bids.length ob.asks.length : ℕ)) (by positivity)
  exact_mod_cast hle

theorem length_levels {n : ℤ} (hn : n ≤ ob.depth) : (ob.levels n).length = n.toNat := by
  have hdepth := ob.depth_le
  simp only [levels, List.length_map, List.length_take, List.length_zip]
  omega

theorem take_levels {k n : ℤ} (hk : k ≤ n) : (ob.levels n).take k.toNat = ob.levels k := by
  rw [levels, levels, ← List.map_take, List.take_take, min_eq_left (Int.toNat_le_toNat hk)]

@[simp] theorem depth_swap (ob : DepthBook F) : ob.swap.depth = ob.depth := by
  simp only [depth, swap, min_comm]

theorem levels_swap (ob : DepthBook F) (n : ℤ) : ob.swap.levels n = (ob.levels n).map Prod.swap := by
  have hzip : ob.swap.bids.zip ob.swap.asks = (ob.bids.zip ob.asks).map Prod.swap :=
    (List.zip_swap ob.bids ob.asks).symm
  rw [levels, levels, hzip, ← List.map_take, List.map_map, List.map_map]
  rfl

end DepthBook

section Definitions

variable {F : Type*} [Field F]

namespace DepthBook

def bestBid (ob : DepthBook F) : F := (ob.bids.head?.map DepthLevel.price).getD 0

def bestAsk (ob : DepthBook F) : F := (ob.asks.head?.map DepthLevel.price).getD 0

def spread (ob : DepthBook F) : F := ob.bestAsk - ob.bestBid

def midPrice (ob : DepthBook F) : F := (ob.bestBid + ob.bestAsk) / 2

end DepthBook

variable [LinearOrder F]

/-- The bound below which a sum counts as zero. -/
def tiny : F := 1 / 10 ^ 12

/-- The difference of two volumes over their sum, zero unless the sum exceeds a bound. -/
def imbalance (eps bid ask : F) : F := if eps < bid + ask then (bid - ask) / (bid + ask) else 0

/-- Add the quantities of a level to the volumes. -/
def addLevel (volumes : F × F) (level : F × F) : F × F :=
  (volumes.1 + level.1, volumes.2 + level.2)

/-- Add the quantities of a level to the volumes, weighted by the distance from the best one. -/
def addWeighted (volumes : F × F) (i : ℕ) (level : F × F) : F × F :=
  (volumes.1 + level.1 * (1 / (1 + i)), volumes.2 + level.2 * (1 / (1 + i)))

def computeObiLevels (ob : DepthBook F) (levels : ℤ) : F :=
  let volumes := (ob.levels (min levels ob.depth)).foldl addLevel (0, 0)
  imbalance tiny volumes.1 volumes.2

def computeWeightedObi (ob : DepthBook F) (levels : ℤ) : F :=
  let weighted := foldIdx addWeighted (0, 0) (ob.levels (min levels ob.depth))
  imbalance tiny weighted.1 weighted.2

/-- The variables of the loop of `compute_obi_all`. -/
structure ObiLoop (F : Type*) where
  volumes : F × F
  weighted : F × F
  obi5 : F
  obi10 : F

/-- One turn of the loop of `compute_obi_all`. -/
def ObiLoop.turn (l5 l10 : ℤ) (s : ObiLoop F) (i : ℕ) (level : F × F) : ObiLoop F :=
  let volumes := addLevel s.volumes level
  { volumes := volumes
    weighted := addWeighted s.weighted i level
    obi5 := if (i : ℤ) = l5 - 1 then imbalance tiny volumes.1 volumes.2 else s.obi5
    obi10 := if (i : ℤ) = l10 - 1 then imbalance tiny volumes.1 volumes.2 else s.obi10 }

def computeObiAll (ob : DepthBook F) (l5 l10 l20 : ℤ) : ObiResult F :=
  let n := min l20 ob.depth
  let s := foldIdx (ObiLoop.turn l5 l10) ⟨(0, 0), (0, 0), 0, 0⟩ (ob.levels n)
  let obiW := imbalance tiny s.weighted.1 s.weighted.2
  let v := imbalance tiny s.volumes.1 s.volumes.2
  if n < l5 then ⟨v, v, obiW⟩
  else if n < l10 then ⟨s.obi5, v, obiW⟩
  else ⟨s.obi5, s.obi10, obiW⟩

namespace PressureModel

def computeObi (ob : DepthBook F) (levels : ℤ) : F :=
  let volumes := (ob.levels (min levels ob.depth)).foldl addLevel (0, 0)
  imbalance 0 volumes.1 volumes.2

def computeWeightedObi (ob : DepthBook F) (levels : ℤ) : F :=
  let seen := ob.levels (min levels ob.depth)
  let weighted := foldIdx addWeighted (0, 0) seen
  let totalW := foldIdx (fun (totalW : F) (i : ℕ) _ => totalW + 1 / (1 + i)) 0 seen
  if totalW = 0 then 0 else imbalance 0 weighted.1 weighted.2

/-- `compute_trade_imbalance`. A tape that is null is empty. -/
def computeTradeImbalance (trades : List (TradeTick F)) : F :=
  let buyVol := ((trades.filter TradeTick.buyerInitiated).map TradeTick.quantity).sum
  let sellVol := ((trades.filter fun t => !t.buyerInitiated).map TradeTick.quantity).sum
  imbalance 0 buyVol sellVol

/-- `compute_toxicity`: how many of the first 64 trades, and how much of their volume, exceed a multiple
of their median. -/
def computeToxicity (p : PressureParams F) (trades : List (TradeTick F)) : F :=
  if trades.length < 3 then 0
  else
    let sizes := (trades.take 64).map TradeTick.quantity
    let median := (sizes.insertionSort (· ≤ ·)).getD (sizes.length / 2) 0
    if median ≤ 0 then 0
    else
      let toxic := sizes.filter (median * p.toxicSizeThreshold < ·)
      let toxicRatio := (toxic.length : F) / sizes.length
      let sizeRatio := if 0 < sizes.sum then toxic.sum / sizes.sum else 0
      min 1 (toxicRatio * (5 / 10) + sizeRatio * (5 / 10))

def computeMicropriceDev (ob : DepthBook F) : F :=
  match ob.bids, ob.asks with
  | bid :: _, ask :: _ =>
    let totalVol := bid.quantity + ask.quantity
    if totalVol ≤ 0 then 0
    else
      let microprice := (bid.price * ask.quantity + ask.price * bid.quantity) / totalVol
      let mid := (bid.price + ask.price) / 2
      if 0 < mid then (microprice - mid) / mid * 10000 else 0
  | _, _ => 0

/-- `estimate_queue_position` of a side of a book that has both. -/
def estimateQueuePosition (side : List (DepthLevel F)) : F :=
  let bestSize := (side.head?.map DepthLevel.quantity).getD 0
  let totalSize := ((side.take 10).map DepthLevel.quantity).sum
  if totalSize ≤ 0 then 1 else min 1 (bestSize / totalSize)

/-- The result that nothing was measured for. -/
def unmeasured : PressureResult F where
  obi5 := 0
  obi10 := 0
  obi20 := 0
  obiWeighted := 0
  tradeImbalance := 0
  toxicScore := 0
  micropriceDev := 0
  queuePosBid := 0
  queuePosAsk := 0
  predictedImpact := 0
  hasTradeFlow := false
  spreadRegime := .normal
  spreadBps := 0

/-- The variables of the loop of `analyze`. -/
structure Loop (F : Type*) where
  volumes : F × F
  obi5 : F
  obi10 : F
  obi20 : F

/-- One turn of the loop of `analyze`. -/
def Loop.turn (p : PressureParams F) (s : Loop F) (i : ℕ) (level : F × F) : Loop F :=
  let volumes := addLevel s.volumes level
  { volumes := volumes
    obi5 := if (i : ℤ) = p.obiLevels5 - 1 then imbalance 0 volumes.1 volumes.2 else s.obi5
    obi10 := if (i : ℤ) = p.obiLevels10 - 1 then imbalance 0 volumes.1 volumes.2 else s.obi10
    obi20 := if (i : ℤ) = p.obiLevels20 - 1 then imbalance 0 volumes.1 volumes.2 else s.obi20 }

/-- The imbalances at the three depths of `analyze`. -/
def imbalances (p : PressureParams F) (ob : DepthBook F) : F × F × F :=
  let n := min p.obiLevels20 ob.depth
  let s := foldIdx (Loop.turn p) ⟨(0, 0), 0, 0, 0⟩ (ob.levels n)
  let v := imbalance 0 s.volumes.1 s.volumes.2
  if n < p.obiLevels5 then (v, v, v)
  else if n < p.obiLevels10 then (s.obi5, v, v)
  else if n < p.obiLevels20 then (s.obi5, s.obi10, v)
  else (s.obi5, s.obi10, s.obi20)

def analyze (p : PressureParams F) (ob : DepthBook F) (trades : List (TradeTick F)) : PressureResult F :=
  if ob.bids.isEmpty ∨ ob.asks.isEmpty then unmeasured
  else if ob.midPrice ≤ 0 then unmeasured
  else
    let spreadBps := ob.spread / ob.midPrice * 10000
    let obis := imbalances p ob
    let obiWeighted := computeWeightedObi ob p.obiLevels20
    let tradeImbalance := computeTradeImbalance trades
    let micropriceDev := if p.micropriceEnabled then computeMicropriceDev ob else 0
    { obi5 := obis.1
      obi10 := obis.2.1
      obi20 := obis.2.2
      obiWeighted := obiWeighted
      tradeImbalance := tradeImbalance
      toxicScore := computeToxicity p trades
      micropriceDev := micropriceDev
      queuePosBid := estimateQueuePosition ob.bids
      queuePosAsk := estimateQueuePosition ob.asks
      predictedImpact := obiWeighted * 2 + tradeImbalance * (15 / 10) + micropriceDev * (5 / 10)
      hasTradeFlow := !trades.isEmpty
      spreadRegime := if spreadBps < 1 then .tight else if 5 < spreadBps then .wide else .normal
      spreadBps := spreadBps }

end PressureModel

end Definitions

section Loops

variable {F : Type*} [Field F] {ob : DepthBook F}

/-- The volumes that a loop keeps at one of its turns are those of a loop that ends there. -/
theorem snapshot_levels {S : Type*} {step : S → ℕ → F × F → S} (volumes : S → F × F) (keep : S → F)
    (value : F × F → F) {l n : ℤ} (hvolumes : ∀ s i level, volumes (step s i level) =
      addLevel (volumes s) level) (hkeep : ∀ s i level, keep (step s i level) =
      if (i : ℤ) = l - 1 then value (addLevel (volumes s) level) else keep s)
    (hl : 1 ≤ l) (hn : l ≤ n) (hdepth : n ≤ ob.depth) (s : S) :
    keep (foldIdx step s (ob.levels n)) = value ((ob.levels l).foldl addLevel (volumes s)) := by
  have hindex (i : ℕ) : (i : ℤ) = l - 1 ↔ i = l.toNat - 1 := by omega
  have hkeep' : ∀ s i level, keep (step s i level) =
      if i = l.toNat - 1 then value (volumes (step s i level)) else keep s := by
    intro s i level
    rw [hkeep, hvolumes, if_congr (hindex i) rfl rfl]
  have hlast := foldIdx_snapshot keep (fun s => value (volumes s)) (l.toNat - 1) hkeep' s (ob.levels n)
  have hreached : l.toNat - 1 < (ob.levels n).length := by
    rw [DepthBook.length_levels hdepth]
    omega
  rw [hlast, if_pos hreached, show l.toNat - 1 + 1 = l.toNat by omega, DepthBook.take_levels hn,
    foldIdx_read_foldl volumes hvolumes]

theorem foldIdx_swap (add : F × F → ℕ → F × F → F × F)
    (hadd : ∀ v i level, add v.swap i level.swap = (add v i level).swap) (levels : List (F × F)) :
    foldIdx add (0, 0) (levels.map Prod.swap) = (foldIdx add (0, 0) levels).swap := by
  induction levels using List.reverseRecOn with
  | nil => rfl
  | append_singleton rest e ih =>
    rw [List.map_append, List.map_singleton, foldIdx_concat, foldIdx_concat, ih, hadd, List.length_map]

theorem foldl_addLevel (levels : List (F × F)) :
    levels.foldl addLevel (0, 0) = foldIdx (fun v _ level => addLevel v level) (0, 0) levels :=
  (foldIdx_read_foldl id (fun _ _ _ => rfl) _ levels).symm

theorem foldl_addLevel_swap (levels : List (F × F)) :
    (levels.map Prod.swap).foldl addLevel (0, 0) = (levels.foldl addLevel (0, 0)).swap := by
  rw [foldl_addLevel, foldl_addLevel]
  exact foldIdx_swap (fun v _ level => addLevel v level) (fun _ _ _ => rfl) levels

variable [LinearOrder F]

theorem foldIdx_obiLoop (l5 l10 : ℤ) (levels : List (F × F)) :
    (foldIdx (ObiLoop.turn l5 l10) ⟨(0, 0), (0, 0), 0, 0⟩ levels).volumes = levels.foldl addLevel (0, 0) ∧
      (foldIdx (ObiLoop.turn l5 l10) ⟨(0, 0), (0, 0), 0, 0⟩ levels).weighted =
        foldIdx addWeighted (0, 0) levels := by
  exact ⟨foldIdx_read_foldl ObiLoop.volumes (fun _ _ _ => rfl) _ levels,
    foldIdx_read ObiLoop.weighted (fun _ _ _ => rfl) _ levels⟩

theorem obi5_foldIdx {l5 l10 n : ℤ} (h5 : 1 ≤ l5) (hn : l5 ≤ n) (hdepth : n ≤ ob.depth) :
    (foldIdx (ObiLoop.turn l5 l10) ⟨(0, 0), (0, 0), 0, 0⟩ (ob.levels n)).obi5 =
      imbalance tiny ((ob.levels l5).foldl addLevel (0, 0)).1 ((ob.levels l5).foldl addLevel (0, 0)).2 :=
  snapshot_levels ObiLoop.volumes ObiLoop.obi5 (fun v => imbalance tiny v.1 v.2) (fun _ _ _ => rfl)
    (fun _ _ _ => rfl) h5 hn hdepth ⟨(0, 0), (0, 0), 0, 0⟩

theorem obi10_foldIdx {l5 l10 n : ℤ} (h10 : 1 ≤ l10) (hn : l10 ≤ n) (hdepth : n ≤ ob.depth) :
    (foldIdx (ObiLoop.turn l5 l10) ⟨(0, 0), (0, 0), 0, 0⟩ (ob.levels n)).obi10 =
      imbalance tiny ((ob.levels l10).foldl addLevel (0, 0)).1 ((ob.levels l10).foldl addLevel (0, 0)).2 :=
  snapshot_levels ObiLoop.volumes ObiLoop.obi10 (fun v => imbalance tiny v.1 v.2) (fun _ _ _ => rfl)
    (fun _ _ _ => rfl) h10 hn hdepth ⟨(0, 0), (0, 0), 0, 0⟩

/-- **The fused loop computes the imbalances of three separate ones.** -/
theorem computeObiAll_eq (ob : DepthBook F) {l5 l10 l20 : ℤ} (h5 : 1 ≤ l5) (h10 : l5 ≤ l10)
    (h20 : l10 ≤ l20) : computeObiAll ob l5 l10 l20 =
      ⟨computeObiLevels ob l5, computeObiLevels ob l10, computeWeightedObi ob l20⟩ := by
  obtain ⟨hvolumes, hweighted⟩ := foldIdx_obiLoop l5 l10 (ob.levels (min l20 ob.depth))
  have hdepth : min l20 ob.depth ≤ ob.depth := min_le_right _ _
  unfold computeObiAll computeObiLevels computeWeightedObi
  dsimp only
  rw [hvolumes, hweighted]
  split_ifs with hshort hshort'
  · have hn5 : min l5 ob.depth = min l20 ob.depth := by omega
    have hn10 : min l10 ob.depth = min l20 ob.depth := by omega
    rw [hn5, hn10]
  · have hn5 : min l5 ob.depth = l5 := by omega
    have hn10 : min l10 ob.depth = min l20 ob.depth := by omega
    rw [obi5_foldIdx h5 (by omega) hdepth, hn5, hn10]
  · have hn5 : min l5 ob.depth = l5 := by omega
    have hn10 : min l10 ob.depth = l10 := by omega
    rw [obi5_foldIdx h5 (by omega) hdepth, obi10_foldIdx (h5.trans h10) (by omega) hdepth, hn5, hn10]

namespace PressureModel

variable {p : PressureParams F}

theorem volumes_foldIdx (p : PressureParams F) (levels : List (F × F)) :
    (foldIdx (Loop.turn p) ⟨(0, 0), 0, 0, 0⟩ levels).volumes = levels.foldl addLevel (0, 0) :=
  foldIdx_read_foldl Loop.volumes (fun _ _ _ => rfl) _ levels

theorem obi5_foldIdx {n : ℤ} (h5 : 1 ≤ p.obiLevels5) (hn : p.obiLevels5 ≤ n) (hdepth : n ≤ ob.depth) :
    (foldIdx (Loop.turn p) ⟨(0, 0), 0, 0, 0⟩ (ob.levels n)).obi5 =
      imbalance 0 ((ob.levels p.obiLevels5).foldl addLevel (0, 0)).1
        ((ob.levels p.obiLevels5).foldl addLevel (0, 0)).2 :=
  snapshot_levels Loop.volumes Loop.obi5 (fun v => imbalance 0 v.1 v.2) (fun _ _ _ => rfl)
    (fun _ _ _ => rfl) h5 hn hdepth ⟨(0, 0), 0, 0, 0⟩

theorem obi10_foldIdx {n : ℤ} (h10 : 1 ≤ p.obiLevels10) (hn : p.obiLevels10 ≤ n) (hdepth : n ≤ ob.depth) :
    (foldIdx (Loop.turn p) ⟨(0, 0), 0, 0, 0⟩ (ob.levels n)).obi10 =
      imbalance 0 ((ob.levels p.obiLevels10).foldl addLevel (0, 0)).1
        ((ob.levels p.obiLevels10).foldl addLevel (0, 0)).2 :=
  snapshot_levels Loop.volumes Loop.obi10 (fun v => imbalance 0 v.1 v.2) (fun _ _ _ => rfl)
    (fun _ _ _ => rfl) h10 hn hdepth ⟨(0, 0), 0, 0, 0⟩

theorem obi20_foldIdx {n : ℤ} (h20 : 1 ≤ p.obiLevels20) (hn : p.obiLevels20 ≤ n) (hdepth : n ≤ ob.depth) :
    (foldIdx (Loop.turn p) ⟨(0, 0), 0, 0, 0⟩ (ob.levels n)).obi20 =
      imbalance 0 ((ob.levels p.obiLevels20).foldl addLevel (0, 0)).1
        ((ob.levels p.obiLevels20).foldl addLevel (0, 0)).2 :=
  snapshot_levels Loop.volumes Loop.obi20 (fun v => imbalance 0 v.1 v.2) (fun _ _ _ => rfl)
    (fun _ _ _ => rfl) h20 hn hdepth ⟨(0, 0), 0, 0, 0⟩

/-- The loop of the pressure model computes the imbalances of three separate ones. -/
theorem imbalances_eq (ob : DepthBook F) (h5 : 1 ≤ p.obiLevels5) (h10 : p.obiLevels5 ≤ p.obiLevels10)
    (h20 : p.obiLevels10 ≤ p.obiLevels20) : imbalances p ob =
      (computeObi ob p.obiLevels5, computeObi ob p.obiLevels10, computeObi ob p.obiLevels20) := by
  have hdepth : min p.obiLevels20 ob.depth ≤ ob.depth := min_le_right _ _
  unfold imbalances computeObi
  dsimp only
  rw [volumes_foldIdx]
  split_ifs with hshort hshort' hshort''
  · have hn5 : min p.obiLevels5 ob.depth = min p.obiLevels20 ob.depth := by omega
    have hn10 : min p.obiLevels10 ob.depth = min p.obiLevels20 ob.depth := by omega
    rw [hn5, hn10]
  · have hn5 : min p.obiLevels5 ob.depth = p.obiLevels5 := by omega
    have hn10 : min p.obiLevels10 ob.depth = min p.obiLevels20 ob.depth := by omega
    rw [obi5_foldIdx h5 (by omega) hdepth, hn5, hn10]
  · have hn5 : min p.obiLevels5 ob.depth = p.obiLevels5 := by omega
    have hn10 : min p.obiLevels10 ob.depth = p.obiLevels10 := by omega
    rw [obi5_foldIdx h5 (by omega) hdepth, obi10_foldIdx (h5.trans h10) (by omega) hdepth, hn5, hn10]
  · have hn5 : min p.obiLevels5 ob.depth = p.obiLevels5 := by omega
    have hn10 : min p.obiLevels10 ob.depth = p.obiLevels10 := by omega
    have hn20 : min p.obiLevels20 ob.depth = p.obiLevels20 := by omega
    rw [obi5_foldIdx h5 (by omega) hdepth, obi10_foldIdx (h5.trans h10) (by omega) hdepth,
      obi20_foldIdx ((h5.trans h10).trans h20) (by omega) hdepth, hn5, hn10, hn20]

/-- A book without one of its sides has no imbalance. -/
theorem computeObi_of_isEmpty (h : ob.bids.isEmpty ∨ ob.asks.isEmpty) (n : ℤ) : computeObi ob n = 0 := by
  have hlevels : ob.levels (min n ob.depth) = [] := by
    rcases h with h | h
    · simp [DepthBook.levels, List.isEmpty_iff.mp h]
    · simp [DepthBook.levels, List.isEmpty_iff.mp h]
  simp [computeObi, hlevels, imbalance]

/-- The pressure model returns the imbalances of a book with a positive middle. -/
theorem obi_analyze (trades : List (TradeTick F)) (h5 : 1 ≤ p.obiLevels5)
    (h10 : p.obiLevels5 ≤ p.obiLevels10) (h20 : p.obiLevels10 ≤ p.obiLevels20)
    (hmid : ob.bids = [] ∨ ob.asks = [] ∨ 0 < ob.midPrice) :
    (analyze p ob trades).obi5 = computeObi ob p.obiLevels5 ∧
      (analyze p ob trades).obi10 = computeObi ob p.obiLevels10 ∧
      (analyze p ob trades).obi20 = computeObi ob p.obiLevels20 := by
  by_cases hempty : ob.bids.isEmpty ∨ ob.asks.isEmpty
  · have hzero := computeObi_of_isEmpty hempty
    rw [hzero, hzero, hzero, analyze, if_pos hempty]
    exact ⟨rfl, rfl, rfl⟩
  · have hpositive : ¬ ob.midPrice ≤ 0 := by
      rw [not_or, List.isEmpty_iff, List.isEmpty_iff] at hempty
      exact not_le.mpr ((hmid.resolve_left hempty.1).resolve_left hempty.2)
    rw [analyze, if_neg hempty, if_neg hpositive]
    simp only [imbalances_eq ob h5 h10 h20, and_self]

end PressureModel

/-! ### Signs and bounds -/

theorem imbalance_comm (eps bid ask : F) : imbalance eps ask bid = -imbalance eps bid ask := by
  unfold imbalance
  rw [add_comm ask bid]
  split_ifs
  · rw [← neg_sub, neg_div]
  · rw [neg_zero]

/-- A book whose quantities are not negative. -/
def DepthBook.Stocked (ob : DepthBook F) : Prop :=
  (∀ level ∈ ob.bids, 0 ≤ level.quantity) ∧ ∀ level ∈ ob.asks, 0 ≤ level.quantity

theorem DepthBook.Stocked.levels (h : ob.Stocked) {n : ℤ} {e : F × F} (he : e ∈ ob.levels n) :
    0 ≤ e.1 ∧ 0 ≤ e.2 := by
  obtain ⟨⟨bid, ask⟩, hmem, rfl⟩ := List.mem_map.mp he
  have hzip := List.of_mem_zip (List.mem_of_mem_take hmem)
  exact ⟨h.1 bid hzip.1, h.2 ask hzip.2⟩

/-- Volumes stay at or above zero as levels are added, weighted or not. -/
theorem foldIdx_nonneg {add : F × F → ℕ → F × F → F × F}
    (hadd : ∀ v i level, 0 ≤ v.1 ∧ 0 ≤ v.2 → 0 ≤ level.1 ∧ 0 ≤ level.2 →
      0 ≤ (add v i level).1 ∧ 0 ≤ (add v i level).2)
    (levels : List (F × F)) (hlevels : ∀ e ∈ levels, 0 ≤ e.1 ∧ 0 ≤ e.2) :
    0 ≤ (foldIdx add (0, 0) levels).1 ∧ 0 ≤ (foldIdx add (0, 0) levels).2 := by
  induction levels using List.reverseRecOn with
  | nil => exact ⟨le_rfl, le_rfl⟩
  | append_singleton rest e ih =>
    rw [foldIdx_concat]
    exact hadd _ _ _ (ih fun e' he' => hlevels e' (List.mem_append_left _ he'))
      (hlevels e (List.mem_append_right _ (List.mem_singleton_self e)))

theorem computeObiLevels_swap (ob : DepthBook F) (n : ℤ) :
    computeObiLevels ob.swap n = -computeObiLevels ob n := by
  unfold computeObiLevels
  dsimp only
  rw [DepthBook.depth_swap, DepthBook.levels_swap, foldl_addLevel_swap, Prod.fst_swap, Prod.snd_swap,
    imbalance_comm]

theorem computeWeightedObi_swap (ob : DepthBook F) (n : ℤ) :
    computeWeightedObi ob.swap n = -computeWeightedObi ob n := by
  unfold computeWeightedObi
  dsimp only
  rw [DepthBook.depth_swap, DepthBook.levels_swap, foldIdx_swap addWeighted fun _ _ _ => rfl,
    Prod.fst_swap, Prod.snd_swap, imbalance_comm]

theorem PressureModel.computeObi_swap (ob : DepthBook F) (n : ℤ) :
    computeObi ob.swap n = -computeObi ob n := by
  unfold computeObi
  dsimp only
  rw [DepthBook.depth_swap, DepthBook.levels_swap, foldl_addLevel_swap, Prod.fst_swap, Prod.snd_swap,
    imbalance_comm]

section Ordered

variable [IsStrictOrderedRing F]

/-- Volumes that are not negative differ by at most their sum. -/
theorem abs_imbalance_le_one {eps bid ask : F} (heps : 0 ≤ eps) (hbid : 0 ≤ bid) (hask : 0 ≤ ask) :
    |imbalance eps bid ask| ≤ 1 := by
  unfold imbalance
  split_ifs with htotal
  · have hpositive : 0 < bid + ask := heps.trans_lt htotal
    rw [abs_div, abs_of_pos hpositive, div_le_one hpositive, abs_le]
    exact ⟨by linarith, by linarith⟩
  · simp

theorem tiny_pos : 0 < (tiny : F) := by
  unfold tiny
  positivity

/-- Imbalances of stocked books, weighted or not, lie between minus one and one. -/
theorem abs_imbalance_foldIdx_le_one (h : ob.Stocked) {eps : F} (heps : 0 ≤ eps) (n : ℤ)
    {add : F × F → ℕ → F × F → F × F} (hadd : ∀ v i level, 0 ≤ v.1 ∧ 0 ≤ v.2 → 0 ≤ level.1 ∧ 0 ≤ level.2 →
      0 ≤ (add v i level).1 ∧ 0 ≤ (add v i level).2) :
    |imbalance eps (foldIdx add (0, 0) (ob.levels n)).1 (foldIdx add (0, 0) (ob.levels n)).2| ≤ 1 := by
  obtain ⟨hbid, hask⟩ := foldIdx_nonneg hadd (ob.levels n) fun e he => h.levels he
  exact abs_imbalance_le_one heps hbid hask

theorem addLevel_nonneg (v : F × F) (_ : ℕ) (level : F × F) (hv : 0 ≤ v.1 ∧ 0 ≤ v.2)
    (hlevel : 0 ≤ level.1 ∧ 0 ≤ level.2) : 0 ≤ (addLevel v level).1 ∧ 0 ≤ (addLevel v level).2 :=
  ⟨add_nonneg hv.1 hlevel.1, add_nonneg hv.2 hlevel.2⟩

theorem addWeighted_nonneg (v : F × F) (i : ℕ) (level : F × F) (hv : 0 ≤ v.1 ∧ 0 ≤ v.2)
    (hlevel : 0 ≤ level.1 ∧ 0 ≤ level.2) :
    0 ≤ (addWeighted v i level).1 ∧ 0 ≤ (addWeighted v i level).2 := by
  have hweight : (0 : F) ≤ 1 / (1 + i) := by positivity
  exact ⟨add_nonneg hv.1 (mul_nonneg hlevel.1 hweight), add_nonneg hv.2 (mul_nonneg hlevel.2 hweight)⟩

/-- **The fused imbalances are the plain ones**, those of the pressure model for a book with a positive
middle or without one of its sides; all lie between minus one and one, and swapping the sides negates
them. -/
theorem fused_imbalances (ob : DepthBook F) (hquantities : ob.Stocked) {l5 l10 l20 : ℤ} (h5 : 1 ≤ l5)
    (h10 : l5 ≤ l10) (h20 : l10 ≤ l20) : computeObiAll ob l5 l10 l20 =
        ⟨computeObiLevels ob l5, computeObiLevels ob l10, computeWeightedObi ob l20⟩ ∧
      (∀ (p : PressureParams F) (trades : List (TradeTick F)), p.obiLevels5 = l5 → p.obiLevels10 = l10 →
        p.obiLevels20 = l20 → ob.bids = [] ∨ ob.asks = [] ∨ 0 < ob.midPrice →
          (PressureModel.analyze p ob trades).obi5 = PressureModel.computeObi ob l5 ∧
          (PressureModel.analyze p ob trades).obi10 = PressureModel.computeObi ob l10 ∧
          (PressureModel.analyze p ob trades).obi20 = PressureModel.computeObi ob l20) ∧
      (∀ n, |computeObiLevels ob n| ≤ 1 ∧ |computeWeightedObi ob n| ≤ 1 ∧
        |PressureModel.computeObi ob n| ≤ 1) ∧ ∀ n, computeObiLevels ob.swap n = -computeObiLevels ob n ∧
        computeWeightedObi ob.swap n = -computeWeightedObi ob n ∧
        PressureModel.computeObi ob.swap n = -PressureModel.computeObi ob n := by
  refine ⟨computeObiAll_eq ob h5 h10 h20, ?_, fun n => ⟨?_, ?_, ?_⟩, fun n =>
    ⟨computeObiLevels_swap ob n, computeWeightedObi_swap ob n, PressureModel.computeObi_swap ob n⟩⟩
  · rintro p trades rfl rfl rfl hmid
    exact PressureModel.obi_analyze trades h5 h10 h20 hmid
  · rw [computeObiLevels, foldl_addLevel]
    exact abs_imbalance_foldIdx_le_one hquantities tiny_pos.le _ addLevel_nonneg
  · exact abs_imbalance_foldIdx_le_one hquantities tiny_pos.le _ addWeighted_nonneg
  · rw [PressureModel.computeObi, foldl_addLevel]
    exact abs_imbalance_foldIdx_le_one hquantities le_rfl _ addLevel_nonneg

end Ordered

end Loops

/-- The default parameters of the pressure model. -/
def defaultPressure {F : Type*} [Field F] : PressureParams F where
  obiLevels5 := 5
  obiLevels10 := 10
  obiLevels20 := 20
  toxicSizeThreshold := 5
  micropriceEnabled := true

/-- A book that is shorter on one side, and has fewer levels than the first depth. -/
def shortBook : DepthBook ℚ where
  bids := [⟨100, 3⟩, ⟨99, 1⟩]
  asks := [⟨101, 1⟩, ⟨102, 1⟩, ⟨103, 5⟩]

theorem fused_imbalances_short : (computeObiAll shortBook 5 10 20).obi5 = 1 / 3 ∧
      (PressureModel.analyze defaultPressure shortBook []).obi20 = 1 / 3 ∧
      PressureModel.computeObi shortBook.swap 20 = -(1 / 3) := by
  have hstocked : shortBook.Stocked := ⟨by decide +kernel, by decide +kernel⟩
  have hmid : 0 < shortBook.midPrice := by decide +kernel
  have hplain : PressureModel.computeObi shortBook 20 = 1 / 3 := by decide +kernel
  obtain ⟨hfused, hpressure, -, hswap⟩ := fused_imbalances shortBook hstocked
    (by decide : (1 : ℤ) ≤ 5) (by decide : (5 : ℤ) ≤ 10) (by decide : (10 : ℤ) ≤ 20)
  refine ⟨?_, ?_, ?_⟩
  · rw [hfused]
    decide +kernel
  · rw [(hpressure defaultPressure [] rfl rfl rfl (.inr (.inr hmid))).2.2, hplain]
  · rw [(hswap 20).2.2, hplain]

/-- A book with quantities at prices of zero has an imbalance, but the pressure model returns none. -/
theorem not_obi_analyze_worthless :
    ¬ ∀ (ob : DepthBook ℝ) (p : PressureParams ℝ), ob.Stocked → 1 ≤ p.obiLevels5 →
      p.obiLevels5 ≤ p.obiLevels10 → p.obiLevels10 ≤ p.obiLevels20 →
        (PressureModel.analyze p ob []).obi5 = PressureModel.computeObi ob p.obiLevels5 := by
  intro h
  have hone : wrap32 1 = 1 := wrap32_of_lt (by norm_num) (by norm_num)
  have hobi := h ⟨[⟨0, 3⟩], [⟨0, 1⟩]⟩ defaultPressure (by simp [DepthBook.Stocked])
    (by simp [defaultPressure]) (by simp [defaultPressure]) (by simp [defaultPressure])
  simp [PressureModel.analyze, PressureModel.unmeasured, PressureModel.computeObi, DepthBook.midPrice,
    DepthBook.bestBid, DepthBook.bestAsk, DepthBook.levels, DepthBook.depth, defaultPressure, hone,
    imbalance, addLevel] at hobi
  norm_num at hobi

end TradingSim.Bot
