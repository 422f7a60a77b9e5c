import Mathlib.Algebra.Order.Field.Basic
import Mathlib.Tactic.Ring
import TradingSim.Bot.MarketMaking

/-!
# When the quotes are well formed

The comments on the configuration call its smallest and its largest spread fractions of the price, but the
quotes take them as amounts. So the spread of a quote is within the bounds only at some prices; and neither
the prices of a quote nor its sizes are kept positive. The condition for a well-formed quote is exact.
-/

namespace TradingSim.Bot.MarketMaking

/-- A configuration with positive parameters and fractions for its spreads. -/
structure MarketMakingConfig.Valid (config : MarketMakingConfig) : Prop where
  gamma_pos : 0 < config.gamma
  k_pos : 0 < config.k
  horizon_pos : 0 < config.T
  maxInventory_pos : 0 < config.maxInventory
  inventorySkew_nonneg : 0 ≤ config.inventorySkew
  minSpread_pos : 0 < config.minSpread
  minSpread_le : config.minSpread ≤ config.maxSpread
  maxSpread_lt : config.maxSpread < 1

namespace MarketMakingStrategy

/-- A quote with positive prices on the open sides and without negative sizes. If both sides are open, its
spread is positive and within the bounds as a fraction of the price. -/
structure WellFormed (s : MarketMakingStrategy) (mid : ℚ) (quote : Quote) : Prop where
  bid_pos : s.inventory < s.config.maxInventory → 0 < quote.bidPrice
  ask_pos : -s.config.maxInventory < s.inventory → 0 < quote.askPrice
  bidSize_nonneg : 0 ≤ quote.bidSize
  askSize_nonneg : 0 ≤ quote.askSize
  twoSided : s.inventory < s.config.maxInventory → -s.config.maxInventory < s.inventory →
    quote.bidPrice < quote.askPrice ∧
      s.config.minSpread ≤ (quote.askPrice - quote.bidPrice) / mid ∧
        (quote.askPrice - quote.bidPrice) / mid ≤ s.config.maxSpread

section Bounds

/-- The spread of a two-sided quote: what the formula gives, kept between two amounts. -/
def cappedSpread (config : MarketMakingConfig) (spread : ℚ) : ℚ :=
  min (max spread config.minSpread) config.maxSpread

variable {config : MarketMakingConfig} {spread mid price : ℚ}

theorem cappedSpread_pos (h : config.Valid) (spread : ℚ) : 0 < cappedSpread config spread :=
  lt_min (lt_max_of_lt_right h.minSpread_pos) (h.minSpread_pos.trans_le h.minSpread_le)

theorem cappedSpread_le_iff (h : config.Valid) : cappedSpread config spread ≤ config.maxSpread * mid ↔
      1 ≤ mid ∨ spread ≤ config.maxSpread * mid ∧ config.minSpread ≤ config.maxSpread * mid := by
  have hmax : 0 < config.maxSpread := h.minSpread_pos.trans_le h.minSpread_le
  rw [cappedSpread, min_le_iff, max_le_iff, le_mul_iff_one_le_right hmax, or_comm]

theorem le_cappedSpread_iff (h : config.Valid) : config.minSpread * mid ≤ cappedSpread config spread ↔
      config.minSpread * mid ≤ config.maxSpread ∧ (mid ≤ 1 ∨ config.minSpread * mid ≤ spread) := by
  rw [cappedSpread, le_min_iff, le_max_iff, mul_le_iff_le_one_right h.minSpread_pos, and_comm,
    @or_comm (mid ≤ 1)]

theorem cappedSpread_half_lt_iff : cappedSpread config spread / 2 < price ↔
      spread / 2 < price ∧ config.minSpread / 2 < price ∨ config.maxSpread / 2 < price := by
  have hhalf (x : ℚ) : x / 2 < price ↔ x < 2 * price := div_lt_iff₀' two_pos
  rw [hhalf, hhalf, hhalf, hhalf, cappedSpread, min_lt_iff, max_lt_iff]

end Bounds

variable (s : MarketMakingStrategy)

/-- How far an inventory of one moves the reservation price, at a volatility and a time. -/
def shift (sigma t : ℚ) : ℚ := s.config.gamma * sigma * sigma * (s.config.T - t)

/-- The spread of the formula, without its bounds. -/
def formulaSpread (log : ℚ → ℚ) (sigma t : ℚ) : ℚ :=
  s.shift sigma t + 2 / s.config.gamma * log (1 + s.config.gamma / s.config.k)

/-- When a quote at a volatility is well formed. -/
def Fits (log : ℚ → ℚ) (sigma mid t : ℚ) : Prop :=
  let price := mid - s.inventory * s.shift sigma t
  let spread := s.formulaSpread log sigma t
  if s.config.toxicityThreshold < s.toxicityScore then True
  else if s.config.maxInventory ≤ s.inventory then -price < spread / 2 ∨ -price < s.config.minSpread / 2
  else if s.inventory ≤ -s.config.maxInventory then spread / 2 < price ∧ s.config.minSpread / 2 < price
  else
    (spread / 2 < price ∧ s.config.minSpread / 2 < price ∨ s.config.maxSpread / 2 < price) ∧
      |s.inventory| * s.config.inventorySkew ≤ s.config.maxInventory ∧
        (s.config.minSpread * mid ≤ s.config.maxSpread ∧
          (mid ≤ 1 ∨ s.config.minSpread * mid ≤ spread)) ∧
          (1 ≤ mid ∨ spread ≤ s.config.maxSpread * mid ∧ s.config.minSpread ≤ s.config.maxSpread * mid)

/-! ### What is quoted -/

section Quoted

variable {s} {log sqrt : ℚ → ℚ} {mid t : ℚ}

theorem estimateVolatility_keeps : (s.estimateVolatility log sqrt mid).2.config = s.config ∧
    (s.estimateVolatility log sqrt mid).2.inventory = s.inventory := by
  rw [estimateVolatility]
  dsimp only
  split_ifs <;> exact ⟨rfl, rfl⟩

/-- The state in which a quote is made, at its volatility. -/
def estimated (log sqrt : ℚ → ℚ) (s : MarketMakingStrategy) (mid : ℚ) : MarketMakingStrategy :=
  { (s.estimateVolatility log sqrt mid).2 with lastSigma := (s.estimateVolatility log sqrt mid).1 }

theorem reservationPrice_eq : s.reservationPrice log sqrt mid t =
    (mid - s.inventory * s.shift (s.estimateVolatility log sqrt mid).1 t, estimated log sqrt s mid) := by
  obtain ⟨hconfig, hinventory⟩ := @estimateVolatility_keeps s log sqrt mid
  refine Prod.ext ?_ rfl
  rw [reservationPrice]
  dsimp only
  rw [hconfig, hinventory, shift]
  ring

theorem optimalSpread_estimated (sigma : ℚ) : (estimated log sqrt s mid).optimalSpread log sigma t =
    max (s.formulaSpread log sigma t) s.config.minSpread := by
  have hconfig : (estimated log sqrt s mid).config = s.config := estimateVolatility_keeps.1
  rw [optimalSpread, hconfig]
  rfl

theorem normalSpread_estimated (sigma : ℚ) :
    min (max ((estimated log sqrt s mid).optimalSpread log sigma t) (estimated log sqrt s mid).config.minSpread)
        (estimated log sqrt s mid).config.maxSpread = cappedSpread s.config (s.formulaSpread log sigma t) := by
  have hconfig : (estimated log sqrt s mid).config = s.config := estimateVolatility_keeps.1
  rw [optimalSpread_estimated, hconfig, max_assoc, max_self]
  rfl

theorem computeInventorySizes_estimated :
    (estimated log sqrt s mid).computeInventorySizes = s.computeInventorySizes := by
  have hconfig : (estimated log sqrt s mid).config = s.config := estimateVolatility_keeps.1
  have hinventory : (estimated log sqrt s mid).inventory = s.inventory := estimateVolatility_keeps.2
  rw [computeInventorySizes, computeInventorySizes, hconfig, hinventory]

/-- Neither size is negative unless the inventory, as a share of the largest, outweighs the skew. -/
theorem sizes_nonneg_iff (h : s.config.Valid) :
    0 ≤ s.computeInventorySizes.1 ∧ 0 ≤ s.computeInventorySizes.2 ↔
      |s.inventory| * s.config.inventorySkew ≤ s.config.maxInventory := by
  have hskew : 0 ≤ |s.inventory| / s.config.maxInventory * s.config.inventorySkew :=
    mul_nonneg (div_nonneg (abs_nonneg _) h.maxInventory_pos.le) h.inventorySkew_nonneg
  have hless : 0 ≤ 1 - |s.inventory| / s.config.maxInventory * s.config.inventorySkew ↔
      |s.inventory| * s.config.inventorySkew ≤ s.config.maxInventory := by
    rw [sub_nonneg, div_mul_eq_mul_div, div_le_one h.maxInventory_pos]
  have hmore : 0 ≤ 1 + |s.inventory| / s.config.maxInventory * s.config.inventorySkew := by linarith
  rw [computeInventorySizes, if_pos h.maxInventory_pos]
  simp only [one_mul]
  rcases lt_trichotomy s.inventory 0 with hneg | hzero | hpos
  · rw [if_neg hneg.not_gt, if_pos hneg, ← hless]
    exact ⟨And.right, fun h => ⟨hmore, h⟩⟩
  · rw [if_neg hzero.not_gt, if_neg hzero.not_lt, hzero, abs_zero, zero_mul]
    simp [h.maxInventory_pos.le]
  · rw [if_pos hpos, ← hless]
    exact ⟨And.left, fun h => ⟨h, hmore⟩⟩

/-- The quote of a market maker that is too long. -/
theorem askOnly_eq : (s.inventoryLimitedQuote log sqrt mid t true).1.shouldCancel = false ∧
    (s.inventoryLimitedQuote log sqrt mid t true).1.bidSize = 0 ∧
      (s.inventoryLimitedQuote log sqrt mid t true).1.askSize = 1 ∧
        (s.inventoryLimitedQuote log sqrt mid t true).1.askPrice =
          mid - s.inventory * s.shift (s.estimateVolatility log sqrt mid).1 t +
            max (s.formulaSpread log (s.estimateVolatility log sqrt mid).1 t) s.config.minSpread / 2 := by
  rw [← optimalSpread_estimated, inventoryLimitedQuote, reservationPrice_eq]
  exact ⟨rfl, rfl, rfl, rfl⟩

/-- The quote of a market maker that is too short. -/
theorem bidOnly_eq : (s.inventoryLimitedQuote log sqrt mid t false).1.shouldCancel = false ∧
    (s.inventoryLimitedQuote log sqrt mid t false).1.bidSize = 1 ∧
      (s.inventoryLimitedQuote log sqrt mid t false).1.askSize = 0 ∧
        (s.inventoryLimitedQuote log sqrt mid t false).1.bidPrice =
          mid - s.inventory * s.shift (s.estimateVolatility log sqrt mid).1 t -
            max (s.formulaSpread log (s.estimateVolatility log sqrt mid).1 t) s.config.minSpread / 2 := by
  rw [← optimalSpread_estimated, inventoryLimitedQuote, reservationPrice_eq]
  exact ⟨rfl, rfl, rfl, rfl⟩

theorem twoSided_eq : (s.normalQuote log sqrt mid t).1.shouldCancel = false ∧
    ((s.normalQuote log sqrt mid t).1.bidSize, (s.normalQuote log sqrt mid t).1.askSize) =
      s.computeInventorySizes ∧ (s.normalQuote log sqrt mid t).1.bidPrice =
          mid - s.inventory * s.shift (s.estimateVolatility log sqrt mid).1 t -
            cappedSpread s.config (s.formulaSpread log (s.estimateVolatility log sqrt mid).1 t) / 2 ∧
        (s.normalQuote log sqrt mid t).1.askPrice =
          mid - s.inventory * s.shift (s.estimateVolatility log sqrt mid).1 t +
            cappedSpread s.config (s.formulaSpread log (s.estimateVolatility log sqrt mid).1 t) / 2 := by
  rw [← normalSpread_estimated, ← @computeInventorySizes_estimated s log sqrt mid, normalQuote,
    reservationPrice_eq]
  exact ⟨rfl, rfl, rfl, rfl⟩

/-! ### When it is well formed -/

theorem wellFormed_askOnly_iff (h : s.config.Valid) (hlong : s.config.maxInventory ≤ s.inventory) :
    s.WellFormed mid (s.inventoryLimitedQuote log sqrt mid t true).1 ↔
      0 < (s.inventoryLimitedQuote log sqrt mid t true).1.askPrice := by
  obtain ⟨-, hbidSize, haskSize, -⟩ := @askOnly_eq s log sqrt mid t
  have hopen : -s.config.maxInventory < s.inventory :=
    (neg_lt_self h.maxInventory_pos).trans_le hlong
  constructor
  · intro hformed
    exact hformed.ask_pos hopen
  · intro hpos
    refine ⟨fun hbid => absurd hlong hbid.not_ge, fun _ => hpos, hbidSize.ge, ?_,
      fun hbid => absurd hlong hbid.not_ge⟩
    rw [haskSize]
    exact zero_le_one

theorem wellFormed_bidOnly_iff (h : s.config.Valid) (hshort : s.inventory ≤ -s.config.maxInventory) :
    s.WellFormed mid (s.inventoryLimitedQuote log sqrt mid t false).1 ↔
      0 < (s.inventoryLimitedQuote log sqrt mid t false).1.bidPrice := by
  obtain ⟨-, hbidSize, haskSize, -⟩ := @bidOnly_eq s log sqrt mid t
  have hopen : s.inventory < s.config.maxInventory :=
    hshort.trans_lt (neg_lt_self h.maxInventory_pos)
  constructor
  · intro hformed
    exact hformed.bid_pos hopen
  · intro hpos
    refine ⟨fun _ => hpos, fun hask => absurd hshort hask.not_ge, ?_, haskSize.ge,
      fun _ hask => absurd hshort hask.not_ge⟩
    rw [hbidSize]
    exact zero_le_one

theorem wellFormed_twoSided_iff (h : s.config.Valid) (hmid : 0 < mid)
    (hbid : s.inventory < s.config.maxInventory) (hask : -s.config.maxInventory < s.inventory) :
    s.WellFormed mid (s.normalQuote log sqrt mid t).1 ↔ 0 < (s.normalQuote log sqrt mid t).1.bidPrice ∧
        (0 ≤ s.computeInventorySizes.1 ∧ 0 ≤ s.computeInventorySizes.2) ∧ s.config.minSpread * mid ≤
              cappedSpread s.config (s.formulaSpread log (s.estimateVolatility log sqrt mid).1 t) ∧
            cappedSpread s.config (s.formulaSpread log (s.estimateVolatility log sqrt mid).1 t) ≤
              s.config.maxSpread * mid := by
  obtain ⟨-, hsizes, hbidPrice, haskPrice⟩ := @twoSided_eq s log sqrt mid t
  set both := (s.normalQuote log sqrt mid t).1
  set spread := s.formulaSpread log (s.estimateVolatility log sqrt mid).1 t
  have hspread : both.askPrice - both.bidPrice = cappedSpread s.config spread := by
    rw [hbidPrice, haskPrice]
    ring
  have hordered : both.bidPrice < both.askPrice := by
    rw [← sub_pos, hspread]
    exact cappedSpread_pos h spread
  rw [← hsizes, ← hspread, ← le_div_iff₀ hmid, ← div_le_iff₀ hmid]
  constructor
  · intro hformed
    exact ⟨hformed.bid_pos hbid, ⟨hformed.bidSize_nonneg, hformed.askSize_nonneg⟩,
      (hformed.twoSided hbid hask).2⟩
  · rintro ⟨hpos, ⟨hbidSize, haskSize⟩, hbounds⟩
    exact ⟨fun _ => hpos, fun _ => hpos.trans hordered, hbidSize, haskSize, fun _ _ => ⟨hordered, hbounds⟩⟩

end Quoted

theorem valid_default : MarketMakingConfig.Valid {} := by
  constructor <;> norm_num

end MarketMakingStrategy

end TradingSim.Bot.MarketMaking
