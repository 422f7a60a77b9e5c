import Mathlib.Tactic.Linarith
import Mathlib.Tactic.LinearCombination
import Mathlib.Tactic.Positivity
import TradingSim.Exchange.Models
import TradingSim.Foundations.Run

/-!
# The market maker

The strategy quotes around a reservation price and keeps an inventory at its average price. Numbers are
exact; the logarithm and the square root are parameters.
-/

namespace TradingSim.Bot.MarketMaking

open Exchange (Side fixedText)
open Foundations

structure MarketMakingConfig where
  gamma : ℚ := 1 / 10
  sigma : ℚ := 3 / 10
  T : ℚ := 1
  k : ℚ := 3 / 2
  maxInventory : ℚ := 5
  minSpread : ℚ := 1 / 10000
  maxSpread : ℚ := 5 / 1000
  inventorySkew : ℚ := 1
  toxicityThreshold : ℚ := 7 / 10
  volLookback : ℕ := 60

structure Quote where
  bidPrice : ℚ
  askPrice : ℚ
  bidSize : ℚ
  askSize : ℚ
  midPrice : ℚ
  reservationPrice : ℚ
  spread : ℚ
  shouldCancel : Bool := false
  confidence : ℚ := 0
  reason : String := ""

structure MarketMakingStrategy where
  config : MarketMakingConfig
  inventory : ℚ := 0
  returnsHistory : List ℚ := []
  toxicityScore : ℚ := 0
  fillCount : ℕ := 0
  orderCount : ℕ := 0
  totalPnl : ℚ := 0
  prevPrice : ℚ := 0
  lastSigma : ℚ := config.sigma
  avgEntryPrice : ℚ := 0

/-- A fill, as `on_fill` is called with it. -/
structure Fill where
  side : Side
  qty : ℚ
  price : ℚ

namespace MarketMakingStrategy

variable (s : MarketMakingStrategy)

/-! ### Fills -/

/-- A purchase against a short position. -/
def closeShort (qty price : ℚ) : MarketMakingStrategy :=
  let closeQty := min qty (-s.inventory)
  let totalPnl := s.totalPnl + closeQty * (s.avgEntryPrice - price)
  let inventory := s.inventory + closeQty
  let remaining := qty - closeQty
  if 0 < remaining then
    { s with totalPnl := totalPnl, inventory := inventory + remaining, avgEntryPrice := price }
  else if |inventory| < 1 / 10 ^ 12 then
    { s with totalPnl := totalPnl, inventory := inventory, avgEntryPrice := 0 }
  else { s with totalPnl := totalPnl, inventory := inventory }

/-- A purchase without a short position. -/
def openLong (qty price : ℚ) : MarketMakingStrategy :=
  let totalCost := s.avgEntryPrice * s.inventory + price * qty
  let inventory := s.inventory + qty
  if inventory ≠ 0 then { s with inventory := inventory, avgEntryPrice := totalCost / inventory }
  else { s with inventory := inventory }

/-- A sale against a long position. -/
def closeLong (qty price : ℚ) : MarketMakingStrategy :=
  let closeQty := min qty s.inventory
  let totalPnl := s.totalPnl + closeQty * (price - s.avgEntryPrice)
  let inventory := s.inventory - closeQty
  let remaining := qty - closeQty
  if 0 < remaining then
    { s with totalPnl := totalPnl, inventory := inventory - remaining, avgEntryPrice := price }
  else if |inventory| < 1 / 10 ^ 12 then
    { s with totalPnl := totalPnl, inventory := inventory, avgEntryPrice := 0 }
  else { s with totalPnl := totalPnl, inventory := inventory }

/-- A sale without a long position. -/
def openShort (qty price : ℚ) : MarketMakingStrategy :=
  let prevShort := |s.inventory|
  let totalCost := s.avgEntryPrice * prevShort + price * qty
  let inventory := s.inventory - qty
  if inventory ≠ 0 then { s with inventory := inventory, avgEntryPrice := totalCost / |inventory| }
  else { s with inventory := inventory }

def onFill (fill : Fill) : MarketMakingStrategy :=
  let filled :=
    match fill.side with
    | .buy => if s.inventory < 0 then s.closeShort fill.qty fill.price else s.openLong fill.qty fill.price
    | .sell => if 0 < s.inventory then s.closeLong fill.qty fill.price else s.openShort fill.qty fill.price
  { filled with fillCount := filled.fillCount + 1 }

/-! ### Quotes -/

/-- The volatility of the last returns, or that of the configuration while there are few of them. -/
def estimateVolatility (log sqrt : ℚ → ℚ) (price : ℚ) : ℚ × MarketMakingStrategy :=
  let returns :=
    if 0 < s.prevPrice ∧ 0 < price then
      let all := s.returnsHistory ++ [log (price / s.prevPrice)]
      all.drop (all.length - s.config.volLookback)
    else s.returnsHistory
  let s' := { s with returnsHistory := returns, prevPrice := price }
  if returns.length < 10 then (s.config.sigma, s')
  else
    let mean := returns.sum / returns.length
    let std := sqrt ((returns.map fun r => (r - mean) ^ 2).sum / returns.length)
    (max (std * sqrt (365 * 24 * 60)) (1 / 1000), s')

def reservationPrice (log sqrt : ℚ → ℚ) (mid t : ℚ) : ℚ × MarketMakingStrategy :=
  let (sigma, s') := s.estimateVolatility log sqrt mid
  let s' := { s' with lastSigma := sigma }
  (mid - s'.inventory * s'.config.gamma * s'.lastSigma * s'.lastSigma * (s'.config.T - t), s')

def optimalSpread (log : ℚ → ℚ) (sigma t : ℚ) : ℚ :=
  let spread := s.config.gamma * sigma * sigma * (s.config.T - t) +
    2 / s.config.gamma * log (1 + s.config.gamma / s.config.k)
  max spread s.config.minSpread

def inventoryLimitedQuote (log sqrt : ℚ → ℚ) (mid t : ℚ) (askOnly : Bool) : Quote × MarketMakingStrategy :=
  let (r, s') := s.reservationPrice log sqrt mid t
  let spread := s'.optimalSpread log s'.lastSigma t
  if askOnly then
    ({ bidPrice := 0
       askPrice := r + spread / 2
       bidSize := 0
       askSize := 1
       midPrice := mid
       reservationPrice := r
       spread := spread
       confidence := 50
       reason := "Max long inventory, ask only" }, s')
  else
    ({ bidPrice := r - spread / 2
       askPrice := 0
       bidSize := 1
       askSize := 0
       midPrice := mid
       reservationPrice := r
       spread := spread
       confidence := 50
       reason := "Max short inventory, bid only" }, s')

/-- The sizes of bid and ask: less on the side that would add to the inventory. -/
def computeInventorySizes : ℚ × ℚ :=
  let invRatio := if 0 < s.config.maxInventory then |s.inventory| / s.config.maxInventory else 0
  let baseSize : ℚ := 1
  if 0 < s.inventory then
    (baseSize * (1 - invRatio * s.config.inventorySkew), baseSize * (1 + invRatio * s.config.inventorySkew))
  else if s.inventory < 0 then
    (baseSize * (1 + invRatio * s.config.inventorySkew), baseSize * (1 - invRatio * s.config.inventorySkew))
  else (baseSize, baseSize)

def normalQuote (log sqrt : ℚ → ℚ) (mid t : ℚ) : Quote × MarketMakingStrategy :=
  let (r, s') := s.reservationPrice log sqrt mid t
  let spread := min (max (s'.optimalSpread log s'.lastSigma t) s'.config.minSpread) s'.config.maxSpread
  let (bidSize, askSize) := s'.computeInventorySizes
  ({ bidPrice := r - spread / 2
     askPrice := r + spread / 2
     bidSize := bidSize
     askSize := askSize
     midPrice := mid
     reservationPrice := r
     spread := spread
     confidence := max 0 (100 - spread / s'.config.maxSpread * 50 - s'.toxicityScore * 30)
     reason := "Inv=" ++ fixedText s'.inventory 2 ++ " spread=" ++ fixedText spread 6 ++ " toxic=" ++
       fixedText s'.toxicityScore 2 }, { s' with orderCount := s'.orderCount + 1 })

def generateQuotes (log sqrt : ℚ → ℚ) (mid t : ℚ) : Quote × MarketMakingStrategy :=
  if s.config.toxicityThreshold < s.toxicityScore then
    ({ bidPrice := 0
       askPrice := 0
       bidSize := 0
       askSize := 0
       midPrice := mid
       reservationPrice := mid
       spread := 0
       shouldCancel := true
       confidence := 0
       reason := "Toxicity " ++ fixedText s.toxicityScore 2 ++ " > threshold" }, s)
  else if s.config.maxInventory ≤ s.inventory then s.inventoryLimitedQuote log sqrt mid t true
  else if s.inventory ≤ -s.config.maxInventory then s.inventoryLimitedQuote log sqrt mid t false
  else s.normalQuote log sqrt mid t

/-! ### Sales are purchases, mirrored -/

/-- The strategy with the opposite inventory and result. -/
def mirrored : MarketMakingStrategy := { s with inventory := -s.inventory, totalPnl := -s.totalPnl }

theorem closeLong_eq (qty price : ℚ) : s.closeLong qty price = (s.mirrored.closeShort qty price).mirrored := by
  have hpnl (closed : ℚ) : s.totalPnl + closed * (price - s.avgEntryPrice) =
      -(-s.totalPnl + closed * (s.avgEntryPrice - price)) := by ring
  have hleft (closed : ℚ) : s.inventory - closed = -(-s.inventory + closed) := by ring
  have hflipped (closed : ℚ) : -(-s.inventory + closed) - (qty - closed) =
      -(-s.inventory + closed + (qty - closed)) := by ring
  simp only [closeLong, closeShort, mirrored, neg_neg, hpnl, hleft, hflipped, abs_neg]
  split_ifs
  · rfl
  · rfl
  · rfl

theorem openShort_eq (h : s.inventory ≤ 0) {qty : ℚ} (hqty : 0 < qty) (price : ℚ) :
    s.openShort qty price = (s.mirrored.openLong qty price).mirrored := by
  have hleft : s.inventory - qty = -(-s.inventory + qty) := by ring
  have hopened : |s.inventory - qty| = -s.inventory + qty := by
    rw [abs_of_nonpos (by linarith)]
    ring
  have hpos : -s.inventory + qty ≠ 0 := by linarith
  have hneg : s.inventory - qty ≠ 0 := by linarith
  have hopen : s.mirrored.openLong qty price =
      { s.mirrored with
        inventory := -s.inventory + qty
        avgEntryPrice := (s.avgEntryPrice * -s.inventory + price * qty) / (-s.inventory + qty) } :=
    if_pos hpos
  rw [openShort, if_pos hneg, abs_of_nonpos h, hopened, hopen, hleft, mirrored, mirrored, neg_neg]

/-- What a purchase comes to. -/
def purchase (qty price : ℚ) : MarketMakingStrategy :=
  if s.inventory < 0 then s.closeShort qty price else s.openLong qty price

theorem onFill_eq {fill : Fill} (hqty : 0 < fill.qty) : s.onFill fill = match fill.side with
    | .buy => { s.purchase fill.qty fill.price with fillCount := (s.onFill fill).fillCount }
    | .sell =>
      { (s.mirrored.purchase fill.qty fill.price).mirrored with fillCount := (s.onFill fill).fillCount } := by
  obtain ⟨side, qty, price⟩ := fill
  cases side with
  | buy => rfl
  | sell =>
    by_cases hlong : 0 < s.inventory
    · have hshort : s.mirrored.inventory < 0 := neg_neg_of_pos hlong
      simp only [onFill, purchase, if_pos hlong, if_pos hshort, closeLong_eq]
    · have hshort : ¬ s.mirrored.inventory < 0 := not_lt.mpr (neg_nonneg.mpr (not_lt.mp hlong))
      simp only [onFill, purchase, if_neg hlong, if_neg hshort, openShort_eq s (not_lt.mp hlong) hqty]

/-! ### Accounting -/

/-- The result with the inventory at its average price. -/
def value : ℚ := s.totalPnl - s.inventory * s.avgEntryPrice

/-- The average price is one of fills, and there is none without an inventory. -/
structure Sound : Prop where
  avg_nonneg : 0 ≤ s.avgEntryPrice
  flat : s.inventory = 0 → s.avgEntryPrice = 0

/-- An inventory that counts as none but is one. -/
def Dust : Prop := 0 < |s.inventory| ∧ |s.inventory| < 1 / 10 ^ 12

variable {s} {qty price : ℚ}

@[simp] theorem mirrored_inventory : s.mirrored.inventory = -s.inventory := rfl

@[simp] theorem value_mirrored : s.mirrored.value = -s.value := by
  simp only [value, mirrored]
  ring

theorem Sound.mirrored (h : s.Sound) : s.mirrored.Sound where
  avg_nonneg := h.avg_nonneg
  flat hflat := h.flat (neg_eq_zero.mp hflat)

/-- What a purchase does: it adds to the inventory, and its cost is all that the value loses. -/
structure Bought (s : MarketMakingStrategy) (qty price : ℚ) (s' : MarketMakingStrategy) : Prop where
  inventory : s'.inventory = s.inventory + qty
  value : s'.value = s.value - qty * price
  sound : s'.Sound

theorem bought_openLong (h : s.Sound) (hprice : 0 < price) (hlong : 0 ≤ s.inventory) (hqty : 0 < qty) :
    Bought s qty price (s.openLong qty price) := by
  have hpos : 0 < s.inventory + qty := add_pos_of_nonneg_of_pos hlong hqty
  rw [openLong, if_pos hpos.ne']
  constructor
  · rfl
  · rw [value, value, mul_div_cancel₀ _ hpos.ne']
    ring
  · constructor
    · exact div_nonneg (add_nonneg (mul_nonneg h.avg_nonneg hlong) (mul_pos hprice hqty).le) hpos.le
    · intro hflat
      exact absurd hflat hpos.ne'

theorem bought_closeShort_of_le (h : s.Sound) (hle : qty ≤ -s.inventory)
    (hdust : ¬ (s.closeShort qty price).Dust) : Bought s qty price (s.closeShort qty price) := by
  have hstate : s.closeShort qty price =
      { s with
        totalPnl := s.totalPnl + qty * (s.avgEntryPrice - price)
        inventory := s.inventory + qty
        avgEntryPrice := if |s.inventory + qty| < 1 / 10 ^ 12 then 0 else s.avgEntryPrice } := by
    rw [closeShort, min_eq_left hle, sub_self, if_neg (lt_irrefl _)]
    split_ifs
    · rfl
    · rfl
  rw [hstate, Dust, not_and, not_lt] at hdust
  rw [hstate]
  by_cases hflat : s.inventory + qty = 0
  · have hzero : |s.inventory + qty| < 1 / 10 ^ 12 := by
      rw [hflat, abs_zero]
      positivity
    rw [if_pos hzero]
    constructor
    · rfl
    · have hqty : qty = -s.inventory := by linarith
      rw [value, value, hqty]
      ring
    · exact ⟨le_rfl, fun _ => rfl⟩
  · rw [if_neg (not_lt.mpr (hdust (abs_pos.mpr hflat)))]
    constructor
    · rfl
    · rw [value, value]
      ring
    · exact ⟨h.avg_nonneg, fun hnone => absurd hnone hflat⟩

theorem bought_closeShort_of_lt (hprice : 0 < price) (hlt : -s.inventory < qty) :
    Bought s qty price (s.closeShort qty price) := by
  have hrest : 0 < qty - -s.inventory := sub_pos.mpr hlt
  rw [closeShort, min_eq_right hlt.le, if_pos hrest]
  constructor
  · ring
  · rw [value, value]
    ring
  · constructor
    · exact hprice.le
    · intro hflat
      have hpos : 0 < s.inventory + -s.inventory + (qty - -s.inventory) := by linarith
      exact absurd hflat hpos.ne'

/-- A purchase adds to the inventory and takes its notional from the value. -/
theorem bought_purchase (h : s.Sound) (hqty : 0 < qty) (hprice : 0 < price)
    (hdust : ¬ (s.purchase qty price).Dust) : Bought s qty price (s.purchase qty price) := by
  by_cases hshort : s.inventory < 0
  · rw [purchase, if_pos hshort] at hdust ⊢
    rcases le_or_gt qty (-s.inventory) with hle | hgt
    · exact bought_closeShort_of_le h hle hdust
    · exact bought_closeShort_of_lt hprice hgt
  · rw [purchase, if_neg hshort]
    exact bought_openLong h hprice (not_lt.mp hshort) hqty

/-- What a fill does, unless it leaves next to no inventory. -/
structure Accounted (s : MarketMakingStrategy) (fill : Fill) (s' : MarketMakingStrategy) : Prop where
  inventory : s'.inventory = s.inventory + fill.side.signed fill.qty
  value : s'.value = s.value - fill.side.signed fill.qty * fill.price
  sound : s'.Sound

theorem accounted_onFill (h : s.Sound) {fill : Fill} (hqty : 0 < fill.qty) (hprice : 0 < fill.price)
    (hdust : ¬ (s.onFill fill).Dust) : Accounted s fill (s.onFill fill) := by
  obtain ⟨side, qty, price⟩ := fill
  rw [onFill_eq s hqty] at hdust ⊢
  cases side with
  | buy =>
    have hbought := bought_purchase h hqty hprice hdust
    exact ⟨hbought.inventory, hbought.value, hbought.sound.1, hbought.sound.2⟩
  | sell =>
    have hdust' : ¬ (s.mirrored.purchase qty price).Dust := by
      simpa [Dust] using hdust
    have hbought := bought_purchase h.mirrored hqty hprice hdust'
    have hinventory : (s.mirrored.purchase qty price).mirrored.inventory = s.inventory + -qty := by
      rw [mirrored_inventory, hbought.inventory, mirrored_inventory]
      ring
    have hvalue : (s.mirrored.purchase qty price).mirrored.value = s.value - -qty * price := by
      rw [value_mirrored, hbought.value, value_mirrored]
      ring
    exact ⟨hinventory, hvalue, hbought.sound.mirrored.1, hbought.sound.mirrored.2⟩

/-! ### Runs -/

/-- The quantity of some fills on a side. -/
def quantityOf (side : Side) (fills : List Fill) : ℚ :=
  ((fills.filter fun fill => fill.side = side).map Fill.qty).sum

/-- The notional of some fills on a side. -/
def notionalOf (side : Side) (fills : List Fill) : ℚ :=
  ((fills.filter fun fill => fill.side = side).map fun fill => fill.qty * fill.price).sum

theorem signed_quantityOf (fills : List Fill) : (fills.map fun fill => fill.side.signed fill.qty).sum =
    quantityOf .buy fills - quantityOf .sell fills := by
  induction fills with
  | nil => simp [quantityOf]
  | cons fill rest ih =>
    rw [List.map_cons, List.sum_cons, ih]
    cases hside : fill.side with
    | buy =>
      simp [quantityOf, hside, Side.signed]
      ring
    | sell =>
      simp [quantityOf, hside, Side.signed]
      ring

theorem signed_notionalOf (fills : List Fill) :
    (fills.map fun fill => fill.side.signed fill.qty * fill.price).sum =
      notionalOf .buy fills - notionalOf .sell fills := by
  induction fills with
  | nil => simp [notionalOf]
  | cons fill rest ih =>
    rw [List.map_cons, List.sum_cons, ih]
    cases hside : fill.side with
    | buy =>
      simp [notionalOf, hside, Side.signed]
      ring
    | sell =>
      simp [notionalOf, hside, Side.signed]
      ring

/-- A fill of a positive quantity at a positive price, which leaves no inventory or one that counts. -/
def Regular (s : MarketMakingStrategy) (fill : Fill) : Prop :=
  0 < fill.qty ∧ 0 < fill.price ∧ ¬ (s.onFill fill).Dust

/-- Over all fills the inventory and its value move by the signed quantities and notionals. -/
theorem accounted_fills (h : s.Sound) (fills : List Fill) (hregular : Along onFill Regular s fills) :
    (run onFill s fills).inventory = s.inventory + (fills.map fun fill => fill.side.signed fill.qty).sum ∧
      (run onFill s fills).value =
          s.value - (fills.map fun fill => fill.side.signed fill.qty * fill.price).sum ∧
        (run onFill s fills).Sound := by
  induction fills generalizing s with
  | nil => simpa using h
  | cons fill rest ih =>
    obtain ⟨⟨hqty, hprice, hdust⟩, hrest⟩ := hregular
    have hfill := accounted_onFill h hqty hprice hdust
    obtain ⟨hinventory, hvalue, hsound⟩ := ih hfill.sound hrest
    rw [run_cons, List.map_cons, List.sum_cons, List.map_cons, List.sum_cons]
    refine ⟨?_, ?_, hsound⟩
    · rw [hinventory, hfill.inventory, add_assoc]
    · rw [hvalue, hfill.value, sub_sub]

/-- The books after fills: the inventory is what was bought less what was sold, and with the inventory the
result is at every price what the fills have earned. -/
structure Balanced (s : MarketMakingStrategy) (fills : List Fill) : Prop where
  inventory : s.inventory = quantityOf .buy fills - quantityOf .sell fills
  pnl (price : ℚ) : s.totalPnl + s.inventory * (price - s.avgEntryPrice) =
    notionalOf .sell fills - notionalOf .buy fills + s.inventory * price
  avg_nonneg : 0 ≤ s.avgEntryPrice
  avg_flat : s.inventory = 0 → s.avgEntryPrice = 0

/-- The books are balanced after all regular fills of a new market maker. -/
theorem balanced_run (config : MarketMakingConfig) (fills : List Fill)
    (hregular : Along onFill Regular { config := config } fills) :
    Balanced (run onFill { config := config } fills) fills := by
  have hsound : Sound { config := config } := ⟨le_rfl, fun _ => rfl⟩
  obtain ⟨hinventory, hvalue, hafter⟩ := accounted_fills hsound fills hregular
  rw [signed_quantityOf, zero_add] at hinventory
  rw [signed_notionalOf] at hvalue
  refine ⟨hinventory, ?_, hafter.avg_nonneg, hafter.flat⟩
  intro price
  have hstart : value { config := config } = 0 := by
    rw [value]
    ring
  rw [hstart, value] at hvalue
  linear_combination hvalue

/-- A purchase, a sale that turns the position, and a purchase that closes it. -/
theorem balanced_run_turned :
    Along onFill Regular { config := {} } [⟨.buy, 2, 100⟩, ⟨.sell, 3, 110⟩, ⟨.buy, 1, 90⟩] ∧
      Balanced (run onFill { config := {} } [⟨.buy, 2, 100⟩, ⟨.sell, 3, 110⟩, ⟨.buy, 1, 90⟩])
        [⟨.buy, 2, 100⟩, ⟨.sell, 3, 110⟩, ⟨.buy, 1, 90⟩] := by
  have hregular : Along onFill Regular { config := {} } [⟨.buy, 2, 100⟩, ⟨.sell, 3, 110⟩, ⟨.buy, 1, 90⟩] := by
    simp only [Along, Regular, Dust]
    norm_num [onFill, openLong, closeLong, closeShort]
  exact ⟨hregular, balanced_run {} _ hregular⟩

end MarketMakingStrategy

end TradingSim.Bot.MarketMaking
