import Mathlib.Probability.Distributions.Gaussian.Real
import TradingSim.Foundations.BayesFilter
import TradingSim.Foundations.MachineIntegers

/-!
# The regime filter

The online hidden Markov model takes a price at a time. It computes Gaussian emissions and moves the
logarithms of the probabilities of four market regimes by a log-sum-exp step. Its probabilities are those
of the textbook filter with the emissions in force at each price, started from the uniform prior. The
bounds that enter are those of finite doubles: the filter compares with `-1e300`, which no sum of its
logarithms comes near.
-/

namespace TradingSim.Bot

open Foundations
open ProbabilityTheory (gaussianPDFReal)

/-- The regimes of the market. -/
inductive RegimeState
  | trendingUp
  | trendingDown
  | ranging
  | volatile
  deriving DecidableEq

/-- The regimes in the order in which the loops go through them. -/
def RegimeState.all : List RegimeState := [.trendingUp, .trendingDown, .ranging, .volatile]

instance : Fintype RegimeState where
  elems := {.trendingUp, .trendingDown, .ranging, .volatile}
  complete s := by cases s <;> simp

instance : Nonempty RegimeState := ⟨.ranging⟩

/-- The values of finite doubles, as far as logarithms are taken of them. -/
def FiniteDouble (x : ℝ) : Prop := x ≤ 0 ∨ (2 : ℝ) ^ (-1074 : ℤ) ≤ x ∧ x < (2 : ℝ) ^ (1024 : ℤ)

/-- A price as it is passed to the model. -/
structure PricePoint where
  price : ℝ
  finite : FiniteDouble price

/-- The state of the model. Means and variances are those of the return and of the volatility. -/
structure OnlineHMM where
  logTrans : RegimeState → RegimeState → ℝ
  emitMean : RegimeState → ℝ × ℝ
  emitVar : RegimeState → ℝ × ℝ
  logAlpha : RegimeState → ℝ
  lr : ℝ
  initialized : Bool
  updateCount : ℤ
  prevPrice : ℝ
  volEwma : ℝ

/-- `kPiV3`. -/
noncomputable def kPiV3 : ℝ := 3.14159265358979323846

namespace OnlineHMM

/-- A new model. -/
noncomputable def new : OnlineHMM where
  logTrans i j := if i = j then Real.log 0.55 else Real.log 0.15
  emitMean
    | .trendingUp => (0.0008, 0.003)
    | .trendingDown => (-0.0008, 0.003)
    | .ranging => (0, 0.001)
    | .volatile => (0, 0.008)
  emitVar
    | .trendingUp => (0.0003, 0.00001)
    | .trendingDown => (0.0003, 0.00001)
    | .ranging => (0.0000001, 0.000001)
    | .volatile => (0.001, 0.0001)
  logAlpha _ := Real.log (1 / 4)
  lr := 0.01
  initialized := false
  updateCount := 0
  prevPrice := 0
  volEwma := 0

noncomputable def logGaussian (x mean var : ℝ) : ℝ :=
  let var := if var < 1 / 10 ^ 15 then 1 / 10 ^ 15 else var
  let diff := x - mean
  let invVar := 1 / var
  (-1 / 2) * (Real.log (2 * kPiV3) + Real.log var + diff * diff * invVar)

/-- The logarithm of the emission of an observation in a regime. -/
noncomputable def emitLp (h : OnlineHMM) (x : ℝ × ℝ) (j : RegimeState) : ℝ :=
  logGaussian x.1 (h.emitMean j).1 (h.emitVar j).1 + logGaussian x.2 (h.emitMean j).2 (h.emitVar j).2

/-- The greatest of four numbers, or `-1e300`. -/
noncomputable def greatest (x : RegimeState → ℝ) : ℝ :=
  RegimeState.all.foldl (fun m i => if m < x i then x i else m) (-10 ^ 300)

noncomputable def forwardRecursion (h : OnlineHMM) (x : ℝ × ℝ) : OnlineHMM :=
  let maxLogsum (j : RegimeState) := greatest fun i => h.logAlpha i + h.logTrans i j
  let newAlpha (j : RegimeState) :=
    h.emitLp x j + maxLogsum j +
      Real.log (∑ i, Real.exp (h.logAlpha i + h.logTrans i j - maxLogsum j))
  let maxAlpha := greatest newAlpha
  { h with logAlpha := fun i => newAlpha i - maxAlpha }

noncomputable def adaptParameters (h : OnlineHMM) (x : ℝ × ℝ) : OnlineHMM :=
  let sum := ∑ i, Real.exp (h.logAlpha i)
  if sum < 1 / 10 ^ 15 then h
  else
    { h with
      emitMean := fun i =>
        let w := Real.exp (h.logAlpha i) / sum * h.lr
        ((1 - w) * (h.emitMean i).1 + w * x.1, (1 - w) * (h.emitMean i).2 + w * x.2) }

def init (h : OnlineHMM) (price : ℝ) : OnlineHMM := { h with prevPrice := price, initialized := true }

/-- The log return of a price. -/
noncomputable def logRet (h : OnlineHMM) (price : ℝ) : ℝ :=
  if 0 < h.prevPrice ∧ 0 < price then Real.log (price / h.prevPrice) else 0

/-- The average of squared returns with a price. -/
noncomputable def nextVol (h : OnlineHMM) (price : ℝ) : ℝ :=
  0.94 * h.volEwma + (1 - 0.94) * h.logRet price * h.logRet price

/-- What is observed with a price. -/
noncomputable def observation (h : OnlineHMM) (price : ℝ) : ℝ × ℝ :=
  (h.logRet price, Real.sqrt (h.nextVol price))

noncomputable def mostLikelyState (h : OnlineHMM) : RegimeState :=
  [RegimeState.trendingDown, .ranging, .volatile].foldl
    (fun best i => if h.logAlpha best < h.logAlpha i then i else best) .trendingUp

/-- `update`, with the regime that it returns. -/
noncomputable def update (h : OnlineHMM) (price : ℝ) : OnlineHMM × RegimeState :=
  if !h.initialized then (h.init price, .ranging)
  else
    let x := h.observation price
    let count := wrap32 (h.updateCount + 1)
    let moved : OnlineHMM :=
      { h with volEwma := h.nextVol price, prevPrice := price, updateCount := count }.forwardRecursion x
    let next := if count.tmod 50 = 0 then moved.adaptParameters x else moved
    (next, next.mostLikelyState)

noncomputable def stateProbability (h : OnlineHMM) (s : RegimeState) : ℝ :=
  let sum := ∑ i, Real.exp (h.logAlpha i)
  if sum < 1 / 10 ^ 15 then 0 else Real.exp (h.logAlpha s) / sum

/-! ### The textbook filter -/

/-- The density of an observation in a regime, with the means in force. -/
noncomputable def emission (h : OnlineHMM) (x : ℝ × ℝ) (j : RegimeState) : ℝ :=
  gaussianPDFReal (h.emitMean j).1 (h.emitVar j).1.toNNReal x.1 *
    gaussianPDFReal (h.emitMean j).2 (h.emitVar j).2.toNNReal x.2

/-- The probability of a transition. -/
noncomputable def transition (i j : RegimeState) : ℝ := if i = j then 0.55 else 0.15

/-- The posterior after one price. The first price of a model is no observation. -/
noncomputable def bayesStep (h : OnlineHMM) (post : RegimeState → ℝ) (price : ℝ) : RegimeState → ℝ :=
  if h.initialized then filterStep (h.emission (h.observation price)) transition post else post

/-- The posterior after prices that are fed to a model, each with the emissions in force at it. -/
noncomputable def posterior (h : OnlineHMM) (post : RegimeState → ℝ) :
    List PricePoint → RegimeState → ℝ
  | [] => post
  | p :: rest => posterior (h.update p.price).1 (h.bayesStep post p.price) rest

/-- The model after prices. -/
noncomputable def updateAll (h : OnlineHMM) (prices : List PricePoint) : OnlineHMM :=
  prices.foldl (fun h p => (h.update p.price).1) h

end OnlineHMM

/-! ### What the steps keep -/

theorem FiniteDouble.abs_log_le {x : ℝ} (h : FiniteDouble x) (hpos : 0 < x) : |Real.log x| ≤ 1500 := by
  have htwo' : Real.log 2 ≤ 2 - 1 := Real.log_le_sub_one_of_pos two_pos
  rcases h with hneg | ⟨hlow, hhigh⟩
  · exact absurd hneg hpos.not_ge
  · have hlow' := Real.log_le_log (by positivity) hlow
    have hhigh' := Real.log_le_log hpos hhigh.le
    rw [Real.log_zpow] at hlow' hhigh'
    push_cast at hlow' hhigh'
    rw [abs_le]
    constructor <;> linarith

/-- Parts of two bounded numbers are bounded. -/
theorem abs_mix_le {w a b c : ℝ} (hw : 0 ≤ w) (hw' : w ≤ 1) (ha : |a| ≤ c) (hb : |b| ≤ c) :
    |(1 - w) * a + w * b| ≤ c := by
  calc |(1 - w) * a + w * b| ≤ |(1 - w) * a| + |w * b| := abs_add_le _ _
    _ = (1 - w) * |a| + w * |b| := by
      rw [abs_mul, abs_mul, abs_of_nonneg hw, abs_of_nonneg (sub_nonneg.mpr hw')]
    _ ≤ (1 - w) * c + w * c := by gcongr
    _ = c := by ring

namespace OnlineHMM

/-- What holds of a model after any prices: what is never adapted is that of a new model, the rest is
bounded, and the greatest exponent is not lost. -/
structure Sound (h : OnlineHMM) : Prop where
  logTrans : h.logTrans = new.logTrans
  emitVar : h.emitVar = new.emitVar
  lr : h.lr = new.lr
  means : ∀ s, |(h.emitMean s).1| ≤ 3000 ∧ |(h.emitMean s).2| ≤ 3000
  volNonneg : 0 ≤ h.volEwma
  volLe : h.volEwma ≤ 3000 ^ 2
  prevPrice : FiniteDouble h.prevPrice
  normalised : 1 ≤ ∑ i, Real.exp (h.logAlpha i)

theorem sound_new : new.Sound where
  logTrans := rfl
  emitVar := rfl
  lr := rfl
  means s := by cases s <;> norm_num [OnlineHMM.new, abs_le]
  volNonneg := le_rfl
  volLe := by norm_num [OnlineHMM.new]
  prevPrice := .inl le_rfl
  normalised := by simp [OnlineHMM.new, Real.exp_neg, Real.exp_log, Finset.univ, Fintype.elems]

variable {h : OnlineHMM} {x : ℝ × ℝ}

/-! ### The emissions -/

/-- The variances of a new model are small, and above the least that is used. -/
theorem new_emitVar (j : RegimeState) : (1 / 10 ^ 7 ≤ (new.emitVar j).1 ∧ (new.emitVar j).1 ≤ 1) ∧
      1 / 10 ^ 7 ≤ (new.emitVar j).2 ∧ (new.emitVar j).2 ≤ 1 := by
  cases j <;> norm_num [new]

/-- The factor by which an emission differs from a density: the constant of the source is not `π`. -/
noncomputable def scale : ℝ := √(Real.pi / kPiV3)

theorem scale_pos : 0 < scale := Real.sqrt_pos.mpr (div_pos Real.pi_pos (by norm_num [kPiV3]))

theorem exp_logGaussian (x mean : ℝ) {var : ℝ} (hvar : 1 / 10 ^ 15 ≤ var) :
    Real.exp (logGaussian x mean var) = scale * gaussianPDFReal mean var.toNNReal x := by
  have hpos : 0 < var := lt_of_lt_of_le (by norm_num) hvar
  have hk : 0 < kPiV3 := by norm_num [kPiV3]
  have hlogs : logGaussian x mean var =
      -Real.log √(2 * kPiV3 * var) + -(x - mean) ^ 2 / (2 * var) := by
    rw [Real.log_sqrt (by positivity), Real.log_mul (by positivity) hpos.ne', logGaussian,
      if_neg hvar.not_gt]
    field_simp
    ring
  have hroots : (√(2 * kPiV3 * var))⁻¹ = scale * (√(2 * Real.pi * var))⁻¹ := by
    rw [scale, ← Real.sqrt_inv, ← Real.sqrt_inv, ← Real.sqrt_mul (by positivity)]
    congr 1
    field_simp
  rw [hlogs, Real.exp_add, Real.exp_neg, Real.exp_log (by positivity), hroots, gaussianPDFReal,
    Real.coe_toNNReal _ hpos.le, mul_assoc]

theorem Sound.exp_emitLp (hs : h.Sound) (x : ℝ × ℝ) (j : RegimeState) :
    Real.exp (h.emitLp x j) = scale ^ 2 * h.emission x j := by
  obtain ⟨⟨hfirst, -⟩, hsecond, -⟩ := new_emitVar j
  rw [← hs.emitVar] at hfirst hsecond
  rw [emitLp, Real.exp_add, exp_logGaussian _ _ (by linarith), exp_logGaussian _ _ (by linarith),
    emission]
  ring

theorem Sound.exp_logTrans (hs : h.Sound) (i j : RegimeState) :
    Real.exp (h.logTrans i j) = transition i j := by
  simp only [hs.logTrans, new, transition]
  split_ifs <;> exact Real.exp_log (by norm_num)

/-! ### The greatest exponent -/

theorem le_greatest (x : RegimeState → ℝ) (i : RegimeState) : x i ≤ greatest x :=
  (foldl_max_spec x _ RegimeState.all).2.1 i (by cases i <;> simp [RegimeState.all])

theorem greatest_attained {x : RegimeState → ℝ} {i : RegimeState} (hi : -10 ^ 300 < x i) :
    ∃ k, greatest x = x k := by
  rcases (foldl_max_spec x (-10 ^ 300) RegimeState.all).2.2 with hstart | ⟨k, -, hk⟩
  · exact absurd (le_greatest x i) (by rw [greatest, hstart]; exact hi.not_ge)
  · exact ⟨k, hk⟩

theorem le_logGaussian {x mean var : ℝ} (hx : |x| ≤ 3000) (hmean : |mean| ≤ 3000)
    (hvar : 1 / 10 ^ 7 ≤ var) (hvar' : var ≤ 1) : -10 ^ 15 ≤ logGaussian x mean var := by
  have hpos : 0 < var := lt_of_lt_of_le (by norm_num) hvar
  have hpi : Real.log (2 * kPiV3) ≤ 2 * kPiV3 := Real.log_le_self (by norm_num [kPiV3])
  have hlog : Real.log var ≤ 0 := Real.log_nonpos hpos.le hvar'
  have hdiff : |x - mean| ≤ 6000 := (abs_sub x mean).trans (by linarith)
  have hsq : (x - mean) * (x - mean) ≤ 6000 * 6000 := by
    rw [← abs_mul_abs_self]
    exact mul_le_mul hdiff hdiff (abs_nonneg _) (by norm_num)
  have hinv : 1 / var ≤ 10 ^ 7 := by
    rw [one_div_le hpos (by norm_num)]
    exact hvar
  have hterm : (x - mean) * (x - mean) * (1 / var) ≤ 6000 * 6000 * 10 ^ 7 :=
    mul_le_mul hsq hinv (by positivity) (by norm_num)
  rw [logGaussian, if_neg (by linarith)]
  norm_num [kPiV3] at hpi hterm ⊢
  linarith

/-- No emission falls as low as the number with which the loops begin. -/
theorem Sound.le_emitLp (hs : h.Sound) (hx : |x.1| ≤ 3000) (hx' : |x.2| ≤ 3000) (j : RegimeState) :
    -(2 * 10 ^ 15) ≤ h.emitLp x j := by
  obtain ⟨⟨hfirst, hfirst'⟩, hsecond, hsecond'⟩ := new_emitVar j
  rw [← hs.emitVar] at hfirst hfirst' hsecond hsecond'
  have hret := le_logGaussian hx (hs.means j).1 hfirst hfirst'
  have hvol := le_logGaussian hx' (hs.means j).2 hsecond hsecond'
  rw [emitLp]
  linarith

/-! ### One price -/

/-- The exponents of the forward step, before the common shift. -/
noncomputable def newAlpha (h : OnlineHMM) (x : ℝ × ℝ) : RegimeState → ℝ :=
  logForward (h.emitLp x) h.logTrans (fun j => greatest fun i => h.logAlpha i + h.logTrans i j) h.logAlpha

theorem forwardRecursion_logAlpha (h : OnlineHMM) (x : ℝ × ℝ) :
    (h.forwardRecursion x).logAlpha = fun i => h.newAlpha x i - greatest (h.newAlpha x) := rfl

/-- The emission of the volatile regime keeps the greatest exponent above where the loop began. -/
theorem Sound.newAlpha_attained (hs : h.Sound) (hx : |x.1| ≤ 3000) (hx' : |x.2| ≤ 3000) :
    ∃ k, greatest (h.newAlpha x) = h.newAlpha x k := by
  have htrans (i : RegimeState) : -10 ≤ h.logTrans i .volatile := by
    rw [← Real.exp_le_exp, hs.exp_logTrans, transition]
    have hsmall : Real.exp (-10) ≤ 0.15 := by
      rw [Real.exp_neg, inv_le_comm₀ (Real.exp_pos _) (by norm_num)]
      linarith [Real.add_one_le_exp (10 : ℝ)]
    split_ifs <;> linarith
  have hforward := le_logForward (h.emitLp x) h.logTrans
    (fun j => greatest fun i => h.logAlpha i + h.logTrans i j) h.logAlpha .volatile htrans
  have hnormal : 0 ≤ Real.log (∑ i, Real.exp (h.logAlpha i)) := Real.log_nonneg hs.normalised
  have hemit := hs.le_emitLp hx hx' .volatile
  have habove : -(10 ^ 16) < h.newAlpha x .volatile := by
    rw [newAlpha]
    linarith
  have hbottom : (10 : ℝ) ^ 16 ≤ 10 ^ 300 := pow_le_pow_right₀ (by norm_num) (by norm_num)
  exact greatest_attained ((neg_le_neg hbottom).trans_lt habove)

theorem Sound.forwardRecursion (hs : h.Sound) (hx : |x.1| ≤ 3000) (hx' : |x.2| ≤ 3000) :
    (h.forwardRecursion x).Sound := by
  obtain ⟨k, hk⟩ := hs.newAlpha_attained hx hx'
  refine { hs with normalised := ?_ }
  calc (1 : ℝ) = Real.exp (h.newAlpha x k - greatest (h.newAlpha x)) := by rw [hk, sub_self, Real.exp_zero]
    _ ≤ ∑ i, Real.exp (h.newAlpha x i - greatest (h.newAlpha x)) :=
      Finset.single_le_sum (fun i _ => (Real.exp_pos (h.newAlpha x i - greatest (h.newAlpha x))).le)
        (Finset.mem_univ k)

/-- A step of the recursion is one of the filter on the probabilities. -/
theorem Sound.softmax_forwardRecursion (hs : h.Sound) (x : ℝ × ℝ) :
    softmax (h.forwardRecursion x).logAlpha =
      filterStep (h.emission x) transition (softmax h.logAlpha) := by
  rw [forwardRecursion_logAlpha, softmax_sub_const, newAlpha, softmax_logForward]
  simp only [hs.exp_emitLp, hs.exp_logTrans]
  exact filterStep_mul (pow_ne_zero 2 scale_pos.ne') _ _ _

theorem Sound.adaptParameters (hs : h.Sound) (hx : |x.1| ≤ 3000) (hx' : |x.2| ≤ 3000) :
    (h.adaptParameters x).Sound := by
  have hsum : ¬∑ i, Real.exp (h.logAlpha i) < 1 / 10 ^ 15 := by
    have hnormal := hs.normalised
    linarith
  have hweight (i : RegimeState) : 0 ≤ softmax h.logAlpha i * h.lr ∧ softmax h.logAlpha i * h.lr ≤ 1 := by
    have hpos := softmax_pos h.logAlpha i
    have hle : softmax h.logAlpha i ≤ 1 := by
      rw [← sum_softmax h.logAlpha]
      exact Finset.single_le_sum (fun k _ => (softmax_pos h.logAlpha k).le) (Finset.mem_univ i)
    rw [hs.lr, new]
    constructor <;> linarith
  rw [OnlineHMM.adaptParameters, if_neg hsum]
  exact
    { hs with
      means := fun i =>
        ⟨abs_mix_le (hweight i).1 (hweight i).2 (hs.means i).1 hx,
          abs_mix_le (hweight i).1 (hweight i).2 (hs.means i).2 hx'⟩ }

theorem adaptParameters_logAlpha (h : OnlineHMM) (x : ℝ × ℝ) :
    (h.adaptParameters x).logAlpha = h.logAlpha := by
  rw [adaptParameters]
  split_ifs <;> rfl

/-! ### What is observed -/

theorem Sound.abs_logRet_le (hs : h.Sound) (p : PricePoint) : |h.logRet p.price| ≤ 3000 := by
  rw [logRet]
  split_ifs with hpos
  · rw [Real.log_div hpos.2.ne' hpos.1.ne']
    have hprev := hs.prevPrice.abs_log_le hpos.1
    have hprice := p.finite.abs_log_le hpos.2
    exact (abs_sub _ _).trans (by linarith)
  · norm_num

theorem Sound.nextVol_bounds (hs : h.Sound) (p : PricePoint) :
    0 ≤ h.nextVol p.price ∧ h.nextVol p.price ≤ 3000 ^ 2 := by
  have hret := sq_le_sq' (abs_le.mp (hs.abs_logRet_le p)).1 (abs_le.mp (hs.abs_logRet_le p)).2
  have hnonneg := sq_nonneg (h.logRet p.price)
  have hvol := hs.volNonneg
  have hvol' := hs.volLe
  have hmix : h.nextVol p.price = 0.94 * h.volEwma + 0.06 * h.logRet p.price ^ 2 := by
    rw [nextVol]
    ring
  constructor <;> linarith

theorem Sound.observation_bounds (hs : h.Sound) (p : PricePoint) :
    |(h.observation p.price).1| ≤ 3000 ∧ |(h.observation p.price).2| ≤ 3000 := by
  refine ⟨hs.abs_logRet_le p, ?_⟩
  rw [observation, abs_of_nonneg (Real.sqrt_nonneg _)]
  exact Real.sqrt_le_iff.mpr ⟨by norm_num, (hs.nextVol_bounds p).2⟩

/-! ### One price and all prices -/

/-- The model as it enters the forward recursion. -/
noncomputable def observed (h : OnlineHMM) (price : ℝ) : OnlineHMM :=
  { h with volEwma := h.nextVol price, prevPrice := price, updateCount := wrap32 (h.updateCount + 1) }

theorem Sound.observed (hs : h.Sound) (p : PricePoint) : (h.observed p.price).Sound :=
  { hs with
    volNonneg := (hs.nextVol_bounds p).1
    volLe := (hs.nextVol_bounds p).2
    prevPrice := p.finite }

/-- What a price does to a model: the first one is kept, another one is a step of the recursion, which an
adaptation of the means may follow. -/
theorem update_cases (h : OnlineHMM) (price : ℝ) :
    (h.initialized = false ∧ (h.update price).1 = h.init price) ∨ h.initialized = true ∧
        ((h.update price).1 = ((h.observed price).forwardRecursion (h.observation price)).adaptParameters
            (h.observation price) ∨
          (h.update price).1 = (h.observed price).forwardRecursion (h.observation price)) := by
  cases hinit : h.initialized with
  | false => simp [update, hinit]
  | true =>
    by_cases hcount : (wrap32 (h.updateCount + 1)).tmod 50 = 0
    · exact .inr ⟨rfl, .inl (by simp [update, hinit, hcount, OnlineHMM.observed])⟩
    · exact .inr ⟨rfl, .inr (by simp [update, hinit, hcount, OnlineHMM.observed])⟩

theorem Sound.update (hs : h.Sound) (p : PricePoint) : (h.update p.price).1.Sound := by
  obtain ⟨hx, hx'⟩ := hs.observation_bounds p
  have hmoved := (hs.observed p).forwardRecursion hx hx'
  rcases h.update_cases p.price with ⟨-, heq⟩ | ⟨-, heq | heq⟩ <;> rw [heq]
  · exact { hs with prevPrice := p.finite }
  · exact hmoved.adaptParameters hx hx'
  · exact hmoved

/-- **A price moves the proportions of the exponents as it moves the posterior.** -/
theorem Sound.softmax_update (hs : h.Sound) (p : PricePoint) :
    softmax (h.update p.price).1.logAlpha = h.bayesStep (softmax h.logAlpha) p.price := by
  have hmoved := (hs.observed p).softmax_forwardRecursion (h.observation p.price)
  rcases h.update_cases p.price with ⟨hinit, heq⟩ | ⟨hinit, heq | heq⟩
  · simp [heq, init, bayesStep, hinit]
  · rw [heq, adaptParameters_logAlpha, hmoved, bayesStep, if_pos hinit]
    rfl
  · rw [heq, hmoved, bayesStep, if_pos hinit]
    rfl

/-- The model stays sound over all prices. -/
theorem Sound.updateAll (hs : h.Sound) (prices : List PricePoint) : (h.updateAll prices).Sound := by
  induction prices generalizing h with
  | nil => exact hs
  | cons p rest ih => exact ih (hs.update p)

/-- After any prices the proportions of the exponents are the posterior. -/
theorem Sound.softmax_updateAll (hs : h.Sound) (prices : List PricePoint) :
    softmax (h.updateAll prices).logAlpha = h.posterior (softmax h.logAlpha) prices := by
  induction prices generalizing h with
  | nil => rfl
  | cons p rest ih =>
    rw [posterior, ← hs.softmax_update p]
    exact ih (hs.update p)

theorem Sound.stateProbability_eq (hs : h.Sound) (s : RegimeState) :
    h.stateProbability s = softmax h.logAlpha s := by
  have hsum : ¬∑ i, Real.exp (h.logAlpha i) < 1 / 10 ^ 15 := by
    have hnormal := hs.normalised
    linarith
  rw [stateProbability, if_neg hsum, softmax]

theorem le_mostLikelyState (h : OnlineHMM) (s : RegimeState) : h.logAlpha s ≤ h.logAlpha h.mostLikelyState := by
  obtain ⟨hfirst, hothers⟩ := foldl_argmax_spec h.logAlpha .trendingUp [.trendingDown, .ranging, .volatile]
  cases s with
  | trendingUp => exact hfirst
  | trendingDown => exact hothers _ (by simp)
  | ranging => exact hothers _ (by simp)
  | volatile => exact hothers _ (by simp)

/-- **The model is a Bayes filter.** After any prices its probabilities are the posterior of the textbook
recursion started from the uniform prior, they are positive and sum to one, and the regime that it names
has the greatest. -/
theorem bayes_filter (prices : List PricePoint) :
    (∀ s, (new.updateAll prices).stateProbability s = new.posterior (fun _ => 1 / 4) prices s) ∧
      (∀ s, 0 < (new.updateAll prices).stateProbability s) ∧
      ∑ s, (new.updateAll prices).stateProbability s = 1 ∧ ∀ s, new.posterior (fun _ => 1 / 4) prices s ≤
        new.posterior (fun _ => 1 / 4) prices (new.updateAll prices).mostLikelyState := by
  have hs := sound_new.updateAll prices
  have hprior : softmax new.logAlpha = fun _ => 1 / 4 := by
    funext s
    rw [new, softmax_const]
    rfl
  have hposterior : softmax (new.updateAll prices).logAlpha = new.posterior (fun _ => 1 / 4) prices := by
    rw [sound_new.softmax_updateAll, hprior]
  have hprob (s : RegimeState) :
      (new.updateAll prices).stateProbability s = new.posterior (fun _ => 1 / 4) prices s := by
    rw [hs.stateProbability_eq, hposterior]
  refine ⟨hprob, ?_⟩
  simp only [hprob, ← hposterior]
  exact ⟨softmax_pos _, sum_softmax _, fun s => softmax_le_softmax (le_mostLikelyState _ s)⟩

end OnlineHMM

end TradingSim.Bot
