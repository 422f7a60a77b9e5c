import TradingSim.Backtest.MeasuredRun

/-!
# Grid search

A strategy is run with every combination of the parameters of a grid, and the results are sorted by their
fitness. With more than ten combinations the runs can be left to a pool of processes. A process builds a
backtester of its own, from the balance and the fee alone.
-/

namespace TradingSim.Backtest

open Foundations
open FloatOps

/-- The parameters that a strategy is made with. -/
abbrev Params (V : Type) := List (String × V)

/-- Makes a strategy and its state from parameters, or raises. -/
abbrev StrategyClass (F V σ : Type) := Params V → Except BacktestError (FallibleStrategy F σ × σ)

/-- Result of a single parameter combination. -/
structure OptimizationResult (F V K : Type) where
  params : Params V
  result : MeasuredResult F
  fitness : K

structure StrategyOptimizer (F K : Type) where
  backtester : Engine F
  fitnessFn : MeasuredResult F → Except BacktestError K

/-- A call of `_run_single_backtest`. -/
structure Call (F V σ : Type) where
  strategyClass : StrategyClass F V σ
  params : Params V
  candles : List (Candle F)
  symbol : String
  warmup : ℕ
  initialBalance : F
  feePct : F

/-- A process pool: from the number of workers and the calls to what each call comes to, or an error of its
own. -/
abbrev Pool (F V σ : Type) :=
  Option ℤ → List (Call F V σ) → Except BacktestError (List (Except BacktestError (MeasuredResult F)))

/-- The errors that a search goes on after. -/
def BacktestError.isCaught : BacktestError → Bool
  | .python .valueError | .python .keyError | .runtimeError | .osError => true
  | .python _ => false

/-- All choices of one value from each list, the last one varying fastest. -/
def product {V : Type} : List (List V) → List (List V)
  | [] => [[]]
  | values :: rest => values.flatMap fun value => (product rest).map (value :: ·)

/-- `xs[:bound]`. -/
def sliceTo {α : Type} (xs : List α) (bound : ℤ) : List α :=
  if 0 ≤ bound then xs.take bound.toNat else xs.take (xs.length + bound).toNat

section Search

variable {F V K σ : Type} [FloatOps F]

/-- The fitness without a function of one's own: the return and the Sharpe ratio, less the drawdown. -/
def defaultFitness (result : MeasuredResult F) : Except BacktestError F :=
  if result.totalTrades = 0 then .ok (lit (-999))
  else
    let returnScore := result.totalReturnPct
    let sharpeScore := result.sharpeRatio * lit 5
    let ddPenalty := (lit 0 - result.maxDrawdownPct) * lit (1 / 2)
    let pfBonus :=
      match result.profitFactor with
      | none => lit 5 * lit 2
      | some factor => if lt (lit 0) factor then FloatOps.min (lit 5) factor * lit 2 else lit (-5)
    .ok (returnScore + sharpeScore + ddPenalty + pfBonus)

theorem exists_defaultFitness (result : MeasuredResult F) :
    ∃ fitness, defaultFitness result = .ok fitness := by
  rw [defaultFitness]
  split_ifs
  · exact ⟨_, rfl⟩
  · exact ⟨_, rfl⟩

/-- The backtester that a process builds. -/
def Engine.rebuilt (initialBalance feePct : F) : Engine F :=
  { Engine.default with initialBalance := initialBalance, feePct := feePct }

/-- Make a strategy and run it. -/
def Engine.runMade (engine : Engine F) (root : F → F) (strategyClass : StrategyClass F V σ) (params : Params V)
    (candles : List (Candle F)) (symbol : String) (warmup : ℕ) : Except BacktestError (MeasuredResult F) := do
  let (strategy, state) ← strategyClass params
  engine.run root strategy state symbol warmup candles

def runSingleBacktest (root : F → F) (call : Call F V σ) : Except BacktestError (MeasuredResult F) :=
  (Engine.rebuilt call.initialBalance call.feePct).runMade root call.strategyClass call.params call.candles
    call.symbol call.warmup

/-- What a run comes to, with its fitness. -/
def optimized (fitnessFn : MeasuredResult F → Except BacktestError K) (params : Params V)
    (outcome : Except BacktestError (MeasuredResult F)) : Except BacktestError (OptimizationResult F V K) := do
  let result ← outcome
  let fitness ← fitnessFn result
  return { params := params, result := result, fitness := fitness }

/-- The results of the runs that went through, up to an error that is not caught. -/
def collect (fitnessFn : MeasuredResult F → Except BacktestError K) :
    List (Params V × Except BacktestError (MeasuredResult F)) →
      Except BacktestError (List (OptimizationResult F V K))
  | [] => .ok []
  | (params, outcome) :: rest =>
    match optimized fitnessFn params outcome with
    | .ok result => return result :: (← collect fitnessFn rest)
    | .error e => if e.isCaught then collect fitnessFn rest else .error e

section Collect

variable {fitnessFn : MeasuredResult F → Except BacktestError K}

omit [FloatOps F]

theorem optimized_eq_ok_iff {params : Params V} {outcome : Except BacktestError (MeasuredResult F)}
    {x : OptimizationResult F V K} : optimized fitnessFn params outcome = .ok x ↔
      x.params = params ∧ outcome = .ok x.result ∧ fitnessFn x.result = .ok x.fitness := by
  cases outcome with
  | error e => simp [optimized, bind, Except.bind]
  | ok result =>
    cases hfitness : fitnessFn result with
    | error e =>
      simp only [optimized, bind, Except.bind, hfitness, reduceCtorEq, Except.ok.injEq, false_iff, not_and]
      rintro - rfl
      simp [hfitness]
    | ok fitness =>
      simp only [optimized, bind, Except.bind, hfitness, pure, Except.pure, Except.ok.injEq]
      constructor
      · rintro rfl
        exact ⟨rfl, rfl, hfitness⟩
      · rintro ⟨rfl, rfl, hsame⟩
        rw [hfitness] at hsame
        rw [Except.ok.inj hsame]

/-- Every result is one of a run. -/
theorem mem_collect {runs : List (Params V × Except BacktestError (MeasuredResult F))}
    {results : List (OptimizationResult F V K)} (h : collect fitnessFn runs = .ok results)
    {x : OptimizationResult F V K} (hx : x ∈ results) :
    ∃ run ∈ runs, optimized fitnessFn run.1 run.2 = .ok x := by
  induction runs generalizing results with
  | nil =>
    obtain rfl := Except.ok.inj h
    exact absurd hx List.not_mem_nil
  | cons run rest ih =>
    rw [collect] at h
    cases hrun : optimized fitnessFn run.1 run.2 with
    | error e =>
      simp only [hrun] at h
      split_ifs at h
      obtain ⟨run', hmem, hrun'⟩ := ih h hx
      exact ⟨run', List.mem_cons_of_mem _ hmem, hrun'⟩
    | ok result =>
      simp only [hrun] at h
      cases hrest : collect fitnessFn rest with
      | error e => simp [hrest, bind, Except.bind] at h
      | ok others =>
        simp only [hrest, bind, Except.bind, pure, Except.pure, Except.ok.injEq] at h
        obtain rfl := h
        obtain rfl | hx := List.mem_cons.mp hx
        · exact ⟨run, List.mem_cons_self, hrun⟩
        · obtain ⟨run', hmem, hrun'⟩ := ih hrest hx
          exact ⟨run', List.mem_cons_of_mem _ hmem, hrun'⟩

theorem collect_map_ok {α : Type} (xs : List α) (params : α → Params V) {result : MeasuredResult F} {fitness : K}
    (h : fitnessFn result = .ok fitness) : collect fitnessFn (xs.map fun x => (params x, .ok result)) =
      .ok (xs.map fun x => { params := params x, result := result, fitness := fitness }) := by
  induction xs with
  | nil => rfl
  | cons x rest ih =>
    have hfirst : optimized fitnessFn (params x) (.ok result) =
        .ok { params := params x, result := result, fitness := fitness } :=
      optimized_eq_ok_iff.mpr ⟨rfl, rfl, h⟩
    simp only [List.map_cons, collect, hfirst, ih]
    rfl

end Collect

namespace StrategyOptimizer

variable (o : StrategyOptimizer F K)

def sequentialGridSearch (root : F → F) (strategyClass : StrategyClass F V σ) (keys : List String)
    (combinations : List (List V)) (candles : List (Candle F)) (symbol : String) (warmup : ℕ) :
    Except BacktestError (List (OptimizationResult F V K)) :=
  collect o.fitnessFn (combinations.map fun combo =>
    (keys.zip combo, o.backtester.runMade root strategyClass (keys.zip combo) candles symbol warmup))

def parallelGridSearch (root : F → F) (pool : Pool F V σ) (strategyClass : StrategyClass F V σ)
    (keys : List String) (combinations : List (List V)) (candles : List (Candle F)) (symbol : String)
    (warmup : ℕ) (nWorkers : Option ℤ) : Except BacktestError (List (OptimizationResult F V K)) :=
  let calls := combinations.map fun combo =>
    { strategyClass := strategyClass
      params := keys.zip combo
      candles := candles
      symbol := symbol
      warmup := warmup
      initialBalance := o.backtester.initialBalance
      feePct := o.backtester.feePct : Call F V σ }
  match pool nWorkers calls with
  | .ok outcomes => collect o.fitnessFn ((calls.map (·.params)).zip outcomes)
  | .error e =>
    if e = .osError ∨ e = .runtimeError then
      o.sequentialGridSearch root strategyClass keys combinations candles symbol warmup
    else .error e

/-- Run the strategy with all combinations of parameters and sort the results, the fittest first. -/
def gridSearch [LinearOrder K] (root : F → F) (pool : Pool F V σ) (strategyClass : StrategyClass F V σ)
    (paramGrid : List (String × List V)) (candles : List (Candle F)) (symbol : String) (warmup : ℕ)
    (maxCombinations : ℤ) (parallel : Bool) (nWorkers : Option ℤ) :
    Except BacktestError (List (OptimizationResult F V K)) := do
  let keys := paramGrid.map (·.1)
  let all := product (paramGrid.map (·.2))
  let combinations := if maxCombinations < all.length then sliceTo all maxCombinations else all
  let total := if maxCombinations < all.length then maxCombinations else all.length
  let results ←
    if parallel ∧ 10 < total then
      o.parallelGridSearch root pool strategyClass keys combinations candles symbol warmup nWorkers
    else o.sequentialGridSearch root strategyClass keys combinations candles symbol warmup
  return results.mergeSort fun x y => y.fitness ≤ x.fitness

/-! ### The two ways to search -/

/-- The pool evaluates each call as `_run_single_backtest` does. -/
def Evaluates (root : F → F) (pool : Pool F V σ) (nWorkers : Option ℤ) : Prop :=
  ∀ calls, pool nWorkers calls = .ok (calls.map (runSingleBacktest root))

/-- The optimizer with a backtester as the processes build it. -/
def rebuilt : StrategyOptimizer F K :=
  { o with backtester := Engine.rebuilt o.backtester.initialBalance o.backtester.feePct }

/-- The search is left to the pool. -/
def Distributed (paramGrid : List (String × List V)) (maxCombinations : ℤ) : Prop :=
  10 < (paramGrid.map (·.2.length)).prod ∧ 10 < maxCombinations

instance (paramGrid : List (String × List V)) (maxCombinations : ℤ) :
    Decidable (Distributed paramGrid maxCombinations) := inferInstanceAs (Decidable (_ ∧ _))

variable {o} {root : F → F} {pool : Pool F V σ} {strategyClass : StrategyClass F V σ}
  {paramGrid : List (String × List V)} {candles : List (Candle F)} {symbol : String} {warmup : ℕ}
  {maxCombinations : ℤ} {nWorkers : Option ℤ}

omit [FloatOps F] in
theorem length_product (lists : List (List V)) : (product lists).length = (lists.map List.length).prod := by
  induction lists with
  | nil => rfl
  | cons values rest ih =>
    simp only [product, List.length_flatMap, List.length_map, List.map_const', List.sum_replicate_nat, ih,
      List.map_cons, List.prod_cons]

/-- The processes together do what one does with the settings that they are built from. -/
theorem parallelGridSearch_eq (h : Evaluates root pool nWorkers) (keys : List String)
    (combinations : List (List V)) :
    o.parallelGridSearch root pool strategyClass keys combinations candles symbol warmup nWorkers =
      o.rebuilt.sequentialGridSearch root strategyClass keys combinations candles symbol warmup := by
  rw [parallelGridSearch, h]
  simp only [List.map_map]
  rw [sequentialGridSearch, List.zip_map', Function.comp_def]
  rfl

/-- The total that decides between the two ways. -/
theorem distributed_iff : Distributed paramGrid maxCombinations ↔
      10 < if maxCombinations < (product (paramGrid.map (·.2))).length then maxCombinations
        else (product (paramGrid.map (·.2))).length := by
  rw [Distributed, length_product, List.map_map]
  split_ifs with htruncated
  · exact ⟨fun h => h.2, fun h => ⟨by exact_mod_cast h.trans htruncated, h⟩⟩
  · refine ⟨fun h => by exact_mod_cast h.1, fun h => ⟨by exact_mod_cast h, ?_⟩⟩
    exact h.trans_le (not_lt.mp htruncated)

theorem gridSearch_of_not_distributed [LinearOrder K] (h : ¬ Distributed paramGrid maxCombinations)
    (parallel : Bool) :
    o.gridSearch root pool strategyClass paramGrid candles symbol warmup maxCombinations parallel nWorkers =
      o.gridSearch root pool strategyClass paramGrid candles symbol warmup maxCombinations false nWorkers := by
  rw [distributed_iff] at h
  simp only [gridSearch, h, and_false, ↓reduceIte]

theorem gridSearch_of_distributed [LinearOrder K] (h : Distributed paramGrid maxCombinations)
    (hpool : Evaluates root pool nWorkers) :
    o.gridSearch root pool strategyClass paramGrid candles symbol warmup maxCombinations true nWorkers =
      o.rebuilt.gridSearch root pool strategyClass paramGrid candles symbol warmup maxCombinations false
        nWorkers := by
  rw [distributed_iff] at h
  simp only [gridSearch, h, and_self, Bool.false_eq_true, false_and, ↓reduceIte, parallelGridSearch_eq hpool]

theorem gridSearch_congr [LinearOrder K] {o' : StrategyOptimizer F K} (hfitness : o.fitnessFn = o'.fitnessFn)
    (hrun : ∀ params, o.backtester.runMade root strategyClass params candles symbol warmup =
      o'.backtester.runMade root strategyClass params candles symbol warmup) :
    o.gridSearch root pool strategyClass paramGrid candles symbol warmup maxCombinations false nWorkers =
      o'.gridSearch root pool strategyClass paramGrid candles symbol warmup maxCombinations false nWorkers := by
  simp only [gridSearch, sequentialGridSearch, hfitness, hrun]
  rfl

theorem exists_combinations (h : Distributed paramGrid maxCombinations) :
    ∃ combinations : List (List V), combinations ≠ [] ∧
      (if maxCombinations < (product (paramGrid.map (·.2))).length then
        sliceTo (product (paramGrid.map (·.2))) maxCombinations
      else product (paramGrid.map (·.2))) = combinations := by
  refine ⟨_, ?_, rfl⟩
  have hlength : 10 < (product (paramGrid.map (·.2))).length := by
    rw [length_product, List.map_map]
    exact h.1
  have hmax := h.2
  rw [← List.length_pos_iff]
  split_ifs
  · rw [sliceTo, if_pos (by omega), List.length_take]
    omega
  · omega

/-- If searching in parallel and in sequence give the same, then a run of the rebuilt backtester that goes
through is one of the backtester itself. -/
theorem run_of_gridSearch_eq [LinearOrder K] {engine : Engine F}
    {fitnessFn : MeasuredResult F → Except BacktestError K} {strategy : FallibleStrategy F σ} {state : σ}
    {result : MeasuredResult F} {fitness : K} (hfitness : fitnessFn result = .ok fitness)
    (h : Distributed paramGrid maxCombinations) (hpool : Evaluates root pool nWorkers)
    (hrebuilt : (Engine.rebuilt engine.initialBalance engine.feePct).run root strategy state symbol warmup candles =
      .ok result)
    (hsame : ({ backtester := engine, fitnessFn := fitnessFn } : StrategyOptimizer F K).gridSearch root
        pool (fun _ => .ok (strategy, state)) paramGrid candles symbol warmup maxCombinations true nWorkers =
      ({ backtester := engine, fitnessFn := fitnessFn } : StrategyOptimizer F K).gridSearch root
        pool (fun _ => .ok (strategy, state)) paramGrid candles symbol warmup maxCombinations false nWorkers) :
    engine.run root strategy state symbol warmup candles = .ok result := by
  obtain ⟨combinations, hne, hcombinations⟩ := exists_combinations h
  obtain ⟨combo, hcombo⟩ := List.exists_mem_of_ne_nil _ hne
  rw [gridSearch_of_distributed h hpool] at hsame
  have hmade (e : Engine F) (params : Params V) : e.runMade root (fun _ => .ok (strategy, state)) params candles
      symbol warmup = e.run root strategy state symbol warmup candles := rfl
  simp only [gridSearch, hcombinations, Bool.false_eq_true, false_and, ↓reduceIte, sequentialGridSearch, rebuilt,
    hmade, hrebuilt] at hsame
  rw [collect_map_ok combinations _ hfitness] at hsame
  generalize hrun : engine.run root strategy state symbol warmup candles = outcome at hsame ⊢
  cases hcollect : collect fitnessFn
    (combinations.map fun combo => ((paramGrid.map (·.1)).zip combo, outcome)) with
  | error e =>
    rw [hcollect] at hsame
    cases hsame
  | ok results =>
    rw [hcollect] at hsame
    have hsorted := Except.ok.inj hsame
    have hmem : { params := (paramGrid.map (·.1)).zip combo, result := result, fitness := fitness } ∈
        results.mergeSort fun x y => decide (y.fitness ≤ x.fitness) := by
      rw [← hsorted, List.mem_mergeSort]
      exact List.mem_map_of_mem hcombo
    obtain ⟨run, hmemRun, hoptimized⟩ := mem_collect hcollect (List.mem_mergeSort.mp hmem)
    obtain ⟨_, -, rfl⟩ := List.mem_map.mp hmemRun
    exact (optimized_eq_ok_iff.mp hoptimized).2.1

end StrategyOptimizer

end Search

end TradingSim.Backtest
