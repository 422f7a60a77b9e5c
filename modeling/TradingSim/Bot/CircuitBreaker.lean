import Mathlib.Data.Rat.Defs
import Mathlib.Algebra.Order.Field.Rat
import Mathlib.Tactic.Linarith
import TradingSim.Foundations.Run

/-!
# The circuit breaker

Failed order executions trip the breaker; after a cooldown it lets a limited number of probes
through and closes after enough successes. The probes are counted from the end of the cooldown on
and never given back, so a breaker that needs more successes than it has probes left stays half
open.
-/

namespace TradingSim.Bot

open Foundations

inductive BreakerState where
  | closed
  | «open»
  | halfOpen
  deriving DecidableEq

structure CircuitBreakerConfig where
  failureThreshold : ℕ := 5
  cooldownSeconds : ℚ := 60
  halfOpenMaxProbes : ℕ := 1
  successThreshold : ℕ := 2

structure CircuitBreaker where
  state : BreakerState := .closed
  consecutiveFailures : ℕ := 0
  consecutiveSuccesses : ℕ := 0
  openedAt : ℚ := 0
  halfOpenProbes : ℕ := 0
  totalTrips : ℕ := 0
  totalBlocks : ℕ := 0
  deriving DecidableEq

/-- A call on the breaker. -/
inductive BreakerCall where
  | readState
  | allowSignal
  | recordSuccess
  | recordFailure
  deriving DecidableEq

namespace CircuitBreaker

variable (c : CircuitBreakerConfig)

/-- The breaker at the end of its cooldown. -/
def halfOpened (b : CircuitBreaker) : CircuitBreaker :=
  { b with state := .halfOpen, halfOpenProbes := 0 }

/-- Reading the state ends a cooldown that is over. -/
def readState (now : ℚ) (b : CircuitBreaker) : CircuitBreaker :=
  if b.state = .open ∧ c.cooldownSeconds ≤ now - b.openedAt then b.halfOpened else b

/-- Whether a signal is let through, and the breaker after the question. -/
def allowSignal (now : ℚ) (b : CircuitBreaker) : Bool × CircuitBreaker :=
  let b := b.readState c now
  match b.state with
  | .closed => (true, b)
  | .open => (false, { b with totalBlocks := b.totalBlocks + 1 })
  | .halfOpen =>
    if b.halfOpenProbes < c.halfOpenMaxProbes then
      (true, { b with halfOpenProbes := b.halfOpenProbes + 1 })
    else (false, { b with totalBlocks := b.totalBlocks + 1 })

def recordSuccess (b : CircuitBreaker) : CircuitBreaker :=
  match b.state with
  | .halfOpen =>
    let successes := b.consecutiveSuccesses + 1
    if c.successThreshold ≤ successes then
      { b with state := .closed, consecutiveFailures := 0, consecutiveSuccesses := 0 }
    else { b with consecutiveSuccesses := successes }
  | .closed => { b with consecutiveFailures := 0 }
  | .open => b

def trip (now : ℚ) (b : CircuitBreaker) : CircuitBreaker :=
  { b with
    state := .open
    openedAt := now
    totalTrips := b.totalTrips + 1
    consecutiveFailures := 0 }

def recordFailure (now : ℚ) (b : CircuitBreaker) : CircuitBreaker :=
  let b := { b with consecutiveSuccesses := 0 }
  match b.state with
  | .halfOpen => b.trip now
  | _ =>
    let b := { b with consecutiveFailures := b.consecutiveFailures + 1 }
    if c.failureThreshold ≤ b.consecutiveFailures then b.trip now else b

/-- The breaker after a call at a reading of the clock. -/
def step (b : CircuitBreaker) (call : ℚ × BreakerCall) : CircuitBreaker :=
  match call.2 with
  | .readState => b.readState c call.1
  | .allowSignal => (b.allowSignal c call.1).2
  | .recordSuccess => b.recordSuccess c
  | .recordFailure => b.recordFailure c call.1

/-- The breaker can be closed by the passage of time and by allowed signals that succeed. -/
inductive Recovers : ℚ → CircuitBreaker → Prop
  | closed {now : ℚ} {b : CircuitBreaker} (hclosed : b.state = .closed) : Recovers now b
  | wait {now later : ℚ} {b : CircuitBreaker} (hlater : now ≤ later) (h : Recovers later b) :
    Recovers now b
  | round {now : ℚ} {b : CircuitBreaker} (hallowed : (b.allowSignal c now).1 = true)
    (h : Recovers now ((b.allowSignal c now).2.recordSuccess c)) : Recovers now b

/-- The missing successes are not more than the probes left: all of them while the breaker is
open. -/
def EnoughProbes (b : CircuitBreaker) : Prop :=
  match b.state with
  | .closed => True
  | .open => c.successThreshold ≤ c.halfOpenMaxProbes
  | .halfOpen =>
    c.successThreshold + b.halfOpenProbes ≤ c.halfOpenMaxProbes + b.consecutiveSuccesses

instance (b : CircuitBreaker) : Decidable (b.EnoughProbes c) := by
  unfold EnoughProbes
  split <;> infer_instance

/-- Successes are counted while the breaker is half open, and only up to the threshold. -/
structure Counted (b : CircuitBreaker) : Prop where
  none_of_open : b.state = .open → b.consecutiveSuccesses = 0
  lt_of_halfOpen : b.state = .halfOpen → b.consecutiveSuccesses < c.successThreshold

variable {c}

variable {b : CircuitBreaker} (now : ℚ)

theorem readState_cases (b : CircuitBreaker) : b.readState c now = b ∨
      b.state = .open ∧ c.cooldownSeconds ≤ now - b.openedAt ∧ b.readState c now = b.halfOpened := by
  unfold readState
  split_ifs with h
  · exact Or.inr ⟨h.1, h.2, rfl⟩
  · exact Or.inl rfl

theorem Counted.readState (hpos : 0 < c.successThreshold) (h : b.Counted c)
    (now : ℚ) : (b.readState c now).Counted c := by
  rcases readState_cases (c := c) now b with hread | ⟨hopen, -, hread⟩
  · rwa [hread]
  · rw [hread]
    refine ⟨fun hstate => ?_, fun _ => ?_⟩
    · cases hstate
    · exact (h.none_of_open hopen).trans_lt hpos

theorem Counted.allowSignal (hpos : 0 < c.successThreshold)
    (h : b.Counted c) (now : ℚ) : (b.allowSignal c now).2.Counted c := by
  have hread := h.readState hpos now
  unfold CircuitBreaker.allowSignal
  simp only
  split
  · exact hread
  · exact ⟨hread.none_of_open, hread.lt_of_halfOpen⟩
  · split_ifs <;> exact ⟨hread.none_of_open, hread.lt_of_halfOpen⟩

theorem Counted.recordSuccess (h : b.Counted c) : (b.recordSuccess c).Counted c := by
  unfold CircuitBreaker.recordSuccess
  simp only
  split
  · rename_i hstate
    split_ifs with hthreshold
    · exact ⟨fun h => (by cases h), fun h => (by cases h)⟩
    · refine ⟨fun hopen => ?_, fun _ => not_le.mp hthreshold⟩
      rw [hstate] at hopen
      cases hopen
  · exact ⟨h.none_of_open, h.lt_of_halfOpen⟩
  · exact h

theorem Counted.recordFailure (hpos : 0 < c.successThreshold) (now : ℚ) :
    (b.recordFailure c now).Counted c := by
  unfold CircuitBreaker.recordFailure CircuitBreaker.trip
  simp only
  split
  · exact ⟨fun _ => rfl, fun _ => hpos⟩
  · split_ifs <;> exact ⟨fun _ => rfl, fun _ => hpos⟩

theorem counted_step (hpos : 0 < c.successThreshold) (h : b.Counted c)
    (call : ℚ × BreakerCall) : (b.step c call).Counted c := by
  obtain ⟨now, call⟩ := call
  cases call with
  | readState => exact h.readState hpos now
  | allowSignal => exact h.allowSignal hpos now
  | recordSuccess => exact h.recordSuccess
  | recordFailure => exact Counted.recordFailure hpos now

/-- In every run the successes of a half-open breaker stay below the threshold. -/
theorem counted_run (hpos : 0 < c.successThreshold) (calls : List (ℚ × BreakerCall)) :
    Counted c (run (step c) {} calls) := by
  have hinit : Counted c {} := ⟨fun _ => rfl, fun _ => hpos⟩
  have hstep : ∀ (b : CircuitBreaker) (call : ℚ × BreakerCall), Counted c b →
      Counted c (step c b call) := fun _ call h => counted_step hpos h call
  exact run_invariant hstep calls hinit

theorem allowSignal_of_halfOpen (hstate : b.state = .halfOpen) : b.allowSignal c now =
      if b.halfOpenProbes < c.halfOpenMaxProbes then
        (true, { b with halfOpenProbes := b.halfOpenProbes + 1 })
      else (false, { b with totalBlocks := b.totalBlocks + 1 }) := by
  have hread : b.readState c now = b := by
    unfold readState
    rw [if_neg (fun h => by rw [hstate] at h; cases h.1)]
  unfold allowSignal
  simp only [hread, hstate]

theorem allowSignal_of_open (hstate : b.state = .open) : b.allowSignal c now =
      if c.cooldownSeconds ≤ now - b.openedAt then b.halfOpened.allowSignal c now
      else (false, { b with totalBlocks := b.totalBlocks + 1 }) := by
  split_ifs with hover
  · have hread : b.readState c now = b.halfOpened := if_pos ⟨hstate, hover⟩
    unfold allowSignal
    simp only [hread]
    rfl
  · have hread : b.readState c now = b := by
      unfold readState
      rw [if_neg fun h => hover h.2]
    unfold allowSignal
    simp only [hread, hstate]

/-- A probe and its success close the breaker, or count as one of each. -/
theorem round_of_halfOpen (hstate : b.state = .halfOpen) (hprobe : b.halfOpenProbes < c.halfOpenMaxProbes) :
    (b.allowSignal c now).1 = true ∧ if c.successThreshold ≤ b.consecutiveSuccesses + 1 then
        ((b.allowSignal c now).2.recordSuccess c).state = .closed
      else (b.allowSignal c now).2.recordSuccess c =
        { b with
          halfOpenProbes := b.halfOpenProbes + 1
          consecutiveSuccesses := b.consecutiveSuccesses + 1 } := by
  rw [allowSignal_of_halfOpen now hstate, if_pos hprobe]
  refine ⟨rfl, ?_⟩
  unfold recordSuccess
  simp only [hstate]
  split_ifs <;> rfl

theorem recovers_of_halfOpen (hstate : b.state = .halfOpen)
    (hcount : b.consecutiveSuccesses < c.successThreshold)
    (henough : c.successThreshold + b.halfOpenProbes ≤ c.halfOpenMaxProbes + b.consecutiveSuccesses) :
    (b.allowSignal c now).1 = true ∧ Recovers c now ((b.allowSignal c now).2.recordSuccess c) := by
  obtain ⟨missing, hmissing⟩ := Nat.exists_eq_add_of_lt hcount
  induction missing generalizing b with
  | zero =>
    obtain ⟨hallowed, hround⟩ := round_of_halfOpen (c := c) now hstate (by omega)
    rw [if_pos hmissing.le] at hround
    exact ⟨hallowed, Recovers.closed hround⟩
  | succ missing ih =>
    obtain ⟨hallowed, hround⟩ := round_of_halfOpen (c := c) now hstate (by omega)
    rw [if_neg (by omega)] at hround
    rw [hround]
    obtain ⟨hallowed', hrest⟩ := ih (b := { b with
      halfOpenProbes := b.halfOpenProbes + 1
      consecutiveSuccesses := b.consecutiveSuccesses + 1 }) hstate (by grind) (by grind) (by grind)
    exact ⟨hallowed, Recovers.round hallowed' hrest⟩

/-- Enough probes lead back to a closed breaker. -/
theorem recovers_of_enoughProbes (hpos : 0 < c.successThreshold) (now : ℚ)
    (hcounted : b.Counted c) (henough : b.EnoughProbes c) : Recovers c now b := by
  cases hstate : b.state with
  | closed => exact Recovers.closed hstate
  | halfOpen =>
    rw [EnoughProbes, hstate] at henough
    obtain ⟨hallowed, hrest⟩ :=
      recovers_of_halfOpen now hstate (hcounted.lt_of_halfOpen hstate) henough
    exact Recovers.round hallowed hrest
  | «open» =>
    rw [EnoughProbes, hstate] at henough
    have hnone := hcounted.none_of_open hstate
    apply Recovers.wait (le_max_left now (b.openedAt + c.cooldownSeconds))
    have hover : c.cooldownSeconds ≤ max now (b.openedAt + c.cooldownSeconds) - b.openedAt := by
      have hle := le_max_right now (b.openedAt + c.cooldownSeconds)
      linarith
    have hallow := allowSignal_of_open (c := c) (max now (b.openedAt + c.cooldownSeconds)) hstate
    rw [if_pos hover] at hallow
    obtain ⟨hallowed, hrest⟩ := recovers_of_halfOpen (c := c) (b := b.halfOpened)
      (max now (b.openedAt + c.cooldownSeconds)) rfl (hnone.trans_lt hpos)
      (henough.trans (Nat.le_add_right _ _))
    rw [← hallow] at hallowed hrest
    exact Recovers.round hallowed hrest

theorem enoughProbes_of_round {now : ℚ} (hstate : b.state = .halfOpen)
    (hallowed : (b.allowSignal c now).1 = true)
    (hafter : EnoughProbes c ((b.allowSignal c now).2.recordSuccess c)) :
    c.successThreshold + b.halfOpenProbes ≤ c.halfOpenMaxProbes + b.consecutiveSuccesses := by
  have hprobe : b.halfOpenProbes < c.halfOpenMaxProbes := by
    rw [allowSignal_of_halfOpen now hstate] at hallowed
    by_contra hnone
    rw [if_neg hnone] at hallowed
    cases hallowed
  have hround := (round_of_halfOpen now hstate hprobe).2
  split_ifs at hround with hthreshold
  · omega
  · rw [hround, EnoughProbes] at hafter
    simp only [hstate] at hafter
    omega

/-- A breaker that recovers had probes enough for it. -/
theorem enoughProbes_of_recovers (hpos : 0 < c.successThreshold) {now : ℚ}
    (hcounted : b.Counted c) (h : Recovers c now b) : b.EnoughProbes c := by
  induction h with
  | closed hclosed =>
    rw [EnoughProbes, hclosed]
    trivial
  | wait _ _ ih => exact ih hcounted
  | @round now b hallowed _ ih =>
    have hafter := ih (hcounted.allowSignal hpos now).recordSuccess
    cases hstate : b.state with
    | closed =>
      rw [EnoughProbes, hstate]
      trivial
    | halfOpen =>
      rw [EnoughProbes, hstate]
      exact enoughProbes_of_round hstate hallowed hafter
    | «open» =>
      have hnone := hcounted.none_of_open hstate
      have hallow := allowSignal_of_open (c := c) now hstate
      split_ifs at hallow with hover
      · rw [hallow] at hallowed hafter
        have henough := enoughProbes_of_round (b := b.halfOpened) rfl hallowed hafter
        rw [EnoughProbes, hstate]
        change c.successThreshold ≤ c.halfOpenMaxProbes + b.consecutiveSuccesses at henough
        rwa [hnone, Nat.add_zero] at henough
      · rw [hallow] at hallowed
        cases hallowed

/-- After any calls the breaker recovers exactly if it has enough probes: the default configuration,
which asks for two successes and grants one probe, never recovers from being open. -/
theorem recovers_iff_enoughProbes (c : CircuitBreakerConfig) (hpos : 0 < c.successThreshold)
    (calls : List (ℚ × BreakerCall)) (now : ℚ) :
    Recovers c now (run (step c) {} calls) ↔ EnoughProbes c (run (step c) {} calls) := by
  have hcounted := counted_run hpos calls
  constructor
  · exact enoughProbes_of_recovers hpos hcounted
  · exact recovers_of_enoughProbes hpos now hcounted

/-- Five failures trip a breaker. -/
def fiveFailures : List (ℚ × BreakerCall) := List.replicate 5 (0, .recordFailure)

/-- The equivalence for a breaker that has just tripped. -/
theorem recovers_iff_enoughProbes_fiveFailures :
    Recovers {} 0 (run (step {}) {} fiveFailures) ↔ EnoughProbes {} (run (step {}) {} fiveFailures) :=
  recovers_iff_enoughProbes {} (by decide) fiveFailures 0

/-- With the default configuration it stays open or half open. -/
theorem not_recovers_fiveFailures : ¬ Recovers {} 0 (run (step {}) {} fiveFailures) := by
  intro h
  have hpos : 0 < CircuitBreakerConfig.successThreshold {} := by decide
  have hnone : ¬ EnoughProbes {} (run (step {}) {} fiveFailures) := by decide +kernel
  exact hnone (enoughProbes_of_recovers hpos (counted_run hpos fiveFailures) h)

end CircuitBreaker

end TradingSim.Bot
