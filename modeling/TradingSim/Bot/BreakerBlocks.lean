import TradingSim.Bot.CircuitBreaker

/-!
# What the circuit breaker blocks

The failures that are counted while the breaker is closed are those since the last success or since it was
closed, so that it trips at the threshold and not before. A tripped breaker lets no signal through until its
cooldown is over, and a half-open one at most as many as it has probes, unless it is reset.
-/

namespace TradingSim.Bot

open Foundations

/-- What can be done with a breaker. -/
inductive BreakerOp where
  | call (call : BreakerCall)
  | reset
  deriving DecidableEq

namespace CircuitBreaker

/-- Force a breaker to be closed. -/
def reset (b : CircuitBreaker) : CircuitBreaker :=
  { b with
    state := .closed
    consecutiveFailures := 0
    consecutiveSuccesses := 0
    halfOpenProbes := 0 }

variable (c : CircuitBreakerConfig)

/-- The breaker after an operation at a reading of the clock. -/
def perform (b : CircuitBreaker) (op : ℚ × BreakerOp) : CircuitBreaker :=
  match op.2 with
  | .call call => b.step c (op.1, call)
  | .reset => b.reset

/-- A new breaker after a sequence of operations. -/
def after (ops : List (ℚ × BreakerOp)) : CircuitBreaker := run (perform c) {} ops

/-- The operation lets a signal through. -/
def Allows (b : CircuitBreaker) (op : ℚ × BreakerOp) : Prop :=
  op.2 = .call .allowSignal ∧ (b.allowSignal c op.1).1 = true

instance (b : CircuitBreaker) (op : ℚ × BreakerOp) : Decidable (b.Allows c op) :=
  inferInstanceAs (Decidable (_ ∧ _))

/-- The operation trips the breaker. -/
def Trips (b : CircuitBreaker) (op : ℚ × BreakerOp) : Prop :=
  (b.perform c op).totalTrips = b.totalTrips + 1

/-- How many signals a sequence of operations lets through. -/
def allowed : CircuitBreaker → List (ℚ × BreakerOp) → ℕ
  | _, [] => 0
  | b, op :: rest => (if b.Allows c op then 1 else 0) + allowed (b.perform c op) rest

/-- The failures recorded on a closed breaker since the last success recorded there or since it was closed,
after one more operation. -/
def tally (b : CircuitBreaker) (failures : ℕ) : BreakerOp → ℕ
  | .reset => 0
  | .call call =>
    if b.state = .closed then match call with
      | .recordFailure => failures + 1
      | .recordSuccess => 0
      | _ => failures else 0

/-- A breaker together with the tally of its failures, after one more operation. -/
def performTallied (s : CircuitBreaker × ℕ) (op : ℚ × BreakerOp) : CircuitBreaker × ℕ :=
  (s.1.perform c op, tally s.1 s.2 op.2)

/-- The tally of a new breaker after a sequence of operations. -/
def closedFailures (ops : List (ℚ × BreakerOp)) : ℕ := (run (performTallied c) ({}, 0) ops).2

variable {c}

@[simp] theorem after_concat (ops : List (ℚ × BreakerOp)) (op : ℚ × BreakerOp) :
    after c (ops ++ [op]) = (after c ops).perform c op :=
  run_append _ _ _ _

theorem run_performTallied_fst (b : CircuitBreaker) (failures : ℕ) (ops : List (ℚ × BreakerOp)) :
    (run (performTallied c) (b, failures) ops).1 = run (perform c) b ops := by
  induction ops generalizing b failures with
  | nil => rfl
  | cons op rest ih => exact ih _ _

theorem closedFailures_concat (ops : List (ℚ × BreakerOp)) (op : ℚ × BreakerOp) :
    closedFailures c (ops ++ [op]) = tally (after c ops) (closedFailures c ops) op.2 := by
  rw [closedFailures, run_append, run_cons, run_nil, performTallied, run_performTallied_fst]
  rfl

section Closed

variable {b : CircuitBreaker}

theorem readState_of_ne_open (now : ℚ) (h : b.state ≠ .open) : b.readState c now = b :=
  if_neg fun hopen => h hopen.1

theorem perform_of_closed (hclosed : b.state = .closed) (op : ℚ × BreakerOp) : b.perform c op =
      match op.2 with
      | .reset => b.reset
      | .call .recordSuccess => { b with consecutiveFailures := 0 }
      | .call .recordFailure =>
        let counted := { b with
          consecutiveSuccesses := 0, consecutiveFailures := b.consecutiveFailures + 1 }
        if c.failureThreshold ≤ b.consecutiveFailures + 1 then counted.trip op.1 else counted
      | _ => b := by
  have hread : b.readState c op.1 = b := readState_of_ne_open _ (by simp [hclosed])
  obtain ⟨now, op⟩ := op
  cases op with
  | reset => rfl
  | call call =>
    cases call with
    | readState => exact hread
    | allowSignal => simp only [perform, step, allowSignal, hread, hclosed]
    | recordSuccess => simp only [perform, step, recordSuccess, hclosed]
    | recordFailure => simp only [perform, step, recordFailure, hclosed]

/-- Asking for a signal changes the state and the record of trips as reading the state does. -/
theorem allowSignal_frame (now : ℚ) (b : CircuitBreaker) :
    (b.allowSignal c now).2.state = (b.readState c now).state ∧
      (b.allowSignal c now).2.openedAt = (b.readState c now).openedAt ∧
      (b.allowSignal c now).2.totalTrips = (b.readState c now).totalTrips := by
  rw [allowSignal]
  split
  · exact ⟨rfl, rfl, rfl⟩
  · exact ⟨rfl, rfl, rfl⟩
  · split_ifs <;> exact ⟨rfl, rfl, rfl⟩

theorem readState_state_of_ne_closed (h : b.state ≠ .closed) (now : ℚ) :
    (b.readState c now).state ≠ .closed := by
  rcases readState_cases (c := c) now b with hread | ⟨-, -, hread⟩
  · rwa [hread]
  · simp [hread, halfOpened]

/-- An operation that closes a breaker leaves no failures counted. -/
theorem perform_closes (hopen : b.state ≠ .closed) {op : ℚ × BreakerOp}
    (hcloses : (b.perform c op).state = .closed) : (b.perform c op).consecutiveFailures = 0 := by
  obtain ⟨now, op⟩ := op
  cases op with
  | reset => rfl
  | call call =>
    cases call with
    | readState => exact absurd hcloses (readState_state_of_ne_closed hopen now)
    | allowSignal =>
      have hread := readState_state_of_ne_closed (c := c) hopen now
      rw [← (allowSignal_frame now b).1] at hread
      exact absurd hcloses hread
    | recordSuccess =>
      simp only [perform, step, recordSuccess] at hcloses ⊢
      split at hcloses
      · split_ifs at hcloses with hthreshold
        · simp [hthreshold]
        · exact absurd hcloses hopen
      · rename_i hclosed
        exact absurd hclosed hopen
      · exact absurd hcloses hopen
    | recordFailure =>
      simp only [perform, step, recordFailure, trip] at hcloses
      split at hcloses
      · cases hcloses
      · split_ifs at hcloses
        exact absurd hcloses hopen

/-- A closed breaker has counted the failures of the tally, and they are below the threshold. -/
def Tallies (c : CircuitBreakerConfig) (s : CircuitBreaker × ℕ) : Prop :=
  s.1.state = .closed → s.1.consecutiveFailures = s.2 ∧ s.2 < c.failureThreshold

theorem tallies_step (hpos : 0 < c.failureThreshold) {s : CircuitBreaker × ℕ} (h : Tallies c s)
    (op : ℚ × BreakerOp) : Tallies c (performTallied c s op) := by
  intro hafter
  obtain ⟨b, failures⟩ := s
  by_cases hclosed : b.state = .closed
  · obtain ⟨hcount, hlt⟩ := h hclosed
    simp only [performTallied, perform_of_closed hclosed, tally] at hafter hcount ⊢
    obtain ⟨now, op⟩ := op
    cases op with
    | reset => exact ⟨rfl, hpos⟩
    | call call =>
      cases call with
      | readState => simpa [hclosed] using ⟨hcount, hlt⟩
      | allowSignal => simpa [hclosed] using ⟨hcount, hlt⟩
      | recordSuccess => simpa [hclosed] using hpos
      | recordFailure =>
        split_ifs at hafter ⊢ with hthreshold
        · cases hafter
        · simp
          omega
  · have hnone : tally b failures op.2 = 0 := by
      rw [tally.eq_def]
      split <;> simp [hclosed]
    refine ⟨?_, ?_⟩
    · rw [performTallied, hnone]
      exact perform_closes hclosed hafter
    · rw [performTallied, hnone]
      exact hpos

theorem leaves_closed_iff (hpos : 0 < c.failureThreshold) {failures : ℕ}
    (h : Tallies c (b, failures)) (hclosed : b.state = .closed) (op : ℚ × BreakerOp) :
    (b.perform c op).state ≠ .closed ↔ tally b failures op.2 = c.failureThreshold := by
  obtain ⟨hcount, hlt⟩ := h hclosed
  obtain ⟨now, op⟩ := op
  rw [perform_of_closed hclosed]
  cases op with
  | reset => simpa [reset, tally] using hpos.ne
  | call call =>
    cases call with
    | readState => simpa [hclosed, tally] using hlt.ne
    | allowSignal => simpa [hclosed, tally] using hlt.ne
    | recordSuccess => simpa [hclosed, tally] using hpos.ne
    | recordFailure =>
      dsimp only at hcount ⊢
      split_ifs with hthreshold
      · simp [trip, tally, hclosed]
        omega
      · simp [tally, hclosed]
        omega

end Closed

section Tripped

variable {b : CircuitBreaker}

theorem perform_failure_of_halfOpen (hstate : b.state = .halfOpen) (now : ℚ) :
    b.perform c (now, .call .recordFailure) = { b with consecutiveSuccesses := 0 }.trip now := by
  simp only [perform, step, recordFailure, hstate]

theorem readState_totalTrips (now : ℚ) (b : CircuitBreaker) :
    (b.readState c now).totalTrips = b.totalTrips := by
  rcases readState_cases (c := c) now b with hread | ⟨-, -, hread⟩
  · rw [hread]
  · rw [hread]
    rfl

/-- A failure opens a breaker at that time, or it is counted and the breaker stays as it is. -/
theorem recordFailure_cases (now : ℚ) (b : CircuitBreaker) :
    ((b.recordFailure c now).state = .open ∧ (b.recordFailure c now).openedAt = now) ∨
      ((b.recordFailure c now).state = b.state ∧ (b.recordFailure c now).openedAt = b.openedAt ∧
        (b.recordFailure c now).totalTrips = b.totalTrips) := by
  rw [recordFailure]
  dsimp only
  split
  · exact Or.inl ⟨rfl, rfl⟩
  · split_ifs
    · exact Or.inl ⟨rfl, rfl⟩
    · exact Or.inr ⟨rfl, rfl, rfl⟩

variable {op : ℚ × BreakerOp}

theorem opened_of_trips (h : b.Trips c op) :
    (b.perform c op).state = .open ∧ (b.perform c op).openedAt = op.1 := by
  obtain ⟨now, op⟩ := op
  rw [Trips] at h
  cases op with
  | reset => exact absurd h (Nat.ne_of_lt (Nat.lt_succ_self _))
  | call call =>
    cases call with
    | readState =>
      have htrips := readState_totalTrips (c := c) now b
      simp only [perform, step] at h
      omega
    | allowSignal =>
      have htrips := (allowSignal_frame (c := c) now b).2.2
      rw [readState_totalTrips] at htrips
      simp only [perform, step] at h
      omega
    | recordSuccess =>
      have htrips : (b.recordSuccess c).totalTrips = b.totalTrips := by
        rw [recordSuccess]
        split
        · dsimp only
          split_ifs <;> rfl
        · rfl
        · rfl
      simp only [perform, step] at h
      omega
    | recordFailure =>
      rcases recordFailure_cases (c := c) now b with hopened | ⟨-, -, htrips⟩
      · exact hopened
      · simp only [perform, step] at h
        omega

/-- The breaker was opened no earlier than a trip. -/
def OpenSince (tripped : ℚ) (b : CircuitBreaker) : Prop := b.state = .open ∧ tripped ≤ b.openedAt

/-- During the cooldown every operation but a reset leaves the breaker open. -/
theorem OpenSince.perform {tripped : ℚ} (h : OpenSince tripped b)
    (hreset : op.2 ≠ .reset) (hlater : tripped ≤ op.1)
    (hcooldown : op.1 < tripped + c.cooldownSeconds) : OpenSince tripped (b.perform c op) := by
  obtain ⟨hopen, hsince⟩ := h
  obtain ⟨now, op⟩ := op
  have hread : b.readState c now = b := by
    rcases readState_cases (c := c) now b with hread | ⟨-, hover, -⟩
    · exact hread
    · linarith
  cases op with
  | reset => exact absurd rfl hreset
  | call call =>
    cases call with
    | readState => exact ⟨(congrArg state hread).trans hopen, hsince.trans_eq (congrArg openedAt hread).symm⟩
    | allowSignal =>
      obtain ⟨hstate, hopened, -⟩ := allowSignal_frame (c := c) now b
      rw [hread] at hstate hopened
      exact ⟨hstate.trans hopen, hsince.trans_eq hopened.symm⟩
    | recordSuccess =>
      have hsame : b.recordSuccess c = b := by rw [recordSuccess, hopen]
      exact ⟨(congrArg state hsame).trans hopen, hsince.trans_eq (congrArg openedAt hsame).symm⟩
    | recordFailure =>
      rcases recordFailure_cases (c := c) now b with ⟨hstate, hopened⟩ | ⟨hstate, hopened, -⟩
      · exact ⟨hstate, hlater.trans_eq hopened.symm⟩
      · exact ⟨hstate.trans hopen, hsince.trans_eq hopened.symm⟩

/-- During the cooldown no signal is let through. -/
theorem OpenSince.not_allows {tripped : ℚ} (h : OpenSince tripped b)
    (hcooldown : op.1 < tripped + c.cooldownSeconds) : ¬ b.Allows c op := by
  rintro ⟨-, hallowed⟩
  rw [allowSignal_of_open op.1 h.1, if_neg (by linarith [h.2])] at hallowed
  cases hallowed

/-- During the cooldown operations other than resets leave the breaker open. -/
theorem OpenSince.run {tripped : ℚ} (h : OpenSince tripped b)
    {ops : List (ℚ × BreakerOp)} (hops : ∀ op ∈ ops, op.2 ≠ .reset ∧ tripped ≤ op.1 ∧
      op.1 < tripped + c.cooldownSeconds) : OpenSince tripped (run (CircuitBreaker.perform c) b ops) := by
  induction ops generalizing b with
  | nil => exact h
  | cons op rest ih =>
    obtain ⟨⟨hreset, hlater, hcooldown⟩, hrest⟩ := List.forall_mem_cons.mp hops
    exact ih (h.perform hreset hlater hcooldown) hrest

end Tripped

section Probes

variable {b : CircuitBreaker}

theorem allowSignal_probes (now : ℚ) (hstate : b.state = .halfOpen)
    (hprobes : b.halfOpenProbes ≤ c.halfOpenMaxProbes) : (b.allowSignal c now).2.halfOpenProbes =
        b.halfOpenProbes + (if (b.allowSignal c now).1 = true then 1 else 0) ∧
      (b.allowSignal c now).2.halfOpenProbes ≤ c.halfOpenMaxProbes := by
  rw [allowSignal_of_halfOpen now hstate]
  by_cases hleft : b.halfOpenProbes < c.halfOpenMaxProbes
  · rw [if_pos hleft]
    exact ⟨rfl, hleft⟩
  · rw [if_neg hleft]
    exact ⟨rfl, hprobes⟩

theorem perform_halfOpen (hstate : b.state = .halfOpen) {op : ℚ × BreakerOp}
    (hstays : (b.perform c op).state = .halfOpen) (hprobes : b.halfOpenProbes ≤ c.halfOpenMaxProbes) :
    (b.perform c op).halfOpenProbes = b.halfOpenProbes + (if b.Allows c op then 1 else 0) ∧
      (b.perform c op).halfOpenProbes ≤ c.halfOpenMaxProbes := by
  obtain ⟨now, op⟩ := op
  cases op with
  | reset => cases hstays
  | call call =>
    cases call with
    | readState =>
      have hread : b.readState c now = b := readState_of_ne_open _ (by simp [hstate])
      simp [perform, step, Allows, hread, hprobes]
    | allowSignal =>
      simpa [perform, step, Allows] using allowSignal_probes now hstate hprobes
    | recordSuccess =>
      have hsame : (b.recordSuccess c).halfOpenProbes = b.halfOpenProbes := by
        simp only [recordSuccess, hstate]
        split_ifs <;> rfl
      simp [perform, step, Allows, hsame, hprobes]
    | recordFailure =>
      rw [perform_failure_of_halfOpen hstate] at hstays
      cases hstays

theorem perform_halfOpens (hstate : b.state ≠ .halfOpen) {op : ℚ × BreakerOp}
    (hopens : (b.perform c op).state = .halfOpen) :
    (b.perform c op).halfOpenProbes = (if b.Allows c op then 1 else 0) ∧
      (b.perform c op).halfOpenProbes ≤ c.halfOpenMaxProbes := by
  obtain ⟨now, op⟩ := op
  cases op with
  | reset => cases hopens
  | call call =>
    cases call with
    | readState =>
      rcases readState_cases (c := c) now b with hread | ⟨-, -, hread⟩
      · simp only [perform, step, hread] at hopens
        exact absurd hopens hstate
      · simp [perform, step, Allows, hread, halfOpened]
    | allowSignal =>
      have hread := (allowSignal_frame (c := c) now b).1
      simp only [perform, step] at hopens
      rcases readState_cases (c := c) now b with hsame | ⟨hopen, hover, -⟩
      · rw [hread, hsame] at hopens
        exact absurd hopens hstate
      · have hallow := allowSignal_of_open (c := c) now hopen
        rw [if_pos hover] at hallow
        have hprobes := allowSignal_probes (c := c) (b := b.halfOpened) now rfl (Nat.zero_le _)
        rw [← hallow] at hprobes
        simpa [perform, step, Allows, halfOpened] using hprobes
    | recordSuccess =>
      simp only [perform, step, recordSuccess] at hopens
      split at hopens
      · rename_i hhalf
        exact absurd hhalf hstate
      · exact absurd hopens hstate
      · exact absurd hopens hstate
    | recordFailure =>
      simp only [perform, step] at hopens
      rcases recordFailure_cases (c := c) now b with ⟨hopen, -⟩ | ⟨hsame, -⟩
      · rw [hopen] at hopens
        cases hopens
      · exact absurd (hsame.symm.trans hopens) hstate

theorem allowed_halfOpen (hstate : b.state = .halfOpen)
    (hprobes : b.halfOpenProbes ≤ c.halfOpenMaxProbes) {ops : List (ℚ × BreakerOp)}
    (hstays : ∀ k < ops.length, (run (perform c) b (ops.take (k + 1))).state = .halfOpen) :
    b.halfOpenProbes + allowed c b ops ≤ c.halfOpenMaxProbes := by
  induction ops generalizing b with
  | nil => exact hprobes
  | cons op rest ih =>
    have hfirst : (b.perform c op).state = .halfOpen := hstays 0 (Nat.zero_lt_succ _)
    obtain ⟨htaken, hleft⟩ := perform_halfOpen hstate hfirst hprobes
    have hrest := ih hfirst hleft fun k hk => hstays (k + 1) (Nat.succ_lt_succ hk)
    rw [allowed]
    omega

theorem allowed_halfOpens (hstate : b.state ≠ .halfOpen) {ops : List (ℚ × BreakerOp)}
    (hstays : ∀ k < ops.length, (run (perform c) b (ops.take (k + 1))).state = .halfOpen) :
    allowed c b ops ≤ c.halfOpenMaxProbes := by
  cases ops with
  | nil => exact Nat.zero_le _
  | cons op rest =>
    have hfirst : (b.perform c op).state = .halfOpen := hstays 0 (Nat.zero_lt_succ _)
    obtain ⟨htaken, hleft⟩ := perform_halfOpens hstate hfirst
    have hrest := allowed_halfOpen hfirst hleft fun k hk => hstays (k + 1) (Nat.succ_lt_succ hk)
    rw [allowed]
    omega

end Probes

/-- What a breaker blocks in the course of a sequence of operations. -/
structure Blocks (c : CircuitBreakerConfig) (ops : List (ℚ × BreakerOp)) : Prop where
  /-- It leaves the closed state exactly with the failure that makes the tally reach the threshold. -/
  leaves_closed : ∀ before op rest, ops = before ++ op :: rest → (after c before).state = .closed →
    ((after c (before ++ [op])).state ≠ .closed ↔
      closedFailures c (before ++ [op]) = c.failureThreshold)
  /-- A failure recorded while it is half open trips it. -/
  trips_halfOpen : ∀ before now rest, ops = before ++ (now, .call .recordFailure) :: rest →
    (after c before).state = .halfOpen → (after c before).Trips c (now, .call .recordFailure) ∧
      (after c (before ++ [(now, .call .recordFailure)])).state = .open
  /-- After a trip it lets no signal through before the cooldown is over, unless it is reset. -/
  cooldown : ∀ before trip between ask rest, ops = before ++ trip :: between ++ ask :: rest →
    (after c before).Trips c trip → (∀ op ∈ between, op.2 ≠ .reset) →
    (after c (before ++ trip :: between)).Allows c ask → trip.1 + c.cooldownSeconds ≤ ask.1
  /-- From its becoming half open until its state changes it lets through at most its probes. -/
  probes : ∀ before stay rest, ops = before ++ stay ++ rest → (after c before).state ≠ .halfOpen →
    (∀ k < stay.length, (after c (before ++ stay.take (k + 1))).state = .halfOpen) →
    allowed c (after c before) stay ≤ c.halfOpenMaxProbes

/-- A breaker with a positive threshold blocks what it should in every sequence of operations at
non-decreasing readings of the clock. -/
theorem blocks (hpos : 0 < c.failureThreshold) {ops : List (ℚ × BreakerOp)}
    (hclock : (ops.map Prod.fst).Pairwise (· ≤ ·)) : Blocks c ops where
  leaves_closed before op rest _ hclosed := by
    have hinit : Tallies c ({}, 0) := fun _ => ⟨rfl, hpos⟩
    have hstep (s : CircuitBreaker × ℕ) (op : ℚ × BreakerOp) (hs : Tallies c s) :
        Tallies c (performTallied c s op) := tallies_step hpos hs op
    have htallies : Tallies c (run (performTallied c) ({}, 0) before) :=
      run_invariant hstep before hinit
    have hpair : run (performTallied c) ({}, 0) before = (after c before, closedFailures c before) :=
      Prod.ext (run_performTallied_fst _ _ _) rfl
    rw [hpair] at htallies
    rw [after_concat, closedFailures_concat]
    exact leaves_closed_iff hpos htallies hclosed op
  trips_halfOpen before now rest _ hstate := by
    rw [after_concat, Trips, perform_failure_of_halfOpen hstate]
    exact ⟨rfl, rfl⟩
  cooldown before trip between ask rest hops htrips hreset hallows := by
    by_contra hearly
    rw [not_le] at hearly
    subst hops
    rw [List.map_append, List.map_append, List.pairwise_append, List.pairwise_append] at hclock
    have hopened := opened_of_trips htrips
    have hopen : OpenSince trip.1 (after c (before ++ trip :: between)) := by
      rw [after, run_append, run_cons]
      apply OpenSince.run ⟨hopened.1, hopened.2.ge⟩
      intro op hop
      have hafter : trip.1 ≤ op.1 :=
        List.rel_of_pairwise_cons hclock.1.2.1 (List.mem_map_of_mem hop)
      have hbefore : op.1 ≤ ask.1 :=
        hclock.2.2 op.1 (by simp; exact Or.inr (Or.inr ⟨_, hop⟩)) ask.1 (by simp)
      exact ⟨hreset op hop, hafter, hbefore.trans_lt hearly⟩
    exact hopen.not_allows hearly hallows
  probes before stay rest _ hstate hstays := by
    apply allowed_halfOpens hstate
    intro k hk
    rw [after, ← run_append]
    exact hstays k hk

/-- Five failures, a signal that is blocked, a probe after the cooldown, and one that is blocked. -/
theorem blocks_default : Blocks {} (List.replicate 5 (0, .call .recordFailure) ++
      [(30, .call .allowSignal), (60, .call .allowSignal), (61, .call .allowSignal)]) :=
  blocks (by decide) (by decide)

end CircuitBreaker

end TradingSim.Bot
