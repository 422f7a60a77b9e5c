import Mathlib.Algebra.BigOperators.Group.List.Basic
import Mathlib.Data.List.MinMax
import TradingSim.Backtest.RiskManager
import TradingSim.Exchange.Numerics

/-!
# The ensemble vote

The signals of several strategies are combined into one. A direction wins with more votes than the other
one, or with more confidence in total, and with enough votes; the combined signal takes its levels from the
most confident signal of the winning side.
-/

namespace TradingSim.Bot.Ensemble

open Backtest (SignalDirection)
open Exchange (roundHalfEven)

/-- A signal of a strategy. -/
structure Signal where
  symbol : String
  direction : SignalDirection
  confidence : ℚ
  strategy : String
  entryPrice : ℚ
  stopLoss : ℚ
  takeProfit : ℚ
  reason : String := ""
  timestamp : ℤ := 0

def Signal.isActionable (s : Signal) : Bool := s.direction ≠ .neutral

structure EnsembleVoter where
  mode : String := "majority"
  minVotes : ℤ := 2
  name : String := "ensemble"

/-- The votes for one direction, with the sums of what they say. -/
structure Votes where
  count : ℕ := 0
  score : ℚ := 0
  confidence : ℚ := 0
  entryPrice : ℚ := 0
  stopLoss : ℚ := 0
  takeProfit : ℚ := 0
  strategies : List String := []
  signals : List Signal := []

def Votes.add (v : Votes) (s : Signal) : Votes where
  count := v.count + 1
  score := v.score + s.confidence
  confidence := v.confidence + s.confidence
  entryPrice := v.entryPrice + s.entryPrice
  stopLoss := v.stopLoss + s.stopLoss
  takeProfit := v.takeProfit + s.takeProfit
  strategies := v.strategies ++ [s.strategy]
  signals := v.signals ++ [s]

/-- The votes of both directions, and the first signal that is a vote. -/
structure Tally where
  long : Votes := {}
  short : Votes := {}
  firstActionable : Option Signal := none

/-- One turn of the loop over the signals. -/
def accumulate (t : Tally) (s : Signal) : Tally :=
  match s.direction with
  | .neutral => t
  | .long => { t with long := t.long.add s, firstActionable := t.firstActionable.or (some s) }
  | .short => { t with short := t.short.add s, firstActionable := t.firstActionable.or (some s) }

def accumulateSignals (signals : List Signal) : Tally := signals.foldl accumulate {}

namespace EnsembleVoter

variable (v : EnsembleVoter)

/-- The winning votes with their direction, if there are enough of them. -/
def winner (t : Tally) : Option (Votes × SignalDirection) :=
  if v.mode = "weighted" then
    if t.short.score < t.long.score ∧ v.minVotes ≤ t.long.count then some (t.long, .long)
    else if t.long.score < t.short.score ∧ v.minVotes ≤ t.short.count then some (t.short, .short)
    else none
  else
    if t.short.count < t.long.count ∧ v.minVotes ≤ t.long.count then some (t.long, .long)
    else if t.long.count < t.short.count ∧ v.minVotes ≤ t.short.count then some (t.short, .short)
    else none

/-- A combined signal without a direction. -/
def neutral (symbol : String) (entryPrice : ℚ) (reason : String) : Signal where
  symbol := symbol
  direction := .neutral
  confidence := 0
  strategy := v.name
  entryPrice := entryPrice
  stopLoss := 0
  takeProfit := 0
  reason := reason

def selectWinner (t : Tally) (firstActionable : Signal) (winningSignals : List Signal) : Signal :=
  match v.winner t with
  | none =>
    let verdict := if v.mode = "weighted" then "Insufficient votes" else "Split vote"
    v.neutral firstActionable.symbol firstActionable.entryPrice
      (verdict ++ " (L:" ++ toString t.long.count ++ "/S:" ++ toString t.short.count ++ ")")
  | some (votes, direction) =>
    let invCount : ℚ := 1 / votes.count
    let (entryPrice, stopLoss, takeProfit) :=
      match winningSignals.argmax Signal.confidence with
      | some best => (best.entryPrice, best.stopLoss, best.takeProfit)
      | none => (votes.entryPrice * invCount, votes.stopLoss * invCount, votes.takeProfit * invCount)
    { symbol := firstActionable.symbol
      direction := direction
      confidence := roundHalfEven (votes.confidence * invCount) 1
      strategy := v.name
      entryPrice := entryPrice
      stopLoss := stopLoss
      takeProfit := takeProfit
      reason := "Ensemble (" ++ ", ".intercalate votes.strategies ++ "): " ++ toString votes.count ++
        " votes" }

/-- The combined signal of some signals. -/
def vote (signals : List Signal) : Signal :=
  let t := accumulateSignals signals
  match t.firstActionable with
  | none => v.neutral ((signals.head?.map Signal.symbol).getD "") 0 "No actionable signals"
  | some firstActionable =>
    let winningSignals :=
      if v.mode = "weighted" ∧ t.short.score < t.long.score ∨
          v.mode ≠ "weighted" ∧ t.short.count < t.long.count then t.long.signals
      else t.short.signals
    v.selectWinner t firstActionable winningSignals

end EnsembleVoter

/-! ### What is counted -/

/-- The votes that some signals are, all of one direction. -/
def votesOf (signals : List Signal) : Votes where
  count := signals.length
  score := (signals.map Signal.confidence).sum
  confidence := (signals.map Signal.confidence).sum
  entryPrice := (signals.map Signal.entryPrice).sum
  stopLoss := (signals.map Signal.stopLoss).sum
  takeProfit := (signals.map Signal.takeProfit).sum
  strategies := signals.map Signal.strategy
  signals := signals

theorem votesOf_concat (signals : List Signal) (s : Signal) :
    votesOf (signals ++ [s]) = (votesOf signals).add s := by
  simp [votesOf, Votes.add]

def backers (side : SignalDirection) (signals : List Signal) : List Signal :=
  signals.filter fun s => s.direction = side

theorem accumulateSignals_eq (signals : List Signal) : accumulateSignals signals =
    { long := votesOf (backers .long signals)
      short := votesOf (backers .short signals)
      firstActionable := signals.find? Signal.isActionable } := by
  induction signals using List.reverseRecOn with
  | nil => rfl
  | append_singleton signals s ih =>
    rw [accumulateSignals, List.foldl_append, List.foldl_cons, List.foldl_nil, ← accumulateSignals, ih,
      accumulate]
    cases hside : s.direction with
    | neutral => simp [backers, hside, Signal.isActionable, List.find?_append]
    | long => simp [backers, hside, Signal.isActionable, List.find?_append, votesOf_concat]
    | short => simp [backers, hside, Signal.isActionable, List.find?_append, votesOf_concat]

namespace EnsembleVoter

variable (v : EnsembleVoter)

/-- One side has more votes than the other, or more confidence in total, and enough votes. -/
def Outvotes (side other : List Signal) : Prop :=
  (if v.mode = "weighted" then (other.map Signal.confidence).sum < (side.map Signal.confidence).sum
    else other.length < side.length) ∧ v.minVotes ≤ side.length

instance (side other : List Signal) : Decidable (v.Outvotes side other) :=
  inferInstanceAs (Decidable (_ ∧ _))

/-- What the backers of a direction elect, with the levels of one signal. -/
def elected (signals : List Signal) (side : SignalDirection) (first best : Signal) : Signal where
  symbol := first.symbol
  direction := side
  confidence := roundHalfEven
    (((backers side signals).map Signal.confidence).sum * (1 / (backers side signals).length)) 1
  strategy := v.name
  entryPrice := best.entryPrice
  stopLoss := best.stopLoss
  takeProfit := best.takeProfit
  reason := "Ensemble (" ++ ", ".intercalate ((backers side signals).map Signal.strategy) ++ "): " ++
    toString (backers side signals).length ++ " votes"

variable {v} {signals : List Signal}

theorem Outvotes.asymm {side other : List Signal} (h : v.Outvotes side other) : ¬ v.Outvotes other side := by
  intro h'
  have hlead := h.1
  have hlead' := h'.1
  split_ifs at hlead hlead' with hmode
  · exact lt_asymm hlead hlead'
  · exact lt_asymm hlead hlead'

theorem winner_accumulateSignals (v : EnsembleVoter) (signals : List Signal) :
    v.winner (accumulateSignals signals) =
      if v.Outvotes (backers .long signals) (backers .short signals) then
        some (votesOf (backers .long signals), .long)
      else if v.Outvotes (backers .short signals) (backers .long signals) then
        some (votesOf (backers .short signals), .short) else none := by
  rw [accumulateSignals_eq, winner]
  by_cases hmode : v.mode = "weighted"
  · simp only [Outvotes, votesOf, hmode, if_true]
    rfl
  · simp only [Outvotes, votesOf, hmode, if_false]
    rfl

/-- A signal that backs a direction is a vote. -/
theorem exists_first {side : SignalDirection} (hside : side ≠ .neutral) (hne : backers side signals ≠ []) :
    ∃ first, signals.find? Signal.isActionable = some first := by
  obtain ⟨s, hs⟩ := List.exists_mem_of_ne_nil _ hne
  obtain ⟨hmem, hdirection⟩ := List.mem_filter.mp hs
  have hvotes : s.isActionable = true := by
    have hs : s.direction = side := by simpa using hdirection
    simpa [Signal.isActionable, hs] using hside
  exact Option.isSome_iff_exists.mp (List.find?_isSome.mpr ⟨s, hmem, hvotes⟩)

theorem vote_of_outvotes (hmin : 1 ≤ v.minVotes) {side other : SignalDirection}
    (hsides : side = .long ∧ other = .short ∨ side = .short ∧ other = .long)
    (hout : v.Outvotes (backers side signals) (backers other signals)) :
    ∃ first best, signals.find? Signal.isActionable = some first ∧
      (backers side signals).argmax Signal.confidence = some best ∧
        v.vote signals = v.elected signals side first best := by
  have hne : backers side signals ≠ [] := by
    rintro hnil
    have henough := hout.2
    rw [hnil, List.length_nil] at henough
    omega
  have hside : side ≠ .neutral := by
    rcases hsides with ⟨rfl, -⟩ | ⟨rfl, -⟩ <;> decide
  obtain ⟨first, hfirst⟩ := exists_first hside hne
  obtain ⟨best, hbest⟩ : ∃ best, (backers side signals).argmax Signal.confidence = some best :=
    Option.ne_none_iff_exists'.mp (mt List.argmax_eq_none.mp hne)
  refine ⟨first, best, hfirst, hbest, ?_⟩
  have hwinner : v.winner (accumulateSignals signals) = some (votesOf (backers side signals), side) := by
    rw [winner_accumulateSignals]
    rcases hsides with ⟨rfl, rfl⟩ | ⟨rfl, rfl⟩
    · rw [if_pos hout]
    · rw [if_neg hout.asymm, if_pos hout]
  have hwinning : (if v.mode = "weighted" ∧ (accumulateSignals signals).short.score <
        (accumulateSignals signals).long.score ∨ v.mode ≠ "weighted" ∧
          (accumulateSignals signals).short.count < (accumulateSignals signals).long.count then
      (accumulateSignals signals).long.signals else (accumulateSignals signals).short.signals) =
      backers side signals := by
    have hlead := hout.1
    rw [accumulateSignals_eq]
    rcases hsides with ⟨rfl, rfl⟩ | ⟨rfl, rfl⟩
    · by_cases hmode : v.mode = "weighted"
      · rw [if_pos hmode] at hlead
        exact if_pos (Or.inl ⟨hmode, hlead⟩)
      · rw [if_neg hmode] at hlead
        exact if_pos (Or.inr ⟨hmode, hlead⟩)
    · by_cases hmode : v.mode = "weighted"
      · rw [if_pos hmode] at hlead
        exact if_neg (by simpa [hmode, votesOf] using hlead.le)
      · rw [if_neg hmode] at hlead
        exact if_neg (by simpa [hmode, votesOf] using hlead.le)
  have hvoted : (accumulateSignals signals).firstActionable = some first := by
    rw [accumulateSignals_eq, hfirst]
  simp only [vote, hvoted, hwinning, selectWinner, hwinner, hbest]
  rfl

/-- The symbol and the entry of a combined signal without a direction. -/
def undecided (v : EnsembleVoter) (signals : List Signal) (reason : String) : Signal :=
  match signals.find? Signal.isActionable with
  | none => v.neutral ((signals.head?.map Signal.symbol).getD "") 0 reason
  | some first => v.neutral first.symbol first.entryPrice reason

theorem direction_undecided (reason : String) : (v.undecided signals reason).direction = .neutral ∧
    (v.undecided signals reason).confidence = 0 := by
  rw [undecided]
  split
  · exact ⟨rfl, rfl⟩
  · exact ⟨rfl, rfl⟩

theorem vote_of_not_outvotes (hlong : ¬ v.Outvotes (backers .long signals) (backers .short signals))
    (hshort : ¬ v.Outvotes (backers .short signals) (backers .long signals)) :
    ∃ reason, v.vote signals = v.undecided signals reason := by
  have hwinner : v.winner (accumulateSignals signals) = none := by
    rw [winner_accumulateSignals, if_neg hlong, if_neg hshort]
  have hvoted : (accumulateSignals signals).firstActionable = signals.find? Signal.isActionable := by
    rw [accumulateSignals_eq]
  cases hfirst : signals.find? Signal.isActionable with
  | none =>
    refine ⟨"No actionable signals", ?_⟩
    simp only [vote, hvoted, undecided, hfirst]
  | some first =>
    simp only [vote, hvoted, undecided, hfirst, selectWinner, hwinner]
    exact ⟨_, rfl⟩

end EnsembleVoter

/-! ### The other way round -/

/-- Long for short and short for long. -/
def opposite : SignalDirection → SignalDirection
  | .long => .short
  | .short => .long
  | .neutral => .neutral

def Signal.swapped (s : Signal) : Signal := { s with direction := opposite s.direction }

@[simp] theorem opposite_opposite (side : SignalDirection) : opposite (opposite side) = side := by
  cases side <;> rfl

theorem opposite_eq_iff (side other : SignalDirection) : opposite side = other ↔ side = opposite other := by
  cases side <;> cases other <;> decide

@[simp] theorem isActionable_swapped (s : Signal) : s.swapped.isActionable = s.isActionable := by
  cases hside : s.direction <;> simp [Signal.isActionable, Signal.swapped, opposite, hside]

theorem backers_swapped (side : SignalDirection) (signals : List Signal) :
    backers side (signals.map Signal.swapped) = (backers (opposite side) signals).map Signal.swapped := by
  rw [backers, backers, List.filter_map]
  congr 2
  funext s
  exact decide_eq_decide.mpr (opposite_eq_iff _ _)

theorem find?_swapped (signals : List Signal) : (signals.map Signal.swapped).find? Signal.isActionable =
    (signals.find? Signal.isActionable).map Signal.swapped := by
  rw [List.find?_map]
  congr 2
  funext s
  exact isActionable_swapped s

theorem argmax_swapped (signals : List Signal) : (signals.map Signal.swapped).argmax Signal.confidence =
    (signals.argmax Signal.confidence).map Signal.swapped := by
  induction signals using List.reverseRecOn with
  | nil => rfl
  | append_singleton signals s ih =>
    rw [List.map_append, List.map_singleton, List.argmax_concat, ih, List.argmax_concat]
    cases signals.argmax Signal.confidence with
    | none => rfl
    | some best =>
      change (if best.confidence < s.confidence then some s.swapped else some best.swapped) =
        (if best.confidence < s.confidence then some s else some best).map Signal.swapped
      split_ifs
      · rfl
      · rfl

namespace EnsembleVoter

variable {v : EnsembleVoter} {signals : List Signal}

theorem outvotes_swapped (side other : List Signal) :
    v.Outvotes (side.map Signal.swapped) (other.map Signal.swapped) ↔ v.Outvotes side other := by
  have hconfidence (l : List Signal) :
      (l.map Signal.swapped).map Signal.confidence = l.map Signal.confidence := by
    rw [List.map_map]
    rfl
  rw [Outvotes, Outvotes, hconfidence, hconfidence, List.length_map, List.length_map]

theorem elected_swapped (v : EnsembleVoter) (signals : List Signal) (side : SignalDirection)
    (first best : Signal) : v.elected (signals.map Signal.swapped) side first.swapped best.swapped =
      (v.elected signals (opposite side) first best).swapped := by
  have hconfidence (l : List Signal) :
      (l.map Signal.swapped).map Signal.confidence = l.map Signal.confidence := by
    rw [List.map_map]
    rfl
  have hstrategy (l : List Signal) :
      (l.map Signal.swapped).map Signal.strategy = l.map Signal.strategy := by
    rw [List.map_map]
    rfl
  rw [elected, backers_swapped, hconfidence, hstrategy, List.length_map]
  cases side <;> rfl

theorem undecided_swapped (v : EnsembleVoter) (signals : List Signal) (reason : String) :
    v.undecided (signals.map Signal.swapped) reason = (v.undecided signals reason).swapped := by
  have hhead : (signals.map Signal.swapped).head?.map Signal.symbol = signals.head?.map Signal.symbol := by
    rw [List.head?_map, Option.map_map]
    rfl
  rw [undecided, find?_swapped, undecided, hhead]
  cases signals.find? Signal.isActionable with
  | none => rfl
  | some first => rfl

/-! ### Fairness -/

/-- The mean confidence, as a combined signal shows it. -/
def meanConfidence (signals : List Signal) : ℚ :=
  roundHalfEven ((signals.map Signal.confidence).sum / signals.length) 1

/-- What a combined signal is, by the side that outvotes the other. -/
theorem vote_cases (hmin : 1 ≤ v.minVotes) (signals : List Signal) :
    (∃ side first best, (side = .long ∨ side = .short) ∧
      v.Outvotes (backers side signals) (backers (opposite side) signals) ∧
        signals.find? Signal.isActionable = some first ∧
          (backers side signals).argmax Signal.confidence = some best ∧
            v.vote signals = v.elected signals side first best) ∨
    (∃ reason, ¬ v.Outvotes (backers .long signals) (backers .short signals) ∧
      ¬ v.Outvotes (backers .short signals) (backers .long signals) ∧
        v.vote signals = v.undecided signals reason) := by
  by_cases hlong : v.Outvotes (backers .long signals) (backers .short signals)
  · obtain ⟨first, best, hfirst, hbest, hvote⟩ := vote_of_outvotes hmin (Or.inl ⟨rfl, rfl⟩) hlong
    exact Or.inl ⟨.long, first, best, Or.inl rfl, hlong, hfirst, hbest, hvote⟩
  by_cases hshort : v.Outvotes (backers .short signals) (backers .long signals)
  · obtain ⟨first, best, hfirst, hbest, hvote⟩ := vote_of_outvotes hmin (Or.inr ⟨rfl, rfl⟩) hshort
    exact Or.inl ⟨.short, first, best, Or.inr rfl, hshort, hfirst, hbest, hvote⟩
  obtain ⟨reason, hvote⟩ := vote_of_not_outvotes hlong hshort
  exact Or.inr ⟨reason, hlong, hshort, hvote⟩

theorem direction_vote (hmin : 1 ≤ v.minVotes) (signals : List Signal) : (v.vote signals).direction =
    if v.Outvotes (backers .long signals) (backers .short signals) then .long
    else if v.Outvotes (backers .short signals) (backers .long signals) then .short else .neutral := by
  rcases vote_cases hmin signals with ⟨side, first, best, rfl | rfl, hout, -, -, hvote⟩ |
      ⟨reason, hlong, hshort, hvote⟩
  · have hlong : v.Outvotes (backers .long signals) (backers .short signals) := hout
    rw [hvote, if_pos hlong]
    rfl
  · have hshort : v.Outvotes (backers .short signals) (backers .long signals) := hout
    rw [hvote, if_neg hshort.asymm, if_pos hshort]
    rfl
  · rw [hvote, if_neg hlong, if_neg hshort]
    exact (direction_undecided reason).1

theorem confidence_vote (hmin : 1 ≤ v.minVotes) (signals : List Signal) : (v.vote signals).confidence =
    if (v.vote signals).direction = .neutral then 0
    else meanConfidence (backers (v.vote signals).direction signals) := by
  rcases vote_cases hmin signals with ⟨side, first, best, hside, -, -, -, hvote⟩ |
      ⟨reason, -, -, hvote⟩
  · have hdirection : (v.vote signals).direction = side := by
      rw [hvote]
      rfl
    have hnot : side ≠ .neutral := by
      rcases hside with rfl | rfl <;> decide
    rw [hdirection, if_neg hnot, hvote, meanConfidence, elected, mul_one_div]
  · rw [hvote, if_pos (direction_undecided reason).1]
    exact (direction_undecided reason).2

section Order

variable {signals' : List Signal}

theorem outvotes_perm {side side' other other' : List Signal} (hside : side.Perm side')
    (hother : other.Perm other') : v.Outvotes side other ↔ v.Outvotes side' other' := by
  rw [Outvotes, Outvotes, (hside.map _).sum_eq, (hother.map _).sum_eq, hside.length_eq, hother.length_eq]

theorem meanConfidence_perm (h : signals.Perm signals') : meanConfidence signals = meanConfidence signals' := by
  rw [meanConfidence, meanConfidence, (h.map _).sum_eq, h.length_eq]

end Order

variable (v) in
/-- The combined signal has the direction of the side that outvotes the other, its mean confidence and the levels
of one of its most confident signals, in any order of the signals; exchanging directions exchanges it. -/
structure Fair (signals : List Signal) : Prop where
  long_iff : (v.vote signals).direction = .long ↔
    v.Outvotes (backers .long signals) (backers .short signals)
  short_iff : (v.vote signals).direction = .short ↔
    v.Outvotes (backers .short signals) (backers .long signals)
  neutral_iff : (v.vote signals).direction = .neutral ↔
    ¬ v.Outvotes (backers .long signals) (backers .short signals) ∧
      ¬ v.Outvotes (backers .short signals) (backers .long signals)
  elects (side : SignalDirection) : (v.vote signals).direction = side → side ≠ .neutral →
    (v.vote signals).confidence = meanConfidence (backers side signals) ∧
      ∃ best ∈ backers side signals, (∀ s ∈ backers side signals, s.confidence ≤ best.confidence) ∧
        (v.vote signals).entryPrice = best.entryPrice ∧ (v.vote signals).stopLoss = best.stopLoss ∧
          (v.vote signals).takeProfit = best.takeProfit
  order (signals' : List Signal) : signals.Perm signals' →
    (v.vote signals').direction = (v.vote signals).direction ∧
      (v.vote signals').confidence = (v.vote signals).confidence
  exchange : ∃ reason, v.vote (signals.map Signal.swapped) =
    { (v.vote signals).swapped with reason := reason }

/-- The order of the signals does not change the vote. -/
theorem vote_perm (hmin : 1 ≤ v.minVotes) {signals' : List Signal} (h : signals.Perm signals') :
    (v.vote signals').direction = (v.vote signals).direction ∧
      (v.vote signals').confidence = (v.vote signals).confidence := by
  have hbackers (side : SignalDirection) : (backers side signals).Perm (backers side signals') :=
    h.filter _
  have hdirection : (v.vote signals').direction = (v.vote signals).direction := by
    simp only [direction_vote hmin, outvotes_perm (hbackers .long) (hbackers .short),
      outvotes_perm (hbackers .short) (hbackers .long)]
  refine ⟨hdirection, ?_⟩
  rw [confidence_vote hmin, confidence_vote hmin, hdirection, meanConfidence_perm (hbackers _)]

/-- The vote of the opposite signals is the opposite of the vote. -/
theorem vote_swapped (hmin : 1 ≤ v.minVotes) (signals : List Signal) :
    ∃ reason, v.vote (signals.map Signal.swapped) = { (v.vote signals).swapped with reason := reason } := by
  have houtvotes (side other : SignalDirection) :
      v.Outvotes (backers side (signals.map Signal.swapped)) (backers other (signals.map Signal.swapped)) ↔
        v.Outvotes (backers (opposite side) signals) (backers (opposite other) signals) := by
    rw [backers_swapped, backers_swapped, outvotes_swapped]
  rcases vote_cases hmin signals with ⟨side, first, best, hside, hout, hfirst, hbest, hvote⟩ |
      ⟨reason, hlong, hshort, hvote⟩
  · have hsides : opposite side = .long ∧ side = .short ∨ opposite side = .short ∧ side = .long := by
      rcases hside with rfl | rfl
      · exact Or.inr ⟨rfl, rfl⟩
      · exact Or.inl ⟨rfl, rfl⟩
    have hout' : v.Outvotes (backers (opposite side) (signals.map Signal.swapped))
        (backers side (signals.map Signal.swapped)) := by
      rw [houtvotes, opposite_opposite]
      exact hout
    obtain ⟨first', best', hfirst', hbest', hvote'⟩ := vote_of_outvotes hmin hsides hout'
    rw [find?_swapped, hfirst] at hfirst'
    rw [backers_swapped, opposite_opposite, argmax_swapped, hbest] at hbest'
    cases hfirst'
    cases hbest'
    rw [hvote', elected_swapped, opposite_opposite, hvote]
    exact ⟨_, rfl⟩
  · obtain ⟨reason', hvote'⟩ := vote_of_not_outvotes (v := v) (mt (houtvotes .long .short).mp hshort)
      (mt (houtvotes .short .long).mp hlong)
    rw [hvote', undecided_swapped, hvote]
    refine ⟨reason', ?_⟩
    rw [undecided, undecided]
    cases signals.find? Signal.isActionable with
    | none => rfl
    | some first => rfl

/-- Ensemble voting is fair, in both modes and for every number of votes that is asked for. -/
theorem vote_fair (v : EnsembleVoter) (hmin : 1 ≤ v.minVotes) (signals : List Signal) : v.Fair signals := by
  have hdirection := direction_vote hmin signals
  constructor
  case long_iff =>
    rw [hdirection]
    split_ifs <;> simp_all
  case short_iff =>
    rw [hdirection]
    split_ifs with hlong hshort
    · simpa using hlong.asymm
    · simpa using hshort
    · simpa using hshort
  case neutral_iff =>
    rw [hdirection]
    split_ifs <;> simp_all
  case elects =>
    rintro side rfl hside
    rw [confidence_vote hmin, if_neg hside]
    refine ⟨rfl, ?_⟩
    rcases vote_cases hmin signals with ⟨side, first, best, -, -, -, hbest, hvote⟩ |
      ⟨reason, -, -, hvote⟩
    · rw [hvote]
      exact ⟨best, List.argmax_mem hbest, fun s hs => List.le_of_mem_argmax hs hbest, rfl, rfl, rfl⟩
    · rw [hvote] at hside
      exact absurd (direction_undecided reason).1 hside
  case order => exact fun _ h => vote_perm hmin h
  case exchange => exact vote_swapped hmin signals

/-- Two of three strategies say long. -/
theorem vote_fair_default : (1 : ℤ) ≤ ({} : EnsembleVoter).minVotes ∧
    ({} : EnsembleVoter).Fair [⟨"BTCUSDT", .long, 70, "trend", 100, 98, 104, "", 0⟩,
      ⟨"BTCUSDT", .short, 90, "reversal", 100, 103, 95, "", 0⟩,
      ⟨"BTCUSDT", .long, 65, "momentum", 101, 97, 105, "", 0⟩] :=
  ⟨by decide, vote_fair _ (by decide) _⟩

end EnsembleVoter

end TradingSim.Bot.Ensemble
