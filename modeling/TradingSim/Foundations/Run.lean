import Mathlib.Data.List.Basic
import Mathlib.Data.List.Induction

/-!
# Runs, traces and interleavings

A run feeds a finite list of inputs to a step function. An invariant is shown once for a step and
holds after every run. Where a step keeps it only under a side condition on the state and the input,
`Along` says that the condition is met at every step of the run.

A trace is a chain of labelled steps with their labels in order. A schedule of two threads is a list
that takes its next entry from the front of either one.
-/

namespace Foundations

section Runs

variable {S E : Type*}

/-- The state after feeding a list of inputs. -/
def run (step : S → E → S) (s : S) (inputs : List E) : S := inputs.foldl step s

@[simp] theorem run_nil (step : S → E → S) (s : S) : run step s [] = s := rfl

@[simp] theorem run_cons (step : S → E → S) (s : S) (e : E) (rest : List E) :
    run step s (e :: rest) = run step (step s e) rest := rfl

theorem run_append (step : S → E → S) (s : S) (first second : List E) :
    run step s (first ++ second) = run step (run step s first) second :=
  List.foldl_append

/-- Every step of the run meets a condition on the state before it and its input. -/
def Along (step : S → E → S) (guard : S → E → Prop) : S → List E → Prop
  | _, [] => True
  | s, e :: rest => guard s e ∧ Along step guard (step s e) rest

instance Along.decidable (step : S → E → S) (guard : S → E → Prop)
    [∀ s e, Decidable (guard s e)] : ∀ s inputs, Decidable (Along step guard s inputs)
  | _, [] => isTrue trivial
  | s, e :: rest =>
    haveI := Along.decidable step guard (step s e) rest
    inferInstanceAs (Decidable (guard s e ∧ Along step guard (step s e) rest))

variable (inv : S → Prop) {inputs : List E}

/-- A condition that follows from another in the states of an invariant, which steps that meet
the first one keep, holds along every run along which the first one does. -/
theorem along_imp {step : S → E → S} {guard guard' : S → E → Prop}
    (hinv : ∀ s e, inv s → guard s e → inv (step s e))
    (himp : ∀ s e, inv s → guard s e → guard' s e) {s : S} (hinit : inv s)
    (h : Along step guard s inputs) : Along step guard' s inputs := by
  induction inputs generalizing s with
  | nil => exact trivial
  | cons e rest ih => exact ⟨himp s e hinit h.1, ih (hinv s e hinit h.1) h.2⟩

theorem along_append (step : S → E → S) (guard : S → E → Prop) (s : S) (first second : List E) :
    Along step guard s (first ++ second) ↔
      Along step guard s first ∧ Along step guard (run step s first) second := by
  induction first generalizing s with
  | nil => simp [Along]
  | cons e rest ih => simp only [List.cons_append, Along, ih, run_cons, and_assoc]

/-- A run meets two conditions exactly when it meets each. -/
theorem along_and (step : S → E → S) (guard guard' : S → E → Prop) (s : S) (inputs : List E) :
    Along step (fun s e => guard s e ∧ guard' s e) s inputs ↔
      Along step guard s inputs ∧ Along step guard' s inputs := by
  induction inputs generalizing s with
  | nil => simp [Along]
  | cons e rest ih => simp only [Along, ih, and_and_and_comm]

/-- Conditions that agree in the states of an invariant, which steps that meet the first one
keep, hold along the same runs. -/
theorem along_congr {step : S → E → S} {guard guard' : S → E → Prop}
    (hinv : ∀ s e, inv s → guard s e → inv (step s e))
    (hiff : ∀ s e, inv s → (guard s e ↔ guard' s e)) {s : S} (inputs : List E) (hinit : inv s) :
    Along step guard s inputs ↔ Along step guard' s inputs := by
  constructor
  · intro h
    exact along_imp inv hinv (fun s e hs => (hiff s e hs).mp) hinit h
  · intro h
    exact along_imp inv (fun s e hs hg => hinv s e hs ((hiff s e hs).mpr hg))
      (fun s e hs => (hiff s e hs).mpr) hinit h

theorem run_invariant_of_along {step : S → E → S} {guard : S → E → Prop}
    (hstep : ∀ s e, inv s → guard s e → inv (step s e)) {s : S}
    (hinit : inv s) (hguard : Along step guard s inputs) : inv (run step s inputs) := by
  induction inputs generalizing s with
  | nil => exact hinit
  | cons e rest ih => exact ih (hstep s e hinit hguard.1) hguard.2

theorem run_invariant {step : S → E → S} {inv : S → Prop}
    (hstep : ∀ s e, inv s → inv (step s e)) {s : S} (inputs : List E) (hinit : inv s) :
    inv (run step s inputs) := by
  induction inputs generalizing s with
  | nil => exact hinit
  | cons e rest ih => exact ih (hstep s e hinit)

theorem run_unchanged {α : Type*} {step : S → E → S} (read : S → α)
    (hstep : ∀ s e, read (step s e) = read s) (s : S) (inputs : List E) :
    read (run step s inputs) = read s := by
  induction inputs generalizing s with
  | nil => rfl
  | cons e rest ih => exact (ih (step s e)).trans (hstep s e)

/-- What every step that keeps an invariant assigns to or leaves alone has after a run the last
value that was assigned. -/
theorem run_latest {V : Type*} {step : S → E → S} {guard : E → Prop}
    (read : S → Option V) (value : E → Option V) (hinv : ∀ s e, inv s → guard e → inv (step s e))
    (hstep : ∀ s e, inv s → guard e → read (step s e) = (value e).or (read s)) {s : S}
    (hinit : inv s) (hguard : ∀ e ∈ inputs, guard e) :
    read (run step s inputs) = (inputs.filterMap value).getLast?.or (read s) := by
  induction inputs generalizing s with
  | nil => rfl
  | cons e rest ih =>
    rw [List.forall_mem_cons] at hguard
    rw [run_cons, ih (hinv s e hinit hguard.1) hguard.2, hstep s e hinit hguard.1]
    cases hvalue : value e with
    | none => rw [List.filterMap_cons_none hvalue, Option.none_or]
    | some v =>
      rw [List.filterMap_cons_some hvalue, List.getLast?_cons, Option.some_or]
      cases (rest.filterMap value).getLast? <;> rfl

theorem getLast?_filterMap_or {V : Type*} (first second : E → Option V) (inputs : List E) :
    (inputs.filterMap fun e => (first e).or (second e)).getLast? =
        (inputs.filterMap first).getLast?.or (inputs.filterMap second).getLast? ∨
      (inputs.filterMap fun e => (first e).or (second e)).getLast? =
        (inputs.filterMap second).getLast?.or (inputs.filterMap first).getLast? := by
  induction inputs using List.reverseRecOn with
  | nil => exact Or.inl rfl
  | append_singleton rest e ih =>
    cases hfirst : first e with
    | some v => simp [hfirst]
    | none =>
      cases hsecond : second e with
      | some v => simp [hfirst, hsecond]
      | none => simpa [hfirst, hsecond] using ih

theorem run_appends {α : Type*} {step : S → E → S} {guard : S → E → Prop} (read : S → List α)
    (out : E → List α) (hstep : ∀ s e, guard s e → read (step s e) = read s ++ out e) {s : S}
    (hguard : Along step guard s inputs) : read (run step s inputs) = read s ++ inputs.flatMap out := by
  induction inputs generalizing s with
  | nil => rw [run_nil, List.flatMap_nil, List.append_nil]
  | cons e rest ih =>
    rw [run_cons, ih hguard.2, hstep s e hguard.1, List.flatMap_cons, List.append_assoc]

theorem along_input_iff (step : S → E → S) (guard : E → Prop) (s : S) (inputs : List E) :
    Along step (fun _ e => guard e) s inputs ↔ ∀ e ∈ inputs, guard e := by
  induction inputs generalizing s with
  | nil => simp [Along]
  | cons e rest ih => simp only [Along, ih, List.forall_mem_cons]

theorem run_related {step : S → E → S} (rel : S → S → Prop)
    (hrefl : ∀ s, rel s s) (htrans : ∀ s t u, rel s t → rel t u → rel s u)
    (hinv : ∀ s e, inv s → inv (step s e)) (hstep : ∀ s e, inv s → rel s (step s e))
    {s : S} (inputs : List E) (hinit : inv s) : rel s (run step s inputs) := by
  induction inputs generalizing s with
  | nil => exact hrefl s
  | cons e rest ih => exact htrans _ _ _ (hstep s e hinit) (ih (hinv s e hinit))

/-- Inputs that leave the state alone whenever they come can be left out of a run. -/
theorem run_filter {step : S → E → S} (keep : E → Bool) {s : S}
    (h : Along step (fun s e => keep e = false → step s e = s) s inputs) :
    run step s (inputs.filter keep) = run step s inputs := by
  induction inputs generalizing s with
  | nil => rfl
  | cons e rest ih =>
    cases hkeep : keep e with
    | true =>
      rw [List.filter_cons_of_pos hkeep, run_cons, run_cons]
      exact ih h.2
    | false =>
      rw [List.filter_cons_of_neg (by simp [hkeep]), run_cons]
      have hrest := h.2
      rw [h.1 hkeep] at hrest ⊢
      exact ih hrest

end Runs

/-! ### Labelled traces -/

section Traces

variable {S L : Type*}

/-- A chain of labelled steps. -/
inductive Trace (step : S → List L → S → Prop) : S → List L → S → Prop
  | refl (s : S) : Trace step s [] s
  | tail {s t u : S} {labels last : List L} (init : Trace step s labels t) (h : step t last u) :
      Trace step s (labels ++ last) u

namespace Trace

variable {step : S → List L → S → Prop} {s t u : S} {labels labels' : List L}

theorem single (h : step s labels t) : Trace step s labels t := by
  have htail : Trace step s ([] ++ labels) t := .tail (.refl s) h
  exact htail

theorem trans (hst : Trace step s labels t) (htu : Trace step t labels' u) :
    Trace step s (labels ++ labels') u := by
  induction htu with
  | refl => rwa [List.append_nil]
  | tail _ h ih =>
    rw [← List.append_assoc]
    exact .tail ih h

/-- A trace without labels in front. -/
theorem trans_left (hst : Trace step s [] t) (htu : Trace step t labels u) :
    Trace step s labels u := hst.trans htu

/-- A trace without labels behind. -/
theorem trans_right (hst : Trace step s labels t) (htu : Trace step t [] u) : Trace step s labels u := by
  have h := hst.trans htu
  rwa [List.append_nil] at h

/-- A trace is one of every relation that allows its steps. -/
theorem mono {step' : S → List L → S → Prop} (hstep : ∀ s last t, step s last t → step' s last t)
    (h : Trace step s labels t) : Trace step' s labels t := by
  induction h with
  | refl => exact .refl _
  | tail _ hlast ih => exact .tail ih (hstep _ _ _ hlast)

/-- What every step keeps of the labels so far and the state holds at the end of a trace. -/
theorem history (inv : List L → S → Prop)
    (hstep : ∀ labels s last t, inv labels s → step s last t → inv (labels ++ last) t)
    (h : Trace step s labels t) (hinit : inv [] s) : inv labels t := by
  induction h with
  | refl => exact hinit
  | tail _ hlast ih => exact hstep _ _ _ _ ih hlast

/-- What every step keeps holds at the end of a trace. -/
theorem invariant (inv : S → Prop) (hstep : ∀ s last t, inv s → step s last t → inv t)
    (h : Trace step s labels t) (hinit : inv s) : inv t :=
  h.history (fun _ => inv) (fun _ => hstep) hinit

end Trace

end Traces

/-! ### Interleavings of two threads -/

section Interleavings

variable {E : Type*}

/-- A schedule that runs two threads to their ends, each in its own order. -/
inductive Interleaves : List E → List E → List E → Prop
  | done : Interleaves [] [] []
  | first (e : E) {xs ys schedule : List E} :
      Interleaves xs ys schedule → Interleaves (e :: xs) ys (e :: schedule)
  | second (e : E) {xs ys schedule : List E} :
      Interleaves xs ys schedule → Interleaves xs (e :: ys) (e :: schedule)

/-- One entry is scheduled before another. -/
def Precedes (a b : E) (schedule : List E) : Prop :=
  ∃ front back, schedule = front ++ back ∧ a ∈ front ∧ b ∈ back

theorem precedes_iff {a b : E} {front back : List E} (hb : b ∉ back) :
    Precedes a b (front ++ b :: back) ↔ a ∈ front := by
  constructor
  · rintro ⟨front', back', heq, ha, hb'⟩
    rcases List.append_eq_append_iff.mp heq with ⟨between, rfl, hrest⟩ | ⟨between, rfl, -⟩
    · cases between with
      | nil => simpa using ha
      | cons c between =>
        obtain ⟨rfl, rfl⟩ := List.cons.inj hrest
        exact absurd (List.mem_append_right _ hb') hb
    · exact List.mem_append_left _ ha
  · intro ha
    exact ⟨front, b :: back, rfl, ha, List.mem_cons_self⟩

namespace Interleaves

/-- A schedule runs the entries of the two threads and no others. -/
theorem mem_iff {xs ys schedule : List E} (h : Interleaves xs ys schedule) (e : E) :
    e ∈ schedule ↔ e ∈ xs ∨ e ∈ ys := by
  induction h with
  | done => simp
  | first a _ ih => simp [ih, or_assoc]
  | second a _ ih => simp [ih, or_left_comm]

/-- A schedule whose first thread is over runs the second. -/
theorem eq_of_nil {ys schedule : List E} (h : Interleaves [] ys schedule) : schedule = ys := by
  generalize hxs : ([] : List E) = xs at h
  induction h with
  | done => rfl
  | first a _ ih => contradiction
  | second a _ ih => rw [ih hxs]

/-- A thread alone is a schedule. -/
theorem of_nil (ys : List E) : Interleaves [] ys ys := by
  induction ys with
  | nil => exact .done
  | cons e rest ih => exact ih.second e

theorem split {xs before after schedule : List E} {e : E}
    (h : Interleaves xs (before ++ e :: after) schedule) :
    ∃ done left front back, xs = done ++ left ∧ schedule = front ++ e :: back ∧
      Interleaves done before front ∧ Interleaves left after back := by
  generalize hys : before ++ e :: after = ys at h
  induction h generalizing before with
  | done => simp at hys
  | first a _ ih =>
    obtain ⟨done, left, front, back, rfl, rfl, hfront, hback⟩ := ih hys
    exact ⟨a :: done, left, a :: front, back, rfl, rfl, hfront.first a, hback⟩
  | @second a xs _ schedule hrest ih =>
    cases before with
    | nil =>
      obtain ⟨rfl, rfl⟩ := List.cons.inj hys
      exact ⟨[], xs, [], schedule, rfl, rfl, .done, hrest⟩
    | cons b before =>
      obtain ⟨rfl, htail⟩ := List.cons.inj hys
      obtain ⟨done, left, front, back, rfl, rfl, hfront, hback⟩ := ih htail
      exact ⟨done, left, b :: front, back, rfl, rfl, hfront.second b, hback⟩

end Interleaves

end Interleavings

end Foundations
