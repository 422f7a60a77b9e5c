import TradingSim.Foundations.Run

/-!
# Cooperative tasks

The tasks of an event loop share a state. A task runs without interruption until it hands something
out and awaits; before it goes on, any other task may have run. What a task does between two awaits
is one step for everybody else.
-/

namespace Foundations

/-- A task: it reads the state, writes it, hands something out and awaits, or ends. -/
inductive Coroutine (S O α : Type)
  | done (a : α)
  | read (next : S → Coroutine S O α)
  | write (s : S) (next : Coroutine S O α)
  | await (o : O) (next : Coroutine S O α)

namespace Coroutine

variable {S O α β : Type}

/-- A task after another one. -/
def bind : Coroutine S O α → (α → Coroutine S O β) → Coroutine S O β
  | .done a, f => f a
  | .read next, f => .read fun s => (next s).bind f
  | .write s next, f => .write s (next.bind f)
  | .await o next, f => .await o (next.bind f)

instance : Monad (Coroutine S O) where
  pure := .done
  bind := bind

/-- The state. -/
def get : Coroutine S O S := .read .done

/-- Change the state. -/
def modify (f : S → S) : Coroutine S O Unit := .read fun s => .write (f s) (.done ())

/-- Hand something out and await. -/
def handOut (o : O) : Coroutine S O Unit := .await o (.done ())

/-- How a task is found when it stops running: at its end, or awaiting with the rest to do. -/
inductive Outcome (S O α : Type)
  | ended (a : α)
  | awaits (o : O) (next : Coroutine S O α)

/-- What a task that awaits has handed out. -/
def Outcome.output : Outcome S O α → Option O
  | .ended _ => none
  | .awaits o _ => some o

theorem Outcome.eq_awaits_of_output {outcome : Outcome S O α} {o : O}
    (h : outcome.output = some o) : ∃ next, outcome = .awaits o next := by
  cases outcome with
  | ended a => cases h
  | awaits o' next =>
    cases h
    exact ⟨next, rfl⟩

/-- Run a task until it awaits or ends. -/
def advance : Coroutine S O α → S → S × Outcome S O α
  | .done a, s => (s, .ended a)
  | .read next, s => (next s).advance s
  | .write s next, _ => next.advance s
  | .await o next, s => (s, .awaits o next)

/-- Run a task to its end while nothing else runs, collecting what it hands out. -/
def finish : Coroutine S O α → S → α × S × List O
  | .done a, s => (a, s, [])
  | .read next, s => (next s).finish s
  | .write s next, _ => next.finish s
  | .await o next, s => ((next.finish s).1, (next.finish s).2.1, o :: (next.finish s).2.2)

/-- A task never writes. -/
def Quiet : Coroutine S O α → Prop
  | .done _ => True
  | .read next => ∀ s, (next s).Quiet
  | .write _ _ => False
  | .await _ next => next.Quiet

/-- The rest of a task never writes. -/
def Outcome.Quiet : Outcome S O α → Prop
  | .ended _ => True
  | .awaits _ next => next.Quiet

@[simp] theorem advance_pure (a : α) (s : S) : (pure a : Coroutine S O α).advance s = (s, .ended a) := rfl

@[simp] theorem advance_get_bind (f : S → Coroutine S O α) (s : S) :
    (get >>= f).advance s = (f s).advance s := rfl

@[simp] theorem advance_modify_bind (g : S → S) (f : Unit → Coroutine S O α) (s : S) :
    (modify g >>= f).advance s = (f ()).advance (g s) := rfl

@[simp] theorem advance_handOut_bind (o : O) (f : Unit → Coroutine S O α) (s : S) :
    (handOut o >>= f).advance s = (s, .awaits o (f ())) := rfl

@[simp] theorem quiet_pure (a : α) : (pure a : Coroutine S O α).Quiet := trivial

theorem quiet_get_bind (f : S → Coroutine S O α) : (get >>= f).Quiet ↔ ∀ s, (f s).Quiet := Iff.rfl

@[simp] theorem quiet_handOut_bind (o : O) (f : Unit → Coroutine S O α) :
    (handOut o >>= f).Quiet ↔ (f ()).Quiet := Iff.rfl

/-- A task after another one runs once the first has ended. -/
theorem advance_bind (c : Coroutine S O α) (f : α → Coroutine S O β) (s : S) : (c >>= f).advance s =
      match c.advance s with
      | (s', .ended a) => (f a).advance s'
      | (s', .awaits o next) => (s', .awaits o (next >>= f)) := by
  induction c generalizing s with
  | done a => rfl
  | read next ih => exact ih s s
  | write s' next ih => exact ih s'
  | await o next ih => rfl

@[simp] theorem finish_pure (a : α) (s : S) : (pure a : Coroutine S O α).finish s = (a, s, []) := rfl

@[simp] theorem finish_get_bind (f : S → Coroutine S O α) (s : S) :
    (get >>= f).finish s = (f s).finish s := rfl

@[simp] theorem finish_modify_bind (g : S → S) (f : Unit → Coroutine S O α) (s : S) :
    (modify g >>= f).finish s = (f ()).finish (g s) := rfl

@[simp] theorem finish_handOut (o : O) (s : S) :
    (handOut o : Coroutine S O Unit).finish s = ((), s, [o]) := rfl

/-- A task after another one hands out what the two hand out. -/
theorem finish_bind (c : Coroutine S O α) (f : α → Coroutine S O β) (s : S) : (c >>= f).finish s =
      (((f (c.finish s).1).finish (c.finish s).2.1).1, ((f (c.finish s).1).finish (c.finish s).2.1).2.1,
        (c.finish s).2.2 ++ ((f (c.finish s).1).finish (c.finish s).2.1).2.2) := by
  induction c generalizing s with
  | done a => rfl
  | read next ih => exact ih s s
  | write s' next ih => exact ih s'
  | await o next ih =>
    have hnext := ih s
    simp only [Bind.bind, Coroutine.bind, finish] at hnext ⊢
    rw [hnext]
    rfl

/-- A task that never writes leaves the state alone, and so does the rest of it. -/
theorem Quiet.advance {c : Coroutine S O α} (hc : c.Quiet) (s : S) :
    (c.advance s).1 = s ∧ (c.advance s).2.Quiet := by
  induction c generalizing s with
  | done a => exact ⟨rfl, trivial⟩
  | read next ih => exact ih s (hc s) s
  | write s' next ih => exact hc.elim
  | await o next ih => exact ⟨rfl, hc⟩

/-- A task on a part of the state, run on the whole. -/
def zoom {T : Type} (view : S → T) (set : T → S → S) : Coroutine T O α → Coroutine S O α
  | .done a => .done a
  | .read next => .read fun s => (next (view s)).zoom view set
  | .write t next => .read fun s => .write (set t s) (next.zoom view set)
  | .await o next => .await o (next.zoom view set)

/-- The rest of a task on a part of the state. -/
def Outcome.zoom {T : Type} (view : S → T) (set : T → S → S) : Outcome T O α → Outcome S O α
  | .ended a => .ended a
  | .awaits o next => .awaits o (next.zoom view set)

/-- A task on a part of the state leaves the rest of it alone, and so does what remains of it. -/
theorem advance_zoom {T : Type} {view : S → T} {set : T → S → S} (hview : ∀ t s, view (set t s) = t)
    (hset : ∀ t t' s, set t (set t' s) = set t s) (hself : ∀ s, set (view s) s = s)
    (c : Coroutine T O α) (s : S) : (c.zoom view set).advance s =
      (set (c.advance (view s)).1 s, (c.advance (view s)).2.zoom view set) := by
  induction c generalizing s with
  | done a => simp only [Coroutine.zoom, Coroutine.advance, hself, Outcome.zoom]
  | read next ih => exact ih (view s) s
  | write t next ih =>
    have hnext := ih (set t s)
    rw [hview, hset] at hnext
    exact hnext
  | await o next ih => simp only [Coroutine.zoom, Coroutine.advance, hself, Outcome.zoom]

end Coroutine

/-- An event loop: the shared state, the tasks that await, and what was handed out so far. -/
structure EventLoop (S O : Type) where
  state : S
  suspended : List (Coroutine S O Unit) := []
  handedOut : List O := []

namespace EventLoop

variable {S O : Type}

open Coroutine (Outcome)

/-- Take over what running a task led to. -/
def settle (loop : EventLoop S O) (ran : S × Outcome S O Unit) : EventLoop S O :=
  match ran.2 with
  | .ended _ => { loop with state := ran.1 }
  | .awaits o next => {
      state := ran.1
      suspended := loop.suspended ++ [next]
      handedOut := loop.handedOut ++ [o] }

/-- What can happen next: a new task starts, one that awaits goes on, or code outside the tasks
changes the state. -/
inductive Event (S O : Type)
  | start (task : Coroutine S O Unit)
  | resume (i : ℕ)
  | outside (change : S → S)

def step (loop : EventLoop S O) : Event S O → EventLoop S O
  | .start task => loop.settle (task.advance loop.state)
  | .resume i =>
    match loop.suspended[i]? with
    | none => loop
    | some task =>
      { loop with suspended := loop.suspended.eraseIdx i }.settle (task.advance loop.state)
  | .outside change => { loop with state := change loop.state }

/-- The state of the loop meets an invariant and no task that awaits will write. -/
structure Keeps (inv : S → Prop) (loop : EventLoop S O) : Prop where
  state : inv loop.state
  quiet : ∀ task ∈ loop.suspended, task.Quiet

/-- Taking over a run that ends in a state of the invariant and will not write keeps both. -/
theorem Keeps.settle {inv : S → Prop} {loop : EventLoop S O} (h : loop.Keeps inv)
    {ran : S × Outcome S O Unit} (hstate : inv ran.1) (hquiet : ran.2.Quiet) :
    (loop.settle ran).Keeps inv := by
  obtain ⟨s, outcome⟩ := ran
  cases outcome with
  | ended a => exact ⟨hstate, h.quiet⟩
  | awaits o next =>
    refine ⟨hstate, fun task htask => ?_⟩
    rcases List.mem_append.mp htask with hold | hnew
    · exact h.quiet task hold
    · rw [List.mem_singleton.mp hnew]
      exact hquiet

/-- An invariant kept by the first step of every task that starts and by the code outside, with no
task writing later, is kept by every step of the loop. -/
theorem Keeps.step {inv : S → Prop} {event : Event S O}
    (hstart : ∀ task, event = .start task → ∀ s, inv s → inv (task.advance s).1 ∧ (task.advance s).2.Quiet)
    (houtside : ∀ change, event = .outside change → ∀ s, inv s → inv (change s))
    {loop : EventLoop S O} (h : loop.Keeps inv) : (loop.step event).Keeps inv := by
  cases event with
  | start task =>
    obtain ⟨hstate, hquiet⟩ := hstart task rfl loop.state h.state
    exact h.settle hstate hquiet
  | resume i =>
    simp only [EventLoop.step]
    split
    · exact h
    · rename_i task htask
      obtain ⟨hstate, hquiet⟩ :=
        (h.quiet task (List.mem_of_getElem? htask)).advance loop.state
      have hrest : ({ loop with suspended := loop.suspended.eraseIdx i } : EventLoop S O).Keeps inv :=
        ⟨h.state, fun other hother => h.quiet other (List.mem_of_mem_eraseIdx hother)⟩
      apply hrest.settle _ hquiet
      rw [hstate]
      exact h.state
  | outside change => exact ⟨houtside change rfl loop.state h.state, h.quiet⟩

end EventLoop

end Foundations
