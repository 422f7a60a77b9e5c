import Mathlib.Data.List.Basic

/-!
# Computations that may raise

An action runs on a state and ends with a value or with an error. What it wrote before it raised
stays written, so an error leaves the state as it was only if it comes first.

A triple says what holds when an action has ended: of the value and the state if it returned, and of
the error and the state if it raised. There is one rule for each way to put actions together.
-/

namespace Foundations

/-- A computation on a state that returns a value or raises an error. -/
def Action (S E α : Type) : Type := S → S × Except E α

namespace Action

variable {S E α β : Type}

instance : Monad (Action S E) where
  pure a := fun s => (s, .ok a)
  bind c f := fun s =>
    match c s with
    | (s', .ok a) => f a s'
    | (s', .error e) => (s', .error e)

/-- Read the state. -/
def get : Action S E S := fun s => (s, .ok s)

/-- Write the state. -/
def modify (f : S → S) : Action S E Unit := fun s => (f s, .ok ())

/-- A computation that does not use the state. -/
def lift (result : Except E α) : Action S E α := fun s => (s, result)

/-- An action under a condition. -/
def when (b : Bool) (c : Action S E Unit) : Action S E Unit := if b then c else pure ()

/-- If `P` holds before, `Q` holds of what is returned and `R` of what is raised. -/
def Triple (P : S → Prop) (c : Action S E α) (Q : α → S → Prop) (R : E → S → Prop) : Prop :=
  ∀ s, P s →
    match c s with
    | (s', .ok a) => Q a s'
    | (s', .error e) => R e s'

/-- The action returns, and `Q` holds of what it returns. -/
def Completes (P : S → Prop) (c : Action S E α) (Q : α → S → Prop) : Prop :=
  Triple P c Q fun _ _ => False

variable {P P' : S → Prop} {c : Action S E α} {Q Q' : α → S → Prop} {R R' : E → S → Prop}

theorem Triple.imp (h : Triple P c Q R) (hP : ∀ s, P' s → P s) (hQ : ∀ a s, Q a s → Q' a s)
    (hR : ∀ e s, R e s → R' e s) : Triple P' c Q' R' := by
  intro s hs
  have hran := h s (hP s hs)
  generalize c s = ran at hran ⊢
  obtain ⟨s', a | e⟩ := ran
  · exact hR _ s' hran
  · exact hQ _ s' hran

/-- An action that never raises meets every condition on errors. -/
theorem Completes.triple (h : Completes P c Q) : Triple P c Q R :=
  h.imp (fun _ hs => hs) (fun _ _ ha => ha) fun _ _ hfalse => hfalse.elim

theorem Completes.imp (h : Completes P c Q) (hP : ∀ s, P' s → P s)
    (hQ : ∀ a s, Q a s → Q' a s) : Completes P' c Q' :=
  Triple.imp h hP hQ fun _ _ hfalse => hfalse

theorem triple_of_forall_eq (h : ∀ s, P s → Triple (· = s) c Q R) : Triple P c Q R :=
  fun s hs => h s hs s rfl

theorem triple_pure {a : α} (h : ∀ s, P s → Q a s) : Triple P (pure a : Action S E α) Q R := h

theorem triple_bind {f : α → Action S E β} {Q : β → S → Prop} {M : α → S → Prop}
    (hc : Triple P c M R) (hf : ∀ a, Triple (M a) (f a) Q R) : Triple P (c >>= f) Q R := by
  intro s hs
  have hran := hc s hs
  change match (match c s with
    | (s', .ok a) => f a s'
    | (s', .error e) => (s', .error e)) with
    | (s', .ok b) => Q b s'
    | (s', .error e) => R e s'
  generalize c s = ran at hran ⊢
  obtain ⟨s', e | a⟩ := ran
  · exact hran
  · exact hf a s' hran

/-- What holds of the state holds of what is read. -/
theorem triple_get_bind {f : S → Action S E α} (h : ∀ x, P x → Triple P (f x) Q R) :
    Triple P (get >>= f) Q R :=
  fun s hs => h s hs s hs

/-- What is read is the state. -/
theorem triple_get_bind_eq {f : S → Action S E α} (h : ∀ x, P x → Triple (· = x) (f x) Q R) :
    Triple P (get >>= f) Q R :=
  fun s hs => h s hs s rfl

theorem triple_modify {f : S → S} {Q : Unit → S → Prop} (h : ∀ s, P s → Q () (f s)) :
    Triple P (modify f : Action S E Unit) Q R := h

theorem triple_modify_bind (P' : S → Prop) {g : S → S} {f : Unit → Action S E α} (hg : ∀ s, P s → P' (g s))
    (hf : Triple P' (f ()) Q R) : Triple P (modify g >>= f) Q R :=
  fun s hs => hf (g s) (hg s hs)

theorem triple_lift_bind {result : Except E β} {f : β → Action S E α}
    (hok : ∀ b, result = .ok b → Triple P (f b) Q R)
    (herror : ∀ e, result = .error e → ∀ s, P s → R e s) : Triple P (lift result >>= f) Q R := by
  cases result with
  | ok b => exact hok b rfl
  | error e => exact herror e rfl

/-- A computation that is known to return. -/
theorem lift_bind_of_ok {result : Except E β} {b : β} (h : result = .ok b)
    (f : β → Action S E α) : (lift result >>= f) = f b := by
  rw [h]
  rfl

theorem pure_bind (b : β) (f : β → Action S E α) : ((pure b : Action S E β) >>= f) = f b := rfl

theorem triple_ite {b : Prop} [Decidable b] {c' : Action S E α} (hpos : b → Triple P c Q R)
    (hneg : ¬ b → Triple P c' Q R) : Triple P (if b then c else c') Q R := by
  split
  · exact hpos ‹b›
  · exact hneg ‹¬ b›

theorem triple_when {b : Bool} {c : Action S E Unit} {Q : Unit → S → Prop}
    (hpos : b = true → Triple P c Q R) (hneg : b = false → ∀ s, P s → Q () s) :
    Triple P (when b c) Q R := by
  cases b with
  | true => exact hpos rfl
  | false => exact hneg rfl

theorem pure_apply (a : α) (s : S) : (pure a : Action S E α) s = (s, .ok a) := rfl

/-- An action after another one. -/
theorem bind_apply (c : Action S E α) (f : α → Action S E β) (s : S) : (c >>= f) s = match c s with
      | (s', .ok a) => f a s'
      | (s', .error e) => (s', .error e) := rfl

/-- A loop over one more element: its last turn, if the others return. -/
theorem foldlM_concat (f : β → α → Action S E β) (xs : List α) (a : α) (b : β) (s : S) :
    (xs ++ [a]).foldlM f b s = match xs.foldlM f b s with
      | (s', .ok b') => f b' a s'
      | (s', .error e) => (s', .error e) := by
  induction xs generalizing b s with
  | nil =>
    simp only [List.nil_append, List.foldlM_cons, List.foldlM_nil, bind_apply, pure_apply]
    obtain ⟨s', e | b'⟩ := f b a s <;> rfl
  | cons x rest ih =>
    rw [List.cons_append, List.foldlM_cons, List.foldlM_cons, bind_apply, bind_apply]
    obtain ⟨s', e | b'⟩ := f b x s
    · rfl
    · exact ih b' s'

/-- A loop over a list keeps what every turn keeps. -/
theorem triple_foldlM {f : β → α → Action S E β} {I : β → S → Prop} (xs : List α) (b : β)
    (h : ∀ b, ∀ a ∈ xs, Triple (I b) (f b a) I R) : Triple (I b) (xs.foldlM f b) I R := by
  induction xs generalizing b with
  | nil => exact triple_pure fun _ hs => hs
  | cons a rest ih =>
    exact triple_bind (h b a List.mem_cons_self) fun b' =>
      ih b' fun b a ha => h b a (List.mem_cons_of_mem _ ha)

end Action

end Foundations
