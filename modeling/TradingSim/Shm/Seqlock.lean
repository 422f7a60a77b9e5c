import Mathlib.Algebra.GroupWithZero.Nat
import Mathlib.Data.Fin.VecNotation
import Mathlib.Data.Fintype.Basic
import TradingSim.Foundations.Run
import TradingSim.Shm.RingBuffer

/-!
# The snapshot slot

A slot holds one record and a sequence number. A writer adds one to the number, copies the record
field by field, in Python after clearing all of it, and adds one again; a reader takes the record
between two loads of the number and keeps it if both gave the same even number.

While every write that has made the number odd goes on to its last store, the number is twice the
count of completed writes whenever no write is under way, and what a reader keeps is the record of
the last completed write.
-/

namespace TradingSim.Shm

open Foundations

/-- Where a write stands. -/
inductive SlotWriter (n : ℕ) (V : Type) where
  | idle
  | loaded (lang : Language) (snapshot : Fin n → V) (seq : ℕ)
  | clearing (snapshot : Fin n → V) (seq : ℕ)
  | writing (lang : Language) (snapshot : Fin n → V) (seq done : ℕ)

/-- Where a read stands. -/
inductive SlotReader (n : ℕ) (V : Type) where
  | idle
  | copying (seq : ℕ) (out : Fin n → V) (done : ℕ)

/-- A slot with one writer and one reader, the records of the completed writes, and what the reads
returned: none for false. -/
structure SnapshotSlot (n : ℕ) (V : Type) where
  seq : ℕ := 0
  data : Fin n → V
  writer : SlotWriter n V := .idle
  reader : SlotReader n V := .idle
  completed : List (Fin n → V) := []
  results : List (Option (Fin n → V)) := []

/-- What happens to a slot: a write starts, takes its next step or is abandoned; a read starts into a buffer
or takes its next step. -/
inductive SlotEvent (n : ℕ) (V : Type) where
  | write (lang : Language) (snapshot : Fin n → V)
  | writerStep
  | abandon
  | read (out : Fin n → V)
  | readerStep

namespace SnapshotSlot

variable {n : ℕ} {V : Type} [Zero V]

/-- The writer's next step: store the odd number, clear the record as `pack_into` does, copy one field,
or store the even number. -/
def writerStep (x : SnapshotSlot n V) : SnapshotSlot n V :=
  match x.writer with
  | .idle => x
  | .loaded lang snapshot seq =>
    { x with
      seq := storedIndex lang (seq + 1)
      writer :=
        if !fits64 lang (seq + 1) then .idle
        else if lang = .python then .clearing snapshot seq
        else .writing lang snapshot seq 0 }
  | .clearing snapshot seq => { x with data := 0, writer := .writing .python snapshot seq 0 }
  | .writing lang snapshot seq done =>
    if h : done < n then
      { x with
        data := Function.update x.data ⟨done, h⟩ (snapshot ⟨done, h⟩)
        writer := .writing lang snapshot seq (done + 1) }
    else
      { x with
        seq := storedIndex lang (seq + 2)
        writer := .idle
        completed := if fits64 lang (seq + 2) then x.completed ++ [snapshot] else x.completed }

/-- The reader's next step: copy one field, or compare the number with the one it began with. -/
def readerStep (x : SnapshotSlot n V) : SnapshotSlot n V :=
  match x.reader with
  | .idle => x
  | .copying seq out done =>
    if h : done < n then
      { x with reader := .copying seq (Function.update out ⟨done, h⟩ (x.data ⟨done, h⟩)) (done + 1) }
    else
      { x with
        reader := .idle
        results := x.results ++ [if x.seq = seq then some out else none] }

/-- One event. A writer or reader that is busy does not start again. -/
def step (x : SnapshotSlot n V) : SlotEvent n V → SnapshotSlot n V
  | .write lang snapshot =>
    match x.writer with
    | .idle => { x with writer := .loaded lang snapshot x.seq }
    | _ => x
  | .writerStep => x.writerStep
  | .abandon => { x with writer := .idle }
  | .read out =>
    match x.reader with
    | .idle =>
      if x.seq = 0 ∨ x.seq % 2 = 1 then { x with results := x.results ++ [none] }
      else { x with reader := .copying x.seq out 0 }
    | _ => x
  | .readerStep => x.readerStep

/-- A slot nothing was written to, whatever its fields are. -/
def init (data : Fin n → V) : SnapshotSlot n V := { data := data }

/-- The slot after a read that nothing interrupts. -/
def readAlone (x : SnapshotSlot n V) (out : Fin n → V) : SnapshotSlot n V :=
  run step { x with reader := .idle } (.read out :: List.replicate (n + 1) .readerStep)

/-- Reads return records of completed writes; and after a completed write, with no write under
way, a read returns. -/
structure Consistent (x : SnapshotSlot n V) : Prop where
  untorn : ∀ out, some out ∈ x.results → out ∈ x.completed
  unblocked : x.writer = .idle → x.completed ≠ [] → ∀ out, ∃ snapshot ∈ x.completed,
    (x.readAlone out).results = x.results ++ [some snapshot]

/-- A write that has made the number odd is not abandoned, and its last store fits 64 bits. -/
def Finishes (x : SnapshotSlot n V) : SlotEvent n V → Prop
  | .abandon =>
    match x.writer with
    | .writing _ _ _ _ | .clearing _ _ => False
    | _ => True
  | .writerStep =>
    match x.writer with
    | .writing _ _ seq done => done < n ∨ seq + 2 < 2 ^ 64
    | _ => True
  | _ => True

instance (x : SnapshotSlot n V) (e : SlotEvent n V) : Decidable (x.Finishes e) := by
  cases e with
  | abandon =>
    unfold Finishes
    cases x.writer <;> infer_instance
  | writerStep =>
    unfold Finishes
    cases x.writer <;> infer_instance
  | _ => exact isTrue trivial

/-- No write is under way: the number counts the completed writes twice, and the record is that of
the last one. -/
structure Settled (x : SnapshotSlot n V) : Prop where
  seq : x.seq = 2 * x.completed.length
  seq_lt : x.seq < 2 ^ 64
  data : ∀ snapshot, x.completed.getLast? = some snapshot → x.data = snapshot

/-- What holds between two steps of a write. -/
def WriterInv (x : SnapshotSlot n V) : SlotWriter n V → Prop
  | .idle => x.Settled
  | .loaded _ _ seq => seq = x.seq ∧ x.Settled
  | .clearing _ seq => seq = 2 * x.completed.length ∧ x.seq = seq + 1
  | .writing _ snapshot seq done =>
    seq = 2 * x.completed.length ∧ x.seq = seq + 1 ∧ done ≤ n ∧
      ∀ i : Fin n, i.val < done → x.data i = snapshot i

/-- What holds between two steps of a read: while the number is the one the read began with, the
copied fields are those of the slot. -/
def ReaderInv (x : SnapshotSlot n V) : SlotReader n V → Prop
  | .idle => True
  | .copying seq out done =>
    done ≤ n ∧ seq ≠ 0 ∧ seq % 2 = 0 ∧ seq ≤ x.seq ∧
      (x.seq = seq → ∀ i : Fin n, i.val < done → out i = x.data i)

/-- The slot is consistent, and both sides are where they say. -/
structure Inv (x : SnapshotSlot n V) : Prop where
  writer : x.WriterInv x.writer
  reader : x.ReaderInv x.reader
  untorn : ∀ out, some out ∈ x.results → out ∈ x.completed

omit [Zero V] in
theorem copied_update {out record : Fin n → V} {done : ℕ} (hmore : done < n)
    (h : ∀ i : Fin n, i.val < done → out i = record i) (i : Fin n) (hi : i.val < done + 1) :
    Function.update out ⟨done, hmore⟩ (record ⟨done, hmore⟩) i = record i := by
  by_cases hlast : i = ⟨done, hmore⟩
  · rw [hlast]
    exact Function.update_self _ _ _
  · have hother : i.val ≠ done := fun heq => hlast (Fin.ext heq)
    rw [Function.update_of_ne hlast]
    exact h i (by omega)

omit [Zero V] in
theorem inv_init (data : Fin n → V) : (init data).Inv where
  writer := ⟨rfl, Nat.two_pow_pos 64, fun _ h => by cases h⟩
  reader := trivial
  untorn := fun _ h => by cases h

theorem storedIndex_of_lt (lang : Language) {index : ℕ} (h : index < 2 ^ 64) :
    fits64 lang index = true ∧ storedIndex lang index = index := by
  have hfits : fits64 lang index = true := by
    cases lang with
    | cpp => rfl
    | python =>
      rw [fits64, decide_eq_true_eq]
      omega
  refine ⟨hfits, ?_⟩
  rw [storedIndex, if_pos hfits]
  omega

variable {x : SnapshotSlot n V}

omit [Zero V] in
/-- A number that a read began with stays behind every later number but itself. -/
theorem readerInv_advance {y : SnapshotSlot n V} {phase : SlotReader n V}
    (h : x.ReaderInv phase) (hle : x.seq ≤ y.seq) (hnew : y.seq % 2 = 1 ∨ x.seq < y.seq) :
    y.ReaderInv phase := by
  cases phase with
  | idle => trivial
  | copying seq out done =>
    obtain ⟨hdone, hzero, heven, hseq, _⟩ := h
    refine ⟨hdone, hzero, heven, by omega, ?_⟩
    intro hsame
    omega

omit [Zero V] in
/-- Whether writes have settled depends on the number, the record and the completed writes. -/
theorem Settled.congr {y : SnapshotSlot n V} (h : x.Settled) (hseq : y.seq = x.seq)
    (hdata : y.data = x.data) (hcompleted : y.completed = x.completed) : y.Settled := by
  constructor
  · rw [hseq, hcompleted, h.seq]
  · rw [hseq]
    exact h.seq_lt
  · rw [hcompleted, hdata]
    exact h.data

omit [Zero V] in
theorem writerInv_congr {y : SnapshotSlot n V} {phase : SlotWriter n V} (h : x.WriterInv phase)
    (hseq : y.seq = x.seq) (hdata : y.data = x.data) (hcompleted : y.completed = x.completed) :
    y.WriterInv phase := by
  cases phase with
  | idle => exact Settled.congr h hseq hdata hcompleted
  | loaded lang snapshot seq => exact ⟨h.1.trans hseq.symm, h.2.congr hseq hdata hcompleted⟩
  | clearing snapshot seq =>
    unfold WriterInv at h ⊢
    rwa [hseq, hcompleted]
  | writing lang snapshot seq done =>
    unfold WriterInv at h ⊢
    rwa [hseq, hdata, hcompleted]

theorem inv_writerStep (h : x.Inv) (hsafe : x.Finishes .writerStep) : x.writerStep.Inv := by
  have hwriter := h.writer
  unfold writerStep
  cases hphase : x.writer with
  | idle => exact h
  | loaded lang snapshot seq =>
    simp only [WriterInv, hphase] at hwriter
    obtain ⟨rfl, hsettled⟩ := hwriter
    have heven := hsettled.seq
    have hlt := hsettled.seq_lt
    have hfits : x.seq + 1 < 2 ^ 64 := by omega
    have hstores : fits64 lang ((x.seq : ℤ) + 1) = true := (storedIndex_of_lt lang hfits).1
    have hstored : storedIndex lang ((x.seq : ℤ) + 1) = x.seq + 1 := (storedIndex_of_lt lang hfits).2
    simp only [hstores, hstored]
    refine ⟨?_, ?_, h.untorn⟩
    · cases lang with
      | cpp => exact ⟨heven, rfl, Nat.zero_le _, fun i hi => absurd hi (Nat.not_lt_zero _)⟩
      | python => exact ⟨heven, rfl⟩
    · apply readerInv_advance h.reader
      · exact Nat.le_succ _
      · exact Or.inr (Nat.lt_succ_self _)
  | clearing snapshot seq =>
    simp only [WriterInv, hphase] at hwriter
    obtain ⟨hcount, hodd⟩ := hwriter
    refine ⟨⟨hcount, hodd, Nat.zero_le _, fun i hi => absurd hi (Nat.not_lt_zero _)⟩, ?_, h.untorn⟩
    apply readerInv_advance h.reader
    · exact le_refl x.seq
    · left
      change x.seq % 2 = 1
      omega
  | writing lang snapshot seq done =>
    simp only [WriterInv, hphase] at hwriter
    simp only [Finishes, hphase] at hsafe
    obtain ⟨hcount, hodd, hdone, hcopied⟩ := hwriter
    by_cases hmore : done < n
    · simp only [hmore, dite_true]
      refine ⟨⟨hcount, hodd, hmore, copied_update hmore hcopied⟩, ?_, h.untorn⟩
      apply readerInv_advance h.reader
      · exact le_refl x.seq
      · left
        change x.seq % 2 = 1
        omega
    · simp only [hmore, dite_false]
      have hfits := hsafe.resolve_left hmore
      have hstores : fits64 lang ((seq : ℤ) + 2) = true := (storedIndex_of_lt lang hfits).1
      have hstored : storedIndex lang ((seq : ℤ) + 2) = seq + 2 := (storedIndex_of_lt lang hfits).2
      simp only [hstores, hstored, if_true]
      refine ⟨⟨?_, hfits, ?_⟩, ?_, ?_⟩
      · rw [List.length_append, List.length_singleton]
        change seq + 2 = _
        omega
      · intro last hlast
        rw [List.getLast?_concat, Option.some.injEq] at hlast
        subst hlast
        funext i
        exact hcopied i (by omega)
      · apply readerInv_advance h.reader
        · change x.seq ≤ seq + 2
          omega
        · right
          change x.seq < seq + 2
          omega
      · intro out hout
        exact List.mem_append_left _ (h.untorn out hout)

omit [Zero V] in
/-- With an even number no write is under way. -/
theorem Inv.settled (h : x.Inv) (heven : x.seq % 2 = 0) : x.Settled := by
  have hwriter := h.writer
  cases hphase : x.writer with
  | idle => rwa [hphase] at hwriter
  | loaded lang snapshot seq =>
    rw [hphase] at hwriter
    exact hwriter.2
  | clearing snapshot seq =>
    rw [hphase] at hwriter
    obtain ⟨_, hodd⟩ := hwriter
    omega
  | writing lang snapshot seq done =>
    rw [hphase] at hwriter
    obtain ⟨_, hodd, _⟩ := hwriter
    omega

omit [Zero V] in
theorem inv_readerStep (h : x.Inv) : x.readerStep.Inv := by
  have hreader := h.reader
  unfold readerStep
  cases hphase : x.reader with
  | idle => exact h
  | copying seq out done =>
    simp only [ReaderInv, hphase] at hreader
    obtain ⟨hdone, hzero, heven, hle, hcopied⟩ := hreader
    by_cases hmore : done < n
    · simp only [hmore, dite_true]
      refine ⟨writerInv_congr h.writer rfl rfl rfl, ⟨hmore, hzero, heven, hle, ?_⟩, h.untorn⟩
      intro hsame
      exact copied_update hmore (hcopied hsame)
    · simp only [hmore, dite_false]
      refine ⟨writerInv_congr h.writer rfl rfl rfl, trivial, ?_⟩
      intro result hresult
      obtain hold | hnew := List.mem_append.mp hresult
      · exact h.untorn result hold
      · by_cases hsame : x.seq = seq
        · rw [if_pos hsame, List.mem_singleton, Option.some.injEq] at hnew
          have hout : out = x.data := funext fun i => hcopied hsame i (by omega)
          have hsettled := h.settled (hsame ▸ heven)
          have hlength := hsettled.seq
          cases hlast : x.completed.getLast? with
          | none =>
            rw [List.getLast?_eq_none_iff.mp hlast, List.length_nil] at hlength
            omega
          | some snapshot =>
            rw [hnew, hout, hsettled.data snapshot hlast]
            exact List.mem_of_getLast? hlast
        · rw [if_neg hsame, List.mem_singleton] at hnew
          cases hnew

/-- Every step that does not abandon a write under way keeps the invariant. -/
theorem inv_step (h : x.Inv) (e : SlotEvent n V) (hsafe : x.Finishes e) : (x.step e).Inv := by
  have hwriter := h.writer
  cases e with
  | write lang snapshot =>
    unfold step
    cases hphase : x.writer with
    | idle =>
      rw [hphase] at hwriter
      exact ⟨⟨rfl, Settled.congr hwriter rfl rfl rfl⟩, h.reader, h.untorn⟩
    | loaded _ _ _ => exact h
    | clearing _ _ => exact h
    | writing _ _ _ _ => exact h
  | writerStep => exact inv_writerStep h hsafe
  | abandon =>
    simp only [Finishes] at hsafe
    cases hphase : x.writer with
    | idle =>
      rw [hphase] at hwriter
      exact ⟨Settled.congr hwriter rfl rfl rfl, h.reader, h.untorn⟩
    | loaded lang snapshot seq =>
      rw [hphase] at hwriter
      exact ⟨hwriter.2.congr rfl rfl rfl, h.reader, h.untorn⟩
    | clearing snapshot seq =>
      rw [hphase] at hsafe
      exact absurd hsafe not_false
    | writing lang snapshot seq done =>
      rw [hphase] at hsafe
      exact absurd hsafe not_false
  | read out =>
    unfold step
    cases hphase : x.reader with
    | copying _ _ _ => exact h
    | idle =>
      by_cases hrefused : x.seq = 0 ∨ x.seq % 2 = 1
      · simp only [hrefused, if_true]
        refine ⟨writerInv_congr hwriter rfl rfl rfl, ?_, ?_⟩
        · trivial
        · intro result hresult
          exact h.untorn result (by simpa using hresult)
      · simp only [hrefused, if_false]
        refine ⟨writerInv_congr hwriter rfl rfl rfl, ⟨Nat.zero_le _, ?_, ?_, le_refl x.seq, ?_⟩,
          h.untorn⟩
        · omega
        · omega
        · intro _ i hi
          exact absurd hi (Nat.not_lt_zero _)
  | readerStep => exact inv_readerStep h

theorem run_readerSteps {seq : ℕ} {out : Fin n → V} {done m : ℕ}
    (hphase : x.reader = .copying seq out done) (hleft : done + m = n) (hseq : x.seq = seq)
    (hcopied : ∀ i : Fin n, i.val < done → out i = x.data i) :
    run step x (List.replicate (m + 1) .readerStep) =
      { x with reader := .idle, results := x.results ++ [some x.data] } := by
  induction m generalizing x out done with
  | zero =>
    have hout : out = x.data := funext fun i => hcopied i (by omega)
    have hdone : ¬ done < n := by omega
    simp [step, readerStep, hphase, hdone, hseq, hout]
  | succ m ih =>
    have hmore : done < n := by omega
    have hstep : x.step .readerStep = { x with
        reader := .copying seq (Function.update out ⟨done, hmore⟩ (x.data ⟨done, hmore⟩))
          (done + 1) } := by
      simp [step, readerStep, hphase, hmore]
    rw [List.replicate_succ, run_cons, hstep]
    exact ih rfl (by omega) hseq (copied_update hmore hcopied)

/-- With an even number other than zero, an uninterrupted read returns the record. -/
theorem results_readAlone (hzero : x.seq ≠ 0) (heven : x.seq % 2 = 0) (out : Fin n → V) :
    (x.readAlone out).results = x.results ++ [some x.data] := by
  have hstart : ({ x with reader := .idle } : SnapshotSlot n V).step (.read out) =
      { x with reader := .copying x.seq out 0 } := by
    simp [step, hzero, heven]
  rw [readAlone, run_cons, hstart,
    run_readerSteps rfl (Nat.zero_add n) rfl fun i hi => absurd hi (Nat.not_lt_zero _)]

theorem Inv.consistent (h : x.Inv) : x.Consistent where
  untorn := h.untorn
  unblocked := by
    intro hidle hsome out
    have hsettled : x.Settled := by
      have hwriter := h.writer
      rwa [hidle] at hwriter
    have hseq := hsettled.seq
    have hpos := List.length_pos_iff.mpr hsome
    obtain ⟨snapshot, hlast⟩ := Option.isSome_iff_exists.mp (List.getLast?_isSome.mpr hsome)
    refine ⟨snapshot, List.mem_of_getLast? hlast, ?_⟩
    rw [results_readAlone (by omega) (by omega), hsettled.data snapshot hlast]

/-- In every run in which each write that has made the number odd goes on to its last store, reads
return records of completed writes only, and after a completed write a read returns whenever no
write is under way. -/
theorem consistent_of_finishes (data : Fin n → V) (events : List (SlotEvent n V))
    (h : Along step Finishes (init data) events) :
    Along step (fun x e => (x.step e).Consistent) (init data) events := by
  apply along_imp Inv _ _ (inv_init data) h
  · intro x e hx hsafe
    exact inv_step hx e hsafe
  · intro x e hx hsafe
    exact (inv_step hx e hsafe).consistent

/-- A write of two fields with all its steps. -/
def wholeWrite (lang : Language) (a b : ℕ) : List (SlotEvent 2 ℕ) :=
  .write lang ![a, b] :: List.replicate (if lang = .python then 5 else 4) .writerStep

/-- A completed write, one that raises when its first field is packed, and one that a read
overtakes after its first field. -/
def tornEvents : List (SlotEvent 2 ℕ) :=
  wholeWrite .python 1 1 ++ [.write .python ![2, 2], .writerStep, .writerStep, .abandon] ++
    [.write .python ![3, 3], .writerStep, .writerStep, .writerStep, .read ![0, 0], .readerStep,
      .readerStep, .readerStep]

/-- After an abandoned write, a read returns a record that no write wrote. -/
theorem torn_after_abandoned : some ![3, 0] ∈ (run step (init ![0, 0]) tornEvents).results ∧
      ![3, 0] ∉ (run step (init ![0, 0]) tornEvents).completed := by
  decide

/-- Two whole writes are consistent. -/
theorem consistent_wholeWrites : Along step (fun x e => (x.step e).Consistent) (init ![0, 0])
      (wholeWrite .python 1 1 ++ wholeWrite .cpp 2 2) :=
  consistent_of_finishes ![0, 0] (wholeWrite .python 1 1 ++ wholeWrite .cpp 2 2)
    (by decide +kernel)

end SnapshotSlot

end TradingSim.Shm
