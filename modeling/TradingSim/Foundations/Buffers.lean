import Mathlib.Algebra.GroupWithZero.Nat
import Mathlib.Data.List.GetD
import Mathlib.Order.Basic
import Mathlib.Order.MinMax

/-!
# Texts in buffers of fixed size

`snprintf` writes a text into a buffer as far as there is room, ends it with a zero byte, and returns
the number of bytes that the whole text has. A writer that takes this number for the number of bytes
written has its text in the buffer exactly if the text was shorter than the room.
-/

namespace Foundations

/-- The bytes of a text. -/
def utf8 (cs : List Char) : List UInt8 := cs.flatMap String.utf8EncodeChar

theorem utf8_append (cs ds : List Char) : utf8 (cs ++ ds) = utf8 cs ++ utf8 ds := List.flatMap_append

theorem length_utf8 (cs : List Char) : (utf8 cs).length = (cs.map Char.utf8Size).sum := by
  simp [utf8, List.length_flatMap]

/-- The memory from the start of a buffer on. -/
abbrev Memory := ℕ → UInt8

namespace Memory

/-- The first bytes of the memory. -/
def read (mem : Memory) (n : ℕ) : List UInt8 := (List.range n).map mem

/-- Write a byte. -/
def store (mem : Memory) (i : ℕ) (byte : UInt8) : Memory := Function.update mem i byte

/-- Write a text from an index on where there is room for some bytes. -/
def snprintf (mem : Memory) (start room : ℕ) (text : List UInt8) : Memory × ℕ :=
  let kept := min text.length (room - 1)
  (fun i =>
    if i < start ∨ start + kept < i ∨ room = 0 then mem i
    else if i = start + kept then 0
    else text.getD (i - start) 0, text.length)

@[simp] theorem length_read (mem : Memory) (n : ℕ) : (mem.read n).length = n := by
  rw [read, List.length_map, List.length_range]

theorem read_add (mem : Memory) (m n : ℕ) :
    mem.read (m + n) = mem.read m ++ Memory.read (fun i => mem (m + i)) n := by
  unfold read
  rw [List.range_add, List.map_append, List.map_map]
  rfl

theorem read_congr {mem mem' : Memory} {n : ℕ} (h : ∀ i < n, mem i = mem' i) : mem.read n = mem'.read n :=
  List.map_congr_left fun i hi => h i (List.mem_range.mp hi)

/-- A text that fits is found behind what was there. -/
theorem read_snprintf {mem : Memory} {front text : List UInt8} {room : ℕ}
    (hfront : mem.read front.length = front) (hfits : text.length < room) :
    (mem.snprintf front.length room text).1.read (front.length + text.length) = front ++ text := by
  rw [read_add]
  congr 1
  · refine (read_congr fun i hi => ?_).trans hfront
    exact if_pos (Or.inl hi)
  · refine List.ext_getElem (length_read _ _) fun i hi hi' => ?_
    have hkept : min text.length (room - 1) = text.length := min_eq_left (by omega)
    simp only [read, List.getElem_map, List.getElem_range, snprintf, hkept]
    rw [if_neg (by omega), if_neg (by omega), Nat.add_sub_cancel_left, List.getD_eq_getElem _ _ hi']

/-- A text that does not fit is cut by the zero byte at the end of the buffer. -/
theorem snprintf_last (mem : Memory) {text : List UInt8} {room : ℕ} (hroom : 0 < room)
    (hlong : room ≤ text.length) : (mem.snprintf 0 room text).1 (room - 1) = 0 := by
  have hkept : min text.length (room - 1) = room - 1 := min_eq_right (by omega)
  simp only [snprintf, hkept]
  rw [if_neg (by omega), if_pos (by omega)]

/-- A byte at the end of a text. -/
theorem read_store (mem : Memory) (n : ℕ) (byte : UInt8) :
    (mem.store n byte).read (n + 1) = mem.read n ++ [byte] := by
  rw [read_add]
  congr 1
  · exact read_congr fun i hi => Function.update_of_ne (by omega) _ _
  · simp [read, store]

/-- A byte behind a text. -/
theorem read_store_of_le {mem : Memory} {n i : ℕ} (h : n ≤ i) (byte : UInt8) :
    (mem.store i byte).read n = mem.read n :=
  read_congr fun _ hj => Function.update_of_ne (by omega) _ _

/-- A reader who trusts the returned length finds the text and stays inside the buffer exactly if the
text is shorter than the buffer. -/
theorem read_snprintf_iff (mem : Memory) {text : List UInt8} {room : ℕ} {last : UInt8}
    (hlast : text.getLast? = some last) (hzero : last ≠ 0) :
    ((mem.snprintf 0 room text).1.read text.length = text ∧ text.length ≤ room) ↔ text.length < room := by
  constructor
  · rintro ⟨heq, hle⟩
    refine lt_of_le_of_ne hle fun hroom => hzero ?_
    have hpositive : 0 < room := by
      rw [← hroom, List.length_pos_iff]
      rintro rfl
      cases hlast
    rw [← Option.some_inj, ← hlast, ← heq, List.getLast?_eq_getElem?, length_read]
    simp only [read, List.getElem?_map, hroom]
    rw [List.getElem?_range (by omega), Option.map_some, snprintf_last mem hpositive hroom.ge]
  · intro hlt
    have hread : (mem.snprintf 0 room text).1.read (0 + text.length) = [] ++ text :=
      @read_snprintf mem [] text room rfl hlt
    rw [Nat.zero_add, List.nil_append] at hread
    exact ⟨hread, hlt.le⟩

end Memory

end Foundations
