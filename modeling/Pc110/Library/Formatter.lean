import Mathlib.Data.BitVec
import Pc110.Library.ByteMemory
import Pc110.Library.Runs

/-! Texts printed into a buffer one behind the other, with the offset advanced by the length that
each text wanted. A text that does not fit is cut; behind the end of the buffer the room that is
left wraps to nearly all of memory. -/
namespace Formatter

open ByteMemory (Memory)

abbrev Text := List Char

def nul : Char := Char.ofNat 0

/-- `snprintf(place, size, text)`: what fits before a NUL, and nothing into no room. -/
def snprintf (mem : Memory Char) (place size : Nat) (text : Text) : Memory Char :=
  if size = 0 then mem else ByteMemory.write mem place (text.take (size - 1) ++ [nul])

/-- `size - offset` as a `size_t`. -/
def room (size offset : Nat) : Nat := (BitVec.ofNat 64 size - BitVec.ofNat 64 offset).toNat

structure Cursor where
  offset : Nat
  mem : Memory Char

/-- `offset += snprintf(base + offset, size - offset, text)` -/
def put (base size : Nat) (text : Text) (cursor : Cursor) : Cursor where
  offset := cursor.offset + text.length
  mem := snprintf cursor.mem (base + cursor.offset) (room size cursor.offset) text

def print (base size : Nat) (texts : List Text) (mem : Memory Char) : Cursor :=
  Runs.run (put base size) texts ⟨0, mem⟩

/-- The offset is inside the buffer, or at its end, before every text. -/
def Contained (size : Nat) (texts : List Text) : Prop :=
  ∀ base mem, Runs.Always (put base size) (fun cursor _ => cursor.offset ≤ size) texts ⟨0, mem⟩

structure Shows (mem : Memory Char) (place : Nat) (text : Text) : Prop where
  read : ByteMemory.read mem place text.length = text
  ended : mem (place + text.length) = nul
  free : nul ∉ text

section Offsets

theorem always_offset (base size : Nat) (texts : List Text) (cursor : Cursor) (some : texts ≠ []) :
    Runs.Always (put base size) (fun cursor _ => cursor.offset ≤ size) texts cursor ↔
      cursor.offset + texts.dropLast.flatten.length ≤ size := by
  induction texts generalizing cursor with
  | nil => contradiction
  | cons text rest ih =>
    cases rest with
    | nil => simp [Runs.Always]
    | cons next rest =>
      rw [Runs.Always, ih _ (List.cons_ne_nil _ _), List.dropLast_cons_cons, List.flatten_cons, List.length_append]
      simp only [put]
      omega

/-- What counts is the length of all texts but the last. -/
theorem contained_iff (size : Nat) (texts : List Text) :
    Contained size texts ↔ texts.dropLast.flatten.length ≤ size := by
  cases texts with
  | nil => simp [Contained, Runs.Always]
  | cons text rest =>
    have offsets (base : Nat) (mem : Memory Char) :=
      always_offset base size (text :: rest) ⟨0, mem⟩ (List.cons_ne_nil _ _)
    simp only [Nat.zero_add] at offsets
    exact ⟨fun all => (offsets 0 fun _ => nul).mp (all 0 _), fun fits base mem => (offsets base mem).mpr fits⟩

theorem room_inside {size offset : Nat} (small : size < 2 ^ 64) (inside : offset ≤ size) :
    room size offset = size - offset := by
  unfold room
  rw [BitVec.toNat_sub, BitVec.toNat_ofNat, BitVec.toNat_ofNat]
  omega

end Offsets

section Contents
variable {base size : Nat} {text piece : Text} {cursor : Cursor}

/-- The buffer holds as much of a text as fits, and the NUL behind it once the text has filled it. -/
structure Filled (base size : Nat) (text : Text) (cursor : Cursor) : Prop where
  offset : cursor.offset = text.length
  front : ByteMemory.read cursor.mem base (min text.length (size - 1)) = text.take (size - 1)
  full : size ≤ text.length → cursor.mem (base + (size - 1)) = nul

/-- Behind a text just printed there is a NUL. -/
structure Printed (base size : Nat) (text : Text) (cursor : Cursor) : Prop extends Filled base size text cursor where
  ended : cursor.mem (base + min text.length (size - 1)) = nul

theorem filled_empty (base : Nat) {size : Nat} (some : 0 < size) (mem : Memory Char) : Filled base size [] ⟨0, mem⟩ where
  offset := rfl
  front := by simp [ByteMemory.read]
  full none := absurd some (Nat.not_lt.mpr none)

/-- A text that begins inside the buffer is put behind the others, as far as it fits. -/
theorem Filled.put_inside (filled : Filled base size text cursor) (small : size < 2 ^ 64)
    (inside : text.length < size) (piece : Text) :
    Printed base size (text ++ piece) (put base size piece cursor) := by
  have offset := filled.offset
  let fits := piece.take (size - text.length - 1)
  have length : fits.length = min (size - text.length - 1) piece.length := List.length_take
  have mem : (put base size piece cursor).mem = ByteMemory.write cursor.mem (base + text.length) (fits ++ [nul]) := by
    simp only [put, snprintf, offset, room_inside small (Nat.le_of_lt inside)]
    rw [if_neg (by omega)]
  have whole : (text ++ piece).take (size - 1) = text ++ fits := by
    rw [List.take_append, List.take_of_length_le (by omega), show size - 1 - text.length = size - text.length - 1 by omega]
  have before : ByteMemory.read cursor.mem base text.length = text := by
    have front := filled.front
    rwa [Nat.min_eq_left (by omega), List.take_of_length_le (by omega)] at front
  have behind : (put base size piece cursor).mem (base + text.length + fits.length) = nul := by
    rw [mem, ByteMemory.write_inside _ _ _ _ (by simp)]
    simp
  have split : min (text ++ piece).length (size - 1) = text.length + fits.length := by
    rw [List.length_append]
    omega
  refine ⟨⟨?_, ?_, ?_⟩, ?_⟩
  · rw [List.length_append, ← offset]
    rfl
  · rw [split, ByteMemory.read_add, mem, ByteMemory.read_write_apart _ _ _ _ _ (.inl (Nat.le_refl _)), before,
      ByteMemory.read_write_front _ _ (List.prefix_append fits [nul]), whole]
  · intro long
    rw [List.length_append] at long
    rw [show size - 1 = text.length + fits.length by omega, ← Nat.add_assoc]
    exact behind
  · rw [split, ← Nat.add_assoc]
    exact behind

/-- A text that begins at the end or behind it leaves the buffer as it is. -/
theorem Filled.put_behind (filled : Filled base size text cursor) (some : 0 < size) (past : size ≤ text.length)
    (piece : Text) :
    Printed base size (text ++ piece) (put base size piece cursor) := by
  have offset := filled.offset
  have same (place : Nat) (inside : place < base + size) : (put base size piece cursor).mem place = cursor.mem place := by
    simp only [put, snprintf]
    split
    · rfl
    · apply ByteMemory.write_outside
      unfold ByteMemory.Within
      omega
  have longer : (text ++ piece).length = text.length + piece.length := List.length_append
  have cut : min (text ++ piece).length (size - 1) = min text.length (size - 1) := by omega
  have last : (put base size piece cursor).mem (base + (size - 1)) = nul := by
    rw [same _ (by omega), filled.full past]
  refine ⟨⟨?_, ?_, fun _ => last⟩, ?_⟩
  · rw [longer, ← offset]
    rfl
  · rw [cut, List.take_append_of_le_length (by omega), ← filled.front]
    apply List.map_congr_left
    intro i member
    have := List.mem_range.mp member
    exact same _ (by omega)
  · rw [Nat.min_eq_right (by omega)]
    exact last

theorem Filled.put (filled : Filled base size text cursor) (some : 0 < size) (small : size < 2 ^ 64) (piece : Text) :
    Printed base size (text ++ piece) (put base size piece cursor) := by
  by_cases inside : text.length < size
  · exact filled.put_inside small inside piece
  · exact filled.put_behind some (Nat.not_lt.mp inside) piece

theorem Filled.run (filled : Filled base size text cursor) (some : 0 < size) (small : size < 2 ^ 64)
    (texts : List Text) :
    Filled base size (text ++ texts.flatten) (Runs.run (Formatter.put base size) texts cursor) := by
  induction texts generalizing text cursor with
  | nil =>
    rw [List.flatten_nil, List.append_nil]
    exact filled
  | cons piece texts ih =>
    rw [List.flatten_cons, ← List.append_assoc]
    exact ih (filled.put some small piece).toFilled

/-- However many texts are printed, the buffer shows what fits of them, overrun or not. -/
theorem print_shows (base : Nat) (mem : Memory Char) {size : Nat} (some : 0 < size) (small : size < 2 ^ 64)
    (texts : List Text) (any : texts ≠ []) (free : nul ∉ texts.flatten) :
    Shows (print base size texts mem).mem base (texts.flatten.take (size - 1)) := by
  obtain ⟨front, last, rfl⟩ : ∃ front last, texts = front ++ [last] :=
    ⟨_, _, (List.dropLast_concat_getLast any).symm⟩
  have before := (filled_empty base some mem).run some small front
  obtain ⟨filled, ended⟩ := before.put some small last
  rw [List.nil_append, ← List.flatten_concat] at filled ended
  have printed : put base size last (Runs.run (put base size) front ⟨0, mem⟩) = print base size (front ++ [last]) mem := by
    rw [print, Runs.run_append]
    rfl
  rw [printed] at filled ended
  have length : ((front ++ [last]).flatten.take (size - 1)).length = min (front ++ [last]).flatten.length (size - 1) := by
    rw [List.length_take, Nat.min_comm]
  exact ⟨by rw [length, filled.front], by rw [length, ended], fun cut => free (List.mem_of_mem_take cut)⟩

theorem Shows.unique {mem : Memory Char} {place : Nat} {text other : Text} (shows : Shows mem place text)
    (shows' : Shows mem place other) : text = other := by
  have within {a b : Text} (first : Shows mem place a) (second : Shows mem place b) : b.length ≤ a.length := by
    by_contra longer
    have inside : a.length < b.length := Nat.not_le.mp longer
    have cell : b[a.length] = nul := by
      have read := List.getElem_of_eq second.read (i := a.length) (by rw [ByteMemory.read_length]; exact inside)
      rw [ByteMemory.read_getElem, first.ended] at read
      exact read.symm
    exact second.free (cell ▸ List.getElem_mem _)
  have length := Nat.le_antisymm (within shows' shows) (within shows shows')
  rw [← shows.read, ← shows'.read, length]

end Contents

end Formatter
