import Mathlib.Data.List.GetD
import Mathlib.Logic.Function.Basic

/-! A flat memory of cells at natural addresses, read and written in runs of
consecutive cells. A store replaces exactly the cells of its run. -/
namespace ByteMemory

abbrev Memory (α : Type) := Nat → α

variable {α : Type} (mem : Memory α)

def read (address count : Nat) : List α := (List.range count).map fun i => mem (address + i)

def write (address : Nat) (data : List α) : Memory α := fun place =>
  if address ≤ place then data.getD (place - address) (mem place) else mem place

/-- The cells of a run of `count` from `address`. -/
def Within (address count place : Nat) : Prop := address ≤ place ∧ place < address + count

@[simp] theorem read_length (address count : Nat) : (read mem address count).length = count := by
  simp [read]

@[simp] theorem read_getElem (address count i : Nat) (h : i < (read mem address count).length) :
    (read mem address count)[i] = mem (address + i) := by
  simp [read]

theorem write_outside (address place : Nat) (data : List α)
    (apart : ¬ Within address data.length place) : write mem address data place = mem place := by
  unfold write
  split
  case isTrue above =>
    apply List.getD_eq_default
    unfold Within at apart
    omega
  case isFalse => rfl

theorem write_inside (address i : Nat) (data : List α) (h : i < data.length) :
    write mem address data (address + i) = data[i] := by
  simp only [write, Nat.le_add_right, if_true, Nat.add_sub_cancel_left]
  exact List.getD_eq_getElem data (mem (address + i)) h

@[simp] theorem write_nil (address : Nat) : write mem address [] = mem := by
  funext place
  apply write_outside
  simp only [Within, List.length_nil]
  omega

theorem read_write (address : Nat) (data : List α) :
    read (write mem address data) address data.length = data := by
  apply List.ext_getElem
  · exact read_length _ _ _
  · intro i _ h
    rw [read_getElem, write_inside mem address i data h]

theorem read_write_apart (address place count : Nat) (data : List α)
    (apart : place + count ≤ address ∨ address + data.length ≤ place) :
    read (write mem address data) place count = read mem place count := by
  apply List.map_congr_left
  intro i member
  apply write_outside
  have := List.mem_range.mp member
  unfold Within
  omega

theorem write_singleton (address : Nat) (cell : α) :
    write mem address [cell] = Function.update mem address cell := by
  funext place
  by_cases here : place = address
  · rw [here, Function.update_self]
    exact write_inside mem address 0 [cell] Nat.one_pos
  · rw [Function.update_of_ne here]
    apply write_outside
    rintro ⟨low, high⟩
    exact here (Nat.le_antisymm (Nat.le_of_lt_succ high) low)

theorem read_succ (address count : Nat) :
    read mem address (count + 1) = read mem address count ++ [mem (address + count)] := by
  simp [read, List.range_succ]

theorem read_add (address front back : Nat) :
    read mem address (front + back) = read mem address front ++ read mem (address + front) back := by
  simp only [read, List.range_add, List.map_append, List.map_map, Function.comp_def, Nat.add_assoc]

/-- A copied run shows the cells it was copied from. -/
theorem copy_inside (source : Memory α) (address start : Nat) {size i : Nat} (inside : i < size) :
    write mem address (read source start size) (address + i) = source (start + i) := by
  rw [write_inside mem address i _ (by rw [read_length]; exact inside), read_getElem]

theorem write_append (address : Nat) (front back : List α) :
    write (write mem address front) (address + front.length) back =
      write mem address (front ++ back) := by
  funext place
  by_cases first : Within address front.length place
  · obtain ⟨i, rfl⟩ := Nat.exists_eq_add_of_le first.1
    have bound : i < front.length := by have := first.2; omega
    rw [write_outside _ _ _ _ (by unfold Within; omega), write_inside mem address i front bound,
      write_inside mem address i _ (by simp; omega), List.getElem_append_left bound]
  · by_cases second : Within (address + front.length) back.length place
    · obtain ⟨i, rfl⟩ := Nat.exists_eq_add_of_le second.1
      have bound : i < back.length := by have := second.2; omega
      rw [write_inside _ _ i back bound, Nat.add_assoc,
        write_inside mem address _ _ (by simp; omega), List.getElem_append_right (by omega)]
      congr 1
      omega
    · have neither : ¬ Within address (front ++ back).length place := by
        simp only [List.length_append]
        unfold Within at *
        omega
      rw [write_outside _ _ _ _ second, write_outside _ _ _ _ first, write_outside _ _ _ _ neither]

theorem write_comm (a b : Nat) (front back : List α) (apart : a + front.length ≤ b ∨ b + back.length ≤ a) :
    write (write mem a front) b back = write (write mem b back) a front := by
  funext place
  by_cases first : Within a front.length place
  · have other : ¬ Within b back.length place := by unfold Within at *; omega
    obtain ⟨i, rfl⟩ := Nat.exists_eq_add_of_le first.1
    have bound : i < front.length := by have := first.2; omega
    rw [write_outside _ _ _ _ other, write_inside _ _ _ _ bound, write_inside _ _ _ _ bound]
  · rw [write_outside _ _ _ _ first, write, write_outside _ _ _ _ first, write]

/-- A run shows its own cells alone. -/
theorem read_congr {mem mem' : Memory α} {address count : Nat}
    (same : ∀ place, Within address count place → mem' place = mem place) :
    read mem' address count = read mem address count := by
  apply List.map_congr_left
  intro i member
  have := List.mem_range.mp member
  exact same _ ⟨Nat.le_add_right _ _, Nat.add_lt_add_left this _⟩

theorem read_slice {address count : Nat} {data : List α} (here : read mem address count = data) (front size : Nat)
    (inside : front + size ≤ count) : read mem (address + front) size = (data.drop front).take size := by
  subst here
  obtain ⟨rest, rfl⟩ := Nat.exists_eq_add_of_le inside
  rw [Nat.add_assoc, read_add, List.drop_left' (read_length _ _ _), read_add, List.take_left' (read_length _ _ _)]

/-- A run copied in two parts is one copied whole, if it does not meet itself. -/
theorem copy_append (address start front back : Nat)
    (apart : start + (front + back) ≤ address ∨ address + (front + back) ≤ start) :
    let first := write mem address (read mem start front)
    write first (address + front) (read first (start + front) back) =
      write mem address (read mem start (front + back)) := by
  intro first
  have unseen : read first (start + front) back = read mem (start + front) back := by
    apply read_write_apart
    rw [read_length]
    omega
  have behind := write_append mem address (read mem start front) (read mem (start + front) back)
  rw [read_length, ← read_add] at behind
  rw [unseen]
  exact behind

/-- A store reads back from its start, as far as one cares to. -/
theorem read_write_front (address : Nat) {front data : List α} (start : front <+: data) :
    read (write mem address data) address front.length = front := by
  obtain ⟨rest, rfl⟩ := start
  rw [← write_append, read_write_apart _ _ _ _ _ (.inl (Nat.le_refl _)), read_write]

end ByteMemory
