import Mathlib.Logic.Function.Basic

/-! Records numbered from 0, each kept in the slot of its number modulo the size of a ring until
a later one takes the slot. -/
namespace Ring

variable {α : Type} {size : Nat} {past : List α} {cells : Nat → α}

/-- The last `size` records are where their numbers say. -/
def Holds (size : Nat) (past : List α) (cells : Nat → α) : Prop :=
  ∀ number record, past[number]? = some record → past.length ≤ number + size → cells (number % size) = record

theorem holds_nil (size : Nat) (cells : Nat → α) : Holds size [] cells := by
  intro number record found
  simp at found

/-- A record takes the slot of the one that is `size` older. -/
theorem Holds.record (holds : Holds size past cells) (record : α) :
    Holds size (past ++ [record]) (Function.update cells (past.length % size) record) := by
  intro number other found recent
  rw [List.length_append, List.length_singleton] at recent
  by_cases old : number < past.length
  · rw [List.getElem?_append_left old] at found
    have apart : number % size ≠ past.length % size := by
      intro same
      have gap : (past.length - number) % size = 0 := Nat.sub_mod_eq_zero_of_mod_eq same.symm
      rw [Nat.mod_eq_of_lt (by omega)] at gap
      omega
    rw [Function.update_of_ne apart]
    exact holds number other found (by omega)
  · have bound := (List.getElem?_eq_some_iff.mp found).1
    rw [List.length_append, List.length_singleton] at bound
    obtain rfl : number = past.length := by omega
    rw [List.getElem?_concat_length, Option.some.injEq] at found
    rw [Function.update_self, found]

/-- As many of the last records as the ring has slots are read back in order. -/
theorem Holds.last (holds : Holds size past cells) {count : Nat} (kept : count ≤ size) (enough : count ≤ past.length) :
    ((List.range count).map fun i => cells ((past.length - count + i) % size)) = past.drop (past.length - count) := by
  apply List.ext_getElem
  · rw [List.length_map, List.length_range, List.length_drop]
    omega
  · intro i inside _
    rw [List.length_map, List.length_range] at inside
    rw [List.getElem_map, List.getElem_range, List.getElem_drop]
    exact holds _ _ (List.getElem?_eq_getElem (by omega)) (by omega)

/-- The number of the latest of `count` records to use a slot. -/
def latest (size count slot : Nat) : Nat := count - 1 - (count - 1 - slot) % size

theorem latest_eq {count slot : Nat} (used : slot < count) :
    latest size count slot = slot + size * ((count - 1 - slot) / size) := by
  have split := Nat.div_add_mod (count - 1 - slot) size
  unfold latest
  omega

/-- What a slot shows, whoever asks for it. -/
theorem Holds.slot {slot : Nat} (holds : Holds size past cells) (inside : slot < size)
    (used : slot < past.length) : past[latest size past.length slot]? = some (cells slot) := by
  have modulo : latest size past.length slot % size = slot := by
    rw [latest_eq used, Nat.add_mul_mod_self_left, Nat.mod_eq_of_lt inside]
  have rest := Nat.mod_lt (past.length - 1 - slot) (Nat.zero_lt_of_lt inside)
  have bound : latest size past.length slot < past.length ∧
      past.length ≤ latest size past.length slot + size := by
    unfold latest
    omega
  have found := List.getElem?_eq_getElem bound.1
  rw [found, ← holds _ _ found bound.2, modulo]

/-- A record that is not too old is the latest in its slot. -/
theorem latest_own {count number : Nat} (before : number < count) (recent : count ≤ number + size) :
    latest size count (number % size) = number := by
  have split := Nat.div_add_mod number size
  have gap : count - 1 - number % size = (count - 1 - number) + size * (number / size) := by omega
  rw [latest, gap, Nat.add_mul_mod_self_left, Nat.mod_eq_of_lt (by omega)]
  omega

end Ring
