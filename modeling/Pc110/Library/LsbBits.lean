import Mathlib.Tactic.Ring

/-! Bit fields packed least significant bit first into bytes. A byte string is read as
one little-endian number, so that a field at a bit position is a quotient followed by a
remainder whatever bytes it straddles. -/
namespace LsbBits

abbrev Byte := BitVec 8

def value : List Byte → Nat
  | [] => 0
  | b :: rest => b.toNat + 256 * value rest

def field (src : List Byte) (position width : Nat) : Nat :=
  value src / 2 ^ position % 2 ^ width

def bytes : Nat → Nat → List Byte
  | 0, _ => []
  | count + 1, n => BitVec.ofNat 8 n :: bytes count (n / 256)

/-- Fields are listed as pairs of a width and a value. -/
abbrev Field := Nat × Nat

def span : List Field → Nat
  | [] => 0
  | (width, _) :: rest => width + span rest

def number : List Field → Nat
  | [] => 0
  | (width, v) :: rest => v + 2 ^ width * number rest

def Fits (fields : List Field) : Prop := ∀ f ∈ fields, f.2 < 2 ^ f.1

def pack (fields : List Field) : List Byte := bytes ((span fields + 7) / 8) (number fields)

theorem value_append (a b : List Byte) :
    value (a ++ b) = value a + 2 ^ (8 * a.length) * value b := by
  induction a with
  | nil => simp [value]
  | cons x a ih =>
    rw [List.cons_append, value, value, ih, List.length_cons, Nat.mul_succ, Nat.pow_add]
    ring

theorem value_lt (src : List Byte) : value src < 2 ^ (8 * src.length) := by
  induction src with
  | nil => simp [value]
  | cons b rest ih =>
    have := b.isLt
    rw [value, List.length_cons, show 2 ^ (8 * (rest.length + 1)) = 256 * 2 ^ (8 * rest.length) by ring]
    omega

theorem value_drop (src : List Byte) (count : Nat) :
    value (src.drop count) = value src / 2 ^ (8 * count) := by
  induction count generalizing src with
  | zero => simp
  | succ count ih =>
    cases src with
    | nil => simp [value]
    | cons b rest =>
      have := b.isLt
      rw [List.drop_succ_cons, ih, value, Nat.mul_succ, Nat.add_comm (8 * count), Nat.pow_add,
        ← Nat.div_div_eq_div_mul, show 2 ^ 8 = 256 from rfl, Nat.add_mul_div_left _ _ (by omega),
        Nat.div_eq_of_lt this, Nat.zero_add]

@[simp] theorem bytes_length (count n : Nat) : (bytes count n).length = count := by
  induction count generalizing n with
  | zero => rfl
  | succ count ih => simp [bytes, ih]

/-- Without room for all of a number its low bytes remain. -/
theorem value_bytes_mod (count n : Nat) : value (bytes count n) = n % 2 ^ (8 * count) := by
  induction count generalizing n with
  | zero => simp [bytes, value, Nat.mod_one]
  | succ count ih =>
    have split := Nat.mod_mul (x := n) (a := 256) (b := 2 ^ (8 * count))
    rw [bytes, value, ih, BitVec.toNat_ofNat, show 2 ^ (8 * (count + 1)) = 256 * 2 ^ (8 * count) by ring, split]

theorem value_bytes (count n : Nat) (fits : n < 2 ^ (8 * count)) :
    value (bytes count n) = n := by
  rw [value_bytes_mod, Nat.mod_eq_of_lt fits]

/-- The byte above a small number, combined by shift and or. -/
theorem or_byte {r : BitVec 64} {i : Nat} (small : r.toNat < 2 ^ (8 * i)) (room : i < 8) (b : Byte) :
    (r ||| (b.setWidth 64 <<< (8 * i))).toNat = r.toNat + 2 ^ (8 * i) * b.toNat := by
  have fits : b.toNat <<< (8 * i) < 2 ^ 64 := by
    rw [Nat.shiftLeft_eq]
    calc b.toNat * 2 ^ (8 * i) < 2 ^ 8 * 2 ^ (8 * i) := Nat.mul_lt_mul_of_pos_right b.isLt (Nat.two_pow_pos _)
      _ = 2 ^ (8 + 8 * i) := (Nat.pow_add ..).symm
      _ ≤ 2 ^ 64 := Nat.pow_le_pow_right (by decide) (by omega)
  have byte : (b.setWidth 64).toNat = b.toNat := BitVec.toNat_setWidth_of_le (by decide)
  rw [BitVec.toNat_or, BitVec.toNat_shiftLeft, byte, Nat.mod_eq_of_lt fits, Nat.shiftLeft_eq, Nat.mul_comm,
    Nat.or_comm, ← Nat.two_pow_add_eq_or_of_lt small, Nat.add_comm]

/-- Three consecutive bytes, combined by shifts, are 24 bits of the number. -/
theorem window (src : List Byte) (i : Nat) (inside : i + 3 ≤ src.length) :
    src[i].toNat ||| src[i + 1].toNat <<< 8 ||| src[i + 2].toNat <<< 16 =
      field src (8 * i) 24 := by
  have split : src.drop i = src[i] :: src[i + 1] :: src[i + 2] :: src.drop (i + 3) := by
    rw [List.drop_eq_getElem_cons (by omega), List.drop_eq_getElem_cons (by omega),
      List.drop_eq_getElem_cons (by omega)]
  have a := src[i].isLt
  have b := src[i + 1].isLt
  have c := src[i + 2].isLt
  have low : src[i].toNat ||| src[i + 1].toNat <<< 8 = src[i].toNat + 2 ^ 8 * src[i + 1].toNat := by
    rw [Nat.shiftLeft_eq, Nat.mul_comm, Nat.or_comm, ← Nat.two_pow_add_eq_or_of_lt a]
    omega
  have all : src[i].toNat ||| src[i + 1].toNat <<< 8 ||| src[i + 2].toNat <<< 16 =
      src[i].toNat + 2 ^ 8 * src[i + 1].toNat + 2 ^ 16 * src[i + 2].toNat := by
    rw [low, Nat.shiftLeft_eq, Nat.mul_comm src[i + 2].toNat, Nat.or_comm,
      ← Nat.two_pow_add_eq_or_of_lt (by omega)]
    omega
  rw [all, field, ← value_drop, split, value, value, value]
  omega

/-- A narrower field inside a field is a field of the whole. -/
theorem field_field (src : List Byte) (position width offset narrow : Nat)
    (inside : offset + narrow ≤ width) :
    field src position width / 2 ^ offset % 2 ^ narrow = field src (position + offset) narrow := by
  obtain ⟨rest, rfl⟩ := Nat.exists_eq_add_of_le inside
  rw [field, field, Nat.pow_add, Nat.pow_add, Nat.mul_assoc, Nat.mod_mul_right_div_self,
    Nat.mod_mul_right_mod, Nat.div_div_eq_div_mul, ← Nat.pow_add]

theorem number_lt (fields : List Field) (fits : Fits fields) :
    number fields < 2 ^ span fields := by
  induction fields with
  | nil => simp [number, span]
  | cons f rest ih =>
    obtain ⟨width, v⟩ := f
    have head : v < 2 ^ width := fits (width, v) List.mem_cons_self
    have tail := ih (fun g member => fits g (List.mem_cons_of_mem _ member))
    rw [number, span, Nat.pow_add]
    calc v + 2 ^ width * number rest < 2 ^ width + 2 ^ width * number rest := by omega
      _ = 2 ^ width * (number rest + 1) := by ring
      _ ≤ 2 ^ width * 2 ^ span rest := Nat.mul_le_mul_left _ tail

/-- What follows the packed bytes does not change the fields inside them. -/
theorem field_pack (fields : List Field) (fits : Fits fields) (pad : List Byte)
    (position width : Nat) (inside : position + width ≤ span fields) :
    field (pack fields ++ pad) position width = number fields / 2 ^ position % 2 ^ width := by
  have round : span fields ≤ 8 * ((span fields + 7) / 8) := by omega
  have small := Nat.lt_of_lt_of_le (number_lt fields fits) (Nat.pow_le_pow_right (by omega) round)
  rw [field, pack, value_append, value_bytes _ _ small, bytes_length]
  obtain ⟨gap, whole⟩ := Nat.exists_eq_add_of_le (Nat.le_trans inside round)
  rw [whole, Nat.pow_add, Nat.pow_add, Nat.mul_assoc, Nat.mul_assoc,
    Nat.add_mul_div_left _ _ (Nat.two_pow_pos _), Nat.add_mul_mod_self_left]

def FieldsAt (src : List Byte) : Nat → List Field → Prop
  | _, [] => True
  | position, (width, v) :: rest =>
    field src position width = v ∧ FieldsAt src (position + width) rest

theorem fieldsAt_of_quotient (src : List Byte) (fields : List Field) (fits : Fits fields)
    (position : Nat)
    (same : ∀ offset width, offset + width ≤ span fields →
      field src (position + offset) width = number fields / 2 ^ offset % 2 ^ width) :
    FieldsAt src position fields := by
  induction fields generalizing position with
  | nil => trivial
  | cons f rest ih =>
    obtain ⟨width, v⟩ := f
    have head : v < 2 ^ width := fits (width, v) List.mem_cons_self
    refine ⟨?_, ih (fun g member => fits g (List.mem_cons_of_mem _ member)) _ ?_⟩
    · have h := same 0 width (by rw [span]; omega)
      rwa [number, Nat.pow_zero, Nat.div_one, Nat.add_mul_mod_self_left, Nat.mod_eq_of_lt head,
        Nat.add_zero] at h
    · intro offset narrow inside
      have h := same (width + offset) narrow (by rw [span]; omega)
      rwa [number, Nat.pow_add, ← Nat.div_div_eq_div_mul,
        Nat.add_mul_div_left _ _ (Nat.two_pow_pos _), Nat.div_eq_of_lt head, Nat.zero_add,
        ← Nat.add_assoc] at h

theorem fieldsAt_pack (fields : List Field) (fits : Fits fields) (pad : List Byte) :
    FieldsAt (pack fields ++ pad) 0 fields := by
  apply fieldsAt_of_quotient _ _ fits
  intro offset width inside
  rw [Nat.zero_add]
  exact field_pack fields fits pad offset width inside

theorem pack_length (fields : List Field) : (pack fields).length = (span fields + 7) / 8 :=
  bytes_length ..

end LsbBits
