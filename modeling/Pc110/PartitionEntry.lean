import Pc110.MakeDisk
import Mathlib.Tactic.IntervalCases

/-! What the partition entry says of the disk that was written. The entry counts whole sectors
and holds ten bits of the end cylinder, so it is right for dumps that are whole sectors and
end below cylinder 1024. -/
namespace Pc110.MakeDisk

open LsbBits (Byte)

section Decoding

structure Chs where
  cylinder : Nat
  head : Nat
  sector : Nat
  deriving DecidableEq, Repr

def Chs.lba (a : Chs) : Nat := (a.cylinder * heads + a.head) * spt + a.sector - 1

def Chs.of (lba : Nat) : Chs := ⟨lba / (heads * spt), lba / spt % heads, lba % spt + 1⟩

def decodeChs (head sector cylinder : Byte) : Chs where
  cylinder := (sector.toNat &&& 0xC0) <<< 2 ||| cylinder.toNat
  head := head.toNat
  sector := sector.toNat &&& 0x3F

def entryOf (image : List Byte) : List Byte := (image.drop 0x1BE).take 16

def endOf (image : List Byte) : Chs :=
  decodeChs ((entryOf image).getD 5 0) ((entryOf image).getD 6 0) ((entryOf image).getD 7 0)

def startLba (image : List Byte) : Nat := LsbBits.value (((entryOf image).drop 8).take 4)

def sectorsOf (image : List Byte) : Nat := LsbBits.value ((entryOf image).drop 12)

theorem Chs.lba_of (lba : Nat) : (Chs.of lba).lba = lba := by
  simp only [Chs.of, Chs.lba, heads, spt]
  omega

theorem and_top_two (x : Nat) : x &&& 0xC0 = 2 ^ 6 * (x / 2 ^ 6 % 2 ^ 2) := by
  apply Nat.eq_of_testBit_eq
  intro i
  rw [show 0xC0 = 2 ^ 6 * (2 ^ 2 - 1) from rfl, Nat.testBit_and, Nat.testBit_two_pow_mul,
    Nat.testBit_two_pow_mul, Nat.testBit_two_pow_sub_one, Nat.testBit_mod_two_pow, Nat.testBit_div_two_pow]
  by_cases high : 6 ≤ i
  · rw [Nat.sub_add_cancel high, decide_eq_true high, Bool.true_and, Bool.true_and, Bool.and_comm]
  · simp [high]

/-- The middle byte: the top bits of the cylinder over the sector. -/
theorem chs_middle {c s : Nat} (small : s < 64) :
    ((c >>> 2) &&& 0xC0) ||| (s &&& 0x3F) = 64 * (c / 256 % 4) + s := by
  have sector : s &&& 0x3F = s := (Nat.and_two_pow_sub_one_eq_mod s 6).trans (Nat.mod_eq_of_lt small)
  rw [and_top_two, sector, ← Nat.two_pow_add_eq_or_of_lt small, Nat.shiftRight_eq_div_pow, Nat.div_div_eq_div_mul]
  rfl

/-- The bytes of an address hold ten bits of its cylinder. -/
theorem decodeChs_chs {c h s : Nat} (head : h < 256) (sector : s < 64) :
    decodeChs (BitVec.ofNat 8 h) (BitVec.ofNat 8 (((c >>> 2) &&& 0xC0) ||| (s &&& 0x3F)))
      (BitVec.ofNat 8 (c &&& 0xFF)) = ⟨c % 1024, h, s⟩ := by
  have low : c &&& 0xFF = c % 256 := Nat.and_two_pow_sub_one_eq_mod c 8
  have middle : (64 * (c / 256 % 4) + s) % 2 ^ 8 = 64 * (c / 256 % 4) + s := by omega
  have top : (64 * (c / 256 % 4) + s) / 2 ^ 6 % 2 ^ 2 = c / 256 % 4 := by omega
  simp only [decodeChs, BitVec.toNat_ofNat, Chs.mk.injEq, chs_middle sector, low, middle]
  refine ⟨?_, Nat.mod_eq_of_lt head, ?_⟩
  · have byte : c % 256 % 2 ^ 8 < 2 ^ 8 := Nat.mod_lt _ (by decide)
    have shifted : (2 ^ 6 * (c / 256 % 4)) <<< 2 = 2 ^ 8 * (c / 256 % 4) := by
      rw [Nat.shiftLeft_eq]
      omega
    rw [and_top_two, top, shifted, ← Nat.two_pow_add_eq_or_of_lt byte]
    omega
  · rw [Nat.and_two_pow_sub_one_eq_mod _ 6]
    omega

end Decoding

section Written
variable {part image : List Byte}

theorem entry_bytes {n : Nat} {e : List Byte} (made : entry n = .ok e) :
    n < 2 ^ 32 ∧ e = [0x80] ++ chs 0 1 1 ++ [0x04] ++
      chs ((32 + n - 1) / 64) ((32 + n - 1) / 32 % 2) ((32 + n - 1) % 32 + 1) ++
      (LsbBits.bytes 4 32 ++ LsbBits.bytes 4 n) := by
  unfold entry pack at made
  split at made
  case isTrue fits => exact ⟨fits.2, (Except.ok.inj made).symm⟩
  case isFalse => contradiction

theorem assign_slice (buffer data : List Byte) (start : Nat) (room : start + data.length ≤ buffer.length) :
    ((assign buffer start data).drop start).take data.length = data := by
  have front : (buffer.take start).length = start := by simp; omega
  rw [assign, List.append_assoc, List.drop_left' front, List.take_left']
  rfl

theorem assign_front (buffer data : List Byte) (start count : Nat) (room : start ≤ buffer.length)
    (before : count ≤ start) : (assign buffer start data).take count = buffer.take count := by
  rw [assign, List.append_assoc, List.take_append_of_le_length (by simp; omega), List.take_take,
    Nat.min_eq_left before]

/-- The entry stands in the disk as it was made, from `entry`'s arguments on. -/
theorem main_entry (made : main part = .ok image) : ∃ e, entry (part.length / 512) = .ok e ∧ entryOf image = e ∧
    image.length = 512 * 32 + part.length := by
  unfold main at made
  split at made
  case isTrue => contradiction
  case isFalse =>
    cases he : entry (part.length / 512) with
    | error =>
      rw [mbr, he] at made
      contradiction
    | ok e =>
      rw [mbr, he] at made
      obtain rfl := (Except.ok.inj made).symm
      have size := (entry_ok _ e he).1
      have first : (assign (List.replicate 512 0) 0 code).length = 512 := by
        rw [assign_length _ _ _ (by rw [List.length_replicate]; decide), List.length_replicate]
      have second : (assign (assign (List.replicate 512 0) 0 code) 0x1BE e).length = 512 := by
        rw [assign_length _ _ _ (by omega), first]
      have third :
          (assign (assign (assign (List.replicate 512 0) 0 code) 0x1BE e) 0x1FE [0x55, 0xAA]).length = 512 := by
        rw [assign_length _ _ _ (by rw [second]; decide), second]
      refine ⟨e, rfl, ?_, ?_⟩
      · have front : 0x1BE + 16 ≤ 0x1FE := by decide
        rw [entryOf, List.take_drop, List.append_assoc, List.take_append_of_le_length (by omega),
          assign_front _ _ _ _ (by omega) front, ← List.take_drop, ← size]
        exact assign_slice _ e 0x1BE (by omega)
      · simp only [List.length_append, List.length_replicate, third, hidden]

theorem entry_fields {n : Nat} {e : List Byte} (made : entry n = .ok e) (shown : entryOf image = e) :
    startLba image = 32 ∧ sectorsOf image = n ∧
      endOf image = ⟨(32 + n - 1) / 64 % 1024, (32 + n - 1) / 32 % 2, (32 + n - 1) % 32 + 1⟩ := by
  obtain ⟨fits, rfl⟩ := entry_bytes made
  have head : (32 + n - 1) / 32 % 2 < 256 := by omega
  have sector : (32 + n - 1) % 32 + 1 < 64 := by omega
  refine ⟨?_, ?_, ?_⟩
  · rw [startLba, shown]
    exact LsbBits.value_bytes 4 32 (by decide)
  · rw [sectorsOf, shown]
    exact LsbBits.value_bytes 4 n fits
  · rw [endOf, shown]
    exact decodeChs_chs head sector

end Written

/-- The entry of a disk image describes the disk that holds this dump. -/
structure Describes (part image : List Byte) : Prop where
  size : image.length = 512 * (32 + sectorsOf image)
  dump : image.drop (512 * 32) = part
  start : startLba image = 32
  last : let lba := 32 + sectorsOf image - 1
    endOf image = if lba / 64 < 1024 then Chs.of lba else ⟨1023, 1, 32⟩
  ordered : startLba image ≤ (endOf image).lba

/-- Whole sectors, and an end that ten bits of a cylinder can tell. -/
def Describable (part : List Byte) : Prop :=
  512 ∣ part.length ∧
    (32 + part.length / 512 - 1 < 65536 ∨ (32 + part.length / 512 - 1) % 65536 = 65535)

/-- The entry is right exactly for the dumps of whole sectors whose end it can tell. -/
theorem describes_iff (part image : List Byte) (made : main part = .ok image) :
    Describes part image ↔ Describable part := by
  obtain ⟨e, entry, shown, length⟩ := main_entry made
  obtain ⟨start, sectors, last⟩ := entry_fields entry shown
  have whole := signed_of_main_ok part image made
  constructor
  · intro describes
    have size := describes.size
    rw [length, sectors] at size
    refine ⟨by omega, ?_⟩
    have ends := describes.last
    simp only [sectors, last] at ends
    by_cases low : (32 + part.length / 512 - 1) / 64 < 1024
    · exact .inl (by omega)
    · rw [if_neg low, Chs.mk.injEq] at ends
      exact .inr (by omega)
  · rintro ⟨⟨n, sized⟩, reach⟩
    have ends : endOf image = if (32 + part.length / 512 - 1) / 64 < 1024 then
        Chs.of (32 + part.length / 512 - 1) else ⟨1023, 1, 32⟩ := by
      rw [last]
      split_ifs with low
      · rw [Nat.mod_eq_of_lt low]
        rfl
      · simp only [Chs.mk.injEq]
        omega
    refine ⟨?_, (main_ok part image made).dump, start, ?_, ?_⟩
    · rw [length, sectors]
      omega
    · simp only [sectors]
      exact ends
    · rw [start, ends]
      split_ifs
      · rw [Chs.lba_of]
        omega
      · decide

theorem describes_sector : ∃ image, main (List.replicate 510 0 ++ [0x55, 0xAA]) = .ok image ∧
    Describes (List.replicate 510 0 ++ [0x55, 0xAA]) image := by
  have length : (List.replicate 510 0 ++ [0x55, 0xAA] : List Byte).length = 512 := by
    rw [List.length_append, List.length_replicate]
    rfl
  have signed : ((List.replicate 510 0 ++ [0x55, 0xAA] : List Byte).drop 510).take 2 = [0x55, 0xAA] := by
    rw [List.drop_left' List.length_replicate]
    rfl
  obtain ⟨image, made⟩ := main_of_signed _ signed (by rw [length]; decide)
  refine ⟨image, made, (describes_iff _ image made).mpr ?_⟩
  rw [Describable, length]
  decide

/-- A dump of one sector and a byte. -/
def oddDump : List Byte := List.replicate 510 0 ++ [0x55, 0xAA, 0]

theorem oddDump_length : oddDump.length = 513 := by
  rw [oddDump, List.length_append, List.length_replicate]
  rfl

theorem oddDump_signed : (oddDump.drop 510).take 2 = [0x55, 0xAA] := by
  rw [oddDump, List.drop_left' List.length_replicate]
  rfl

/-- Its last byte lies beyond the disk that the entry describes. -/
theorem not_describes_oddDump : ¬ ∀ part image, main part = .ok image → Describes part image := by
  intro every
  obtain ⟨image, made⟩ := main_of_signed oddDump oddDump_signed (by rw [oddDump_length]; decide)
  obtain ⟨e, entry, shown, length⟩ := main_entry made
  have size := (every oddDump image made).size
  rw [(entry_fields entry shown).2.1, length, oddDump_length] at size
  omega

end Pc110.MakeDisk
