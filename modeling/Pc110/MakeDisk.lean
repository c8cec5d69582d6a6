import Pc110.Library.LsbBits

/-! The disk builder, `tools/make-disk.py`: an MBR, the rest of the hidden track, and
behind them the partition dump. -/
namespace Pc110.MakeDisk

open LsbBits (Byte)

inductive Failure where
  | noSignature
  | structError
  deriving DecidableEq, Repr

def Failure.message : Failure → String
  | .noSignature => "error: source has no 0x55AA boot signature (not a FAT partition dump?)"
  | .structError => "struct.error: 'I' format requires 0 <= number <= 4294967295"

def hidden : Nat := 32
def heads : Nat := 2
def spt : Nat := 32

/-- Called with `h` below `heads` only. -/
def chs (c h s : Nat) : List Byte :=
  [BitVec.ofNat 8 h, BitVec.ofNat 8 (((c >>> 2) &&& 0xC0) ||| (s &&& 0x3F)),
    BitVec.ofNat 8 (c &&& 0xFF)]

/-- The MBR bootstrap: relocate to 0x0600, load the VBR from CHS(0,1,1) to 0x7C00, jump. -/
def code : List Byte := [
  0xFA, 0x33, 0xC0, 0x8E, 0xD0, 0xBC, 0x00, 0x7C, 0x8E, 0xD8, 0x8E, 0xC0,
  0xFB, 0xFC, 0xBE, 0x00, 0x7C, 0xBF, 0x00, 0x06, 0xB9, 0x00, 0x01, 0xF3,
  0xA5, 0xEA, 0x1E, 0x06, 0x00, 0x00,
  0xB8, 0x01, 0x02, 0xBB, 0x00, 0x7C, 0xB9, 0x01, 0x00, 0xB6, 0x01, 0xB2,
  0x80, 0xCD, 0x13, 0x72, 0xFE, 0xBE, 0xBE, 0x07, 0xEA, 0x00, 0x7C, 0x00,
  0x00]

/-- `struct.pack("<II", a, b)`. -/
def pack (a b : Nat) : Except Failure (List Byte) :=
  if a < 2 ^ 32 ∧ b < 2 ^ 32 then .ok (LsbBits.bytes 4 a ++ LsbBits.bytes 4 b)
  else .error .structError

/-- Assignment of `data` to the slice of its own length at `at`. -/
def assign (buffer : List Byte) (start : Nat) (data : List Byte) : List Byte :=
  buffer.take start ++ data ++ buffer.drop (start + data.length)

def entry (partSectors : Nat) : Except Failure (List Byte) := do
  let endLba := hidden + partSectors - 1
  let ec := endLba / (heads * spt)
  let eh := endLba / spt % heads
  let es := endLba % spt + 1
  let sectors ← pack hidden partSectors
  pure ([0x80] ++ chs 0 1 1 ++ [0x04] ++ chs ec eh es ++ sectors)

def mbr (partSectors : Nat) : Except Failure (List Byte) := do
  let entry ← entry partSectors
  let mbr := assign (List.replicate 512 0) 0 code
  let mbr := assign mbr 0x1BE entry
  pure (assign mbr 0x1FE [0x55, 0xAA])

def main (part : List Byte) : Except Failure (List Byte) :=
  if (part.drop 510).take 2 ≠ [0x55, 0xAA] then .error .noSignature
  else do
    let mbr ← mbr (part.length / 512)
    pure (mbr ++ List.replicate (512 * (hidden - 1)) 0 ++ part)

theorem assign_length (buffer data : List Byte) (start : Nat)
    (room : start + data.length ≤ buffer.length) :
    (assign buffer start data).length = buffer.length := by
  simp only [assign, List.length_append, List.length_take, List.length_drop]
  omega

theorem assign_inside (buffer data : List Byte) (start i : Nat)
    (room : start + data.length ≤ buffer.length) (h : i < data.length) :
    (assign buffer start data)[start + i]? = data[i]? := by
  have front : (buffer.take start).length = start := by simp; omega
  rw [assign, List.append_assoc, List.getElem?_append_right (by omega), front,
    Nat.add_sub_cancel_left, List.getElem?_append_left h]

theorem assign_below (buffer data : List Byte) (start i : Nat)
    (room : start + data.length ≤ buffer.length) (h : i < start) :
    (assign buffer start data)[i]? = buffer[i]? := by
  have front : (buffer.take start).length = start := by simp; omega
  rw [assign, List.append_assoc, List.getElem?_append_left (by omega),
    List.getElem?_take_of_lt h]

theorem entry_ok (partSectors : Nat) (e : List Byte) (made : entry partSectors = .ok e) :
    e.length = 16 ∧ ∀ i < 3, e[1 + i]? = (chs 0 1 1)[i]? := by
  unfold entry pack at made
  split at made
  case isTrue =>
    obtain rfl := (Except.ok.inj made).symm
    constructor
    · simp [chs, LsbBits.bytes]
    · intro i h
      rcases i with _ | _ | _ | i
      · rfl
      · rfl
      · rfl
      · omega
  case isFalse => contradiction

structure Mbr (mbr : List Byte) : Prop where
  length : mbr.length = 512
  boot : ∀ i < code.length, mbr[i]? = code[i]?
  startChs : ∀ i < 3, mbr[0x1BF + i]? = (chs 0 1 1)[i]?

theorem mbr_slices (blank e : List Byte) (size : blank.length = 512) (entry : e.length = 16)
    (start : ∀ i < 3, e[1 + i]? = (chs 0 1 1)[i]?) :
    Mbr (assign (assign (assign blank 0 code) 0x1BE e) 0x1FE [0x55, 0xAA]) := by
  have codeSize : code.length = 55 := rfl
  have signature : [(0x55 : Byte), 0xAA].length = 2 := rfl
  have first : (assign blank 0 code).length = 512 := by rw [assign_length _ _ _ (by omega), size]
  have second : (assign (assign blank 0 code) 0x1BE e).length = 512 := by
    rw [assign_length _ _ _ (by omega), first]
  refine ⟨?_, ?_, ?_⟩
  · rw [assign_length _ _ _ (by omega), second]
  · intro i h
    rw [assign_below _ _ _ _ (by omega) (by omega), assign_below _ _ _ _ (by omega) (by omega)]
    simpa using assign_inside blank code 0 i (by omega) h
  · intro i h
    have inside := assign_inside (assign blank 0 code) e 0x1BE (1 + i) (by omega) (by omega)
    rw [assign_below _ _ _ _ (by omega) (by omega), ← start i h, ← inside]
    congr 1
    omega

theorem mbr_ok (partSectors : Nat) (m : List Byte) (made : mbr partSectors = .ok m) : Mbr m := by
  unfold mbr at made
  cases he : entry partSectors with
  | error => rw [he] at made; contradiction
  | ok e =>
    rw [he] at made
    obtain rfl := (Except.ok.inj made).symm
    obtain ⟨size, start⟩ := entry_ok partSectors e he
    exact mbr_slices _ e List.length_replicate size start

structure Disk (part image : List Byte) : Prop where
  dump : image.drop (512 * hidden) = part
  boot : ∀ i < code.length, image[i]? = code[i]?
  startChs : ∀ i < 3, image[0x1BF + i]? = (chs 0 1 1)[i]?

theorem main_ok (part image : List Byte) (made : main part = .ok image) : Disk part image := by
  unfold main at made
  split at made
  case isTrue => contradiction
  case isFalse =>
    cases hm : mbr (part.length / 512) with
    | error => rw [hm] at made; contradiction
    | ok m =>
      rw [hm] at made
      obtain rfl := (Except.ok.inj made).symm
      obtain ⟨length, boot, start⟩ := mbr_ok _ m hm
      have front : (m ++ List.replicate (512 * (hidden - 1)) 0).length = 512 * hidden := by
        rw [List.length_append, List.length_replicate, length]; rfl
      refine ⟨List.drop_left' front, ?_, ?_⟩
      · intro i h
        have : i < 55 := h
        rw [List.append_assoc, List.getElem?_append_left (by omega), boot i h]
      · intro i h
        rw [List.append_assoc, List.getElem?_append_left (by omega), start i h]

theorem main_of_signed (part : List Byte) (signed : (part.drop 510).take 2 = [0x55, 0xAA])
    (sized : part.length / 512 < 2 ^ 32) : ∃ image, main part = .ok image := by
  have packed : pack hidden (part.length / 512) =
      .ok (LsbBits.bytes 4 hidden ++ LsbBits.bytes 4 (part.length / 512)) :=
    if_pos ⟨by decide, sized⟩
  unfold main mbr entry
  rw [if_neg (not_not.mpr signed), packed]
  exact ⟨_, rfl⟩

theorem signed_of_main_ok (part image : List Byte) (made : main part = .ok image) :
    512 ≤ part.length := by
  unfold main at made
  split at made
  case isTrue => contradiction
  case isFalse signed =>
    have := congrArg List.length (not_not.mp signed)
    simp at this
    omega

end Pc110.MakeDisk
