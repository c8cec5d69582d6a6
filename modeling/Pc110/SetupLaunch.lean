import Pc110.FloppyLoader
import Pc110.PostBranches
import Pc110.UnpackEncode

/-! The two ways an unpacked Easy-Setup image gets to 5000:0000, from its floppy and from the
file that PC110SETUPIMG names. Each has a fixed amount of room, and the unpacker has none. -/
namespace Pc110

open LsbBits (Byte)
open ByteMemory (Memory read write)
open Floppy (floppyImage Loader Serves sectors)

/-- Every byte of the image, in order, from 0x50000 on. -/
def HoldsImage (mem : Memory Byte) (img : List Byte) : Prop := read mem 0x50000 img.length = img

/-- Whatever was in memory, the load loop ends with the whole image there. -/
def FloppyLaunches (int13 : Loader → Bool × Memory Byte) (img : List Byte) : Prop :=
  ∀ s, ∃ t, Floppy.load int13 s = some (.loaded t) ∧ HoldsImage t.mem img

/-- So does `pc110_enter_easysetup` on the file, without the palette fix. -/
def PostLaunches (img : List Byte) : Prop :=
  ∀ forced m path, m.path .pc110SetupImg = some path → m.files path = some img →
    m.has .pc110NoPalFix = true → HoldsImage (enterEasySetup forced m).mem img

section Memory
variable {data img : List Byte}

/-- A store shorter than the image leaves a byte of it to chance. -/
theorem not_holdsImage_write (short : data.length < img.length) :
    ∃ b : Byte, ¬ HoldsImage (write (fun _ => b) 0x50000 data) img := by
  refine ⟨img[data.length] + 1, fun holds => ?_⟩
  have byte : write (fun _ => img[data.length] + 1) 0x50000 data (0x50000 + data.length) =
      img[data.length] := by
    have read := congrArg (·[data.length]?) holds
    rw [List.getElem?_eq_getElem (by rw [ByteMemory.read_length]; exact short), ByteMemory.read_getElem,
      List.getElem?_eq_getElem short] at read
    exact Option.some.inj read
  rw [ByteMemory.write_outside _ _ _ _ fun within => absurd within.2 (Nat.lt_irrefl _)] at byte
  exact absurd byte (by simp)

end Memory

section Launch
variable {int13 : Loader → Bool × Memory Byte} {boot img disk : List Byte}

/-- The floppy path has room for `sectors` sectors. -/
theorem floppyLaunches_iff (built : floppyImage boot img = some disk) (serves : Serves int13 disk) :
    FloppyLaunches int13 img ↔ img.length ≤ 512 * sectors := by
  obtain ⟨start, size⟩ := Floppy.floppyImage_layout built
  constructor
  · intro launches
    by_contra long
    have short : ((disk.drop 512).take (512 * sectors)).length < img.length := by
      rw [List.length_take]
      omega
    obtain ⟨b, lost⟩ := not_holdsImage_write short
    let s : Loader := ⟨0, 0, 0, 0, 0, 0, 0, 0, 0, 0, fun _ => b⟩
    obtain ⟨t, loaded, mem⟩ := Floppy.load_eq serves size s
    obtain ⟨u, ends, holds⟩ := launches s
    obtain rfl : t = u := by simpa using loaded.symm.trans ends
    exact lost (mem ▸ holds)
  · intro fits s
    obtain ⟨t, loaded, mem⟩ := Floppy.load_eq serves size s
    refine ⟨t, loaded, ?_⟩
    rw [mem]
    exact ByteMemory.read_write_front _ _ (List.prefix_take_iff.mpr ⟨start, fits⟩)

theorem reportSetup_mem (r : Report) (m : Machine) : (reportSetup r m).mem = m.mem := by
  unfold reportSetup
  split <;> rfl

theorem enterEasySetup_mem (forced : Bool) {m : Machine} {path : String}
    (named : m.path .pc110SetupImg = some path) (file : m.files path = some img)
    (plain : m.has .pc110NoPalFix = true) :
    (enterEasySetup forced m).mem = write m.mem 0x50000 (img.take 300000) := by
  have whole : (m.path .pc110SetupImg).bind m.files = some img := by rw [named]; exact file
  have kept : (m.poke 0x50000 (img.take 300000)).has .pc110NoPalFix = true := plain
  simp only [enterEasySetup, whole, enterImage, kept, if_pos, reportSetup_mem]
  rfl

/-- The completer has room for its buffer. -/
theorem postLaunches_iff (img : List Byte) : PostLaunches img ↔ img.length ≤ 300000 := by
  constructor
  · intro launches
    by_contra long
    have short : (img.take 300000).length < img.length := by
      rw [List.length_take]
      omega
    obtain ⟨b, lost⟩ := not_holdsImage_write short
    let m : Machine := .start default (fun _ => b) (fun _ => 0)
      (fun | .pc110SetupImg => some "easysetup.bin" | .pc110NoPalFix => some "1" | _ => none)
      fun _ => some img
    have holds := launches true m "easysetup.bin" rfl rfl rfl
    have mem := @enterEasySetup_mem img true m "easysetup.bin" rfl rfl rfl
    exact lost (mem ▸ holds)
  · intro fits forced m path named file plain
    rw [enterEasySetup_mem forced named file plain, List.take_of_length_le fits]
    exact ByteMemory.read_write_front _ _ (List.prefix_refl img)

end Launch

/-- Both paths launch the whole program exactly where it fits the sectors of the floppy
loader, the smaller of the two rooms. -/
theorem launches_iff {int13 : Loader → Bool × Memory Byte} {boot img disk : List Byte}
    (built : floppyImage boot img = some disk) (serves : Serves int13 disk) :
    FloppyLaunches int13 img ∧ PostLaunches img ↔ img.length ≤ 512 * sectors := by
  rw [floppyLaunches_iff built serves, postLaunches_iff]
  constructor
  · exact And.left
  · intro fits
    exact ⟨fits, Nat.le_trans fits (by decide)⟩

section Floppy

/-- A service that reads the floppy it is given. -/
def floppyInt13 (disk : List Byte) (s : Loader) : Bool × Memory Byte :=
  let cyl := s.cx.extractLsb' 8 8
  let sec := s.cx.extractLsb' 0 8
  let head := s.dx.extractLsb' 8 8
  (false, write s.mem (s.es.toNat * 16 + s.bx.toNat)
    (Int13.sectorAt disk ((cyl.toNat * 2 + head.toNat) * 18 + (sec.toNat - 1))))

theorem floppyInt13_serves (disk : List Byte) : Serves (floppyInt13 disk) disk where
  reads s cyl head sec _ cx dx _ _ _ := by
    have high : s.cx.extractLsb' 8 8 = cyl := cx ▸ BitVec.extractLsb'_append_eq_left
    have low : s.cx.extractLsb' 0 8 = sec := cx ▸ BitVec.extractLsb'_append_eq_right
    have side : s.dx.extractLsb' 8 8 = head := dx ▸ BitVec.extractLsb'_append_eq_left
    simp only [floppyInt13, high, low, side]

end Floppy

theorem launches_iff_short :
    ∃ disk, floppyImage (List.replicate 512 0) [1, 2, 3] = some disk ∧
      FloppyLaunches (floppyInt13 disk) [1, 2, 3] ∧ PostLaunches [1, 2, 3] := by
  obtain ⟨disk, built⟩ := Floppy.floppyImage_sized (List.replicate 512 0) List.length_replicate [1, 2, 3]
  exact ⟨disk, built, (launches_iff built (floppyInt13_serves disk)).mpr (by decide)⟩

/-- 28 zeros take seven codes, so that a ROM has room for more of them than the floppy
loader reads. -/
def zeroSegment : List Byte := List.replicate 28 0

def longHeader : List Byte := [0x55, 0xAA, 0x00, 0xEB, 0x45] ++ List.replicate 698 0

def longRom : List Byte :=
  longHeader ++ Unpack.container (List.replicate 8302 zeroSegment) (List.replicate 0x20000 0)

theorem unpackRom_longRom : Unpack.unpackRom longRom = some (.ok (List.replicate 232456 0)) := by
  have codes : (Lzw.encode Unpack.capacity zeroSegment).length = 7 := by decide +kernel
  have span := Unpack.span_withWidths_le 0 (Unpack.codeStream (List.replicate 8302 zeroSegment))
  rw [Unpack.codeStream_length_replicate, codes] at span
  have signed : Unpack.Signed longHeader := by
    refine ⟨?_, rfl, rfl, rfl, rfl⟩
    rw [longHeader, List.length_append, List.length_replicate]
    rfl
  have nonempty : ∀ segment ∈ List.replicate 8302 zeroSegment, segment ≠ [] := by
    intro segment member
    rw [List.eq_of_mem_replicate member]
    exact List.cons_ne_nil _ _
  have padded : 2 ≤ (List.replicate 0x20000 (0 : Byte)).length := by
    rw [List.length_replicate]
    omega
  have unpacks := Unpack.unpackRom_container signed _ nonempty _ padded
    (by rw [LsbBits.pack_length]; omega)
  rw [zeroSegment, List.flatten_replicate_replicate] at unpacks
  exact unpacks

/-- There are ROMs whose program loses its tail on the floppy. -/
theorem not_launches :
    ¬ ∀ rom img boot disk int13, Unpack.unpackRom rom = some (.ok img) →
      floppyImage boot img = some disk → Serves int13 disk →
        FloppyLaunches int13 img ∧ PostLaunches img := by
  intro every
  obtain ⟨disk, built⟩ := Floppy.floppyImage_sized (List.replicate 512 0) List.length_replicate
    (List.replicate 232456 0)
  have both := every longRom _ _ disk _ unpackRom_longRom built (floppyInt13_serves disk)
  have fits := (floppyLaunches_iff built (floppyInt13_serves disk)).mp both.1
  rw [List.length_replicate] at fits
  exact absurd fits (by decide)

end Pc110
