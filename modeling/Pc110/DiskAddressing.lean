import Pc110.Int13
import Pc110.MakeDisk

/-! The disk builder writes addresses in CHS form and the INT 13h service takes them
apart again. The two agree on every sector of the partition below cylinder 1024. -/
namespace Pc110.DiskAddressing

open LsbBits (Byte)
open Int13 MakeDisk

/-- A request to read one sector from the fixed disk at the three CHS bytes of a
partition entry, in the order head, sector, cylinder. -/
structure SingleRead (m : Machine) (address : List Byte) : Prop where
  function : hi8 (m.env.regs .eax) = 0x02
  count : lo8 (m.env.regs .eax) = 1
  drive : lo8 (m.env.regs .edx) = 0x80
  place : [hi8 (m.env.regs .edx), lo8 (m.env.regs .ecx), hi8 (m.env.regs .ecx)] = address

/-- Memory with `data` at ES:BX. -/
def storedAt (m : Machine) (data : List Byte) : ByteMemory.Memory Byte :=
  ByteMemory.write m.mem ((m.env.segs .es).base + (lo16 (m.env.regs .ebx)).setWidth 32).toNat data

/-- The call reports success and stores exactly `data` at ES:BX. -/
structure Delivers (q : Stock) (m : Machine) (data : List Byte) : Prop where
  carry : cpuComputeEflags q (int13 m).env &&& ccC = 0
  status : hi8 ((int13 m).env.regs .eax) = 0
  count : lo8 ((int13 m).env.regs .eax) = 1
  stored : (int13 m).mem = storedAt m data

/-- The sector byte holds six bits of the sector below two bits of the cylinder. -/
theorem sector_bits (i : Nat) (h : i < 6) : Nat.testBit 0xC0 i = false ∧ Nat.testBit 0x3F i = true := by
  interval_cases i <;> exact ⟨rfl, rfl⟩

theorem cylinder_bits (i : Nat) (h : 6 ≤ i) (h' : i < 8) :
    Nat.testBit 0xC0 i = true ∧ Nat.testBit 0x3F i = false := by
  interval_cases i <;> exact ⟨rfl, rfl⟩

theorem testBit_high (n k i : Nat) (bound : n < 2 ^ k) (far : k ≤ i) : n.testBit i = false :=
  Nat.testBit_lt_two_pow (Nat.lt_of_lt_of_le bound (Nat.pow_le_pow_right Nat.two_pos far))

theorem cylinder_chs (c s : Nat) (bound : c < 2 ^ 10) :
    ((BitVec.ofNat 8 (c &&& 0xFF)).setWidth 32 : Word) |||
      ((BitVec.ofNat 8 (((c >>> 2) &&& 0xC0) ||| (s &&& 0x3F))).setWidth 32 &&& 0xC0) <<< 2 =
      BitVec.ofNat 32 c := by
  have low (i : Nat) (_ : i < 8) : Nat.testBit 0xFF i = true := by interval_cases i <;> rfl
  apply BitVec.eq_of_getLsbD_eq
  intro i hi
  simp [BitVec.getLsbD_ofNat]
  interval_cases i <;> simp [testBit_high c 10 _ bound, low, sector_bits, cylinder_bits]

theorem sector_chs (c s : Nat) (bound : s < 2 ^ 6) :
    ((BitVec.ofNat 8 (((c >>> 2) &&& 0xC0) ||| (s &&& 0x3F))).setWidth 32 : Word) &&& 0x3F =
      BitVec.ofNat 32 s := by
  apply BitVec.eq_of_getLsbD_eq
  intro i hi
  simp [BitVec.getLsbD_ofNat]
  interval_cases i <;> simp [testBit_high s 6 _ bound, sector_bits, cylinder_bits]

theorem lba_of_chs (lba : Nat) (bound : lba < 65536) :
    ((BitVec.ofNat 32 (lba / 64) * Int13.heads + BitVec.ofNat 32 (lba / 32 % 2)) * Int13.spt +
      (BitVec.ofNat 32 (lba % 32 + 1) - 1)).toNat = lba := by
  simp only [Int13.heads, Int13.spt]
  bv_omega

theorem head_chs (h : Nat) (bound : h < 256) :
    ((BitVec.ofNat 8 h).setWidth 32 : Word) = BitVec.ofNat 32 h := by
  apply BitVec.eq_of_toNat_eq
  simp
  omega

theorem readLoop_one (image : List Byte) (lba dst : Word) (mem : ByteMemory.Memory Byte)
    (whole : (sectorAt image lba.toNat).length = 512) :
    readLoop image lba dst 1 0 mem =
      (1, ByteMemory.write mem dst.toNat (sectorAt image lba.toNat)) := by
  simp [readLoop, whole]

/-- A single-sector request at the CHS bytes of an LBA delivers that sector. -/
theorem delivers_of_chs (q : Stock) (m : Machine) (path : String) (image : List Byte) (lba : Nat)
    (boot : m.getenv .pc110Boot = some path) (disk : m.files path = some image)
    (bound : lba < 65536) (whole : (sectorAt image lba).length = 512)
    (asked : SingleRead m (chs (lba / 64) (lba / 32 % 2) (lba % 32 + 1))) :
    Delivers q m (sectorAt image lba) := by
  obtain ⟨function, count, drive, place⟩ := asked
  simp only [chs, List.cons.injEq, and_true] at place
  obtain ⟨dh, cl, ch⟩ := place
  have served := serve_read m (by rw [drive]; decide) function
  have opened : (m.getenv .pc110Boot).bind m.files = some image := by simp [boot, disk]
  have positive : ¬ BitVec.ofNat 32 (lba % 32 + 1) = 0 := by bv_omega
  have moved : transfer m = (1, storedAt m (sectorAt image lba)) := by
    simp only [transfer, dh, cl, ch, count]
    rw [cylinder_chs _ _ (by omega), sector_chs _ _ (by omega), head_chs _ (by omega),
      if_neg positive, opened]
    simp only
    rw [show (1 : Byte).toNat = 1 from rfl, readLoop_one, lba_of_chs lba bound]
    · rfl
    · rw [lba_of_chs lba bound]; exact whole
  have sectors : readSectors m =
      ⟨Machine.setReg { m with mem := storedAt m (sectorAt image lba) } .eax (setLo8 (m.env.regs .eax) 1),
        false, 0⟩ := by
    simp only [readSectors, moved, count]
    rfl
  constructor
  · rw [int13_carry, served, sectors]; rfl
  · rw [int13_eax, served, sectors, hi8_setHi8]
  · rw [int13_eax, served, sectors, lo8_setHi8]; simp [Machine.setReg, Env.setReg]
  · rw [int13_mem, served, sectors]; rfl

/-- Behind the hidden track the disk is the dump. -/
theorem sectorAt_disk (part image : List Byte) (disk : Disk part image) (k : Nat) :
    sectorAt image (MakeDisk.hidden + k) = sectorAt part k := by
  rw [sectorAt, Nat.mul_add, ← List.drop_drop, disk.dump, sectorAt]

/-- The registers as the MBR bootstrap loads them: `MOV AX`, `MOV CX`, `MOV DH` and
`MOV DL` stand at offsets 30, 36, 39 and 41 of the image. -/
structure BootstrapRead (image : List Byte) (m : Machine) : Prop where
  ax : image[31]? = some (lo8 (m.env.regs .eax)) ∧ image[32]? = some (hi8 (m.env.regs .eax))
  cx : image[37]? = some (lo8 (m.env.regs .ecx)) ∧ image[38]? = some (hi8 (m.env.regs .ecx))
  dh : image[40]? = some (hi8 (m.env.regs .edx))
  dl : image[42]? = some (lo8 (m.env.regs .edx))

theorem bootstrap_read (part image : List Byte) (disk : Disk part image) (m : Machine)
    (loaded : BootstrapRead image m) : SingleRead m (chs 0 1 1) := by
  obtain ⟨⟨al, ah⟩, ⟨cl, ch⟩, dh, dl⟩ := loaded
  rw [disk.boot _ (by decide)] at al ah cl ch dh dl
  simp only [code, List.getElem?_cons_succ, List.getElem?_cons_zero, Option.some.injEq] at al ah cl ch dh dl
  exact ⟨ah.symm, al.symm, dl.symm, by rw [← dh, ← cl, ← ch]; rfl⟩

theorem startChs_eq (part image : List Byte) (disk : Disk part image) :
    (image.drop 0x1BF).take 3 = chs 0 1 1 := by
  apply List.ext_getElem?
  intro i
  by_cases inside : i < 3
  · rw [List.getElem?_take_of_lt inside, List.getElem?_drop, disk.startChs i inside]
  · rw [List.getElem?_take_eq_none (by omega), List.getElem?_eq_none (by simp [chs]; omega)]

/-- The service on the image the builder wrote. -/
theorem int13_delivers_partition (part image : List Byte) (made : MakeDisk.main part = .ok image)
    (q : Stock) (m : Machine) (path : String) (boot : m.getenv .pc110Boot = some path)
    (disk : m.files path = some image) :
    (∀ k lba, k < part.length / 512 → lba = 32 + k → lba < 65536 →
      SingleRead m (chs (lba / 64) (lba / 32 % 2) (lba % 32 + 1)) →
      Delivers q m (sectorAt part k)) ∧
    (SingleRead m ((image.drop 0x1BF).take 3) → Delivers q m (sectorAt part 0)) ∧
    (BootstrapRead image m → Delivers q m (sectorAt part 0)) := by
  have layout := main_ok part image made
  have sectors (k lba : Nat) (inside : k < part.length / 512) (place : lba = 32 + k)
      (bound : lba < 65536) (asked : SingleRead m (chs (lba / 64) (lba / 32 % 2) (lba % 32 + 1))) :
      Delivers q m (sectorAt part k) := by
    have same : sectorAt image lba = sectorAt part k := by
      rw [place]; exact sectorAt_disk part image layout k
    rw [← same]
    apply delivers_of_chs q m path image lba boot disk bound _ asked
    rw [same]
    exact (sectorAt_length_iff part k).mpr inside
  have bootSector (asked : SingleRead m (chs 0 1 1)) : Delivers q m (sectorAt part 0) := by
    have := signed_of_main_ok part image made
    exact sectors 0 32 (by omega) rfl (by decide) asked
  refine ⟨sectors, ?_, ?_⟩
  · intro asked
    rw [startChs_eq part image layout] at asked
    exact bootSector asked
  · intro loaded
    exact bootSector (bootstrap_read part image layout m loaded)

def blankDump : List Byte := List.replicate 510 0 ++ [0x55, 0xAA]

/-- The bootstrap about to issue its read of CHS(0,1,1). -/
def bootstrapMachine (image : List Byte) : Machine :=
  .start { (default : Env) with regs := fun
      | .eax => 0x0201
      | .ecx => 0x0001
      | .edx => 0x0180
      | .ebx => 0x7C00
      | _ => 0 }
    (fun _ => 0) (fun _ => 0) (fun _ => some "disk.img") (fun _ => some image)

theorem blankDump_length : blankDump.length = 512 := by
  rw [blankDump, List.length_append, List.length_replicate]; rfl

theorem blankDump_signed : (blankDump.drop 510).take 2 = [0x55, 0xAA] := by
  rw [blankDump, List.drop_left' List.length_replicate]; rfl

theorem int13_delivers_blankDump : ∃ image, MakeDisk.main blankDump = .ok image ∧
    Delivers default (bootstrapMachine image) (sectorAt blankDump 0) := by
  obtain ⟨image, made⟩ := main_of_signed blankDump blankDump_signed (by rw [blankDump_length]; decide)
  refine ⟨image, made, ?_⟩
  apply (int13_delivers_partition _ _ made default (bootstrapMachine image) "disk.img" rfl rfl).1 0 32
  · rw [blankDump_length]; decide
  · rfl
  · decide
  · constructor
    · change hi8 (0x0201 : Word) = 0x02; decide
    · change lo8 (0x0201 : Word) = 1; decide
    · change lo8 (0x0180 : Word) = 0x80; decide
    · change [hi8 (0x0180 : Word), lo8 (0x0001 : Word), hi8 (0x0001 : Word)] = _; decide

end Pc110.DiskAddressing
