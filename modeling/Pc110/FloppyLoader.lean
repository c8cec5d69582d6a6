import Pc110.Int13
import Pc110.Library.StepLoop

/-! The Easy-Setup boot floppy: the image `boot/build-floppy.sh` lays out, and the load loop
of `boot/setupboot-floppy.asm`, which reads a fixed number of its sectors to 5000:0000. -/
namespace Pc110.Floppy

open LsbBits (Byte)
open ByteMemory (Memory write)
open StepLoop (Pass)

section Build

/-- Python's `data[start:stop] = part`. -/
def assignSlice (data : List Byte) (start stop : Nat) (part : List Byte) : List Byte :=
  data.take start ++ part ++ data.drop (max start stop)

def floppySize : Nat := 1474560

/-- The floppy that `build-floppy.sh` writes. It asserts the size of the boot sector only, and
an image too long for the floppy makes the file longer. -/
def floppyImage (boot img : List Byte) : Option (List Byte) :=
  if boot.length = 512 then
    let data := List.replicate floppySize 0
    let data := assignSlice data 0 512 boot
    some (assignSlice data 512 (512 + img.length) img)
  else none

/-- The image starts at LBA 1, and the file is at least a floppy long. -/
structure Layout (disk img : List Byte) : Prop where
  image : img <+: disk.drop 512
  size : floppySize ≤ disk.length

theorem assignSlice_length {data part : List Byte} {start : Nat} (inside : start ≤ data.length) :
    (assignSlice data start (start + part.length) part).length = max data.length (start + part.length) := by
  simp only [assignSlice, List.length_append, List.length_take, List.length_drop]
  omega

theorem assignSlice_found {data part : List Byte} {start stop : Nat} (inside : start ≤ data.length) :
    part <+: (assignSlice data start stop part).drop start := by
  have front : (data.take start).length = start := List.length_take_of_le inside
  rw [assignSlice, List.append_assoc, List.drop_left' front]
  exact List.prefix_append _ _

theorem floppyImage_layout {boot img disk : List Byte} (built : floppyImage boot img = some disk) :
    Layout disk img := by
  unfold floppyImage at built
  split_ifs at built with sized
  obtain rfl := Option.some.inj built
  have length : (assignSlice (List.replicate floppySize 0) 0 512 boot).length = floppySize := by
    rw [← sized, ← Nat.zero_add boot.length, assignSlice_length (Nat.zero_le _), List.length_replicate,
      sized]
    rfl
  refine ⟨assignSlice_found (by rw [length]; decide), ?_⟩
  rw [assignSlice_length (by rw [length]; decide), length]
  exact Nat.le_max_left _ _

theorem floppyImage_sized (boot : List Byte) (sized : boot.length = 512) (img : List Byte) :
    ∃ disk, floppyImage boot img = some disk := ⟨_, if_pos sized⟩

end Build

section Loader

def sectors : Nat := 454

def loadSeg : BitVec 16 := 0x5000

/-- The registers of the load loop, its variables in the boot sector, and memory. -/
structure Loader where
  ax : BitVec 16
  bx : BitVec 16
  cx : BitVec 16
  dx : BitVec 16
  es : BitVec 16
  chsCyl : Byte
  chsHead : Byte
  chsSec : Byte
  curSeg : BitVec 16
  lba : BitVec 16
  mem : Memory Byte

def low (r : BitVec 16) : Byte := r.setWidth 8

/-- `div`, of `dx:ax`: quotient and remainder. -/
def div (dx ax divisor : BitVec 16) : BitVec 16 × BitVec 16 :=
  let n := dx.toNat * 0x10000 + ax.toNat
  (BitVec.ofNat 16 (n / divisor.toNat), BitVec.ofNat 16 (n % divisor.toNat))

def Loader.chs (s : Loader) : Loader :=
  let (ax, dx) := div 0 s.lba 36
  let s := { s with chsCyl := low ax }
  let (ax, dx) := div 0 dx 18
  let s := { s with chsHead := low ax }
  let dx := dx + 1
  { s with ax, dx, bx := 18, chsSec := low dx }

/-- The registers of the read: one sector of drive 0 to `cur_seg`:0000. -/
def Loader.request (s : Loader) : Loader :=
  { s with es := s.curSeg, ax := 0x0201, bx := 0, cx := s.chsCyl ++ s.chsSec, dx := s.chsHead ++ (0 : Byte) }

inductive Outcome where
  | loaded (s : Loader)
  | floppyErr (s : Loader)

/-- One pass of `.rd`. The service answers with the carry flag and memory; `cx` is pushed
around the pass. -/
def rd (int13 : Loader → Bool × Memory Byte) (s : Loader) : Pass Loader Outcome :=
  let count := s.cx
  let s := s.chs.request
  let (cf, mem) := int13 s
  let s := { s with mem }
  if cf then .leave (.floppyErr s)
  else
    let s := { s with ax := s.curSeg + 0x20, curSeg := s.curSeg + 0x20, lba := s.lba + 1 }
    let s := { s with cx := count - 1 }
    if s.cx ≠ 0 then .again s else .leave (.loaded s)

def Loader.start (s : Loader) : Loader :=
  { s with curSeg := loadSeg, lba := 1, cx := BitVec.ofNat 16 sectors }

/-- The load loop, from the first `.rd` to the mode switch or the error message. -/
def load (int13 : Loader → Bool × Memory Byte) (s : Loader) : Option Outcome :=
  StepLoop.iterate (rd int13) sectors s.start

end Loader

/-- INT 13h as the loader counts on it: a read of one sector succeeds and stores the sector
that its cylinder, head and sector number address. -/
structure Serves (int13 : Loader → Bool × Memory Byte) (disk : List Byte) : Prop where
  reads : ∀ (s : Loader) (cyl head sec : Byte), s.ax = 0x0201 → s.cx = cyl ++ sec →
    s.dx = head ++ (0 : Byte) → head.toNat < 2 → 1 ≤ sec.toNat → sec.toNat ≤ 18 →
    int13 s = (false, write s.mem (s.es.toNat * 16 + s.bx.toNat)
      (Int13.sectorAt disk ((cyl.toNat * 2 + head.toNat) * 18 + (sec.toNat - 1))))

section Loop
variable {int13 : Loader → Bool × Memory Byte} {disk : List Byte} {mem : Memory Byte} {s : Loader}

structure Loading (disk : List Byte) (mem : Memory Byte) (k : Nat) (s : Loader) : Prop where
  curSeg : s.curSeg = BitVec.ofNat 16 (0x5000 + 0x20 * k)
  lba : s.lba = BitVec.ofNat 16 (1 + k)
  cx : s.cx = BitVec.ofNat 16 (sectors - k)
  mem : s.mem = write mem 0x50000 ((disk.drop 512).take (512 * k))

theorem div_toNat (ax divisor : BitVec 16) :
    (div 0 ax divisor).1.toNat = ax.toNat / divisor.toNat ∧
      (div 0 ax divisor).2.toNat = ax.toNat % divisor.toNat := by
  have bound := ax.isLt
  have quotient := Nat.div_le_self ax.toNat divisor.toNat
  have remainder := Nat.mod_le ax.toNat divisor.toNat
  have low : (0 : BitVec 16).toNat * 0x10000 + ax.toNat = ax.toNat := by
    rw [show (0 : BitVec 16).toNat = 0 from rfl, Nat.zero_mul, Nat.zero_add]
  simp only [div, low]
  constructor
  · rw [BitVec.toNat_ofNat, Nat.mod_eq_of_lt (by omega)]
  · rw [BitVec.toNat_ofNat, Nat.mod_eq_of_lt (by omega)]

theorem low_toNat (r : BitVec 16) (small : r.toNat < 256) : (low r).toNat = r.toNat := by
  rw [low, BitVec.toNat_setWidth, Nat.mod_eq_of_lt small]

theorem Loader.chs_eq {n : Nat} (s : Loader) (lba : s.lba.toNat = n) (small : n < 36 * 256) :
    s.chs.chsCyl.toNat = n / 36 ∧ s.chs.chsHead.toNat = n % 36 / 18 ∧
      s.chs.chsSec.toNat = n % 36 % 18 + 1 := by
  obtain ⟨cylinder, rest⟩ := div_toNat s.lba 36
  obtain ⟨head, sector⟩ := div_toNat (div 0 s.lba 36).2 18
  rw [lba, show (36 : BitVec 16).toNat = 36 from rfl] at cylinder rest
  rw [rest, show (18 : BitVec 16).toNat = 18 from rfl] at head sector
  have next : ((div 0 (div 0 s.lba 36).2 18).2 + 1).toNat = n % 36 % 18 + 1 := by
    rw [BitVec.toNat_add_of_lt (by rw [sector]; simp; omega), sector]
    rfl
  refine ⟨(low_toNat (div 0 s.lba 36).1 (by omega)).trans cylinder,
    (low_toNat (div 0 (div 0 s.lba 36).2 18).1 (by omega)).trans head, ?_⟩
  exact (low_toNat ((div 0 (div 0 s.lba 36).2 18).2 + 1) (by omega)).trans next

theorem chs_lba (n : Nat) : (n / 36 * 2 + n % 36 / 18) * 18 + (n % 36 % 18 + 1 - 1) = n := by omega

theorem sectorAt_append (disk : List Byte) (k : Nat) :
    (disk.drop 512).take (512 * k) ++ Int13.sectorAt disk (1 + k) = (disk.drop 512).take (512 * (k + 1)) := by
  rw [Int13.sectorAt, Nat.mul_add, Nat.mul_one, ← List.drop_drop, ← List.take_add, ← Nat.mul_succ]

def Loader.advanced (s : Loader) (data : List Byte) : Loader :=
  { s.chs.request with
    mem := write s.mem (s.curSeg.toNat * 16) data
    ax := s.curSeg + 0x20
    curSeg := s.curSeg + 0x20
    lba := s.lba + 1
    cx := s.cx - 1 }

theorem rd_eq (serves : Serves int13 disk) {n : Nat} (lba : s.lba.toNat = n) (small : n < 36 * 256) :
    rd int13 s =
      let t := s.advanced (Int13.sectorAt disk n)
      if t.cx ≠ 0 then .again t else .leave (.loaded t) := by
  obtain ⟨cylinder, head, sector⟩ := s.chs_eq lba small
  have answer := serves.reads s.chs.request s.chs.chsCyl s.chs.chsHead s.chs.chsSec rfl rfl rfl
    (by omega) (by omega) (by omega)
  rw [cylinder, head, sector, chs_lba] at answer
  simp only [rd, answer]
  rfl

theorem Loading.advance (loading : Loading disk mem k s) (size : floppySize ≤ disk.length)
    (more : k < sectors) : Loading disk mem (k + 1) (s.advanced (Int13.sectorAt disk (1 + k))) := by
  have few : k < 454 := more
  have whole : 1474560 ≤ disk.length := size
  have length : ((disk.drop 512).take (512 * k)).length = 512 * k := by
    rw [List.length_take_of_le]
    rw [List.length_drop]
    omega
  have place : s.curSeg.toNat * 16 = 0x50000 + ((disk.drop 512).take (512 * k)).length := by
    rw [length, loading.curSeg, BitVec.toNat_ofNat, Nat.mod_eq_of_lt (by omega)]
    omega
  refine ⟨?_, ?_, ?_, ?_⟩
  · change s.curSeg + BitVec.ofNat 16 0x20 = _
    rw [loading.curSeg, ← BitVec.ofNat_add, Nat.add_assoc, Nat.mul_succ]
  · change s.lba + BitVec.ofNat 16 1 = _
    rw [loading.lba, ← BitVec.ofNat_add, Nat.add_assoc]
  · change s.cx - BitVec.ofNat 16 1 = _
    rw [loading.cx, show sectors - k = sectors - (k + 1) + 1 by omega, BitVec.ofNat_add,
      BitVec.add_sub_cancel]
  · change write s.mem (s.curSeg.toNat * 16) _ = _
    rw [place, loading.mem, ByteMemory.write_append, sectorAt_append]

/-- One pass puts the next sector behind those before it. -/
theorem rd_step (serves : Serves int13 disk) (size : floppySize ≤ disk.length) {k : Nat}
    (more : k < sectors) (loading : Loading disk mem k s) :
    ∃ t, Loading disk mem (k + 1) t ∧
      rd int13 s = if k + 1 < sectors then .again t else .leave (.loaded t) := by
  have few : k < 454 := more
  have lba : s.lba.toNat = 1 + k := by
    rw [loading.lba, BitVec.toNat_ofNat, Nat.mod_eq_of_lt (by omega)]
  have next := loading.advance size more
  have ends : (s.advanced (Int13.sectorAt disk (1 + k))).cx ≠ 0 ↔ k + 1 < sectors := by
    have count : (BitVec.ofNat 16 (454 - (k + 1))).toNat = 454 - (k + 1) := by
      rw [BitVec.toNat_ofNat, Nat.mod_eq_of_lt (by omega)]
    rw [next.cx, Ne, ← BitVec.toNat_inj, sectors, count]
    change ¬ 454 - (k + 1) = 0 ↔ _
    omega
  refine ⟨_, next, ?_⟩
  rw [rd_eq serves lba (by omega)]
  simp only [ends]

theorem start_loading (disk : List Byte) (s : Loader) : Loading disk s.mem 0 s.start :=
  ⟨rfl, rfl, rfl, (ByteMemory.write_nil s.mem 0x50000).symm⟩

theorem load_rounds (serves : Serves int13 disk) (size : floppySize ≤ disk.length) (s : Loader) {k : Nat}
    (few : k < sectors) :
    ∃ t, StepLoop.Rounds (rd int13) k s.start t ∧ Loading disk s.mem k t := by
  induction k with
  | zero => exact ⟨s.start, .refl, start_loading disk s⟩
  | succ k ih =>
    obtain ⟨t, rounds, loading⟩ := ih (Nat.lt_of_succ_lt few)
    obtain ⟨u, next, pass⟩ := rd_step serves size (Nat.lt_of_succ_lt few) loading
    rw [if_pos few] at pass
    exact ⟨u, rounds.trans (.single pass), next⟩

/-- The loop ends behind its fixed number of sectors, whatever the image. -/
theorem load_eq (serves : Serves int13 disk) (size : floppySize ≤ disk.length) (s : Loader) :
    ∃ t, load int13 s = some (.loaded t) ∧
      t.mem = write s.mem 0x50000 ((disk.drop 512).take (512 * sectors)) := by
  obtain ⟨t, rounds, loading⟩ := load_rounds serves size s (k := sectors - 1) (by decide)
  obtain ⟨u, last, pass⟩ := rd_step serves size (by decide) loading
  rw [if_neg (by decide)] at pass
  refine ⟨u, ?_, last.mem⟩
  exact (rounds.iterate_eq 1).trans (StepLoop.iterate_leave pass 0)

end Loop

end Pc110.Floppy
