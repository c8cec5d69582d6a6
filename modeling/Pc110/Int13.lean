import Pc110.Machine

/-! The software INT 13h service, `pc110_int13`: the request is served from the image
named by `PC110BOOT`, then the handler's IRET is done by hand. -/
namespace Pc110.Int13

open LsbBits (Byte)
open ByteMemory (Memory)

def spt : Word := 32
def heads : Word := 2

def word (frame : List Byte) (i : Nat) : BitVec 16 :=
  (frame.getD i 0).setWidth 16 ||| (frame.getD (i + 1) 0).setWidth 16 <<< 8

/-- The six bytes of IP, CS and FLAGS at the top of the stack. -/
def frame (m : Machine) : List Byte :=
  m.read ((m.env.segs .ss).base + (lo16 (m.env.regs .esp)).setWidth 32).toNat 6

/-- The bytes `fread` finds from sector `n` on, fewer at the end of the image. -/
def sectorAt (image : List Byte) (n : Nat) : List Byte := (image.drop (512 * n)).take 512

theorem sectorAt_length_iff (image : List Byte) (k : Nat) :
    (sectorAt image k).length = 512 ↔ k < image.length / 512 := by
  simp only [sectorAt, List.length_take, List.length_drop]
  omega

/-- The `fread` loop behind `fseek(f, lba * 512)`: `remaining` sectors are still asked for
and `got` have been stored. -/
def readLoop (image : List Byte) (lba dst : Word) : (remaining : Nat) → (got : Word) → Memory Byte →
    Word × Memory Byte
  | 0, got, mem => (got, mem)
  | remaining + 1, got, mem =>
    let buf := sectorAt image (lba.toNat + got.toNat)
    if buf.length ≠ 512 then (got, mem)
    else readLoop image lba dst remaining (got + 1)
      (ByteMemory.write mem (dst + got * 512).toNat buf)

/-- A request served: the machine, CF and the status for AH. -/
structure Served where
  machine : Machine
  cf : Bool
  rah : Byte

def transfer (m : Machine) : Word × Memory Byte :=
  let ecx := m.env.regs .ecx
  let cl := (lo8 ecx).setWidth 32
  let cyl : Word := (hi8 ecx).setWidth 32 ||| (cl &&& 0xC0) <<< 2
  let sec : Word := cl &&& 0x3F
  let head : Word := (hi8 (m.env.regs .edx)).setWidth 32
  let count := lo8 (m.env.regs .eax)
  let f := if sec = 0 then none else (m.getenv .pc110Boot).bind m.files
  let lba := (cyl * heads + head) * spt + (sec - 1)
  let dst := (m.env.segs .es).base + (lo16 (m.env.regs .ebx)).setWidth 32
  match f with
  | some image => readLoop image lba dst count.toNat 0 m.mem
  | none => (0, m.mem)

/-- AH=02, read sectors (CHS). -/
def readSectors (m : Machine) : Served :=
  let eax := m.env.regs .eax
  let count : Word := (lo8 eax).setWidth 32
  let (got, mem) := transfer m
  let cf := !(got = count ∧ count ≠ 0)
  { machine := Machine.setReg { m with mem } .eax (setLo8 eax (lo8 got))
    cf
    rah := if cf then 0x04 else 0x00 }

/-- AH=08, drive parameters. -/
def driveParameters (m : Machine) : Served :=
  let maxCyl : Word := 127
  let cx : Word := (maxCyl &&& 0xFF) <<< 8 ||| ((maxCyl >>> 2) &&& 0xC0) ||| (spt &&& 0x3F)
  let ecx := set16 (m.env.regs .ecx) (lo16 cx)
  let edx := (m.env.regs .edx &&& ~~~(0xFFFF : Word)) ||| (heads - 1) <<< 8 ||| 0x01
  { machine := (m.setReg .ecx ecx).setReg .edx edx, cf := false, rah := 0 }

def serve (m : Machine) : Served :=
  let ah := hi8 (m.env.regs .eax)
  let dl := lo8 (m.env.regs .edx)
  if dl < 0x80 then ⟨m, true, 0x80⟩
  else if ah = 0x00 ∨ ah = 0x09 ∨ ah = 0x0D ∨ ah = 0x11 ∨ ah = 0x25 then ⟨m, false, 0⟩
  else if ah = 0x02 then readSectors m
  else if ah = 0x08 then driveParameters m
  else if ah = 0x15 then ⟨m, false, 0x03⟩
  else ⟨m, true, 0x01⟩

/-- The manual IRET through a frame read before the request was served. -/
def iret (m : Machine) (fr : List Byte) (cf : Bool) : Machine :=
  let env := m.env
  let retCs := word fr 2
  let retFl := if cf then word fr 4 ||| 0x0001 else word fr 4 &&& ~~~0x0001
  let env := { env with eip := (word fr 0).setWidth 32 }
  let env := env.setSeg .cs (retCs.setWidth 32) (retCs.setWidth 32 <<< 4)
  let env := env.setReg .esp (set16 (env.regs .esp) (lo16 (env.regs .esp) + 6))
  { m with env := pcStoreEflags env (retFl.setWidth 32) }

/-- Memory is flat, as for `completeCopy`: what a read to C0000 to EFFFF does there is up to the
chipset device. -/
def int13 (m : Machine) : Machine :=
  let fr := frame m
  let served := serve m
  let eax := setHi8 (served.machine.env.regs .eax) served.rah
  iret (served.machine.setReg .eax eax) fr served.cf

theorem int13_mem (m : Machine) : (int13 m).mem = (serve m).machine.mem := rfl

@[simp] theorem int13_eax (m : Machine) :
    (int13 m).env.regs .eax = setHi8 ((serve m).machine.env.regs .eax) (serve m).rah := by
  simp [int13, iret, Machine.setReg, Env.setReg, Env.setSeg, pcStoreEflags]

/-- The low flag of the frame is the status whatever FLAGS were pushed. -/
theorem carry_of_status (fl : BitVec 16) (cf : Bool) :
    ((if cf then fl ||| 0x0001 else fl &&& ~~~0x0001).setWidth 32 : Word) &&& ccC =
      if cf then 1 else 0 := by
  cases cf <;> (ext i hi; simp [ccC]; interval_cases i <;> simp)

theorem int13_carry (q : Stock) (m : Machine) :
    cpuComputeEflags q (int13 m).env &&& ccC = if (serve m).cf then 1 else 0 := by
  simp only [int13, iret, cpuComputeEflags_pcStoreEflags]
  exact carry_of_status _ _

theorem serve_read (m : Machine) (drive : ¬ lo8 (m.env.regs .edx) < 0x80)
    (function : hi8 (m.env.regs .eax) = 0x02) : serve m = readSectors m := by
  simp only [serve]
  rw [if_neg drive, if_neg (by rw [function]; decide), if_pos function]

end Pc110.Int13
