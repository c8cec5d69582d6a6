import Pc110.DiskAddressing
import Pc110.GuestDisk
import Pc110.Library.RealModeData
import Pc110.PartitionEntry

/-! The bootstrap that `tools/make-disk.py` writes into the first sector of the disk, as code: it
moves itself to 0600, reads CHS(0,1,1) through INT 13h and jumps there, with the partition entry
at DS:SI. Its runs are stated for any cells that include both sectors, and for any condition that
holds while interrupts are off or the stack is at 0:7C00. -/
namespace Pc110

open LsbBits (Byte)
open ByteMemory (Within)
open RealMode (State Instr Glides Fetches Placed straight low_address low_pc)

/-! ## Listings -/

/-- The stack and the segments, behind the `cli`. -/
def stackAtSector : List (List Byte × Instr) := [
  ([0x33, 0xC0], .alu .xor (.reg .ax) (.reg .ax)),
  ([0x8E, 0xD0], .movSeg .ss (.reg .ax)),
  ([0xBC, 0x00, 0x7C], .movImm (.reg .sp) 0x7C00),
  ([0x8E, 0xD8], .movSeg .ds (.reg .ax)),
  ([0x8E, 0xC0], .movSeg .es (.reg .ax))]

/-- What is copied to 0000:0600. -/
def sectorArguments : List (List Byte × Instr) := [
  ([0xFC], .cld),
  ([0xBE, 0x00, 0x7C], .movImm (.reg .si) 0x7C00),
  ([0xBF, 0x00, 0x06], .movImm (.reg .di) 0x0600),
  ([0xB9, 0x00, 0x01], .movImm (.reg .cx) 0x0100)]

/-- From 0000:061E to the INT 13h. -/
def askForRecord : List (List Byte × Instr) := [
  ([0xB8, 0x01, 0x02], .movImm (.reg .ax) 0x0201),
  ([0xBB, 0x00, 0x7C], .movImm (.reg .bx) 0x7C00),
  ([0xB9, 0x01, 0x00], .movImm (.reg .cx) 0x0001),
  ([0xB6, 0x01], .movByteImm ⟨.dx, true⟩ 0x01),
  ([0xB2, 0x80], .movByteImm ⟨.dx, false⟩ 0x80)]

structure BootstrapRest : Prop where
  start : RealMode.Stands MakeDisk.code 0x00 [0xFA] .cli
  stackSet : RealMode.Stands MakeDisk.code 0x0C [0xFB] .sti
  copy : RealMode.Stands MakeDisk.code 0x17 [0xF3, 0xA5] (.repMovs .ds true)
  relocate : RealMode.Stands MakeDisk.code 0x19 [0xEA, 0x1E, 0x06, 0x00, 0x00] (.jumpFar 0x0000 0x061E)
  int13 : RealMode.Stands MakeDisk.code 0x2B [0xCD, 0x13] (.int 0x13)
  carry : RealMode.Stands MakeDisk.code 0x2D [0x72, 0xFE] (.jumpIf .carry 0xFFFE)
  pointer : RealMode.Stands MakeDisk.code 0x2F [0xBE, 0xBE, 0x07] (.movImm (.reg .si) 0x07BE)
  enter : RealMode.Stands MakeDisk.code 0x32 [0xEA, 0x00, 0x7C, 0x00, 0x00] (.jumpFar 0x0000 0x7C00)

set_option maxRecDepth 4096 in
theorem bootstrapRest : BootstrapRest := by constructor <;> decide

set_option maxRecDepth 4096 in
theorem stackAtSector_silent : RealMode.Encoded Instr.silent stackAtSector := by decide

set_option maxRecDepth 4096 in
theorem sectorArguments_between : RealMode.Encoded (Instr.between .ds 0 0) sectorArguments := by decide

set_option maxRecDepth 4096 in
theorem askForRecord_between : RealMode.Encoded (Instr.between .ds 0 0) askForRecord := by decide

/-! ## States -/

structure SectorEntered (image : List Byte) (s : State) : Prop where
  cs : s.segs .cs = ⟨0, 0⟩
  ip : s.ip = 0x7C00
  sector : ByteMemory.read s.mem 0x7C00 512 = image.take 512

/-- The bootstrap at its new place, with its stack below the old one. -/
structure Relocated (image : List Byte) (ip : BitVec 16) (s : State) : Prop where
  segs : ∀ seg, s.segs seg = ⟨0, 0⟩
  sp : s.regs .sp = 0x7C00
  ip : s.ip = ip
  sector : ByteMemory.read s.mem 0x600 512 = image.take 512

/-- The boot record of the dump at its entry, with its partition entry at DS:SI. -/
structure RecordEntered (part image : List Byte) (s : State) : Prop where
  segs : ∀ seg, s.segs seg = ⟨0, 0⟩
  ip : s.ip = 0x7C00
  sp : s.regs .sp = 0x7C00
  si : s.regs .si = 0x07BE
  drive : s.half ⟨.dx, false⟩ = 0x80
  record : ByteMemory.read s.mem 0x7C00 512 = part.take 512
  entry : ByteMemory.read s.mem 0x07BE 16 = MakeDisk.entryOf image

structure AboutToRead (image : List Byte) (s : State) : Prop extends Relocated image 0x062B s where
  ax : s.regs .ax = 0x0201
  bx : s.regs .bx = 0x7C00
  cx : s.regs .cx = 0x0001
  dh : s.half ⟨.dx, true⟩ = 0x01
  dl : s.half ⟨.dx, false⟩ = 0x80

/-- Behind the INT 13h, with the boot record in memory. -/
structure RecordRead (part image : List Byte) (s : State) : Prop extends Relocated image 0x062D s where
  dl : s.half ⟨.dx, false⟩ = 0x80
  record : ByteMemory.read s.mem 0x7C00 512 = part.take 512

/-- Interrupts are off, or the stack is the one of the bootstrap. -/
def Calm (s : State) : Prop :=
  s.flags &&& RealMode.interruptFlag = 0 ∨ s.segs .ss = ⟨0, 0⟩ ∧ s.regs .sp = 0x7C00

def sectorCells (a : Nat) : Prop := Within 0x600 512 a ∨ Within 0x7C00 512 a

section Sectors
variable {part image : List Byte} {P : Nat → Prop} {s : State}

theorem code_of_sector (disk : MakeDisk.Disk part image) {mem : ByteMemory.Memory Byte} {address : Nat}
    (here : ByteMemory.read mem address 512 = image.take 512) : ByteMemory.read mem address 55 = MakeDisk.code := by
  have front := ByteMemory.read_slice mem here 0 55 (by decide)
  refine front.trans ?_
  apply List.ext_getElem?
  intro i
  rw [List.drop_zero, List.take_take]
  by_cases inside : i < 55
  · rw [List.getElem?_take_of_lt (by omega), disk.boot i inside]
  · rw [List.getElem?_take_eq_none (by omega)]
    exact (List.getElem?_eq_none (Nat.not_lt.mp inside)).symm

theorem placed_loaded (cells : ∀ a, sectorCells a → P a) (cs : s.segs .cs = ⟨0, 0⟩)
    (code : ByteMemory.read s.mem 0x7C00 55 = MakeDisk.code) : Placed P MakeDisk.code 0x7C00 s :=
  ⟨cs, code, by decide, fun a cell => cells a (.inr ⟨cell.1, Nat.lt_of_lt_of_le cell.2 (by decide)⟩)⟩

theorem placed_relocated (cells : ∀ a, sectorCells a → P a) (cs : s.segs .cs = ⟨0, 0⟩)
    (code : ByteMemory.read s.mem 0x600 55 = MakeDisk.code) : Placed P MakeDisk.code 0x600 s :=
  ⟨cs, code, by decide, fun a cell => cells a (.inl ⟨cell.1, Nat.lt_of_lt_of_le cell.2 (by decide)⟩)⟩

theorem Relocated.jumped {ip : BitVec 16} (relocated : Relocated image ip s) (n : Nat) (rel : BitVec 16) :
    Relocated image (ip + BitVec.ofNat 16 n + rel) ((s.advance n).jumpBy rel) :=
  ⟨relocated.segs, relocated.sp, congrArg (· + BitVec.ofNat 16 n + rel) relocated.ip, relocated.sector⟩

theorem Relocated.agree {ip : BitVec 16} {t : State} (relocated : Relocated image ip s)
    (cells : ∀ a, sectorCells a → P a) (agree : RealMode.Agree P s t) : Relocated image ip t := by
  have sector : ByteMemory.read t.mem 0x600 512 = ByteMemory.read s.mem 0x600 512 :=
    agree.read fun a cell => cells a (.inl cell)
  obtain ⟨mem, -, rfl⟩ := agree
  exact ⟨relocated.segs, relocated.sp, relocated.ip, sector.trans relocated.sector⟩

theorem RecordEntered.agree {t : State} (record : RecordEntered part image s) (cells : ∀ a, sectorCells a → P a)
    (agree : RealMode.Agree P s t) : RecordEntered part image t := by
  have sector : ByteMemory.read t.mem 0x7C00 512 = ByteMemory.read s.mem 0x7C00 512 :=
    agree.read fun a cell => cells a (.inr cell)
  have entry : ByteMemory.read t.mem 0x07BE 16 = ByteMemory.read s.mem 0x07BE 16 :=
    agree.read fun a cell => cells a (.inl ⟨Nat.le_trans (by decide) cell.1, Nat.lt_of_lt_of_le cell.2 (by decide)⟩)
  obtain ⟨mem, -, rfl⟩ := agree
  exact ⟨record.segs, record.ip, record.sp, record.si, record.drive, sector.trans record.record,
    entry.trans record.entry⟩

end Sectors

/-! ## Runs -/

section Runs
variable {part image : List Byte} {P : Nat → Prop} {C : State → Prop} {s : State}
  (cells : ∀ a, sectorCells a → P a) (all : ∀ t, t.segs .cs = ⟨0, 0⟩ → Calm t → C t)

structure CopyingSector (s t : State) : Prop where
  mem : t.mem = s.mem
  segs : ∀ seg, t.segs seg = ⟨0, 0⟩
  sp : t.regs .sp = 0x7C00
  ip : t.ip = 0x7C17
  cx : t.regs .cx = 0x0100
  si : t.regs .si = 0x7C00
  di : t.regs .di = 0x0600
  forward : t.flags &&& RealMode.directionFlag = 0

theorem stackAtSector_leaves (cs : s.segs .cs = ⟨0, 0⟩) : (∀ seg, (straight stackAtSector s).segs seg = ⟨0, 0⟩) ∧
    (straight stackAtSector s).regs .sp = 0x7C00 ∧ (straight stackAtSector s).mem = s.mem := by
  have quiet := stackAtSector_silent.mono RealMode.silent_quiet
  have zero : s.regs .ax ^^^ s.regs .ax = 0 := BitVec.xor_self
  refine ⟨fun seg => ?_, rfl, RealMode.quiet_mem stackAtSector quiet s⟩
  cases seg with
  | cs => exact (RealMode.straight_follows stackAtSector (RealMode.quiet_encoded quiet) s).1.trans cs
  | es | ss | ds =>
    change (⟨s.regs .ax ^^^ s.regs .ax, (s.regs .ax ^^^ s.regs .ax).setWidth 32 <<< 4⟩ : RealMode.Segment) = _
    rw [zero]
    rfl

include cells all

/-- Up to the copy: the stack is set while interrupts are off. -/
theorem glides_copyingSector (disk : MakeDisk.Disk part image) (entered : SectorEntered image s) (before : C s) :
    ∃ t, Glides P C s t ∧ CopyingSector s t := by
  have placed := placed_loaded cells entered.cs (code_of_sector disk entered.sector)
  -- the `cli`
  have first : Glides P C s ((s.advance 1).setFlags RealMode.interruptFlag 0) :=
    placed.step (j := 0) entered.ip bootstrapRest.start before (fun _ reads => reads.elim) rfl
  have placed : Placed P MakeDisk.code 0x7C00 ((s.advance 1).setFlags RealMode.interruptFlag 0) :=
    ⟨placed.cs, placed.here, placed.low, placed.inside⟩
  have ip : ((s.advance 1).setFlags RealMode.interruptFlag 0).ip = 0x7C01 := by
    change s.ip + 1 = 0x7C01
    rw [entered.ip]
    rfl
  have masked := RealMode.setFlags_cleared (s.advance 1) RealMode.interruptFlag
  have mem : ((s.advance 1).setFlags RealMode.interruptFlag 0).mem = s.mem := rfl
  generalize (s.advance 1).setFlags RealMode.interruptFlag 0 = t at *
  -- the stack and the segments
  have second : Glides P C t (straight stackAtSector t) :=
    placed.silent (j := 1) ip (by decide) stackAtSector_silent masked
      fun v cs masked => all v (cs.trans placed.cs) (.inl masked)
  obtain ⟨segs, sp, same⟩ := stackAtSector_leaves placed.cs
  obtain ⟨-, behind⟩ := RealMode.straight_follows stackAtSector
    (RealMode.quiet_encoded (stackAtSector_silent.mono RealMode.silent_quiet)) t
  have placed := placed_loaded cells (segs .cs) (by rw [same]; exact placed.here)
  have mem := same.trans mem
  rw [ip] at behind
  generalize straight stackAtSector t = u at *
  -- the `sti`, from where the stack is the one below the sector
  have third : Glides P C u ((u.advance 1).setFlags RealMode.interruptFlag RealMode.interruptFlag) :=
    placed.step (j := 0x0C) behind bootstrapRest.stackSet (all u (segs .cs) (.inr ⟨segs .ss, sp⟩))
      (fun _ reads => reads.elim) rfl
  have placed : Placed P MakeDisk.code 0x7C00 ((u.advance 1).setFlags RealMode.interruptFlag RealMode.interruptFlag) :=
    ⟨placed.cs, placed.here, placed.low, placed.inside⟩
  have ip : ((u.advance 1).setFlags RealMode.interruptFlag RealMode.interruptFlag).ip = 0x7C0D := by
    change u.ip + 1 = 0x7C0D
    rw [behind]
    rfl
  have segs (seg : RealMode.Seg) : ((u.advance 1).setFlags RealMode.interruptFlag RealMode.interruptFlag).segs seg = ⟨0, 0⟩ :=
    segs seg
  have sp : ((u.advance 1).setFlags RealMode.interruptFlag RealMode.interruptFlag).regs .sp = 0x7C00 := sp
  have mem : ((u.advance 1).setFlags RealMode.interruptFlag RealMode.interruptFlag).mem = s.mem := mem
  generalize (u.advance 1).setFlags RealMode.interruptFlag RealMode.interruptFlag = v at *
  -- the registers of the copy
  have fourth : Glides P C v (straight sectorArguments v) :=
    placed.between (j := 0x0D) ip (by decide) sectorArguments_between (segs .ds)
      (fun a cell => absurd cell.2 (Nat.not_lt.mpr cell.1)) (.inr (Nat.zero_le _))
      fun w cs ss stack => all w (cs.trans (segs .cs)) (.inr ⟨ss.trans (segs .ss), stack.trans sp⟩)
  have behind := (RealMode.straight_follows sectorArguments
    (sectorArguments_between.mono fun _ => RealMode.between_plain) v).2
  rw [ip] at behind
  exact ⟨_, ((first.trans second).trans third).trans fourth, ⟨mem, segs, sp, behind, rfl, rfl, rfl,
    RealMode.setFlags_cleared _ _⟩⟩

theorem glides_relocated (disk : MakeDisk.Disk part image) (entered : SectorEntered image s) (before : C s) :
    ∃ t, Glides P C s t ∧ Relocated image 0x061E t ∧ ∀ a, ¬ Within 0x600 512 a → t.mem a = s.mem a := by
  have code := code_of_sector disk entered.sector
  obtain ⟨t, loads, ready⟩ := glides_copyingSector cells all disk entered before
  have placed := placed_loaded cells (ready.segs .cs) (ready.mem ▸ code)
  obtain ⟨copies, mem⟩ := placed.copies (C := C) (j := 0x17) (n := 256) ready.ip bootstrapRest.copy ready.segs
    (congrArg BitVec.toNat ready.cx) (congrArg BitVec.toNat ready.si) (congrArg BitVec.toNat ready.di) ready.forward
    (by decide) (by decide) (.inr (by decide)) (.inr (by decide)) (fun a cell => cells a (.inr cell))
    fun v same stack => all v ((congrFun same .cs).trans (ready.segs .cs))
      (.inr ⟨(congrFun same .ss).trans (ready.segs .ss), stack.trans ready.sp⟩)
  have whole : (image.take 512).length = 512 := by rw [← entered.sector, ByteMemory.read_length]
  have mem : (RealMode.copied t 2 256 2).mem = ByteMemory.write s.mem 0x600 (image.take 512) := by
    rw [← entered.sector, ← ready.mem]
    exact mem
  have aside (a : Nat) (out : ¬ Within 0x600 512 a) : (RealMode.copied t 2 256 2).mem a = s.mem a := by
    rw [mem]
    refine ByteMemory.write_outside _ _ _ _ ?_
    rw [whole]
    exact out
  have sector : ByteMemory.read (RealMode.copied t 2 256 2).mem 0x600 512 = image.take 512 := by
    have back := ByteMemory.read_write s.mem 0x600 (image.take 512)
    rw [whole] at back
    rw [mem, back]
  have segs (seg : RealMode.Seg) : (RealMode.copied t 2 256 2).segs seg = ⟨0, 0⟩ := ready.segs seg
  have sp : (RealMode.copied t 2 256 2).regs .sp = 0x7C00 := ready.sp
  have ip : (RealMode.copied t 2 256 2).ip = 0x7C19 := by
    change t.ip + 2 = 0x7C19
    rw [ready.ip]
    rfl
  have kept : ByteMemory.read (RealMode.copied t 2 256 2).mem 0x7C00 55 = MakeDisk.code := by
    refine (ByteMemory.read_congr fun a cell => aside a fun copied => ?_).trans code
    have := cell.1
    have := copied.2
    omega
  change Glides P C t (RealMode.copied t 2 256 2) at copies
  generalize RealMode.copied t 2 256 2 = v at *
  have jumps : Glides P C v { (v.advance 5).setSeg .cs 0 with ip := 0x061E } :=
    (placed_loaded cells (segs .cs) kept).step (j := 0x19) ip bootstrapRest.relocate
      (all v (segs .cs) (.inr ⟨segs .ss, sp⟩)) (fun _ reads => reads.elim) rfl
  refine ⟨_, (loads.trans copies).trans jumps, ⟨fun seg => ?_, sp, rfl, sector⟩, aside⟩
  cases seg with
  | cs => rfl
  | es | ss | ds => exact segs _

theorem glides_aboutToRead (disk : MakeDisk.Disk part image) (relocated : Relocated image 0x061E s) :
    ∃ t, Glides P C s t ∧ AboutToRead image t ∧ t.mem = s.mem := by
  obtain ⟨segs, sp, ip, sector⟩ := relocated
  have placed := placed_relocated cells (segs .cs) (code_of_sector disk sector)
  have sets : Glides P C s (straight askForRecord s) :=
    placed.between (j := 0x1E) ip (by decide) askForRecord_between (segs .ds)
      (fun a cell => absurd cell.2 (Nat.not_lt.mpr cell.1)) (.inr (Nat.zero_le _))
      fun t cs ss stack => all t (cs.trans (segs .cs)) (.inr ⟨ss.trans (segs .ss), stack.trans sp⟩)
  have behind := (RealMode.straight_follows askForRecord
    (askForRecord_between.mono fun _ => RealMode.between_plain) s).2
  rw [ip] at behind
  refine ⟨_, sets, ⟨⟨segs, sp, behind, sector⟩, rfl, rfl, rfl, ?_, ?_⟩, rfl⟩
  all_goals
    simp [askForRecord, straight, RealMode.effect, RealMode.exec, State.set, RealMode.half_setHalf,
      RealMode.half_setHalf_other]

theorem glides_recordEntered (disk : MakeDisk.Disk part image) (read : RecordRead part image s)
    (success : s.flags &&& RealMode.carryFlag = 0) : ∃ t, Glides P C s t ∧ RecordEntered part image t := by
  obtain ⟨⟨segs, sp, ip, sector⟩, dl, record⟩ := read
  have entry : ByteMemory.read s.mem 0x07BE 16 = MakeDisk.entryOf image := by
    refine (ByteMemory.read_slice s.mem sector 0x1BE 16 (by decide)).trans ?_
    rw [MakeDisk.entryOf, List.drop_take, List.take_take]
    rfl
  have placed := placed_relocated cells (segs .cs) (code_of_sector disk sector)
  have calm {t : State} (same : t.segs = s.segs) (stack : t.regs .sp = s.regs .sp) : C t :=
    all t ((congrFun same .cs).trans (segs .cs)) (.inr ⟨(congrFun same .ss).trans (segs .ss), stack.trans sp⟩)
  -- the loop of the carry flag is not taken
  have first : Glides P C s (s.advance 2) :=
    placed.step (j := 0x2D) ip bootstrapRest.carry (calm rfl rfl) (fun _ reads => reads.elim)
      (if_neg (not_not.mpr success))
  have placed : Placed P MakeDisk.code 0x600 (s.advance 2) := ⟨placed.cs, placed.here, placed.low, placed.inside⟩
  have ip : (s.advance 2).ip = 0x062F := by
    change s.ip + 2 = 0x062F
    rw [ip]
    rfl
  have second : Glides P C (s.advance 2) (((s.advance 2).advance 3).setReg .si 0x07BE) :=
    placed.step (j := 0x2F) ip bootstrapRest.pointer (calm rfl rfl) (fun _ reads => reads.elim) rfl
  have placed : Placed P MakeDisk.code 0x600 (((s.advance 2).advance 3).setReg .si 0x07BE) :=
    ⟨placed.cs, placed.here, placed.low, placed.inside⟩
  have ip : (((s.advance 2).advance 3).setReg .si 0x07BE).ip = 0x0632 := by
    change (s.advance 2).ip + 3 = 0x0632
    rw [ip]
    rfl
  have third := placed.step (C := C) (j := 0x32) ip bootstrapRest.enter (calm rfl rfl) (fun _ reads => reads.elim) rfl
  refine ⟨_, (first.trans second).trans third, ⟨fun seg => ?_, rfl, sp, rfl, dl, record, entry⟩⟩
  cases seg with
  | cs => rfl
  | es | ss | ds => exact segs _

end Runs

section Requests
variable {image : List Byte} {s : State}

/-- The read is of the sector behind the hidden ones, to where the bootstrap was. -/
theorem AboutToRead.request (ready : AboutToRead image s) :
    diskRequest s = ⟨0, 1, 1, 1⟩ ∧ s.half ⟨.ax, true⟩ = 0x02 ∧ s.address .es (s.regs .bx) = 0x7C00 := by
  have ch : s.half ⟨.cx, true⟩ = 0 := by rw [State.half, ready.cx]; rfl
  have cl : s.half ⟨.cx, false⟩ = 1 := by rw [State.half, ready.cx]; rfl
  have al : s.half ⟨.ax, false⟩ = 1 := by rw [State.half, ready.ax]; rfl
  refine ⟨?_, ?_, ?_⟩
  · rw [diskRequest, ch, cl, al, ready.dh]
    rfl
  · rw [State.half, ready.ax]
    decide
  · rw [low_address (ready.segs .es), ready.bx]
    rfl

end Requests

end Pc110
