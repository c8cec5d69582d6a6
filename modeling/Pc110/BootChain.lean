import Pc110.BootOnce
import Pc110.Bootstrap

/-! From INT 19h to the boot record of the dump: the intercept enters the first sector of the
disk that `tools/make-disk.py` wrote, and the bootstrap in it reads the record through the
intercepted INT 13h. -/
namespace Pc110

open LsbBits (Byte)
open ByteMemory (Within)
open RealMode (State Fetches low_address)
open Inevitability (Inevitable)

/-- The vector of INT 13h, the bootstrap and the sector it reads. -/
def bootCells (a : Nat) : Prop := Within 0x4C 4 a ∨ sectorCells a

def InLowMemory (s : State) : Prop := (s.segs .cs).base = 0

section Record
variable {part image : List Byte} {s : State}

theorem AboutToRead.asks (ready : AboutToRead image s) (size : 33 ≤ image.length / 512) : AsksFor s image := by
  obtain ⟨request, function, buffer⟩ := ready.request
  refine ⟨function, ?_, ?_, ?_, ?_, ?_⟩
  · rw [ready.dl]
    decide
  · rw [request]
    decide
  · rw [request]
    decide
  · rw [request]
    exact size
  · rw [request, buffer]
    decide

theorem AboutToRead.room (ready : AboutToRead image s) : FrameRoom bootCells s := by
  have top : s.address .ss (s.regs .sp) = 0x7C00 := by rw [low_address (ready.segs .ss), ready.sp]; rfl
  refine ⟨?_, ?_, ?_⟩
  · rw [ready.segs]
    decide
  · rw [ready.sp]
    decide
  · rw [top]
    rintro a (⟨low, high⟩ | ⟨low, high⟩ | ⟨low, high⟩) ⟨low', high'⟩ <;> omega

theorem AboutToRead.diskRead (disk : MakeDisk.Disk part image) (whole : 512 ≤ part.length)
    (ready : AboutToRead image s) : RecordRead part image (diskRead image (s.advance 2)) ∧
      (Pc110.diskRead image (s.advance 2)).flags &&& RealMode.carryFlag = 0 := by
  obtain ⟨request, -, buffer⟩ := ready.request
  have data : diskData image (s.advance 2) = part.take 512 := by
    change (image.drop ((diskRequest s).lba * 512)).take ((diskRequest s).count * 512) = _
    rw [request, ← disk.dump]
    rfl
  have length : (part.take 512).length = 512 := by
    rw [List.length_take]
    omega
  have mem : (Pc110.diskRead image (s.advance 2)).mem = ByteMemory.write s.mem 0x7C00 (part.take 512) := by
    change ByteMemory.write s.mem (s.address .es (s.regs .bx)) (diskData image (s.advance 2)) = _
    rw [data, buffer]
  refine ⟨⟨⟨ready.segs, ready.sp, ?_, ?_⟩, ready.dl, ?_⟩, RealMode.setFlags_cleared _ _⟩
  · change s.ip + 2 = 0x062D
    rw [ready.ip]
    rfl
  · rw [mem, ByteMemory.read_write_apart _ _ _ _ _ (.inl (by decide)), ready.sector]
  · have back := ByteMemory.read_write s.mem 0x7C00 (part.take 512)
    rw [length] at back
    rw [mem, back]

theorem record_inevitable {q : Stock} (made : MakeDisk.main part = .ok image) (entered : SectorEntered image s)
    (vector : ByteMemory.read s.mem 0x4C 4 = diskVector) {c : CpuLoop} (holds : Holds q bootCells image s c) :
    Inevitable (LoopStep q bootCells) (fun c => RecordEntered part image (c.machine.view q)) c := by
  have disk := MakeDisk.main_ok part image made
  have whole := MakeDisk.signed_of_main_ok part image made
  obtain ⟨_, -, -, length⟩ := MakeDisk.main_entry made
  have cells (a : Nat) (cell : sectorCells a) : bootCells a := .inr cell
  have all (t : State) (cs : t.segs .cs = ⟨0, 0⟩) (_ : Calm t) : InLowMemory t := congrArg RealMode.Segment.base cs
  obtain ⟨t, moves, relocated, aside⟩ := glides_relocated cells all disk entered (congrArg RealMode.Segment.base entered.cs)
  refine (glides_inevitable moves holds).trans fun c holds => ?_
  obtain ⟨u, loads, ready, same⟩ := glides_aboutToRead cells all disk relocated
  refine (glides_inevitable loads holds).trans fun c holds => ?_
  have vector : ByteMemory.read u.mem 0x4C 4 = diskVector := by
    rw [same]
    refine (ByteMemory.read_congr fun a cell => aside a fun moved => ?_).trans vector
    have := cell.2
    have := moved.1
    omega
  have placed := placed_relocated cells (ready.segs .cs) (code_of_sector disk ready.sector)
  refine (disk_inevitable (ready.segs .cs) (placed.fetches (j := 0x2B) ready.ip bootstrapRest.int13)
    (placed.instruction (j := 0x2B) ready.ip bootstrapRest.int13) vector (fun a cell => .inl cell) ready.room
    (ready.asks (by omega)) holds).trans fun c holds => ?_
  obtain ⟨read, success⟩ := ready.diskRead disk whole
  obtain ⟨v, jumps, record⟩ := glides_recordEntered cells all disk read success
  exact (glides_inevitable jumps holds).mono fun c holds => record.agree cells holds.agree

end Record

section Boot
variable {q : Stock} {m : Machine} {part image : List Byte}

theorem boots_bootDisk (booted : boots q .call m = true) : Reaches m.pc m ∧ ∃ d path bf,
    m.path .pc110Boot = some path ∧ m.files path = some bf ∧ (bf.take 512).length = 512 ∧
      postIntercept q m.pc m = (true, bootDisk path (bf.take 512) (m.atBoot d)) := by
  obtain ⟨arrival, boots⟩ := of_decide_eq_true booted
  refine ⟨arrival.reaches, ?_⟩
  have base (d : Diag) : ((m.atBoot d).env.segs .cs).base = 0xF0000 := by rw [atBoot_eip]; exact arrival.here.1
  rcases arrival.reaches.boot_takes (q := q) arrival.here with ⟨-, -, -, d, eq⟩ | ⟨-, -, -, -, d, eq⟩ |
    ⟨-, -, -, d, path, bf, named, opens, whole, eq⟩ | ⟨-, d, eq⟩
  · exact absurd (eq ▸ boots) (enterEasySetup_enters false (base d)).not_bootsDisk
  · exact absurd (eq ▸ boots) (enterEasySetup_enters true (m := { m.atBoot d with
      statics := { (m.atBoot d).statics with entered := true, keyPressed := false } }) (base d)).not_bootsDisk
  · exact ⟨d, path, bf, named, opens, whole, eq⟩
  · exact absurd (eq ▸ boots).1 Bool.false_ne_true

/-- An INT 19h that boots a disk of the builder comes to the boot record of its dump, whatever
interrupts are served on the way and wherever blocks end. -/
theorem partition_boots (q : Stock) (m : Machine) (part image : List Byte) (made : MakeDisk.main part = .ok image)
    (booted : boots q .call m = true) (opens : (m.path .pc110Boot).bind m.files = some image) (real : InRealMode m)
    (vector : m.read 0x4C 4 = diskVector) : Inevitable (LoopStep q bootCells)
      (fun c => RecordEntered part image (c.machine.view q)) ⟨m.step q .call, false⟩ := by
  obtain ⟨reaches, d, path, bf, named, found, whole, eq⟩ := boots_bootDisk booted
  obtain rfl : bf = image := by
    rw [named, Option.bind_some, found] at opens
    exact Option.some.inj opens
  have step : m.step q .call = bootDisk path (bf.take 512) (m.atBoot d) := congrArg Prod.snd eq
  have enters := bootDisk_enters (q := q) path whole (atBoot_eip (m := m) d) (atBoot_mem d)
  have env := atBoot_eip (m := m) d
  have guest := atBoot_guestOnly (m := m) d
  have set : m.getenv .pc110Boot = some path := (Option.filter_eq_some_iff.mp named).1
  have steady : Steady bf (bootDisk path (bf.take 512) (m.atBoot d)) := by
    refine ⟨?_, ?_, ⟨?_, ?_, ?_, ?_, rfl⟩, ?_, ?_⟩
    · have on := congrArg Statics.enabled guest.statics
      rw [inBios_enabled] at on
      change (Statics.enabled (m.atBoot d).statics).getD _ = true
      rw [on]
      rfl
    · exact (congrArg Statics.kbcResetPending guest.statics).trans
        ((Machine.inBios_kbcResetPending m d).trans reaches.idle)
    · exact (congrArg (fun e : Env => e.cr0 &&& 1) env).trans real.pe
    · exact (congrArg (fun e : Env => (e.segs .cs).flags &&& descB) env).trans real.code
    · exact (congrArg (fun e : Env => (e.segs .ss).flags &&& descB) env).trans real.stack
    · exact (congrArg (fun e : Env => e.idt.base) env).trans real.vectors
    · change (m.atBoot d).getenv .pc110Boot ≠ none
      rw [guest.getenv]
      exact fun none => absurd (none.symm.trans set) (by rintro ⟨⟩)
    · change ((m.atBoot d).getenv .pc110Boot).bind (m.atBoot d).files = some bf
      rw [guest.getenv, guest.files]
      exact (congrArg (Option.bind · m.files) set).trans found
  have vector : ByteMemory.read ((bootDisk path (bf.take 512) (m.atBoot d)).view q).mem 0x4C 4 = diskVector := by
    refine (ByteMemory.read_congr fun a within => ?_).trans vector
    obtain ⟨low, high⟩ := within
    exact enters.mem a (by unfold Within; omega) (by unfold Within; omega) (by unfold Within; omega)
  have entered : SectorEntered bf ((bootDisk path (bf.take 512) (m.atBoot d)).view q) := ⟨rfl, rfl, enters.sector⟩
  rw [step]
  exact record_inevitable made entered vector ⟨steady, .refl _⟩

end Boot

def bootingMachine (image : List Byte) : Machine :=
  .start (cpuAt 0x52BD) (ByteMemory.write (fun _ => 0) 0x4C diskVector) (fun _ => 0)
    (fun | .pc110Post => some "1" | .pc110Boot => some "disk.img" | _ => none) (fun _ => some image)

theorem bootingMachine_boots {image : List Byte} (whole : 512 ≤ image.length) :
    boots default .call (bootingMachine image) = true := by
  have plain : PlainBoot (bootingMachine image).getenv := ⟨rfl, rfl⟩
  have pc : (bootingMachine image).pc = 0xF52BD := by
    change (0xF0000 + 0x52BD : Word) = 0xF52BD
    decide
  have here : At 0x52BD (bootingMachine image) := by
    rw [At, pc]
    refine ⟨⟨rfl, decide_eq_false fun query => absurd query.1 (by decide), rfl, .inl rfl⟩, rfl, ?_⟩
    change lo16 (0xF52BD - 0xF0000) = 0x52BD
    decide
  have succeeds : ¬ BootFails (bootingMachine image) := fun fails =>
    bootFails_iff.mp fails rfl "disk.img" image rfl rfl (by rw [List.length_take]; omega)
  obtain ⟨_, -, enters⟩ := (bootsWhole (q := default) plain .call rfl here).2 succeeds
  rw [← bootTaken_eq plain, bootTaken, decide_eq_true_eq]
  exact ⟨here, enters.taken⟩

theorem partition_boots_blankDump : ∃ image, MakeDisk.main DiskAddressing.blankDump = .ok image ∧
    Inevitable (LoopStep default bootCells)
      (fun c => RecordEntered DiskAddressing.blankDump image (c.machine.view default))
      ⟨(bootingMachine image).step default .call, false⟩ := by
  obtain ⟨image, made⟩ := MakeDisk.main_of_signed DiskAddressing.blankDump DiskAddressing.blankDump_signed
    (by rw [DiskAddressing.blankDump_length]; decide)
  obtain ⟨_, -, -, length⟩ := MakeDisk.main_entry made
  refine ⟨image, made, partition_boots default (bootingMachine image) _ image made
    (bootingMachine_boots (by omega)) rfl ?_ (ByteMemory.read_write _ _ diskVector)⟩
  have real : (0 : Word) &&& 1 = 0 := by decide
  have clear : (0 : Word) &&& descB = 0 := by decide
  exact ⟨real, clear, clear, rfl, rfl⟩

end Pc110
