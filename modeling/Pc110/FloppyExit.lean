import Pc110.Bootstrap
import Pc110.FloppyPasses

/-! The exit stub of the Easy-Setup floppy. Easy-Setup comes to 0000:0600 when it returns and when
it asks for INT 19h; the stub reads the first sector of the hard disk and enters it, and the
bootstrap that `tools/make-disk.py` put there goes on to the boot record of the dump. -/
namespace Pc110.Floppy

open LsbBits (Byte)
open ByteMemory (Memory Within)
open RealMode (State Instr Agree Back Bios Fetches Glides Placed Spared Turn straight low_address low_pc)
open Inevitability (Inevitable)

/-! ## The stub and the disk -/

structure StubRest : Prop where
  start : RealMode.Stands exitStub 0x00 [0xFA] .cli
  stackSet : RealMode.Stands exitStub 0x0C [0xFB] .sti
  int13 : RealMode.Stands exitStub 0x1C [0xCD, 0x13] (.int 0x13)
  carry : RealMode.Stands exitStub 0x1E [0x72, 0x07] (.jumpIf .carry 0x07)
  drive : RealMode.Stands exitStub 0x20 [0xB2, 0x80] (.movByteImm ⟨.dx, false⟩ 0x80)
  enter : RealMode.Stands exitStub 0x22 [0xEA, 0x00, 0x7C, 0x00, 0x00] (.jumpFar 0x0000 0x7C00)
  sh : RealMode.Stands exitStub 0x27 [0xF4] .hlt
  wait : RealMode.Stands exitStub 0x28 [0xEB, 0xFD] (.jump 0xFFFD)

set_option maxRecDepth 4096 in
theorem stubRest : StubRest := by constructor <;> decide

/-- What the stub and the bootstrap count on: sectors of the first hard disk, and its number in DL
when a read comes back. -/
structure ReadsDisk (image : List Byte) (depth : Nat) (fails : Prop) (bios : Bios) : Prop
    extends ReadsSectors sectorCells 0x80 2 32 image depth fails bios where
  drive : ∀ s n t, AsksForSector 0x80 2 32 s n → bios.serves 0x13 s t → t.half ⟨.dx, false⟩ = s.half ⟨.dx, false⟩

/-! ## States -/

/-- The stub at its entry, with interrupts off or away from its cells. -/
structure StubEntered (depth : Nat) (s : State) : Prop where
  cs : s.segs .cs = ⟨0, 0⟩
  ip : s.ip = 0x0600
  stub : ByteMemory.read s.mem 0x600 42 = exitStub
  calm : s.flags &&& RealMode.interruptFlag = 0 ∨ ∀ a, sectorCells a → Spared depth s a

structure StubRuns (ip : BitVec 16) (s : State) : Prop where
  segs : ∀ seg, s.segs seg = ⟨0, 0⟩
  sp : s.regs .sp = 0x7C00
  ip : s.ip = ip
  stub : ByteMemory.read s.mem 0x600 42 = exitStub

/-- In the `hlt` loop of the stub, or in the jump of the bootstrap to itself. -/
inductive Parked (image : List Byte) (s : State) : Prop where
  | stub (ip : BitVec 16) (runs : StubRuns ip s) (here : ip = 0x0627 ∨ ip = 0x0628)
  | bootstrap (relocated : Relocated image 0x062D s) (failure : s.flags &&& RealMode.carryFlag ≠ 0)

section Cells
variable {image : List Byte} {depth : Nat} {fails : Prop} {bios : Bios} {s t : State} {ip : BitVec 16}

theorem placed_stub (cs : s.segs .cs = ⟨0, 0⟩) (stub : ByteMemory.read s.mem 0x600 42 = exitStub) :
    Placed sectorCells exitStub 0x600 s := by
  refine ⟨cs, ?_, ?_, ?_⟩
  all_goals rw [exitStub_length]
  · exact stub
  · decide
  · exact fun a cell => .inl ⟨cell.1, Nat.lt_of_lt_of_le cell.2 (by decide)⟩

theorem StubRuns.placed (runs : StubRuns ip s) : Placed sectorCells exitStub 0x600 s := placed_stub (runs.segs .cs) runs.stub

theorem StubRuns.jumped (runs : StubRuns ip s) (n : Nat) (rel : BitVec 16) :
    StubRuns (ip + BitVec.ofNat 16 n + rel) ((s.advance n).jumpBy rel) :=
  ⟨runs.segs, runs.sp, congrArg (· + BitVec.ofNat 16 n + rel) runs.ip, runs.stub⟩

theorem StubRuns.agree (runs : StubRuns ip s) (agree : Agree sectorCells s t) : StubRuns ip t := by
  have stub : ByteMemory.read t.mem 0x600 42 = ByteMemory.read s.mem 0x600 42 :=
    agree.read fun a cell => .inl ⟨cell.1, Nat.lt_of_lt_of_le cell.2 (by decide)⟩
  obtain ⟨mem, -, rfl⟩ := agree
  exact ⟨runs.segs, runs.sp, runs.ip, stub.trans runs.stub⟩

/-- Interrupts leave the sectors alone. -/
theorem ReadsDisk.keeps (reads : ReadsDisk image depth fails bios) (deep : depth ≤ 0x7400) (calm : Calm s) :
    bios.Keeps sectorCells s := by
  intro a cell
  rcases calm with masked | ⟨ss, sp⟩
  · exact reads.masked s a masked
  · refine reads.spares s a cell fun below => ?_
    rw [low_address ss, sp] at below
    obtain ⟨first, last⟩ := below
    rw [show (0x7C00 : BitVec 16).toNat = 0x7C00 from rfl] at first last
    rcases cell with ⟨_, _⟩ | ⟨_, _⟩ <;> omega

/-- So does a read to where the bootstrap was, where the first of them is. -/
theorem back_first (deep : depth ≤ 0x7400) (back : Back sectorCells depth (Within 0x7C00 512) s t)
    (ss : s.segs .ss = ⟨0, 0⟩) (sp : s.regs .sp = 0x7C00) (a : Nat) (cell : Within 0x600 512 a) : t.mem a = s.mem a := by
  obtain ⟨low, high⟩ := cell
  refine back.mem a (.inl ⟨low, high⟩) (fun below => ?_) fun stored => ?_
  · rw [low_address ss, sp] at below
    obtain ⟨first, last⟩ := below
    rw [show (0x7C00 : BitVec 16).toNat = 0x7C00 from rfl] at first last
    omega
  · have := stored.1
    omega

theorem StubRuns.back {ip' : BitVec 16} (deep : depth ≤ 0x7400) (back : Back sectorCells depth (Within 0x7C00 512) s t)
    (runs : StubRuns ip' s) : StubRuns ip' t := by
  have segs (seg : RealMode.Seg) : t.segs seg = ⟨0, 0⟩ := (congrFun back.segs seg).trans (runs.segs seg)
  refine ⟨segs, back.sp.trans runs.sp, back.ip.trans runs.ip, (ByteMemory.read_congr fun a cell => ?_).trans runs.stub⟩
  exact back_first deep back (runs.segs .ss) runs.sp a ⟨cell.1, Nat.lt_of_lt_of_le cell.2 (by decide)⟩

end Cells

/-! ## The stub -/

section Stub
variable {image : List Byte} {depth : Nat} {fails : Prop} {bios : Bios} {s : State}

variable (reads : ReadsDisk image depth fails bios) (deep : depth ≤ 0x7400)

include reads deep

end Stub

/-! ## The bootstrap -/

section Bootstrap
variable {part image : List Byte} {depth : Nat} {fails : Prop} {bios : Bios} {s t : State}

theorem StubRuns.halts (runs : StubRuns 0x0627 s) : s.step = some (.halted (s.advance 1)) := by
  have fetches := runs.placed.fetches (j := 0x27) runs.ip stubRest.sh
  exact fetches.step

theorem StubRuns.returns (runs : StubRuns 0x0628 s) : s.step = some (.next ((s.advance 2).jumpBy 0xFFFD)) := by
  have fetches := runs.placed.fetches (j := 0x28) runs.ip stubRest.wait
  exact fetches.step

theorem jumps_to_itself (disk : MakeDisk.Disk part image) (relocated : Relocated image 0x062D s)
    (failure : s.flags &&& RealMode.carryFlag ≠ 0) : s.step = some (.next ((s.advance 2).jumpBy 0xFFFE)) := by
  have placed := placed_relocated (fun _ cell => cell) (relocated.segs .cs) (code_of_sector disk relocated.sector)
  have fetches := placed.fetches (j := 0x2D) relocated.ip bootstrapRest.carry
  exact fetches.step.trans (congrArg some (if_pos failure))

/-- Nothing but the jump back ends a stop. -/
theorem Parked.turn (reads : ReadsDisk image depth fails bios) (deep : depth ≤ 0x7400) (disk : MakeDisk.Disk part image)
    (parked : Parked image s) (turn : Turn bios s t) : Parked image t := by
  have keeps : bios.Keeps sectorCells s := by
    refine reads.keeps deep ?_
    cases parked with
    | stub _ runs => exact .inr ⟨runs.segs .ss, runs.sp⟩
    | bootstrap relocated => exact .inr ⟨relocated.segs .ss, relocated.sp⟩
  have steps {c : State} (interrupts : Agree (bios.keeps s) s c) : ∃ v, Parked image v ∧
      (c.step = some (.halted v) ∨ c.step = some (.next v)) := by
    have agree := interrupts.mono keeps
    cases parked with
    | stub ip runs here =>
      have runs := runs.agree agree
      rcases here with rfl | rfl
      · have parked : StubRuns 0x0628 (c.advance 1) := ⟨runs.segs, runs.sp, congrArg (· + 1) runs.ip, runs.stub⟩
        exact ⟨_, .stub _ parked (.inr rfl), .inl runs.halts⟩
      · have parked : StubRuns 0x0627 ((c.advance 2).jumpBy 0xFFFD) := runs.jumped 2 0xFFFD
        exact ⟨_, .stub _ parked (.inl rfl), .inr runs.returns⟩
    | bootstrap relocated failure =>
      have relocated := relocated.agree (fun _ cell => cell) agree
      have failure : c.flags &&& RealMode.carryFlag ≠ 0 := by
        obtain ⟨mem, -, rfl⟩ := agree
        exact failure
      have parked : Relocated image 0x062D ((c.advance 2).jumpBy 0xFFFE) := relocated.jumped 2 0xFFFE
      refine ⟨_, .bootstrap parked ?_, .inr (jumps_to_itself disk relocated failure)⟩
      rw [State.jumpBy_flags, State.advance_flags]
      exact failure
  cases turn with
  | inside interrupts moves =>
    obtain ⟨v, parked, same | same⟩ := steps interrupts <;> cases same.symm.trans moves
    exact parked
  | called interrupts calls _ =>
    obtain ⟨v, -, same | same⟩ := steps interrupts <;> cases same.symm.trans calls.step
  | woken interrupts halts =>
    obtain ⟨v, parked, same | same⟩ := steps interrupts <;> cases same.symm.trans halts
    exact parked

end Bootstrap

section Exit
variable {part image : List Byte} {depth : Nat} {fails : Prop} {bios : Bios} {s : State}

/-- INT 19h of Easy-Setup enters the stub, with interrupts off. -/
theorem stubEntered_int19 {disk : List Byte} {n : Nat} (standing : Standing disk n s.mem)
    (room : FrameRoom (Within 0x600 42) s) : StubEntered depth (s.raise 0x19) := by
  obtain ⟨base, deep, aside⟩ := room
  have raised := RealMode.raise_eq s 0x19 0x0600 0x0000 standing.vector base deep
  have mem : (s.raise 0x19).mem = ByteMemory.write s.mem (s.address .ss (s.regs .sp) - 6) (RealMode.interruptFrame s) :=
    congrArg State.mem raised
  refine ⟨?_, congrArg State.ip raised, ?_, .inl ?_⟩
  · rw [raised]
    rfl
  · rw [mem]
    exact (ByteMemory.read_congr fun a cell => ByteMemory.write_outside _ _ _ _ (aside a cell)).trans standing.stub
  · rw [raised]
    change (s.flags &&& ~~~_) &&& _ = 0
    rw [BitVec.and_assoc]
    exact BitVec.and_zero

end Exit

end Pc110.Floppy
