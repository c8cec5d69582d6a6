import Pc110.BiosReads
import Pc110.FloppyProgram

/-! The load loop of the Easy-Setup floppy as machine code on a BIOS: its passes, and the error
message. Interrupts come between any two instructions; a read comes back with the sector in
the buffer, or with the carry flag where reads may fail. -/
namespace Pc110.Floppy

open LsbBits (Byte)
open ByteMemory (Memory Within)
open RealMode (State Instr Agree Back Fetches Glides Bios Spared Turn straight load16 bytes16 low_address low_pc)
open Inevitability (Inevitable)

/-! ## The BIOS -/

def loaderCells (a : Nat) : Prop :=
  Within 0x64 4 a ∨ Within 0x600 42 a ∨ Within 0x7C00 512 a ∨ Within 0x50000 (512 * sectors) a

/-- With the stack words of the loop and of the entry to Easy-Setup. -/
def programCells (a : Nat) : Prop := loaderCells a ∨ Within 0x7BFE 2 a ∨ Within 0x9FFFA 4 a

def AsksForVideo (s : State) : Prop := s.regs .ax = 0x0012 ∨ s.half ⟨.ax, true⟩ = 0x0E

/-- What the loader counts on: sectors of drive 0, and a screen. -/
structure Provides (disk : List Byte) (depth : Nat) (fails : Prop) (bios : Bios) : Prop
    extends ReadsSectors programCells 0x00 2 18 disk depth fails bios where
  videos : ∀ s, AsksForVideo s → ∃ t, bios.serves 0x10 s t
  video : ∀ s t, AsksForVideo s → bios.serves 0x10 s t → Back programCells depth (fun _ => False) s t

/-! ## States -/

/-- What the loader has put in place, with `n` sectors read. -/
structure Standing (disk : List Byte) (n : Nat) (mem : Memory Byte) : Prop where
  text : ByteMemory.read mem 0x7C00 237 = program ++ errmsg
  stub : ByteMemory.read mem 0x600 42 = exitStub
  vector : ByteMemory.read mem 0x64 4 = bytes16 0x0600 ++ bytes16 0x0000
  image : ByteMemory.read mem 0x50000 (512 * n) = (disk.drop 512).take (512 * n)

structure Low (s : State) : Prop where
  cs : s.segs .cs = ⟨0, 0⟩
  ds : s.segs .ds = ⟨0, 0⟩
  ss : s.segs .ss = ⟨0, 0⟩

structure Flat (s : State) : Prop extends Low s where
  forward : s.flags &&& RealMode.directionFlag = 0

structure Counters (k : Nat) (mem : Memory Byte) : Prop where
  curSeg : load16 mem 0x7CF0 = BitVec.ofNat 16 (0x5000 + 0x20 * k)
  lba : load16 mem 0x7CF2 = BitVec.ofNat 16 (1 + k)

/-- Behind `k` sectors: at `.rd`, or behind the loop. -/
structure Reading (disk : List Byte) (k : Nat) (s : State) : Prop where
  flat : Flat s
  sp : s.regs .sp = 0x7C00
  ip : s.ip = if k < sectors then 0x7C3C else 0x7C88
  cx : s.regs .cx = BitVec.ofNat 16 (sectors - k)
  standing : Standing disk k s.mem
  counters : Counters k s.mem

/-- In pass `k`, with the count on the stack and `n` sectors in place. -/
structure InPass (disk : List Byte) (k n : Nat) (s : State) : Prop where
  flat : Flat s
  sp : s.regs .sp = 0x7BFE
  count : load16 s.mem 0x7BFE = BitVec.ofNat 16 (sectors - k)
  standing : Standing disk n s.mem
  counters : Counters k s.mem

def passCells (a : Nat) : Prop := loaderCells a ∨ Within 0x7BFE 2 a

section Frames
variable {disk : List Byte} {k n : Nat} {mem mem' : Memory Byte} {s t : State}

/-- The counters are no part of what stands. -/
theorem Standing.congr (standing : Standing disk n mem) (few : n ≤ sectors)
    (same : ∀ a, loaderCells a → ¬ Within 0x7CED 7 a → a < 0x50000 + 512 * n → mem' a = mem a) :
    Standing disk n mem' := by
  have few : n ≤ 454 := few
  refine ⟨?_, ?_, ?_, ?_⟩
  · refine (ByteMemory.read_congr fun a cell => ?_).trans standing.text
    obtain ⟨low, high⟩ := cell
    exact same a (.inr (.inr (.inl ⟨by omega, by omega⟩))) (fun aside => by have := aside.1; omega) (by omega)
  · refine (ByteMemory.read_congr fun a cell => ?_).trans standing.stub
    obtain ⟨low, high⟩ := cell
    exact same a (.inr (.inl ⟨low, high⟩)) (fun aside => by have := aside.1; omega) (by omega)
  · refine (ByteMemory.read_congr fun a cell => ?_).trans standing.vector
    obtain ⟨low, high⟩ := cell
    exact same a (.inl ⟨low, high⟩) (fun aside => by have := aside.1; omega) (by omega)
  · refine (ByteMemory.read_congr fun a cell => ?_).trans standing.image
    obtain ⟨low, high⟩ := cell
    refine same a (.inr (.inr (.inr ⟨low, ?_⟩))) (fun aside => by have := aside.2; omega) high
    rw [sectors]
    omega

theorem Counters.congr (counters : Counters k mem) (same : ∀ a, Within 0x7CF0 4 a → mem' a = mem a) :
    Counters k mem' := by
  refine ⟨(RealMode.load16_same fun a cell => same a ?_).trans counters.curSeg,
    (RealMode.load16_same fun a cell => same a ?_).trans counters.lba⟩
  · exact ⟨cell.1, by have := cell.2; omega⟩
  · exact ⟨by have := cell.1; omega, cell.2⟩

theorem loaderCells_counters (a : Nat) (cell : Within 0x7CED 7 a) : loaderCells a := by
  obtain ⟨low, high⟩ := cell
  exact .inr (.inr (.inl ⟨by omega, by omega⟩))

theorem loaderCells_text (j size : Nat) (inside : j + size ≤ 237) (a : Nat) (cell : Within (0x7C00 + j) size a) :
    loaderCells a := by
  obtain ⟨low, high⟩ := cell
  exact .inr (.inr (.inl ⟨by omega, by omega⟩))

theorem Flat.agree {P : Nat → Prop} (flat : Flat s) (agree : Agree P s t) : Flat t := by
  obtain ⟨mem, -, rfl⟩ := agree
  exact ⟨⟨flat.cs, flat.ds, flat.ss⟩, flat.forward⟩

theorem Reading.agree (reading : Reading disk k s) (few : k ≤ sectors) (agree : Agree loaderCells s t) :
    Reading disk k t := by
  have flat := reading.flat.agree agree
  obtain ⟨mem, same, rfl⟩ := agree
  refine ⟨flat, reading.sp, reading.ip, reading.cx, reading.standing.congr few fun a cell _ _ => same a cell, ?_⟩
  exact reading.counters.congr fun a cell =>
    same a (loaderCells_counters a ⟨by have := cell.1; omega, by have := cell.2; omega⟩)

theorem InPass.agree (inPass : InPass disk k n s) (few : n ≤ sectors) (agree : Agree passCells s t) :
    InPass disk k n t := by
  have flat := inPass.flat.agree agree
  obtain ⟨mem, same, rfl⟩ := agree
  refine ⟨flat, inPass.sp, ?_, inPass.standing.congr few fun a cell _ _ => same a (.inl cell), ?_⟩
  · exact (RealMode.load16_same fun a cell => same a (.inr cell)).trans inPass.count
  · exact inPass.counters.congr fun a cell =>
      same a (.inl (loaderCells_counters a ⟨by have := cell.1; omega, by have := cell.2; omega⟩))

end Frames

/-! ## One pass -/

section Pass
variable {disk : List Byte} {depth : Nat} {fails : Prop} {bios : Bios} {j k n lo hi : Nat} {s t : State}
  {code : List (List Byte × Instr)}

theorem stack_top (ss : s.segs .ss = ⟨0, 0⟩) : s.address .ss (s.regs .sp) = (s.regs .sp).toNat := low_address ss _

theorem Provides.keeps_loader (provides : Provides disk depth fails bios) (deep : depth ≤ 0x75D4)
    (ss : s.segs .ss = ⟨0, 0⟩) (low : 0x7BFE ≤ (s.regs .sp).toNat) (high : (s.regs .sp).toNat ≤ 0x7C00) :
    bios.Keeps loaderCells s := by
  refine fun a cell => provides.spares s a (.inl cell) fun below => ?_
  rw [stack_top ss] at below
  obtain ⟨first, last⟩ := below
  rcases cell with ⟨_, _⟩ | ⟨_, _⟩ | ⟨_, _⟩ | ⟨_, _⟩ <;> omega

theorem Provides.keeps_pass (provides : Provides disk depth fails bios) (deep : depth ≤ 0x75D4)
    (ss : s.segs .ss = ⟨0, 0⟩) (sp : s.regs .sp = 0x7BFE) : bios.Keeps passCells s := by
  have top : (s.regs .sp).toNat = 0x7BFE := congrArg BitVec.toNat sp
  rintro a (cell | ⟨low, high⟩)
  · exact provides.keeps_loader deep ss (by omega) (by omega) a cell
  · refine provides.spares s a (.inr (.inl ⟨low, high⟩)) fun below => ?_
    rw [stack_top ss] at below
    obtain ⟨first, last⟩ := below
    omega

theorem placed_text {P : Nat → Prop} (cs : s.segs .cs = ⟨0, 0⟩)
    (text : ByteMemory.read s.mem 0x7C00 237 = program ++ errmsg) (cells : ∀ a, loaderCells a → P a) :
    RealMode.Placed P (program ++ errmsg) 0x7C00 s := by
  refine ⟨cs, ?_, ?_, ?_⟩
  all_goals rw [text_length]
  · exact text
  · decide
  · exact fun a cell => cells a (loaderCells_text 0 237 (by decide) a cell)

theorem fetches_text {bytes : List Byte} {i : Instr} (cs : s.segs .cs = ⟨0, 0⟩)
    (text : ByteMemory.read s.mem 0x7C00 237 = program ++ errmsg) (stands : Stands j bytes i)
    (ip : s.ip = BitVec.ofNat 16 (0x7C00 + j)) : Fetches s bytes i :=
  (placed_text cs text fun _ cell => cell).fetches ip stands

theorem Low.behind (low : Low s) (between : RealMode.Encoded (Instr.between .ds lo hi) code)
    (ip : s.ip = BitVec.ofNat 16 (0x7C00 + j)) : Low (straight code s) ∧ (straight code s).regs .sp = s.regs .sp ∧
      (straight code s).ip = BitVec.ofNat 16 (0x7C00 + (j + (code.flatMap Prod.fst).length)) := by
  obtain ⟨cs, behind⟩ := RealMode.straight_follows code (between.mono fun _ => RealMode.between_plain) s
  obtain ⟨kept, -⟩ := RealMode.between_straight code between s (by rw [low.ds]; decide)
  refine ⟨⟨cs.trans low.cs, kept.data.trans low.ds, kept.stack.trans low.ss⟩, kept.sp, ?_⟩
  rw [behind, ip, ← BitVec.ofNat_add, Nat.add_assoc]

theorem Flat.behind (flat : Flat s) (between : RealMode.Encoded (Instr.between .ds lo hi) code)
    (ip : s.ip = BitVec.ofNat 16 (0x7C00 + j)) : Flat (straight code s) ∧ (straight code s).regs .sp = s.regs .sp ∧
      (straight code s).ip = BitVec.ofNat 16 (0x7C00 + (j + (code.flatMap Prod.fst).length)) := by
  obtain ⟨low, behind⟩ := flat.toLow.behind between ip
  refine ⟨⟨low, ?_⟩, behind⟩
  exact RealMode.straight_flags code (between.mono fun _ => RealMode.between_calm) (by decide) flat.forward

theorem Low.glides {P : Nat → Prop} {C : State → Prop} (low : Low s)
    (text : ByteMemory.read s.mem 0x7C00 237 = program ++ errmsg)
    (between : RealMode.Encoded (Instr.between .ds 0x7CED 0x7CF4) code) (placed : InProgram j code)
    (ip : s.ip = BitVec.ofNat 16 (0x7C00 + j)) (cells : ∀ a, loaderCells a → P a)
    (all : ∀ t, t.segs .ss = s.segs .ss → t.regs .sp = s.regs .sp → C t) : Glides P C s (straight code s) := by
  have inside := RealMode.slice_inside placed.1 placed.2
  rw [text_length] at inside
  exact (placed_text low.cs text cells).between ip placed between low.ds
    (fun a cell => cells a (loaderCells_counters a cell)) (.inl (by omega)) fun t _ => all t

theorem step_text {P : Nat → Prop} {C : State → Prop} {bytes : List Byte} {i : Instr} (cs : s.segs .cs = ⟨0, 0⟩)
    (text : ByteMemory.read s.mem 0x7C00 237 = program ++ errmsg) (stands : Stands j bytes i)
    (ip : s.ip = BitVec.ofNat 16 (0x7C00 + j)) (cells : ∀ a, loaderCells a → P a) (before : C s)
    (reads : ∀ a, i.Reads (s.advance bytes.length) a → P a)
    (next : RealMode.exec i s.ip (s.advance bytes.length) = .next t) : Glides P C s t :=
  (placed_text cs text cells).step ip stands before reads next

theorem InPass.moved (inPass : InPass disk k n s) (few : n ≤ sectors) (flat : Flat t)
    (sp : t.regs .sp = s.regs .sp) (mem : ∀ a, ¬ Within 0x7CED 3 a → t.mem a = s.mem a) : InPass disk k n t := by
  refine ⟨flat, sp.trans inPass.sp, ?_, inPass.standing.congr few fun a _ out _ => mem a fun cell => out ?_, ?_⟩
  · refine (RealMode.load16_same fun a cell => mem a fun out => ?_).trans inPass.count
    obtain ⟨low, high⟩ := cell
    have := out.1
    omega
  · exact ⟨cell.1, by have := cell.2; omega⟩
  · refine inPass.counters.congr fun a cell => mem a fun out => ?_
    have := cell.1
    have := out.2
    omega

structure Asking (disk : List Byte) (k : Nat) (s : State) : Prop where
  inPass : InPass disk k k s
  ip : s.ip = 0x7C74
  asks : AsksForSector 0x00 2 18 s (1 + k)
  buffer : readBuffer s = 0x50000 + 512 * k

theorem Asking.agree (asking : Asking disk k s) (few : k ≤ sectors) (agree : Agree passCells s t) : Asking disk k t := by
  have inPass := asking.inPass.agree few agree
  obtain ⟨mem, -, rfl⟩ := agree
  exact ⟨inPass, asking.ip, ⟨asking.asks.1, asking.asks.2, asking.asks.3, asking.asks.4, asking.asks.5, asking.asks.6,
    asking.asks.7⟩, asking.buffer⟩

theorem InPass.jumped (inPass : InPass disk k n s) (ip : BitVec 16) : InPass disk k n { s with ip := ip } :=
  ⟨⟨⟨inPass.flat.cs, inPass.flat.ds, inPass.flat.ss⟩, inPass.flat.forward⟩, inPass.sp, inPass.count, inPass.standing,
    inPass.counters⟩

section Address
variable {C : State → Prop} (all : ∀ t, t.segs .ss = ⟨0, 0⟩ → t.regs .sp = 0x7BFE → C t) (few : n ≤ sectors)

include all

/-- A listing of a pass runs, and the pass goes on behind it. -/
theorem InPass.glides (inPass : InPass disk k n s) (between : RealMode.Encoded (Instr.between .ds 0x7CED 0x7CF4) code)
    (placed : InProgram j code) (ip : s.ip = BitVec.ofNat 16 (0x7C00 + j)) :
    Glides passCells C s (straight code s) :=
  inPass.flat.glides inPass.standing.text between placed ip (fun _ cell => .inl cell)
    fun t ss sp => all t (ss.trans inPass.flat.ss) (sp.trans inPass.sp)

theorem InPass.step {bytes : List Byte} {i : Instr} (inPass : InPass disk k n s) (stands : Stands j bytes i)
    (ip : s.ip = BitVec.ofNat 16 (0x7C00 + j)) (reads : ∀ a, i.Reads (s.advance bytes.length) a → passCells a)
    (next : RealMode.exec i s.ip (s.advance bytes.length) = .next t) : Glides passCells C s t :=
  step_text inPass.flat.cs inPass.standing.text stands ip (fun _ cell => .inl cell) (all s inPass.flat.ss inPass.sp) reads next

include few

end Address

/-- A service that stores behind the sectors in place. -/
theorem InPass.back {stores : Nat → Prop} (inPass : InPass disk k n s) (few : n ≤ sectors) (deep : depth ≤ 0x75D4)
    (back : Back programCells depth stores s t) (behind : ∀ a, stores a → 0x50000 + 512 * n ≤ a) : InPass disk k n t := by
  have top : (s.regs .sp).toNat = 0x7BFE := congrArg BitVec.toNat inPass.sp
  have spared (a : Nat) (out : a < 0x62A ∨ 0x7BFE ≤ a) : Spared depth s a := by
    rintro ⟨low, high⟩
    rw [stack_top inPass.flat.ss] at low high
    omega
  have same (a : Nat) (cell : passCells a) (before : a < 0x50000 + 512 * n) : t.mem a = s.mem a := by
    refine back.mem a (cell.imp_right .inl) (spared a ?_) fun stored => Nat.not_le.mpr before (behind a stored)
    rcases cell with (⟨_, _⟩ | ⟨_, _⟩ | ⟨_, _⟩ | ⟨_, _⟩) | ⟨_, _⟩ <;> omega
  refine ⟨⟨⟨?_, ?_, ?_⟩, back.forward.trans inPass.flat.forward⟩, back.sp.trans inPass.sp, ?_, ?_, ?_⟩
  · exact (congrFun back.segs .cs).trans inPass.flat.cs
  · exact (congrFun back.segs .ds).trans inPass.flat.ds
  · exact (congrFun back.segs .ss).trans inPass.flat.ss
  · refine (RealMode.load16_same fun a cell => same a (.inr cell) ?_).trans inPass.count
    have := cell.2
    omega
  · exact inPass.standing.congr few fun a cell _ before => same a (.inl cell) before
  · refine inPass.counters.congr fun a cell => same a (.inl (loaderCells_counters a ?_)) ?_
    · exact ⟨by have := cell.1; omega, by have := cell.2; omega⟩
    · have := cell.2
      omega

theorem Standing.next {mem : Memory Byte} (standing : Standing disk n mem)
    (sector : ByteMemory.read mem (0x50000 + 512 * n) 512 = Int13.sectorAt disk (1 + n)) : Standing disk (n + 1) mem := by
  refine ⟨standing.text, standing.stub, standing.vector, ?_⟩
  rw [Nat.mul_succ, ByteMemory.read_add, standing.image, sector]
  exact sectorAt_append disk n

structure Counted (disk : List Byte) (k : Nat) (s : State) : Prop where
  flat : Flat s
  sp : s.regs .sp = 0x7C00
  ip : s.ip = 0x7C86
  cx : s.regs .cx = BitVec.ofNat 16 (sectors - k)
  standing : Standing disk (k + 1) s.mem
  counters : Counters (k + 1) s.mem

theorem Counters.next {mem : Memory Byte} (counters : Counters k mem) : Counters (k + 1)
    (ByteMemory.write (ByteMemory.write mem 0x7CF0 (bytes16 (load16 mem 0x7CF0 + 0x20))) 0x7CF2
      (bytes16 (load16 (ByteMemory.write mem 0x7CF0 (bytes16 (load16 mem 0x7CF0 + 0x20))) 0x7CF2 + 1))) := by
  refine ⟨?_, ?_⟩
  · rw [RealMode.load16_write_apart _ _ (.inl (by decide)), RealMode.load16_write, counters.curSeg]
    change BitVec.ofNat 16 _ + BitVec.ofNat 16 0x20 = _
    rw [← BitVec.ofNat_add, Nat.add_assoc, Nat.mul_succ]
  · rw [RealMode.load16_write, RealMode.load16_write_apart _ _ (.inr (by decide)), counters.lba]
    change BitVec.ofNat 16 _ + BitVec.ofNat 16 1 = _
    rw [← BitVec.ofNat_add, Nat.add_assoc]

end Pass

/-! ## The error message -/

section Message
variable {disk : List Byte} {depth : Nat} {fails : Prop} {bios : Bios} {j k i : Nat} {s t : State}

structure Printing (disk : List Byte) (k i : Nat) (s : State) : Prop where
  inPass : InPass disk k k s
  ip : s.ip = 0x7CAA
  si : s.regs .si = BitVec.ofNat 16 (0x7CE2 + i)

structure Stopped (disk : List Byte) (k : Nat) (s : State) : Prop where
  inPass : InPass disk k k s
  ip : s.ip = 0x7CB5

theorem Printing.agree (printing : Printing disk k i s) (few : k ≤ sectors) (agree : Agree passCells s t) :
    Printing disk k i t := by
  have inPass := printing.inPass.agree few agree
  obtain ⟨mem, -, rfl⟩ := agree
  exact ⟨inPass, printing.ip, printing.si⟩

theorem Stopped.agree (stopped : Stopped disk k s) (few : k ≤ sectors) (agree : Agree passCells s t) :
    Stopped disk k t := by
  have inPass := stopped.inPass.agree few agree
  obtain ⟨mem, -, rfl⟩ := agree
  exact ⟨inPass, stopped.ip⟩

section Glides
variable {C : State → Prop} (all : ∀ t, t.segs .ss = ⟨0, 0⟩ → t.regs .sp = 0x7BFE → C t)

include all

end Glides

structure Waiting (disk : List Byte) (k : Nat) (s : State) : Prop where
  inPass : InPass disk k k s
  ip : s.ip = 0x7CB5 ∨ s.ip = 0x7CB6

theorem InPass.halts (inPass : InPass disk k n s) (ip : s.ip = 0x7CB5) : s.step = some (.halted (s.advance 1)) :=
  (fetches_text inPass.flat.cs inPass.standing.text rest.h ip).step

theorem InPass.returns (inPass : InPass disk k n s) (ip : s.ip = 0x7CB6) :
    s.step = some (.next ((s.advance 2).jumpBy 0xFFFD)) :=
  (fetches_text inPass.flat.cs inPass.standing.text rest.wait ip).step

/-- An interrupt ends the wait for the jump back alone. -/
theorem Waiting.turn (provides : Provides disk depth fails bios) (deep : depth ≤ 0x75D4) (few : k ≤ sectors)
    (waiting : Waiting disk k s) (turn : Turn bios s t) : Waiting disk k t := by
  have keeps := provides.keeps_pass deep waiting.inPass.flat.ss waiting.inPass.sp
  have steps {c : State} (interrupts : Agree (bios.keeps s) s c) : ∃ v, Waiting disk k v ∧
      (c.step = some (.halted v) ∨ c.step = some (.next v)) := by
    have inPass := waiting.inPass.agree few (interrupts.mono keeps)
    have ip : c.ip = 0x7CB5 ∨ c.ip = 0x7CB6 := by
      obtain ⟨mem, -, rfl⟩ := interrupts
      exact waiting.ip
    rcases ip with ip | ip
    · refine ⟨c.advance 1, ⟨inPass.jumped _, .inr ?_⟩, .inl (inPass.halts ip)⟩
      change c.ip + 1 = 0x7CB6
      rw [ip]
      rfl
    · refine ⟨(c.advance 2).jumpBy 0xFFFD, ⟨inPass.jumped _, .inl ?_⟩, .inr (inPass.returns ip)⟩
      change c.ip + 2 + 0xFFFD = 0x7CB5
      rw [ip]
      rfl
  cases turn with
  | inside interrupts moves =>
    obtain ⟨v, waits, same | same⟩ := steps interrupts <;> cases same.symm.trans moves
    exact waits
  | called interrupts calls _ =>
    obtain ⟨v, -, same | same⟩ := steps interrupts <;> cases same.symm.trans calls.step
  | woken interrupts halts =>
    obtain ⟨v, waits, same | same⟩ := steps interrupts <;> cases same.symm.trans halts
    exact waits

end Message

/-! ## Runs -/

section Requests
variable {s t : State}

theorem AsksForVideo.congr (asks : AsksForVideo s) (same : t.regs = s.regs) : AsksForVideo t :=
  asks.imp (fun ax => (congrFun same .ax).trans ax) fun ah => (RealMode.half_congr same _).trans ah

end Requests

section Turns
variable {disk : List Byte} {k : Nat} {s : State}

theorem Reading.pushed (reading : Reading disk k s) (few : k < sectors) :
    InPass disk k k ((s.advance 1).push (s.regs .cx)) ∧ ((s.advance 1).push (s.regs .cx)).ip = 0x7C3D := by
  have place : s.address .ss (s.regs .sp - 2) = 0x7BFE := by
    rw [low_address reading.flat.ss, reading.sp]
    rfl
  have mem : ((s.advance 1).push (s.regs .cx)).mem = ByteMemory.write s.mem 0x7BFE (bytes16 (s.regs .cx)) :=
    congrArg (ByteMemory.write s.mem · (bytes16 (s.regs .cx))) place
  have elsewhere (a : Nat) (out : a < 0x7BFE ∨ 0x7C00 ≤ a) : ((s.advance 1).push (s.regs .cx)).mem a = s.mem a := by
    rw [mem]
    refine ByteMemory.write_outside _ _ _ _ fun cell => ?_
    have size : (bytes16 (s.regs .cx)).length = 2 := rfl
    obtain ⟨low, high⟩ := cell
    omega
  refine ⟨⟨⟨⟨reading.flat.cs, reading.flat.ds, reading.flat.ss⟩, reading.flat.forward⟩, ?_, ?_, ?_, ?_⟩, ?_⟩
  · change s.regs .sp - 2 = 0x7BFE
    rw [reading.sp]
    rfl
  · rw [mem, RealMode.load16_write, reading.cx]
  · refine reading.standing.congr few.le fun a cell _ _ => elsewhere a ?_
    rcases cell with ⟨_, _⟩ | ⟨_, _⟩ | ⟨_, _⟩ | ⟨_, _⟩ <;> omega
  · exact reading.counters.congr fun a cell => elsewhere a (.inr (by have := cell.1; omega))
  · change s.ip + 1 = 0x7C3D
    rw [reading.ip, if_pos few]
    rfl

end Turns

section Runs
variable {disk : List Byte} {depth : Nat} {fails : Prop} {bios : Bios} {i j k n : Nat} {s : State} {Q : State → Prop}
  (provides : Provides disk depth fails bios) (deep : depth ≤ 0x75D4)

include provides deep

theorem InPass.call {v : Byte} {c : State} (inPass : InPass disk k n s) (stands : Stands j [0xCD, v] (.int v))
    (ip : s.ip = BitVec.ofNat 16 (0x7C00 + j)) (holds : Agree passCells s c)
    (answers : ∀ c, Agree passCells s c → ∃ t, bios.serves v (c.advance 2) t)
    (next : ∀ c t, Agree passCells s c → bios.serves v (c.advance 2) t → Inevitable (Turn bios) Q t) :
    Inevitable (Turn bios) Q c := by
  have placed := placed_text (P := passCells) inPass.flat.cs inPass.standing.text fun _ cell => .inl cell
  exact RealMode.call_inevitable (placed.fetches ip stands) (placed.instruction ip stands)
    (provides.keeps_pass deep inPass.flat.ss inPass.sp) holds answers next

end Runs

end Pc110.Floppy
