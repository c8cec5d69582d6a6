import Mathlib.Data.BitVec
import Pc110.Library.ByteMemory
import Pc110.Library.LsbBits

/-! Instructions of the 8086 family in real mode: a subset, its encodings, and what it does to
registers, flags and memory. Where the processor leaves a flag undefined, a logical operation
clears AF and a division keeps what was there. -/
namespace RealMode

open LsbBits (Byte)
open ByteMemory (Memory)

inductive Reg where
  | ax | cx | dx | bx | sp | bp | si | di
  deriving DecidableEq, Repr

inductive Seg where
  | es | cs | ss | ds
  deriving DecidableEq, Repr

structure Half where
  reg : Reg
  high : Bool
  deriving DecidableEq, Repr

structure Segment where
  selector : BitVec 16
  base : BitVec 32
  deriving DecidableEq, Repr

@[ext] structure State where
  regs : Reg → BitVec 16
  segs : Seg → Segment
  ip : BitVec 16
  flags : BitVec 16
  mem : Memory Byte

inductive Place (ρ : Type) where
  | reg (r : ρ)
  | mem (seg : Seg) (off : BitVec 16)
  deriving DecidableEq, Repr

inductive Alu where
  | or | xor | add
  deriving DecidableEq, Repr

inductive Cond where
  | carry | zero
  deriving DecidableEq, Repr

inductive Instr where
  | cli | sti | cld
  | mov (dst src : Place Reg)
  | movImm (dst : Place Reg) (v : BitVec 16)
  | movByte (dst src : Place Half)
  | movByteImm (dst : Half) (v : Byte)
  | movSeg (dst : Seg) (src : Place Reg)
  | alu (op : Alu) (dst src : Place Reg)
  | aluByte (op : Alu) (dst src : Place Half)
  | addImm (dst : Place Reg) (v : BitVec 16)
  | inc (dst : Place Reg)
  | div (src : Place Reg)
  | push (r : Reg)
  | pushSeg (s : Seg)
  | pushImm (v : BitVec 16)
  | pop (r : Reg)
  | popSeg (s : Seg)
  | repMovs (src : Seg) (wide : Bool)
  | lods (src : Seg)
  | jump (rel : BitVec 16)
  | jumpIf (c : Cond) (rel : BitVec 16)
  | loop (rel : BitVec 16)
  | jumpFar (selector off : BitVec 16)
  | int (n : Byte)
  | hlt
  deriving DecidableEq, Repr

/-! ## Effects -/

def carryFlag : BitVec 16 := 0x0001
def zeroFlag : BitVec 16 := 0x0040
def trapFlag : BitVec 16 := 0x0100
def interruptFlag : BitVec 16 := 0x0200
def directionFlag : BitVec 16 := 0x0400
/-- CF, PF, AF, ZF, SF and OF. -/
def arithmeticFlags : BitVec 16 := 0x08D5

def load16 (mem : Memory Byte) (address : Nat) : BitVec 16 :=
  (mem address).setWidth 16 ||| (mem (address + 1)).setWidth 16 <<< 8

def bytes16 (v : BitVec 16) : List Byte := [v.setWidth 8, (v >>> 8).setWidth 8]

def evenParity (b : Byte) : Bool := (List.range 8).countP (fun i => b.getLsbD i) % 2 = 0

/-- The flags every arithmetic result sets. -/
def resultFlags {w : Nat} (r : BitVec w) : BitVec 16 :=
  (if r = 0 then 0x0040 else 0) ||| (if r.msb then 0x0080 else 0) |||
    (if evenParity (r.setWidth 8) then 0x0004 else 0)

def addFlags {w : Nat} (a b : BitVec w) : BitVec 16 :=
  resultFlags (a + b) ||| (if 2 ^ w ≤ a.toNat + b.toNat then 0x0001 else 0) |||
    (if (a ^^^ b ^^^ (a + b)).getLsbD 4 then 0x0010 else 0) |||
    (if a.msb = b.msb ∧ (a + b).msb ≠ a.msb then 0x0800 else 0)

def Alu.run {w : Nat} : Alu → BitVec w → BitVec w → BitVec w × BitVec 16
  | .or, a, b => (a ||| b, resultFlags (a ||| b))
  | .xor, a, b => (a ^^^ b, resultFlags (a ^^^ b))
  | .add, a, b => (a + b, addFlags a b)

def elementSize (wide : Bool) : Nat := if wide then 2 else 1

namespace State

def address (s : State) (seg : Seg) (off : BitVec 16) : Nat := ((s.segs seg).base + off.setWidth 32).toNat

/-- The linear address of the next instruction. -/
def pc (s : State) : Nat := s.address .cs s.ip

def setReg (s : State) (r : Reg) (v : BitVec 16) : State := { s with regs := Function.update s.regs r v }

def setSeg (s : State) (seg : Seg) (v : BitVec 16) : State :=
  { s with segs := Function.update s.segs seg ⟨v, v.setWidth 32 <<< 4⟩ }

def setFlags (s : State) (mask new : BitVec 16) : State :=
  { s with flags := (s.flags &&& ~~~mask) ||| (new &&& mask) }

def half (s : State) (h : Half) : Byte :=
  if h.high then (s.regs h.reg >>> 8).setWidth 8 else (s.regs h.reg).setWidth 8

def setHalf (s : State) (h : Half) (v : Byte) : State :=
  s.setReg h.reg (if h.high then (s.regs h.reg &&& 0x00FF) ||| v.setWidth 16 <<< 8
    else (s.regs h.reg &&& 0xFF00) ||| v.setWidth 16)

def get (s : State) : Place Reg → BitVec 16
  | .reg r => s.regs r
  | .mem seg off => load16 s.mem (s.address seg off)

def set (s : State) (v : BitVec 16) : Place Reg → State
  | .reg r => s.setReg r v
  | .mem seg off => { s with mem := ByteMemory.write s.mem (s.address seg off) (bytes16 v) }

def getByte (s : State) : Place Half → Byte
  | .reg h => s.half h
  | .mem seg off => s.mem (s.address seg off)

def setByte (s : State) (v : Byte) : Place Half → State
  | .reg h => s.setHalf h v
  | .mem seg off => { s with mem := ByteMemory.write s.mem (s.address seg off) [v] }

def push (s : State) (v : BitVec 16) : State :=
  let s := s.setReg .sp (s.regs .sp - 2)
  { s with mem := ByteMemory.write s.mem (s.address .ss (s.regs .sp)) (bytes16 v) }

def top (s : State) : BitVec 16 := load16 s.mem (s.address .ss (s.regs .sp))

def jumpBy (s : State) (rel : BitVec 16) : State := { s with ip := s.ip + rel }

def stride (s : State) (size : BitVec 16) : BitVec 16 := if s.flags &&& directionFlag = 0 then size else -size

/-- One element of a MOVS. The destination is in ES whatever the prefix. -/
def moveString (s : State) (src : Seg) (wide : Bool) : State :=
  let size := elementSize wide
  let data := ByteMemory.read s.mem (s.address src (s.regs .si)) size
  let s := { s with mem := ByteMemory.write s.mem (s.address .es (s.regs .di)) data }
  let s := s.setReg .si (s.regs .si + s.stride (BitVec.ofNat 16 size))
  s.setReg .di (s.regs .di + s.stride (BitVec.ofNat 16 size))

/-- An interrupt through the vector table, with the vector read first. -/
def raise (s : State) (n : Byte) : State :=
  let off := load16 s.mem (4 * n.toNat)
  let selector := load16 s.mem (4 * n.toNat + 2)
  let s := s.push s.flags
  let s := s.push (s.segs .cs).selector
  let s := s.push s.ip
  let s := s.setFlags (interruptFlag ||| trapFlag) 0
  { s.setSeg .cs selector with ip := off }

end State

/-- How an instruction ends: the next one follows, an interrupt was taken, or the processor waits. -/
inductive Outcome where
  | next (s : State)
  | raised (s : State)
  | halted (s : State)

def Cond.holds : Cond → BitVec 16 → Prop
  | .carry, flags => flags &&& carryFlag ≠ 0
  | .zero, flags => flags &&& zeroFlag ≠ 0

instance (flags : BitVec 16) : (c : Cond) → Decidable (c.holds flags)
  | .carry => inferInstanceAs (Decidable (flags &&& carryFlag ≠ 0))
  | .zero => inferInstanceAs (Decidable (flags &&& zeroFlag ≠ 0))

/-- The quotient of DX:AX, where it is one. -/
def quotient (s : State) (v : BitVec 16) : Option (Nat × Nat) :=
  let n := (s.regs .dx).toNat * 65536 + (s.regs .ax).toNat
  if v = 0 ∨ 65536 ≤ n / v.toNat then none else some (n / v.toNat, n % v.toNat)

/-- An instruction found at `start`, with IP behind it. -/
def exec (i : Instr) (start : BitVec 16) (s : State) : Outcome :=
  match i with
  | .cli => .next (s.setFlags interruptFlag 0)
  | .sti => .next (s.setFlags interruptFlag interruptFlag)
  | .cld => .next (s.setFlags directionFlag 0)
  | .mov dst src => .next (s.set (s.get src) dst)
  | .movImm dst v => .next (s.set v dst)
  | .movByte dst src => .next (s.setByte (s.getByte src) dst)
  | .movByteImm dst v => .next (s.setHalf dst v)
  | .movSeg dst src => .next (s.setSeg dst (s.get src))
  | .alu op dst src =>
    let r := op.run (s.get dst) (s.get src)
    .next ((s.set r.1 dst).setFlags arithmeticFlags r.2)
  | .aluByte op dst src =>
    let r := op.run (s.getByte dst) (s.getByte src)
    .next ((s.setByte r.1 dst).setFlags arithmeticFlags r.2)
  | .addImm dst v => .next ((s.set (s.get dst + v) dst).setFlags arithmeticFlags (addFlags (s.get dst) v))
  | .inc dst =>
    .next ((s.set (s.get dst + 1) dst).setFlags (arithmeticFlags &&& ~~~carryFlag) (addFlags (s.get dst) 1))
  | .div src =>
    match quotient s (s.get src) with
    | some (q, r) => .next ((s.setReg .ax (BitVec.ofNat 16 q)).setReg .dx (BitVec.ofNat 16 r))
    | none => .raised (State.raise { s with ip := start } 0)
  | .push r => .next (s.push (s.regs r))
  | .pushSeg seg => .next (s.push (s.segs seg).selector)
  | .pushImm v => .next (s.push v)
  | .pop r => .next ((s.setReg .sp (s.regs .sp + 2)).setReg r s.top)
  | .popSeg seg => .next ((s.setReg .sp (s.regs .sp + 2)).setSeg seg s.top)
  | .repMovs src wide =>
    if s.regs .cx = 0 then .next s
    else .next { (s.moveString src wide).setReg .cx (s.regs .cx - 1) with ip := start }
  | .lods src =>
    .next ((s.setHalf ⟨.ax, false⟩ (s.mem (s.address src (s.regs .si)))).setReg .si (s.regs .si + s.stride 1))
  | .jump rel => .next (s.jumpBy rel)
  | .jumpIf c rel => if c.holds s.flags then .next (s.jumpBy rel) else .next s
  | .loop rel =>
    let s := s.setReg .cx (s.regs .cx - 1)
    if s.regs .cx = 0 then .next s else .next (s.jumpBy rel)
  | .jumpFar selector off => .next { s.setSeg .cs selector with ip := off }
  | .int n => .raised (s.raise n)
  | .hlt => .halted s

/-! ## Encodings -/

abbrev Reader := StateT (List Byte) Option

def byte : Reader Byte
  | [] => none
  | b :: rest => some (b, rest)

def word : Reader (BitVec 16) := do
  let lo ← byte
  let hi ← byte
  pure (lo.setWidth 16 ||| hi.setWidth 16 <<< 8)

def signedByte : Reader (BitVec 16) := do
  let b ← byte
  pure (b.signExtend 16)

def Reg.numbered : Nat → Reg
  | 0 => .ax
  | 1 => .cx
  | 2 => .dx
  | 3 => .bx
  | 4 => .sp
  | 5 => .bp
  | 6 => .si
  | _ => .di

def Half.numbered (n : Nat) : Half := if n < 4 then ⟨.numbered n, false⟩ else ⟨.numbered (n - 4), true⟩

/-- The ModRM byte: a number, and a register or a direct address. -/
def modRm {ρ : Type} (numbered : Nat → ρ) (seg : Seg) : Reader (Nat × Place ρ) := do
  let b ← byte
  if b.toNat / 64 = 3 then pure (b.toNat / 8 % 8, .reg (numbered (b.toNat % 8)))
  else if b.toNat / 64 = 0 ∧ b.toNat % 8 = 6 then do
    let off ← word
    pure (b.toNat / 8 % 8, .mem seg off)
  else failure

/-- Number and operand of one of the ModRM forms, where the number selects the operation. -/
def group {ρ : Type} (numbered : Nat → ρ) (seg : Seg) (n : Nat) : Reader (Place ρ) := do
  let operand ← modRm numbered seg
  if operand.1 = n then pure operand.2 else failure

def immediate {α β : Type} (read : Reader α) (f : α → β) : Reader β := do
  let v ← read
  pure (f v)

def segNumbered : Nat → Option Seg
  | 0 => some .es
  | 2 => some .ss
  | 3 => some .ds
  | _ => none

/-- MOV to a segment register other than CS. -/
def movSeg (seg : Seg) : Reader Instr := do
  let operand ← modRm Reg.numbered seg
  match segNumbered operand.1 with
  | some dst => pure (.movSeg dst operand.2)
  | none => failure

def farPointer : Reader Instr := do
  let off ← word
  let selector ← word
  pure (.jumpFar selector off)

def immediateTo (place : Reader (Place Reg)) (read : Reader (BitVec 16)) (f : Place Reg → BitVec 16 → Instr) :
    Reader Instr := do
  let dst ← place
  let v ← read
  pure (f dst v)

def rep (seg : Seg) : Reader Instr := do
  let op ← byte
  if op = 0xA4 then pure (.repMovs seg false)
  else if op = 0xA5 then pure (.repMovs seg true)
  else failure

/-- The instruction behind its first byte, with memory operands in `seg`. -/
def opcode (seg : Seg) (op : Byte) : Reader Instr :=
  let n := op.toNat
  if 0x40 ≤ n ∧ n < 0x48 then pure (.inc (.reg (.numbered (n - 0x40))))
  else if 0x50 ≤ n ∧ n < 0x58 then pure (.push (.numbered (n - 0x50)))
  else if 0x58 ≤ n ∧ n < 0x60 then pure (.pop (.numbered (n - 0x58)))
  else if 0xB0 ≤ n ∧ n < 0xB8 then immediate byte (.movByteImm (.numbered (n - 0xB0)))
  else if 0xB8 ≤ n ∧ n < 0xC0 then immediate word (.movImm (.reg (.numbered (n - 0xB8))))
  else if op = 0x07 then pure (.popSeg .es)
  else if op = 0x08 then immediate (modRm Half.numbered seg) fun m => .aluByte .or m.2 (.reg (.numbered m.1))
  else if op = 0x1E then pure (.pushSeg .ds)
  else if op = 0x30 then immediate (modRm Half.numbered seg) fun m => .aluByte .xor m.2 (.reg (.numbered m.1))
  else if op = 0x31 then immediate (modRm Reg.numbered seg) fun m => .alu .xor m.2 (.reg (.numbered m.1))
  else if op = 0x33 then immediate (modRm Reg.numbered seg) fun m => .alu .xor (.reg (.numbered m.1)) m.2
  else if op = 0x68 then immediate word .pushImm
  else if op = 0x6A then immediate signedByte .pushImm
  else if op = 0x72 then immediate signedByte (.jumpIf .carry)
  else if op = 0x74 then immediate signedByte (.jumpIf .zero)
  else if op = 0x83 then immediateTo (group Reg.numbered seg 0) signedByte .addImm
  else if op = 0x88 then immediate (modRm Half.numbered seg) fun m => .movByte m.2 (.reg (.numbered m.1))
  else if op = 0x89 then immediate (modRm Reg.numbered seg) fun m => .mov m.2 (.reg (.numbered m.1))
  else if op = 0x8A then immediate (modRm Half.numbered seg) fun m => .movByte (.reg (.numbered m.1)) m.2
  else if op = 0x8E then movSeg seg
  else if op = 0xA1 then immediate word fun off => .mov (.reg .ax) (.mem seg off)
  else if op = 0xA2 then immediate word fun off => .movByte (.mem seg off) (.reg ⟨.ax, false⟩)
  else if op = 0xA3 then immediate word fun off => .mov (.mem seg off) (.reg .ax)
  else if op = 0xAC then pure (.lods seg)
  else if op = 0xC7 then immediateTo (group Reg.numbered seg 0) word .movImm
  else if op = 0xCD then immediate byte .int
  else if op = 0xE2 then immediate signedByte .loop
  else if op = 0xEA then farPointer
  else if op = 0xEB then immediate signedByte .jump
  else if op = 0xF3 then rep seg
  else if op = 0xF4 then pure .hlt
  else if op = 0xF7 then immediate (group Reg.numbered seg 6) .div
  else if op = 0xFA then pure .cli
  else if op = 0xFB then pure .sti
  else if op = 0xFC then pure .cld
  else if op = 0xFF then immediate (group Reg.numbered seg 0) .inc
  else failure

/-- An instruction, behind an ES prefix or none. -/
def decode : Reader Instr := do
  let op ← byte
  if op = 0x26 then do
    let op ← byte
    opcode .es op
  else opcode .ds op

/-- The longest instruction has fifteen bytes. -/
def fetched (s : State) : List Byte := ByteMemory.read s.mem s.pc 15

def State.step (s : State) : Option Outcome :=
  match decode (fetched s) with
  | some (i, rest) => some (exec i s.ip { s with ip := s.ip + BitVec.ofNat 16 (15 - rest.length) })
  | none => none

end RealMode
