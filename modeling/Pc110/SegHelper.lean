import Pc110.Cpu
import Pc110.Library.Faulting
import Pc110.Library.WrapMemory

/-! Protected mode in `seg_helper.c` as patched for loose PM: how selectors resolve, how an
interrupt is delivered, how a far return or IRET pops its frame. Memory is linear memory,
any access to which may page-fault, and a fault gives back EIP and the condition codes of the
instruction only where the access was given a return address. What stock QEMU does on paths the
patch leaves alone is a parameter. -/
namespace Pc110.SegHelper

open LsbBits (Byte)
open WrapMemory (Cells)

inductive Fault where
  /-- `EXCP0D_GPF` -/
  | gpf (code : Word)
  /-- `EXCP0B_NOSEG` -/
  | noSeg (code : Word)
  | page (address : Word)
  deriving DecidableEq, Repr, Inhabited

/-- Linear memory and who may access it. Page tables do not change under a helper. -/
structure Linear where
  cells : Cells 32 Byte
  readable : BitVec 2 → Word → Bool
  writable : BitVec 2 → Word → Bool
  reads_written : ∀ pl a, writable pl a = true → readable pl a = true

/-- What `cpu_restore_state` gives back at an instruction. A block stores neither EIP nor the
operation of its condition codes before it has to. -/
structure InsnStart where
  eip : Word
  ccOp : CcOp
  deriving DecidableEq, Repr

structure Sys where
  env : Env
  mem : Linear
  /-- PC110POST is set. -/
  post : Bool
  /-- `pc110_booted` -/
  booted : Bool
  insn : InsnStart := ⟨env.eip, env.ccOp⟩

/-- The return address an access is given: with 0 a fault restores nothing. -/
inductive RetAddr where
  | zero | getpc
  deriving DecidableEq, Repr

/-- The state at the beginning of the instruction. -/
def Sys.unwound (s : Sys) : Sys :=
  { s with env := { s.env with eip := s.insn.eip, ccOp := s.insn.ccOp } }

/-- `cpu_loop_exit_restore` -/
def Sys.exitRestore (s : Sys) : RetAddr → Sys
  | .zero => s
  | .getpc => s.unwound

abbrev Helper (α : Type) := EStateM Fault Sys α

def descG : Word := 1 <<< 23
def descB : Word := 1 <<< 22
def descP : Word := 1 <<< 15
def descS : Word := 1 <<< 12
def descCs : Word := 1 <<< 11
def descC : Word := 1 <<< 10
def descR : Word := 1 <<< 9
def descW : Word := 1 <<< 9
def descA : Word := 1 <<< 8

def tfMask : Word := 0x100
def ifMask : Word := 0x200
def iopl3 : Word := 0x3000
def ntMask : Word := 0x4000
def rfMask : Word := 0x10000
def vmMask : Word := 0x20000
def acMask : Word := 0x40000
def idMask : Word := 0x200000

section Access
variable (pl : BitVec 2) (a : Word)

/-- The first of `count` cells that an access may not touch. -/
def denied (allowed : Word → Bool) (count : Nat) : Option Word :=
  ((List.range count).map fun i => a + BitVec.ofNat 32 i).find? fun p => !allowed p

def readCells (count : Nat) (ra : RetAddr) : Helper (List Byte) := fun s =>
  match denied a (s.mem.readable pl) count with
  | some p => .error (.page p) (s.exitRestore ra)
  | none => .ok (WrapMemory.load s.mem.cells a count) s

def writeCells (data : List Byte) (ra : RetAddr) : Helper Unit := fun s =>
  match denied a (s.mem.writable pl) data.length with
  | some p => .error (.page p) (s.exitRestore ra)
  | none => .ok () { s with mem := { s.mem with cells := WrapMemory.store s.mem.cells a data } }

/-- `cpu_ldl_kernel_ra` -/
def ldlKernel (ra : RetAddr) : Helper Word := do
  let data ← readCells 0 a 4 ra
  return BitVec.ofNat 32 (LsbBits.value data)

end Access

structure StackAccess where
  ra : RetAddr
  sp : Word
  spMask : Word
  ssBase : Word
  pl : BitVec 2

def getSpMask (flags : Word) : Word := if flags &&& descB ≠ 0 then 0xFFFFFFFF else 0xFFFF

def StackAccess.of (env : Env) (ra : RetAddr := .zero) : StackAccess where
  ra
  sp := env.regs .esp
  spMask := getSpMask (env.segs .ss).flags
  ssBase := (env.segs .ss).base
  pl := env.cpl

namespace StackAccess
variable (size : Nat) (sa : StackAccess)

/-- `pushw` and `pushl`, by the bytes pushed. -/
def push (val : Word) : Helper StackAccess := do
  let sp := sa.sp - BitVec.ofNat 32 size
  writeCells sa.pl (WrapMemory.place sa.ssBase sa.spMask sp) (LsbBits.bytes size val.toNat) sa.ra
  return { sa with sp }

/-- `popw` and `popl`. -/
def pop : Helper (Word × StackAccess) := do
  let data ← readCells sa.pl (WrapMemory.place sa.ssBase sa.spMask sa.sp) size sa.ra
  return (BitVec.ofNat 32 (LsbBits.value data), { sa with sp := sa.sp + BitVec.ofNat 32 size })

end StackAccess

def raiseExceptionErrRa {α : Type} (e : Fault) (ra : RetAddr) : Helper α := fun s => .error e (s.exitRestore ra)

/-- The bytes of an operand: words for shift 0, doublewords for shift 1. -/
def operand (shift : Nat) : Nat := if shift = 1 then 4 else 2

def setEsp (env : Env) (val mask : Word) : Env :=
  env.setReg .esp ((env.regs .esp &&& ~~~mask) ||| (val &&& mask))

def getSegBase (e1 e2 : Word) : Word := (e1 >>> 16) ||| ((e2 &&& 0xFF) <<< 16) ||| (e2 &&& 0xFF000000)

def getSegLimit (e1 e2 : Word) : Word :=
  let limit := (e1 &&& 0xFFFF) ||| (e2 &&& 0x000F0000)
  if e2 &&& descG ≠ 0 then (limit <<< 12) ||| 0xFFF else limit

/-- `cpu_x86_load_seg_cache`; the CPL is the DPL of SS. -/
def loadSegCache (env : Env) (seg : Seg) (cache : SegmentCache) : Env :=
  { env with
    segs := Function.update env.segs seg cache
    cpl := if seg = .ss then (cache.flags >>> 13).setWidth 2 else env.cpl }

/-- `cpu_load_eflags` -/
def loadEflags (env : Env) (eflags mask : Word) : Env :=
  { env with
    ccSrc := eflags &&& pcCcMask
    ccOp := .eflags
    df := 1 - 2 * ((eflags >>> 10) &&& 1)
    eflags := (env.eflags &&& ~~~mask) ||| (eflags &&& mask) ||| 0x2 }

def table (env : Env) (selector : Word) : SegmentCache :=
  if selector &&& 4 ≠ 0 then env.ldt else env.gdt

def index (selector : Word) : Word := selector &&& ~~~7

/-- The two words of the descriptor at an index within the table. -/
def descriptorAt (env : Env) (selector : Word) (ra : RetAddr) : Helper (Word × Word) := do
  let ptr := (table env selector).base + index selector
  let e1 ← ldlKernel ptr ra
  let e2 ← ldlKernel (ptr + 4) ra
  return (e1, e2)

/-- `load_segment`: `none` for an index out of the table's limit. -/
def loadSegment (selector : Word) : Helper (Option (Word × Word)) := do
  let s ← get
  if (table s.env selector).limit < index selector + 7 then return none
  else return some (← descriptorAt s.env selector .zero)

def pc110LoosePm (s : Sys) : Bool := s.post && s.booted

def pc110LooseBase (selector : Word) : Word :=
  let selector := selector &&& 0xFFFF
  if selector = 0x0040 then 0x000F0000
  else if selector = 0x0038 ∨ selector = 0x0048 then 0x00000000
  else selector <<< 4

structure Resolved where
  base : Word
  limit : Word
  flags : Word
  deriving DecidableEq, Repr

def accessByte (e2 : Word) : Word := (e2 >>> 8) &&& 0xFF

def pc110ResolveSeg (selector : Word) (isCode : Bool) : Helper Resolved := do
  let s ← get
  let fallback : Resolved :=
    { base := pc110LooseBase selector
      limit := 0xFFFF
      flags := descP ||| descS ||| descA ||| (if isCode then descCs ||| descR else descW) }
  if selector &&& 0xFFFC ≠ 0 ∧ index selector + 7 ≤ (table s.env selector).limit then
    let (e1, e2) ← descriptorAt s.env selector .zero
    if accessByte e2 ≠ 0 then
      return { base := getSegBase e1 e2, limit := getSegLimit e1 e2, flags := e2 ||| descP }
    else return fallback
  else return fallback

/-- The descriptor of a selector without one, in loose PM. -/
def pc110SynthDesc (s : Sys) (selector : Word) (isCode : Bool) : Option (Word × Word) :=
  if ¬ pc110LoosePm s then none
  else
    let base := pc110LooseBase selector
    some (((base &&& 0xFFFF) <<< 16) ||| 0xFFFF,
      ((base >>> 16) &&& 0xFF) ||| (base &&& 0xFF000000) ||| descP ||| descS ||| descA |||
        ((selector &&& 3) <<< 13) ||| (if isCode then descCs ||| descR else descW))

/-- Stock QEMU where the patch leaves it alone: which exceptions have an error code, which
are faults, task gates, delivery to an inner level, and returns that are not loose. -/
structure StockSeg where
  cc : Stock
  exceptionHasErrorCode : Nat → Bool
  exceptionIsFault : Nat → Bool
  taskGate : (intno : Nat) → (gate : Word × Word) → Helper Unit
  toInner : (intno : Nat) → (gate descriptor : Word × Word) → Helper Unit
  retProtected : (shift : Nat) → (isIret : Bool) → (addend : Word) → Helper Unit
  deriving Inhabited

def gateType (g2 : Word) : Word := (g2 >>> 8) &&& 0x1F

def descDpl (e2 : Word) : BitVec 2 := (e2 >>> 13).setWidth 2

def gateError (intno : Nat) : Word := BitVec.ofNat 32 (intno * 8 + 2)

/-- The gate of an interrupt: within the IDT, of a known type, and open to an INT. -/
def readGate (intno : Nat) (isInt : Bool) : Helper (Word × Word) := do
  let s ← get
  if s.env.idt.limit < BitVec.ofNat 32 (intno * 8 + 7) then throw (.gpf (gateError intno))
  else
    let ptr := s.env.idt.base + BitVec.ofNat 32 (intno * 8)
    let g1 ← ldlKernel ptr .zero
    let g2 ← ldlKernel (ptr + 4) .zero
    if gateType g2 ∉ [5, 6, 7, 14, 15] then throw (.gpf (gateError intno))
    else if isInt ∧ descDpl g2 < s.env.cpl then throw (.gpf (gateError intno))
    else return (g1, g2)

/-- The code descriptor behind a gate, synthesised in loose PM where the table has none. -/
def codeDescriptor (selector : Word) : Helper (Word × Word) := do
  let s ← get
  let found ← loadSegment selector
  match found.or (pc110SynthDesc s selector true) with
  | none => throw (.gpf (selector &&& 0xFFFC))
  | some (e1, e2) =>
    if e2 &&& descS = 0 ∨ e2 &&& descCs = 0 then throw (.gpf (selector &&& 0xFFFC))
    else
      let vm86 := s.env.eflags &&& vmMask ≠ 0
      let dpl := if pc110LoosePm s ∧ ¬ vm86 then s.env.cpl else descDpl e2
      if s.env.cpl < dpl then throw (.gpf (selector &&& 0xFFFC))
      else if e2 &&& descP = 0 then throw (.noSeg (selector &&& 0xFFFC))
      else return (e1, e2)

/-- What an interrupt pushes, last first: error code if any, IP, CS and FLAGS. -/
structure Frame where
  eflags : Word
  cs : Word
  eip : Word
  errorCode : Option Word

def Frame.push (size : Nat) (sa : StackAccess) (frame : Frame) : Helper StackAccess := do
  let sa ← sa.push size frame.eflags
  let sa ← sa.push size frame.cs
  let sa ← sa.push size frame.eip
  match frame.errorCode with
  | none => return sa
  | some code => sa.push size code

/-- Flags behind delivery: an interrupt gate also clears IF. -/
def gateFlags (g2 eflags : Word) : Word :=
  (if gateType g2 &&& 1 = 0 then eflags &&& ~~~ifMask else eflags) &&&
    ~~~(tfMask ||| vmMask ||| rfMask ||| ntMask)

def enterGate (env : Env) (gate descriptor : Word × Word) (sa : StackAccess) : Env :=
  let (g1, g2) := gate
  let (e1, e2) := descriptor
  let env := setEsp { env with eflags := gateFlags g2 env.eflags } sa.sp sa.spMask
  let env := loadSegCache env .cs
    { selector := ((g1 >>> 16) &&& ~~~3) ||| env.cpl.setWidth 32
      base := getSegBase e1 e2
      limit := getSegLimit e1 e2
      flags := e2 }
  { env with eip := (g2 &&& 0xFFFF0000) ||| (g1 &&& 0xFFFF) }

/-- Delivery at the current level: the frame, then the gate's CS:EIP. -/
def deliverSame (gate descriptor : Word × Word) (frame : Frame) : Helper Unit := do
  let s ← get
  let sa ← frame.push (operand (gateType gate.2 >>> 3).toNat) (.of s.env)
  modify fun s => { s with env := enterGate s.env gate descriptor sa }

def interruptFrame (q : StockSeg) (env : Env) (intno : Nat) (isInt : Bool) (errorCode nextEip : Word)
    (isHw : Bool) : Frame where
  eflags := cpuComputeEflags q.cc env ||| (if ¬ isInt ∧ q.exceptionIsFault intno then rfMask else 0)
  cs := (env.segs .cs).selector
  eip := if isInt then nextEip else env.eip
  errorCode := if ¬ isInt ∧ ¬ isHw ∧ q.exceptionHasErrorCode intno then some errorCode else none

def doInterruptProtected (q : StockSeg) (intno : Nat) (isInt : Bool) (errorCode nextEip : Word)
    (isHw : Bool) : Helper Unit := do
  let s ← get
  let gate ← readGate intno isInt
  if gateType gate.2 = 5 then q.taskGate intno gate
  else if gate.2 &&& descP = 0 then throw (.noSeg (gateError intno))
  else
    let selector := gate.1 >>> 16
    if selector &&& 0xFFFC = 0 then throw (.gpf 0)
    else
      let descriptor ← codeDescriptor selector
      let vm86 := s.env.eflags &&& vmMask ≠ 0
      let dpl := if pc110LoosePm s ∧ ¬ vm86 ∨ descriptor.2 &&& descC ≠ 0 then s.env.cpl
        else descDpl descriptor.2
      if dpl < s.env.cpl then q.toInner intno gate descriptor
      else if vm86 then throw (.gpf (selector &&& 0xFFFC))
      else deliverSame gate descriptor (interruptFrame q s.env intno isInt errorCode nextEip isHw)

/-- The flags a loose IRET may change. -/
def iretMask (env : Env) (shift : Nat) : Word :=
  let mask := tfMask ||| acMask ||| idMask ||| rfMask ||| ntMask
  let mask := if env.cpl = 0 then mask ||| iopl3 else mask
  let iopl : BitVec 2 := (env.eflags >>> 12).setWidth 2
  let mask := if env.cpl ≤ iopl then mask ||| ifMask else mask
  if shift = 0 then mask &&& 0xFFFF else mask

/-- `helper_ret_protected`: RET and, with `isIret`, IRET. -/
def helperRetProtected (q : StockSeg) (shift : Nat) (isIret : Bool) (addend : Word) : Helper Unit := do
  let s ← get
  let size := operand shift
  let (newEip, sa) ← (StackAccess.of s.env .getpc).pop size
  let (newCs, sa) ← sa.pop size
  let newCs := newCs &&& 0xFFFF
  let (newEflags, sa) ← if isIret then sa.pop size else pure (0, sa)
  if pc110LoosePm s ∧ ¬ (isIret ∧ newEflags &&& vmMask ≠ 0) then
    let cs ← pc110ResolveSeg newCs true
    modify fun s =>
      let env := loadSegCache s.env .cs
        { selector := newCs, base := cs.base, limit := cs.limit, flags := cs.flags }
      let env := setEsp env (sa.sp + addend) sa.spMask
      let env := { env with eip := newEip }
      { s with env := if isIret then loadEflags env newEflags (iretMask env shift) else env }
  else q.retProtected shift isIret addend

end Pc110.SegHelper
