import Mathlib.Tactic.IntervalCases
import Mathlib.Logic.Function.Basic
import Pc110.Library.LsbBits
import Pc110.Library.Masks

/-! The part of `CPUX86State` the PC110 code reads and writes, with QEMU's split of the
flags: the condition codes are computed from `ccOp` and its operands, DF lives in `df`,
and `eflags` holds the rest. Registers are 32 bits wide, as in the i386 target. -/
namespace Pc110

open LsbBits (Byte)

/-- `target_ulong` and `uint32_t`. -/
abbrev Word := BitVec 32

inductive Reg where
  | eax | ecx | edx | ebx | esp | ebp | esi | edi
  deriving DecidableEq, Repr

inductive Seg where
  | es | cs | ss | ds | fs | gs
  deriving DecidableEq, Repr

structure SegmentCache where
  selector : Word
  base : Word
  limit : Word
  flags : Word
  deriving DecidableEq, Repr, Inhabited

/-- `CC_OP_EFLAGS`, or the number of one of the lazily evaluated operations. -/
inductive CcOp where
  | eflags
  | lazy (op : Nat)
  deriving DecidableEq, Repr, Inhabited

structure Env where
  regs : Reg → Word
  segs : Seg → SegmentCache
  eip : Word
  eflags : Word
  ccOp : CcOp
  ccSrc : Word
  ccDst : Word
  ccSrc2 : Word
  df : Word
  cr0 : Word
  cpl : BitVec 2
  gdt : SegmentCache
  ldt : SegmentCache
  idt : SegmentCache
  deriving Inhabited

/-- The stock QEMU functions the code calls: `cc_compute_all` for the lazy operations,
and `cpu_reset`. -/
structure Stock where
  ccComputeAll : (op : Nat) → (dst src src2 : Word) → Word
  cpuReset : Env → Env
  deriving Inhabited

def ccC : Word := 0x1
def ccP : Word := 0x4
def ccA : Word := 0x10
def ccZ : Word := 0x40
def ccS : Word := 0x80
def ccO : Word := 0x800
def dfMask : Word := 0x400

def pcCcMask : Word := ccO ||| ccS ||| ccZ ||| ccA ||| ccP ||| ccC

def Env.setReg (env : Env) (r : Reg) (v : Word) : Env :=
  { env with regs := Function.update env.regs r v }

/-- Assignment to the selector and the base of a segment cache. -/
def Env.setSeg (env : Env) (s : Seg) (selector base : Word) : Env :=
  { env with segs := Function.update env.segs s { env.segs s with selector, base } }

def lo16 (v : Word) : BitVec 16 := v.setWidth 16

def set16 (r : Word) (v : BitVec 16) : Word := (r &&& ~~~0xFFFF) ||| v.setWidth 32

/-- The byte lanes of a register, `v & 0xFF` and `(v >> 8) & 0xFF`. -/
def lo8 (v : Word) : Byte := v.setWidth 8
def hi8 (v : Word) : Byte := (v >>> 8).setWidth 8

def setLo8 (r : Word) (v : Byte) : Word := (r &&& ~~~0xFF) ||| v.setWidth 32
def setHi8 (r : Word) (v : Byte) : Word := (r &&& ~~~(0xFF00 : Word)) ||| v.setWidth 32 <<< 8

section Flags
variable (q : Stock) (env : Env)

def cpuComputeEflags : Word :=
  let cc := match env.ccOp with
    | .eflags => env.ccSrc
    | .lazy op => q.ccComputeAll op env.ccDst env.ccSrc env.ccSrc2
  env.eflags ||| cc ||| (env.df &&& dfMask)

/-- All condition codes become explicit. -/
def pcStoreEflags (f : Word) : Env :=
  { env with
    ccSrc := f &&& pcCcMask
    ccOp := .eflags
    df := 1 - 2 * ((f >>> 10) &&& 1)
    eflags := f &&& ~~~(pcCcMask ||| dfMask) }

def setZf (zf : Bool) : Env :=
  let f := cpuComputeEflags q env
  pcStoreEflags env (if zf then f ||| ccZ else f &&& ~~~ccZ)

def setCf (cf : Bool) : Env :=
  let f := cpuComputeEflags q env
  pcStoreEflags env (if cf then f ||| ccC else f &&& ~~~ccC)

end Flags

def physDs (env : Env) (off : BitVec 16) : Word := (env.segs .ds).base + off.setWidth 32
def physEs (env : Env) (off : BitVec 16) : Word := (env.segs .es).base + off.setWidth 32

@[simp] theorem lo16_set16 (r : Word) (v : BitVec 16) : lo16 (set16 r v) = v := by
  ext i hi; simp [lo16, set16]

@[simp] theorem lo8_setLo8 (r : Word) (v : Byte) : lo8 (setLo8 r v) = v := by
  ext i hi; simp [lo8, setLo8]

@[simp] theorem hi8_setLo8 (r : Word) (v : Byte) : hi8 (setLo8 r v) = hi8 r := by
  ext i hi; simp [hi8, setLo8]; interval_cases i <;> simp

@[simp] theorem lo8_setHi8 (r : Word) (v : Byte) : lo8 (setHi8 r v) = lo8 r := by
  ext i hi; simp [lo8, setHi8]; interval_cases i <;> simp

@[simp] theorem hi8_setHi8 (r : Word) (v : Byte) : hi8 (setHi8 r v) = v := by
  ext i hi; simp [hi8, setHi8]; interval_cases i <;> simp

theorem setHi8_rest (r : Word) (v : Byte) : setHi8 r v &&& ~~~0xFF00 = r &&& ~~~0xFF00 :=
  Masks.replaced_rest (Masks.lane_within v 8 (by decide))

theorem setLo8_rest (r : Word) (v : Byte) : setLo8 r v &&& ~~~0xFF = r &&& ~~~0xFF :=
  Masks.replaced_rest (Masks.low_within v (by decide))

theorem set16_rest (r : Word) (v : BitVec 16) : set16 r v &&& ~~~0xFFFF = r &&& ~~~0xFFFF :=
  Masks.replaced_rest (Masks.low_within v (by decide))

@[simp] theorem set16_set16 (r : Word) (v v' : BitVec 16) : set16 (set16 r v) v' = set16 r v' := by
  rw [set16, set16_rest, set16]

@[simp] theorem set16_lo16 (r : Word) : set16 r (lo16 r) = r := by
  have low : (lo16 r).setWidth 32 = r &&& 0xFFFF := by
    apply BitVec.eq_of_toNat_eq
    rw [BitVec.toNat_and]
    refine Eq.trans ?_ (Nat.and_two_pow_sub_one_eq_mod r.toNat 16).symm
    have := r.isLt
    simp [lo16]
    omega
  rw [set16, low, Masks.merged_self]

theorem cleared16 (r : Word) : r &&& ~~~0xFFFF = set16 r 0 := by
  simp [set16]

theorem toNat_pred {n : Nat} {cx : BitVec 16} (counts : cx.toNat = n + 1) : (cx - 1).toNat = n := by
  have one : (1 : BitVec 16) ≤ cx := by
    rw [BitVec.le_def, counts]
    exact Nat.le_add_left 1 n
  rw [BitVec.toNat_sub_of_le one, counts]
  rfl

/-- The direction step holds DF. -/
theorem df_step (f : Word) : (1 - 2 * ((f >>> 10) &&& 1)) &&& dfMask = f &&& dfMask := by
  have split (b : Bool) (h : f.getLsbD 10 = b) : (f >>> 10) &&& 1 = (if b then 1 else 0) ∧
      f &&& dfMask = (if b then dfMask else 0) := by
    constructor
    · ext i hi
      cases b <;> simp <;> interval_cases i <;> simp_all
    · ext i hi
      cases b <;> simp [dfMask] <;> interval_cases i <;> simp_all
  cases h : f.getLsbD 10
  · rw [(split _ h).1, (split _ h).2]; decide
  · rw [(split _ h).1, (split _ h).2]; decide

/-- Storing the flags keeps every one of them. -/
@[simp] theorem cpuComputeEflags_pcStoreEflags (q : Stock) (env : Env) (f : Word) :
    cpuComputeEflags q (pcStoreEflags env f) = f := by
  simp only [cpuComputeEflags, pcStoreEflags, df_step]
  ext i hi
  simp only [pcCcMask, ccO, ccS, ccZ, ccA, ccP, ccC, dfMask]
  simp
  interval_cases i <;> simp

end Pc110
