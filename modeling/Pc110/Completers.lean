import Pc110.Machine

/-! The native completions of POST's loops, `complete_checksum`, `complete_copy`,
`complete_delay` and `complete_mempat`. -/
namespace Pc110

open LsbBits (Byte)
open ByteMemory (Memory)

/-- The `while (cx)` loop of `complete_checksum`: SI and the sum behind `cx` words. -/
def checksumLoop (mem : Memory Byte) (env : Env) : (cx : Nat) → (si : BitVec 16) → (bl : Byte) →
    BitVec 16 × Byte
  | 0, si, bl => (si, bl)
  | cx + 1, si, bl =>
    let place := (physDs env si).toNat
    checksumLoop mem env cx (si + 2) (bl + mem place + mem (place + 1))

/-- F000:3CC1..3CC8, adapter/shadow checksum. -/
def completeChecksum (m : Machine) (off : BitVec 16) : Machine :=
  let env := m.env
  let cx := lo16 (env.regs .ecx)
  let ax := lo16 (env.regs .eax)
  let bl := hi8 (env.regs .ebx)
  let pending := 0x3CC2 ≤ off ∧ off ≤ 0x3CC6
  let bl := if pending then bl + ax.setWidth 8 + (ax >>> 8).setWidth 8 else bl
  let cx := if pending ∧ cx ≠ 0 then cx - 1 else cx
  let (si, bl) := checksumLoop m.mem env cx.toNat (lo16 (env.regs .esi)) bl
  let env := env.setReg .esi (set16 (env.regs .esi) si)
  let env := env.setReg .ecx (env.regs .ecx &&& ~~~0xFFFF)
  let env := env.setReg .ebx (setHi8 (env.regs .ebx) bl)
  { m with env := { env with eip := 0x3CC8 } }

/-- The block loop of `complete_copy`. -/
def copyLoop : (count : Nat) → (src dst : BitVec 16) → Memory Byte → Memory Byte
  | 0, _, _, mem => mem
  | count + 1, src, dst, mem =>
    let buf := ByteMemory.read mem (src.setWidth 32 <<< 4 : Word).toNat 0x200
    copyLoop count (src + 0x20) (dst + 0x20)
      (ByteMemory.write mem (dst.setWidth 32 <<< 4 : Word).toNat buf)

/-- F000:3C34..3C4C, block-copy helper. Memory is flat: of a destination under the ROM at C0000 to
EFFFF, which the chipset device writes or drops, nothing is said. -/
def completeCopy (q : Stock) (m : Machine) (off : BitVec 16) : Machine :=
  let env := m.env
  let outer := lo16 (env.regs .ecx)
  let src := if 0x3C38 ≤ off then lo16 (env.segs .ds).selector else lo16 (env.regs .eax)
  let dst := if 0x3C38 ≤ off then lo16 (env.segs .es).selector else lo16 (env.regs .ebx)
  let count := if outer ≠ 0 then outer.toNat else 1
  let count := if count > 0x8000 then 0x8000 else count
  let env := env.setReg .ecx (env.regs .ecx &&& ~~~0xFFFF)
  { m with
    mem := copyLoop count src dst m.mem
    env := setZf q { env with eip := 0x3C4E } false }

/-- F000:4139..413E, delay/progress loop: BX at physical 0x72. -/
def completeDelay (m : Machine) : Machine :=
  let env := m.env
  let bx := lo16 (env.regs .ebx)
  let m := if lo16 (env.regs .ecx) ≠ 0 then m.poke 0x72 [bx.setWidth 8, (bx >>> 8).setWidth 8] else m
  let env := env.setReg .ecx (env.regs .ecx &&& ~~~0xFFFF)
  { m with env := { env with eip := 0x413F } }

/-- One iteration of the `while (cx)` loop of `complete_mempat`: AL at ES:DI, then DI
shifted left, through CF in the second loop. -/
def mempatStep (q : Stock) (second : Bool) (m : Machine) (di : BitVec 16) : Machine × BitVec 16 :=
  let al := lo8 (m.env.regs .eax)
  let m := m.poke (physEs m.env di).toNat [al]
  let newCf := di.getLsbD 15
  if second then
    let oldCf : BitVec 16 := if cpuComputeEflags q m.env &&& ccC ≠ 0 then 1 else 0
    ({ m with env := setCf q m.env newCf }, di <<< 1 ||| oldCf)
  else ({ m with env := setCf q m.env newCf }, di <<< 1)

def mempatLoop (q : Stock) (second : Bool) : (cx : Nat) → Machine → BitVec 16 → Machine × BitVec 16
  | 0, m, di => (m, di)
  | cx + 1, m, di =>
    let (m, di) := mempatStep q second m di
    mempatLoop q second cx m di

/-- F000:61DB..61E0 (SHL) and 61E9..61EE (RCL), DI-pattern write loops. -/
def completeMempat (q : Stock) (m : Machine) (off : BitVec 16) : Machine :=
  let second : Bool := 0x61E9 ≤ off
  let cx := lo16 (m.env.regs .ecx)
  let (m, di) := mempatLoop q second cx.toNat m (lo16 (m.env.regs .edi))
  let env := m.env.setReg .edi (set16 (m.env.regs .edi) di)
  let env := env.setReg .ecx (env.regs .ecx &&& ~~~0xFFFF)
  { m with env := { env with eip := if second then 0x61EF else 0x61E1 } }

end Pc110
