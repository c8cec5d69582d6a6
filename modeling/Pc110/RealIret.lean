import Pc110.Int13Return
import Pc110.SegFlags

/-! The IRET of real mode, and the return of INT 13h beside it. INT 13h reads its frame in
one piece from SS:SP, so SP does not wrap in it, and stores the popped FLAGS over all of
EFLAGS. The A20 gate is open: linear addresses are physical ones. -/
namespace Pc110

open LsbBits (Byte)

/-- Word `i` of the frame at the top of a real-mode stack: SP counts modulo `2 ^ 16`. -/
def frameWord (m : Machine) (i : Nat) : BitVec 16 :=
  let sp := lo16 (m.env.regs .esp) + BitVec.ofNat 16 (2 * i)
  Int13.word (m.read ((m.env.segs .ss).base + sp.setWidth 32).toNat 2) 0

/-- What a 16-bit IRET may change of `eflags` in real mode. -/
def realIretMask : Word :=
  SegHelper.tfMask ||| SegHelper.ifMask ||| SegHelper.iopl3 ||| SegHelper.ntMask

/-- `helper_iret_real` with 16-bit operands. -/
def helperIretReal (m : Machine) : Machine :=
  let newCs := (frameWord m 1).setWidth 32
  let env := m.env.setReg .esp (set16 (m.env.regs .esp) (lo16 (m.env.regs .esp) + 6))
  let env := env.setSeg .cs newCs (newCs <<< 4)
  let env := { env with eip := (frameWord m 0).setWidth 32 }
  { m with env := SegHelper.loadEflags env ((frameWord m 2).setWidth 32) realIretMask }

theorem setWidth_word_inj {x y : BitVec 16} : (x.setWidth 32 : Word) = y.setWidth 32 ↔ x = y := by
  rw [← BitVec.toNat_inj, ← BitVec.toNat_inj, BitVec.toNat_setWidth, BitVec.toNat_setWidth]
  have := x.isLt
  have := y.isLt
  omega

namespace Int13

/-- A popped FLAGS word with CF telling the status of the request. -/
def withStatus (fl : BitVec 16) (cf : Bool) : BitVec 16 := if cf then fl ||| 0x0001 else fl &&& ~~~0x0001

/-- The call leaves IP, CS and SP as an IRET at its entry would, the low flags as popped but
for CF and the reserved bit 1, and the upper flags alone. -/
structure ReturnsInRealMode (q : Stock) (m : Machine) : Prop where
  ip : (int13 m).env.eip = (helperIretReal m).env.eip
  selector : ((int13 m).env.segs .cs).selector = ((helperIretReal m).env.segs .cs).selector
  base : ((int13 m).env.segs .cs).base = ((int13 m).env.segs .cs).selector * 16
  sp : (int13 m).env.regs .esp = (helperIretReal m).env.regs .esp
  flags : lo16 (cpuComputeEflags q (int13 m).env) = withStatus (frameWord m 2) (serve m).cf ||| 0x0002
  upper : cpuComputeEflags q (int13 m).env >>> 16 = cpuComputeEflags q m.env >>> 16

/-- The six bytes on from SS:SP show the CS and, CF aside, the FLAGS that an IRET pops, bit 1
is set in these, and no flag above them was set at the call. -/
structure PlainFrame (q : Stock) (m : Machine) : Prop where
  cs : word (frame m) 2 = frameWord m 1
  flags : word (frame m) 4 ||| 0x0001 = frameWord m 2 ||| 0x0003
  upper : cpuComputeEflags q m.env >>> 16 = 0

section Frame
variable {m : Machine}

theorem frame_getD {i : Nat} (inside : i < 6) : (frame m).getD i 0 =
    m.mem (((m.env.segs .ss).base + (lo16 (m.env.regs .esp)).setWidth 32).toNat + i) := by
  have bound : i < (frame m).length := by
    rw [frame, Machine.read, ByteMemory.read_length]
    exact inside
  rw [List.getD_eq_getElem _ _ bound]
  exact ByteMemory.read_getElem ..

/-- The IP popped is never wrapped: a word is read in one piece. -/
theorem frameWord_zero (m : Machine) : frameWord m 0 = word (frame m) 0 := by
  have top : lo16 (m.env.regs .esp) + BitVec.ofNat 16 (2 * 0) = lo16 (m.env.regs .esp) := BitVec.add_zero _
  simp only [frameWord, top]
  rfl

/-- Below the end of the segment the words an IRET pops lie behind each other. -/
theorem frameWord_inside {i : Nat} (inside : (lo16 (m.env.regs .esp)).toNat + 2 * i < 2 ^ 16)
    (base : (m.env.segs .ss).base.toNat + 2 ^ 16 ≤ 2 ^ 32) (third : i < 3) :
    frameWord m i = word (frame m) (2 * i) := by
  have place : ((m.env.segs .ss).base + (lo16 (m.env.regs .esp) + BitVec.ofNat 16 (2 * i)).setWidth 32).toNat =
      ((m.env.segs .ss).base + (lo16 (m.env.regs .esp)).setWidth 32).toNat + 2 * i := by
    have narrow := (lo16 (m.env.regs .esp)).isLt
    simp only [BitVec.toNat_add, BitVec.toNat_setWidth, BitVec.toNat_ofNat]
    omega
  simp only [frameWord, place, word, Machine.read]
  rw [frame_getD (by omega), frame_getD (by omega)]
  rfl

end Frame

section Flags

/-- CF aside, and with bit 1 set, two FLAGS words agree whatever the status. -/
theorem withStatus_iff (fl popped : BitVec 16) (cf : Bool) :
    withStatus fl cf = withStatus popped cf ||| 0x0002 ↔ fl ||| 0x0001 = popped ||| 0x0003 := by
  simp only [withStatus]
  constructor
  · intro same
    ext i h
    have bit := congrArg (BitVec.getLsbD · i) same
    cases cf <;> interval_cases i <;> simp at bit ⊢ <;> exact bit
  · intro same
    ext i h
    have bit := congrArg (BitVec.getLsbD · i) same
    cases cf <;> interval_cases i <;> simp at bit ⊢ <;> exact bit

/-- A FLAGS word that agrees so with itself has bit 1 set. -/
theorem reserved_iff (fl : BitVec 16) : fl ||| 0x0001 = fl ||| 0x0003 ↔ fl.getLsbD 1 = true := by
  constructor
  · intro same
    have bit := congrArg (BitVec.getLsbD · 1) same
    simpa using bit
  · intro set
    ext i h
    interval_cases i <;> simp_all

/-- What INT 13h leaves of the flags: the popped word with the status. -/
theorem int13_flags (q : Stock) (m : Machine) :
    cpuComputeEflags q (int13 m).env = (withStatus (word (frame m) 4) (serve m).cf).setWidth 32 :=
  cpuComputeEflags_pcStoreEflags q _ _

end Flags

section Return
variable {q : Stock} {m : Machine}

theorem int13_selector (m : Machine) : ((int13 m).env.segs .cs).selector = (word (frame m) 2).setWidth 32 := by
  simp [int13, iret, Env.setReg, Env.setSeg, pcStoreEflags]

/-- Where the IRET of real mode returns to. -/
theorem helperIretReal_returns (m : Machine) :
    (helperIretReal m).env.eip = (frameWord m 0).setWidth 32 ∧
    (helperIretReal m).env.segs .cs =
      { m.env.segs .cs with
        selector := (frameWord m 1).setWidth 32
        base := (frameWord m 1).setWidth 32 <<< 4 } ∧
    (helperIretReal m).env.regs .esp = set16 (m.env.regs .esp) (lo16 (m.env.regs .esp) + 6) := by
  simp [helperIretReal, Env.setReg, Env.setSeg, SegHelper.loadEflags]

theorem lo16_setWidth (v : BitVec 16) : lo16 (v.setWidth 32) = v := by
  simp [lo16]

theorem upper_setWidth (v : BitVec 16) : (v.setWidth 32 : Word) >>> 16 = 0 := by
  apply BitVec.eq_of_toNat_eq
  have := v.isLt
  rw [BitVec.toNat_ushiftRight, BitVec.toNat_setWidth_of_le (by decide), Nat.shiftRight_eq_div_pow]
  exact Nat.div_eq_of_lt this

theorem plainFrame_of_returns (returns : ReturnsInRealMode q m) : PlainFrame q m := by
  obtain ⟨-, cs, -⟩ := helperIretReal_returns m
  constructor
  · have same := returns.selector
    rw [int13_selector, cs] at same
    exact setWidth_word_inj.mp same
  · have same := returns.flags
    rw [int13_flags, lo16_setWidth] at same
    exact (withStatus_iff _ _ _).mp same
  · rw [← returns.upper, int13_flags]
    exact upper_setWidth _

theorem returns_of_plainFrame (plain : PlainFrame q m) : ReturnsInRealMode q m := by
  obtain ⟨eip, base, esp⟩ := int13_returns (m := m)
  obtain ⟨ip, cs, sp⟩ := helperIretReal_returns m
  constructor
  · rw [eip, ip, frameWord_zero]
  · rw [int13_selector, cs, plain.cs]
  · rw [int13_selector, base, BitVec.shiftLeft_eq_mul_twoPow]
    rfl
  · rw [esp, sp]
  · rw [int13_flags, lo16_setWidth]
    exact (withStatus_iff _ _ _).mpr plain.flags
  · rw [int13_flags, upper_setWidth, plain.upper]

/-- Where SP does not wrap within it, a frame is plain unless upper flags are set at the call
or bit 1 is clear in the FLAGS pushed. -/
theorem plainFrame_inside (room : (lo16 (m.env.regs .esp)).toNat + 6 ≤ 2 ^ 16)
    (base : (m.env.segs .ss).base.toNat + 2 ^ 16 ≤ 2 ^ 32) :
    PlainFrame q m ↔ (frameWord m 2).getLsbD 1 = true ∧ cpuComputeEflags q m.env >>> 16 = 0 := by
  have cs : frameWord m 1 = word (frame m) 2 := frameWord_inside (by omega) base (by decide)
  have flags : frameWord m 2 = word (frame m) 4 := frameWord_inside (by omega) base (by decide)
  rw [← reserved_iff]
  constructor
  · intro plain
    exact ⟨flags ▸ plain.flags, plain.upper⟩
  · rintro ⟨reserved, upper⟩
    exact ⟨cs.symm, flags ▸ reserved, upper⟩

/-- INT 13h returns as in real mode exactly through a plain frame. -/
theorem returnsInRealMode_iff (q : Stock) (m : Machine) : ReturnsInRealMode q m ↔ PlainFrame q m :=
  ⟨plainFrame_of_returns, returns_of_plainFrame⟩

/-- A program in real mode has called INT 13h from 1234:0100, its flags `0x0202` and, above
the word pushed, those of `upper`. -/
def realCaller (upper : Word) : Machine :=
  .start
    { (default : Env) with
      regs := fun | .esp => 0x1000 | _ => 0
      segs := fun | .cs => ⟨0xF000, 0xF0000, 0xFFFF, 0⟩ | _ => default
      eip := 0xD2D7
      eflags := upper ||| 0x0002 }
    (ByteMemory.write (fun _ => 0) 0x1000 [0x00, 0x01, 0x34, 0x12, 0x02, 0x02]) (fun _ => 0)
    (fun | .pc110Post => some "1" | .pc110Boot => some "disk.img" | _ => none) (fun _ => none)

example : ReturnsInRealMode default (realCaller 0) :=
  returns_of_plainFrame ((plainFrame_inside (by decide) (by decide)).mpr ⟨by decide +kernel, by decide⟩)

/-- A caller in real mode that has AC set loses it. -/
theorem not_returnsInRealMode : ¬ ∀ (q : Stock) (m : Machine), m.env.cr0 &&& 1 = 0 → ReturnsInRealMode q m := by
  intro every
  have plain := plainFrame_of_returns (every default (realCaller SegHelper.acMask) (by decide))
  exact absurd plain.upper (by decide)

end Return

end Int13

end Pc110
