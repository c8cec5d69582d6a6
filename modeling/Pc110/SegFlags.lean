import Pc110.SegHelper
import Pc110.Library.Masks

/-! The flags through delivery and a loose IRET. Delivery clears IF behind an interrupt
gate, TF and NT; the IRET merges what was pushed under a mask that admits IF by the IOPL. -/
namespace Pc110.SegHelper

open Masks (masked_eq_iff masked_bit_iff)

/-- IF, IOPL, DF, TF, NT and the arithmetic flags. -/
def iretFlags : Word := ifMask ||| iopl3 ||| dfMask ||| tfMask ||| ntMask ||| pcCcMask

def ioplOf (env : Env) : BitVec 2 := (env.eflags >>> 12).setWidth 2

/-- QEMU's split of the flags: the condition codes hold arithmetic flags, `df` holds DF,
and `eflags` holds the others. -/
def FlagsSplit (q : Stock) (env : Env) : Prop :=
  cpuComputeEflags q env &&& ~~~(pcCcMask ||| dfMask) = env.eflags &&& ~~~(pcCcMask ||| dfMask)

variable {eflags flags popped mask : Word} {g2 : Word}

/-- The flags behind a return, from those there and those popped. -/
def returnedFlags (eflags popped mask : Word) : Word :=
  ((eflags &&& ~~~mask) ||| (popped &&& mask) ||| 0x2) ||| (popped &&& pcCcMask) ||| (popped &&& dfMask)

theorem cpuComputeEflags_loadEflags (q : Stock) (env : Env) (popped mask : Word) :
    cpuComputeEflags q (loadEflags env popped mask) = returnedFlags env.eflags popped mask := by
  simp only [cpuComputeEflags, loadEflags, returnedFlags, df_step]

/-- An IRET may always change TF and NT, and IF where the IOPL admits it. -/
theorem iretMask_bits (env : Env) (shift : Nat) :
    (iretMask env shift)[8] = true ∧ (iretMask env shift)[14] = true ∧
      ((iretMask env shift)[9] = true ↔ env.cpl ≤ ioplOf env) := by
  simp only [iretMask]
  change _ ∧ _ ∧ (_ ↔ env.cpl ≤ (env.eflags >>> 12).setWidth 2)
  have start : (tfMask ||| acMask ||| idMask ||| rfMask ||| ntMask : Word) = 0x254100 := by decide
  simp only [start, iopl3, ifMask]
  by_cases zero : env.cpl = 0 <;> by_cases admitted : env.cpl ≤ (env.eflags >>> 12).setWidth 2
  · simp only [if_pos zero, admitted, if_true, iff_true]
    split <;> simp
  · simp only [if_pos zero, admitted, if_false, iff_false]
    split <;> simp
  · simp only [if_neg zero, admitted, if_true, iff_true]
    split <;> simp
  · simp only [if_neg zero, admitted, if_false, iff_false]
    split <;> simp

theorem gateFlags_bit (g2 eflags : Word) {i : Nat} (h : i < 16) (notIf : i ≠ 9) (notTf : i ≠ 8)
    (notNt : i ≠ 14) : (gateFlags g2 eflags)[i] = eflags[i] := by
  unfold gateFlags
  split <;> interval_cases i <;> simp [ifMask, tfMask, vmMask, rfMask, ntMask] at *

theorem gateFlags_interrupt (even : gateType g2 &&& 1 = 0) : (gateFlags g2 eflags)[9] = false := by
  unfold gateFlags
  rw [if_pos even]
  simp [ifMask]

theorem gateFlags_trap (odd : gateType g2 &&& 1 ≠ 0) : (gateFlags g2 eflags)[9] = eflags[9] := by
  unfold gateFlags
  rw [if_neg odd]
  simp [tfMask, vmMask, rfMask, ntMask]

/-- What an interrupt pushed is the flags, which extend `eflags` by the arithmetic flags and DF. -/
structure PushedFlags (eflags flags popped : Word) : Prop where
  within : ∀ i (h : i < 32), eflags[i] = true → flags[i] = true
  split : flags &&& ~~~(pcCcMask ||| dfMask) = eflags &&& ~~~(pcCcMask ||| dfMask)
  low : ∀ i (h : i < 16), popped[i] = flags[i]

theorem returnedFlags_if (pushed : PushedFlags eflags flags popped) :
    (returnedFlags (gateFlags g2 eflags) popped mask)[9] =
      if mask[9] = true then flags[9] else (gateFlags g2 eflags)[9] := by
  have low := pushed.low 9 (by decide)
  simp only [returnedFlags, pcCcMask, ccO, ccS, ccZ, ccA, ccP, ccC, dfMask]
  cases inside : mask[9] <;> simp [inside, low]

theorem returnedFlags_rest (pushed : PushedFlags eflags flags popped) (tf : mask[8] = true) (nt : mask[14] = true)
    {i : Nat} (h : i < 32) (kept : iretFlags.getLsbD i = true) (notIf : i ≠ 9) :
    (returnedFlags (gateFlags g2 eflags) popped mask)[i] = flags[i] := by
  have which : ∀ j < 32, iretFlags.getLsbD j = true → j ∈ [0, 2, 4, 6, 7, 8, 9, 10, 11, 12, 13, 14] := by decide
  have here := which i h kept
  clear kept which
  have within := pushed.within i h
  have split := masked_eq_iff.mp pushed.split i h
  simp only [List.mem_cons, List.not_mem_nil, or_false] at here
  simp only [returnedFlags, pcCcMask, ccO, ccS, ccZ, ccA, ccP, ccC, dfMask] at *
  have gate := gateFlags_bit g2 eflags (i := i) (by omega) notIf
  have low := pushed.low i (by omega)
  cases set : mask[i] <;>
    rcases here with rfl | rfl | rfl | rfl | rfl | rfl | rfl | rfl | rfl | rfl | rfl | rfl <;>
    simp_all

/-- All flags are back unless an interrupt gate cleared an IF that the return may not set. -/
theorem returnedFlags_iff (pushed : PushedFlags eflags flags popped) (tf : mask[8] = true) (nt : mask[14] = true) :
    returnedFlags (gateFlags g2 eflags) popped mask &&& iretFlags = flags &&& iretFlags ↔
      gateType g2 &&& 1 ≠ 0 ∨ eflags[9] = false ∨ mask[9] = true := by
  have bit : eflags[9] = flags[9] := (masked_eq_iff.mp pushed.split 9 (by decide) (by decide)).symm
  have onlyIf : returnedFlags (gateFlags g2 eflags) popped mask &&& iretFlags = flags &&& iretFlags ↔
      (returnedFlags (gateFlags g2 eflags) popped mask)[9] = flags[9] := by
    rw [masked_eq_iff]
    constructor
    · intro all
      exact all 9 (by decide) (by decide)
    · intro isIf i h kept
      by_cases here : i = 9
      · subst here
        exact isIf
      · exact returnedFlags_rest pushed tf nt h (by rwa [BitVec.getLsbD_eq_getElem h]) here
  rw [onlyIf, returnedFlags_if pushed, bit]
  by_cases admitted : mask[9] = true
  · rw [if_pos admitted]
    exact iff_of_true rfl (.inr (.inr admitted))
  · rw [if_neg admitted]
    by_cases even : gateType g2 &&& 1 = 0
    · rw [gateFlags_interrupt even]
      constructor
      · intro clear
        exact .inr (.inl clear.symm)
      · rintro (odd | clear | set)
        · exact absurd even odd
        · exact clear.symm
        · exact absurd set admitted
    · rw [gateFlags_trap even, bit]
      exact iff_of_true rfl (.inl even)

theorem ioplOf_gateFlags (env : Env) (g2 : Word) :
    ((gateFlags g2 env.eflags) >>> 12).setWidth 2 = ioplOf env := by
  apply BitVec.eq_of_getElem_eq
  intro i h
  have low := gateFlags_bit g2 env.eflags (show 12 < 16 by decide) (by decide) (by decide) (by decide)
  have high := gateFlags_bit g2 env.eflags (show 13 < 16 by decide) (by decide) (by decide) (by decide)
  interval_cases i <;> simp [ioplOf, low, high]

end Pc110.SegHelper
