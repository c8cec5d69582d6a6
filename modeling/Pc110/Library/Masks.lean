import Mathlib.Data.BitVec

/-! Words under a mask: when two agree there, and what merging two by a mask keeps. -/
namespace Masks

variable {w : Nat}

/-- Words agree under a mask when they agree on each of its bits. -/
theorem masked_eq_iff {x y mask : BitVec w} :
    x &&& mask = y &&& mask ↔ ∀ i (h : i < w), mask[i] = true → x[i] = y[i] := by
  constructor
  · intro same i h set
    have bit : (x &&& mask)[i] = (y &&& mask)[i] := by rw [same]
    simpa only [BitVec.getElem_and, set, Bool.and_true] using bit
  · intro bits
    apply BitVec.eq_of_getElem_eq
    intro i h
    rw [BitVec.getElem_and, BitVec.getElem_and]
    cases set : mask[i] with
    | false => rw [Bool.and_false, Bool.and_false]
    | true => rw [bits i h set]

/-- A mask of one bit reads that bit. -/
theorem masked_bit_iff (x : BitVec w) (i : Nat) (h : i < w) :
    x &&& BitVec.twoPow w i = 0 ↔ x[i] = false := by
  rw [BitVec.and_twoPow, BitVec.getLsbD_eq_getElem h]
  have set : (BitVec.twoPow w i)[i] = true := by simp
  cases x[i] with
  | false => exact iff_of_true rfl rfl
  | true =>
    refine iff_of_false (fun zero => ?_) (by simp)
    rw [if_pos rfl] at zero
    simp [zero] at set

section Merge
variable (x y mask : BitVec w)

theorem merged_masked : ((x &&& ~~~mask) ||| (y &&& mask)) &&& mask = y &&& mask := by
  ext i h
  cases set : mask[i] <;> simp [set]

theorem merged_unmasked : ((x &&& ~~~mask) ||| (y &&& mask)) &&& ~~~mask = x &&& ~~~mask := by
  ext i h
  cases set : mask[i] <;> simp [set]

theorem merged_self : (x &&& ~~~mask) ||| (x &&& mask) = x := by
  ext i h
  cases set : mask[i] <;> simp [set]

/-- What is put in place of the bits under a mask leaves the others. -/
theorem replaced_rest {x y mask : BitVec w} (within : y &&& ~~~mask = 0) :
    ((x &&& ~~~mask) ||| y) &&& ~~~mask = x &&& ~~~mask := by
  ext i h
  have bit := congrArg (BitVec.getLsbD · i) within
  simp only [BitVec.getLsbD_eq_getElem h, BitVec.getElem_and, BitVec.getElem_not] at bit
  cases set : mask[i] with
  | true => simp [set]
  | false =>
    have clear : y[i] = false := by simpa [set] using bit
    simp [set, clear]

/-- The bits of a short word, shifted up, are under a mask that covers them. -/
theorem lane_within {n : Nat} (v : BitVec n) (k : Nat) {mask : BitVec w}
    (covers : ∀ i < w, mask.getLsbD i = false → i < k ∨ k + n ≤ i) :
    (v.setWidth w <<< k) &&& ~~~mask = 0 := by
  apply BitVec.eq_of_getLsbD_eq
  intro i h
  rw [BitVec.getLsbD_and, BitVec.getLsbD_not, BitVec.getLsbD_shiftLeft, BitVec.getLsbD_setWidth]
  cases covered : mask.getLsbD i with
  | true => simp
  | false =>
    rcases covers i h covered with below | above
    · simp [below]
    · have short := BitVec.getLsbD_of_ge v (i - k) (by omega)
      simp [short]

theorem low_within {n : Nat} (v : BitVec n) {mask : BitVec w} (covers : ∀ i < w, mask.getLsbD i = false → n ≤ i) :
    v.setWidth w &&& ~~~mask = 0 := by
  have within := lane_within v 0 fun i h clear => .inr ((Nat.zero_add n).trans_le (covers i h clear))
  rwa [BitVec.shiftLeft_zero] at within

end Merge

end Masks
