import Mathlib.Data.BitVec
import Mathlib.Data.List.GetD
import Mathlib.Tactic.Ring

/-! Memory whose addresses wrap, and stacks in it. A stack pointer counts modulo `2 ^ m`
within a segment, so frames wrap at the end of the segment; distinct frames stay apart
until the stack has filled it. -/
namespace WrapMemory

abbrev Cells (w : Nat) (α : Type) := BitVec w → α

variable {w : Nat} {α : Type}

def load (cells : Cells w α) (a : BitVec w) (count : Nat) : List α :=
  (List.range count).map fun i => cells (a + BitVec.ofNat w i)

def store (cells : Cells w α) (a : BitVec w) (data : List α) : Cells w α := fun p =>
  data.getD (p - a).toNat (cells p)

/-- A run of `count` from `b` starts behind the `size` cells at `a`, and ends before them. -/
def Apart (a : BitVec w) (size : Nat) (b : BitVec w) (count : Nat) : Prop :=
  ∀ i < count, size ≤ (b + BitVec.ofNat w i - a).toNat

@[simp] theorem load_length (cells : Cells w α) (a : BitVec w) (count : Nat) :
    (load cells a count).length = count := by
  simp [load]

theorem load_congr {cells cells' : Cells w α} {a : BitVec w} {count : Nat}
    (same : ∀ i < count, cells (a + BitVec.ofNat w i) = cells' (a + BitVec.ofNat w i)) :
    load cells a count = load cells' a count :=
  List.map_congr_left fun i member => same i (List.mem_range.mp member)

theorem load_store (cells : Cells w α) (a : BitVec w) (data : List α) (fits : data.length ≤ 2 ^ w) :
    load (store cells a data) a data.length = data := by
  apply List.ext_getElem
  · exact load_length _ _ _
  · intro i _ h
    have here : (a + BitVec.ofNat w i - a).toNat = i := by
      rw [BitVec.add_comm, BitVec.add_sub_cancel, BitVec.toNat_ofNat]
      exact Nat.mod_eq_of_lt (by omega)
    simp only [load, List.getElem_map, List.getElem_range, store, here]
    exact List.getD_eq_getElem data _ h

/-- A store that is made again changes nothing. -/
theorem store_store (cells : Cells w α) (a : BitVec w) (data : List α) :
    store (store cells a data) a data = store cells a data := by
  funext p
  by_cases inside : (p - a).toNat < data.length
  · rw [store, store, List.getD_eq_getElem data _ inside, List.getD_eq_getElem data _ inside]
  · exact List.getD_eq_default _ _ (Nat.le_of_not_lt inside)

theorem store_outside (cells : Cells w α) (a : BitVec w) (data : List α) {p : BitVec w}
    (outside : ∀ j < data.length, p ≠ a + BitVec.ofNat w j) : store cells a data p = cells p := by
  refine List.getD_eq_default _ _ (Nat.le_of_not_lt fun inside => outside _ inside ?_)
  rw [BitVec.ofNat_toNat, BitVec.setWidth_eq]
  ring

theorem load_store_apart (cells : Cells w α) {a b : BitVec w} {data : List α} {count : Nat}
    (apart : Apart a data.length b count) : load (store cells a data) b count = load cells b count :=
  load_congr fun i h => List.getD_eq_default _ _ (apart i h)

section Stack
variable {m : Nat} {base mask : BitVec w}

/-- The mask keeps the low `m` bits of a stack pointer. -/
structure Keeps (mask : BitVec w) (m : Nat) : Prop where
  within : m ≤ w
  low : ∀ x : BitVec w, (x &&& mask).toNat = x.toNat % 2 ^ m

def place (base mask sp : BitVec w) : BitVec w := base + (sp &&& mask)

/-- The pointer `down` below another, within the segment. -/
theorem masked_sub (keeps : Keeps mask m) (sp : BitVec w) (down : Nat) (small : down < 2 ^ m) :
    let x := (sp &&& mask).toNat
    ((sp - BitVec.ofNat w down) &&& mask).toNat = if down ≤ x then x - down else x + 2 ^ m - down := by
  intro x
  have divides : 2 ^ m ∣ 2 ^ w := Nat.pow_dvd_pow 2 keeps.within
  have bound : 2 ^ m ≤ 2 ^ w := Nat.pow_le_pow_right (by decide) keeps.within
  have xLow : x = sp.toNat % 2 ^ m := keeps.low sp
  rw [keeps.low, BitVec.toNat_sub, BitVec.toNat_ofNat, Nat.mod_eq_of_lt (Nat.lt_of_lt_of_le small bound),
    Nat.mod_mod_of_dvd _ divides]
  have xLt : x < 2 ^ m := xLow ▸ Nat.mod_lt _ (Nat.two_pow_pos m)
  obtain ⟨turns, hw⟩ := divides
  have positive : 0 < turns := by
    rcases Nat.eq_zero_or_pos turns with zero | h
    · subst zero; rw [Nat.mul_zero] at hw; exact absurd hw (Nat.two_pow_pos w).ne'
    · exact h
  -- the sum is `x - down` plus whole turns of the segment
  have sum : 2 ^ w - down + sp.toNat = x + (2 ^ m - down) + 2 ^ m * (turns - 1 + sp.toNat / 2 ^ m) := by
    have := Nat.div_add_mod sp.toNat (2 ^ m)
    rw [← xLow] at this
    have split : 2 ^ m * (turns - 1 + sp.toNat / 2 ^ m) + 2 ^ m = 2 ^ w + 2 ^ m * (sp.toNat / 2 ^ m) := by
      rw [hw, ← Nat.mul_add_one, ← Nat.mul_add]
      congr 1
      omega
    omega
  rw [sum, Nat.add_mul_mod_self_left]
  split
  case isTrue above =>
    rw [show x + (2 ^ m - down) = x - down + 2 ^ m by omega, Nat.add_mod_right]
    exact Nat.mod_eq_of_lt (by omega)
  case isFalse below =>
    rw [show x + (2 ^ m - down) = x + 2 ^ m - down by omega]
    exact Nat.mod_eq_of_lt (by omega)

/-- Under the mask only the masked part of a stack pointer counts. -/
theorem masked_add (keeps : Keeps mask m) {sp sp' : BitVec w} (same : sp &&& mask = sp' &&& mask)
    (up : BitVec w) : (sp + up) &&& mask = (sp' + up) &&& mask := by
  have divides : 2 ^ m ∣ 2 ^ w := Nat.pow_dvd_pow 2 keeps.within
  have low : sp.toNat % 2 ^ m = sp'.toNat % 2 ^ m := by
    rw [← keeps.low, ← keeps.low, same]
  apply BitVec.eq_of_toNat_eq
  rw [keeps.low, keeps.low, BitVec.toNat_add, BitVec.toNat_add, Nat.mod_mod_of_dvd _ divides,
    Nat.mod_mod_of_dvd _ divides, Nat.add_mod, low, ← Nat.add_mod]

/-- A frame further down leaves the frame at a stack pointer alone. -/
theorem frames_apart (keeps : Keeps mask m) (base sp : BitVec w) {size down : Nat} (behind : size ≤ down)
    (room : down + size ≤ 2 ^ m) :
    Apart (place base mask (sp - BitVec.ofNat w down)) size (place base mask sp) size := by
  intro i inside
  have small : down < 2 ^ m := by omega
  have bound : 2 ^ m ≤ 2 ^ w := Nat.pow_le_pow_right (by decide) keeps.within
  have lower := masked_sub keeps sp down small
  have upper : (sp &&& mask).toNat < 2 ^ m := by
    rw [keeps.low]
    exact Nat.mod_lt _ (Nat.two_pow_pos m)
  simp only at lower
  simp only [place]
  generalize sp &&& mask = x at *
  generalize (sp - BitVec.ofNat w down) &&& mask = y at *
  have distance : base + x + BitVec.ofNat w i - (base + y) = x - y + BitVec.ofNat w i := by ring
  rw [distance, BitVec.toNat_add, BitVec.toNat_ofNat, Nat.mod_eq_of_lt (show i < 2 ^ w by omega)]
  by_cases above : down ≤ x.toNat
  · rw [if_pos above] at lower
    have gap : (x - y).toNat = down := by
      rw [BitVec.toNat_sub_of_le (BitVec.le_def.mpr (by omega))]
      omega
    rw [gap, Nat.mod_eq_of_lt (by omega)]
    omega
  · rw [if_neg above] at lower
    have gap : (x - y).toNat = 2 ^ w - (2 ^ m - down) := by
      rw [BitVec.toNat_sub_of_lt (BitVec.lt_def.mpr (by omega))]
      omega
    rw [gap, Nat.mod_eq_of_lt (by omega)]
    omega

/-- The stack at `sp` holds these frames, each `size` cells, top first. -/
def Holds (size : Nat) (cells : Cells w α) (base mask : BitVec w) : BitVec w → List (List α) → Prop
  | _, [] => True
  | sp, frame :: frames =>
    load cells (place base mask sp) size = frame ∧
      Holds size cells base mask (sp + BitVec.ofNat w size) frames

/-- The same stack through another pointer to it. -/
theorem Holds.masked {size : Nat} {cells : Cells w α} {sp sp' : BitVec w} {frames : List (List α)}
    (keeps : Keeps mask m) (same : sp &&& mask = sp' &&& mask) (holds : Holds size cells base mask sp frames) :
    Holds size cells base mask sp' frames := by
  induction frames generalizing sp sp' with
  | nil => trivial
  | cons frame frames ih =>
    have here : place base mask sp' = place base mask sp := congrArg (base + ·) same.symm
    exact ⟨here ▸ holds.1, ih (masked_add keeps same _) holds.2⟩

/-- The same stack in memory that agrees on it. -/
theorem Holds.congr {size : Nat} {cells cells' : Cells w α} {sp : BitVec w} {frames : List (List α)}
    (same : ∀ i < frames.length, ∀ j < size,
      let cell := place base mask (sp + BitVec.ofNat w (i * size)) + BitVec.ofNat w j
      cells' cell = cells cell)
    (holds : Holds size cells base mask sp frames) : Holds size cells' base mask sp frames := by
  induction frames generalizing sp with
  | nil => trivial
  | cons frame frames ih =>
    refine ⟨(load_congr fun j inside => ?_).trans holds.1, ih (fun i below j inside => ?_) holds.2⟩
    · have top := same 0 (Nat.succ_pos _) j inside
      rwa [Nat.zero_mul, BitVec.add_zero] at top
    · have next := same (i + 1) (Nat.succ_lt_succ below) j inside
      have up : sp + BitVec.ofNat w ((i + 1) * size) = sp + BitVec.ofNat w size + BitVec.ofNat w (i * size) := by
        rw [Nat.succ_mul, BitVec.ofNat_add]
        ring
      rwa [up] at next

theorem Holds.store_below {size down : Nat} {cells : Cells w α} {sp : BitVec w} {frames : List (List α)}
    (keeps : Keeps mask m) (holds : Holds size cells base mask sp frames) {data : List α}
    (length : data.length = size) (behind : size ≤ down) (room : down + frames.length * size ≤ 2 ^ m) :
    Holds size (store cells (place base mask (sp - BitVec.ofNat w down)) data) base mask sp frames := by
  induction frames generalizing sp down with
  | nil => trivial
  | cons frame frames ih =>
    rw [List.length_cons, Nat.succ_mul] at room
    have here := frames_apart keeps base sp behind (by omega)
    refine ⟨(load_store_apart cells (length ▸ here)).trans holds.1, ?_⟩
    have same : sp - BitVec.ofNat w down = sp + BitVec.ofNat w size - BitVec.ofNat w (down + size) := by
      rw [BitVec.ofNat_add]
      ring
    rw [same]
    exact ih holds.2 (by omega) (by omega)

/-- A push puts its frame on top of those there, as long as the segment has room for all. -/
theorem Holds.push {size : Nat} {cells : Cells w α} {sp : BitVec w} {frames : List (List α)}
    (keeps : Keeps mask m) (holds : Holds size cells base mask sp frames) {frame : List α}
    (length : frame.length = size) (room : (frames.length + 1) * size ≤ 2 ^ m) :
    Holds size (store cells (place base mask (sp - BitVec.ofNat w size)) frame) base mask
      (sp - BitVec.ofNat w size) (frame :: frames) := by
  have bound : 2 ^ m ≤ 2 ^ w := Nat.pow_le_pow_right (by decide) keeps.within
  rw [Nat.add_mul, Nat.one_mul] at room
  constructor
  · subst length
    exact load_store cells _ frame (by omega)
  · rw [BitVec.sub_add_cancel]
    exact holds.store_below keeps length (Nat.le_refl size) (by omega)

end Stack

end WrapMemory
