import Pc110.Int13

/-! What AH=02 delivers. The sectors found from the requested one on are stored in order
and counted, and the return goes through the frame as it was before the first store. -/
namespace Pc110.Int13

open LsbBits (Byte)
open ByteMemory (Memory Within)

structure Request where
  cylinder : Nat
  head : Nat
  sector : Nat
  count : Nat

def request (m : Machine) : Request where
  cylinder := (hi8 (m.env.regs .ecx)).toNat + 256 * ((lo8 (m.env.regs .ecx)).toNat / 64)
  head := (hi8 (m.env.regs .edx)).toNat
  sector := (lo8 (m.env.regs .ecx)).toNat % 64
  count := (lo8 (m.env.regs .eax)).toNat

def Request.lba (r : Request) : Nat := (r.cylinder * 2 + r.head) * 32 + r.sector - 1

def bootImage (m : Machine) : Option (List Byte) := (m.getenv .pc110Boot).bind m.files

def available (image : List Byte) (lba : Nat) : Nat := image.length / 512 - lba

def found (m : Machine) : Nat :=
  if (request m).sector = 0 then 0
  else match bootImage m with
    | some image => min (request m).count (available image (request m).lba)
    | none => 0

/-- All that was asked for is there, and something was. -/
def Complete (m : Machine) : Prop := found m = (request m).count ∧ 0 < (request m).count

instance (m : Machine) : Decidable (Complete m) := inferInstanceAs (Decidable (_ ∧ _))

def buffer (m : Machine) : Word := (m.env.segs .es).base + (lo16 (m.env.regs .ebx)).setWidth 32

/-- Memory after the first sectors from `lba` on, each at its own physical address. -/
def stored (mem : Memory Byte) (image : List Byte) (lba : Nat) (dst : Word) : Nat → Memory Byte
  | 0 => mem
  | n + 1 => ByteMemory.write (stored mem image lba dst n) (dst + BitVec.ofNat 32 n * 512).toNat
      (sectorAt image (lba + n))

section Requests

theorem sector_eq (cl : Byte) : (cl.setWidth 32 &&& 0x3F : Word).toNat = cl.toNat % 64 := by
  rw [BitVec.toNat_and, BitVec.toNat_setWidth, Nat.mod_eq_of_lt (by omega)]
  exact Nat.and_two_pow_sub_one_eq_mod cl.toNat 6

theorem cylinder_high (cl : Byte) :
    ((cl.setWidth 32 &&& 0xC0 : Word) <<< 2).toNat = 256 * (cl.toNat / 64) := by
  revert cl
  decide +kernel

theorem cylinder_eq (ch cl : Byte) :
    ((ch.setWidth 32 : Word) ||| (cl.setWidth 32 &&& 0xC0 : Word) <<< 2).toNat =
      ch.toNat + 256 * (cl.toNat / 64) := by
  have low : ch.toNat < 2 ^ 8 := ch.isLt
  rw [BitVec.toNat_or, cylinder_high, BitVec.toNat_setWidth, Nat.mod_eq_of_lt (by omega), Nat.or_comm]
  rw [show 256 * (cl.toNat / 64) = 2 ^ 8 * (cl.toNat / 64) from rfl, ← Nat.two_pow_add_eq_or_of_lt low]
  exact Nat.add_comm _ _

theorem request_bounds (m : Machine) :
    (request m).cylinder < 1024 ∧ (request m).head < 256 ∧ (request m).sector < 64 ∧
      (request m).count < 256 := by
  simp only [request]
  omega

/-- The sector the code seeks to, as it computes it. -/
def seekLba (m : Machine) : Word :=
  let cl : Word := (lo8 (m.env.regs .ecx)).setWidth 32
  let cyl : Word := (hi8 (m.env.regs .ecx)).setWidth 32 ||| (cl &&& 0xC0) <<< 2
  (cyl * heads + (hi8 (m.env.regs .edx)).setWidth 32) * spt + ((cl &&& 0x3F) - 1)

theorem seekLba_eq (m : Machine) (start : (request m).sector ≠ 0) :
    (seekLba m).toNat = (request m).lba := by
  have cylinder := cylinder_eq (hi8 (m.env.regs .ecx)) (lo8 (m.env.regs .ecx))
  have sector := sector_eq (lo8 (m.env.regs .ecx))
  have head : ((hi8 (m.env.regs .edx)).setWidth 32 : Word).toNat = (request m).head := by
    rw [BitVec.toNat_setWidth]
    exact Nat.mod_eq_of_lt (by omega)
  have bounds := request_bounds m
  simp only [seekLba, Request.lba, heads, spt]
  change _ = (request m).cylinder at cylinder
  change _ = (request m).sector at sector
  generalize (request m).cylinder = c, (request m).head = h, (request m).sector = s at *
  generalize ((hi8 (m.env.regs .ecx)).setWidth 32 |||
    ((lo8 (m.env.regs .ecx)).setWidth 32 &&& 0xC0) <<< 2 : Word) = cyl at *
  generalize ((lo8 (m.env.regs .ecx)).setWidth 32 &&& 0x3F : Word) = sec at *
  generalize ((hi8 (m.env.regs .edx)).setWidth 32 : Word) = hd at *
  bv_omega

theorem sector_zero (m : Machine) :
    ((lo8 (m.env.regs .ecx)).setWidth 32 &&& 0x3F : Word) = 0 ↔ (request m).sector = 0 := by
  rw [← BitVec.toNat_inj, sector_eq]
  rfl

end Requests

section Loop
variable (mem : Memory Byte) (image : List Byte) (lba dst : Word)

/-- The loop stores what it finds behind what it has. -/
theorem readLoop_stored (remaining : Nat) (got : Word) (bound : got.toNat + remaining < 2 ^ 32) :
    readLoop image lba dst remaining got (stored mem image lba.toNat dst got.toNat) =
      let n := min remaining (image.length / 512 - (lba.toNat + got.toNat))
      (got + BitVec.ofNat 32 n, stored mem image lba.toNat dst (got.toNat + n)) := by
  induction remaining generalizing got with
  | zero => simp [readLoop]
  | succ remaining ih =>
    rw [readLoop]
    by_cases whole : lba.toNat + got.toNat < image.length / 512
    · have next : (got + 1).toNat = got.toNat + 1 := by bv_omega
      have length := (sectorAt_length_iff image _).mpr whole
      have step := ih (got + 1) (by omega)
      rw [next, stored, BitVec.ofNat_toNat, BitVec.setWidth_eq] at step
      simp only [length, ne_eq, not_true_eq_false, if_false, step]
      have count : min (remaining + 1) (image.length / 512 - (lba.toNat + got.toNat)) =
          min remaining (image.length / 512 - (lba.toNat + (got.toNat + 1))) + 1 := by omega
      rw [count]
      generalize min remaining (image.length / 512 - (lba.toNat + (got.toNat + 1))) = n
      have word : got + 1 + BitVec.ofNat 32 n = got + BitVec.ofNat 32 (n + 1) := by bv_omega
      rw [word, Nat.add_right_comm]
      rfl
    · have short := mt (sectorAt_length_iff image _).mp whole
      have none : min (remaining + 1) (image.length / 512 - (lba.toNat + got.toNat)) = 0 := by omega
      simp [short, none]

/-- The sectors of one call lie apart, also where the physical address wraps. -/
theorem sectors_apart (j k place : Nat) (hj : j < 256) (hk : k < 256) (differ : j ≠ k)
    (inside : Within (dst + BitVec.ofNat 32 j * 512).toNat 512 place) :
    ¬ Within (dst + BitVec.ofNat 32 k * 512).toNat 512 place := by
  unfold Within at *
  bv_omega

theorem stored_outside (lba n place : Nat)
    (outside : ∀ k < n, ¬ Within (dst + BitVec.ofNat 32 k * 512).toNat 512 place) :
    stored mem image lba dst n place = mem place := by
  induction n with
  | zero => rfl
  | succ n ih =>
    have short : (sectorAt image (lba + n)).length ≤ 512 := by simp [sectorAt]
    rw [stored, ByteMemory.write_outside]
    · exact ih fun k hk => outside k (Nat.lt_succ_of_lt hk)
    · have := outside n n.lt_succ_self
      unfold Within at *
      omega

theorem stored_inside (lba n k i : Nat) (bound : n ≤ 256) (whole : lba + n ≤ image.length / 512)
    (hk : k < n) (hi : i < 512) :
    image[(lba + k) * 512 + i]? =
      some (stored mem image lba dst n ((dst + BitVec.ofNat 32 k * 512).toNat + i)) := by
  induction n with
  | zero => omega
  | succ n ih =>
    have length := (sectorAt_length_iff image (lba + n)).mpr (by omega)
    rw [stored]
    by_cases last : k = n
    · subst last
      rw [ByteMemory.write_inside _ _ _ _ (by omega), ← List.getElem?_eq_getElem, sectorAt,
        List.getElem?_take_of_lt hi, List.getElem?_drop, Nat.mul_comm 512]
    · rw [ByteMemory.write_outside]
      · exact ih (by omega) (by omega) (by omega)
      · rw [length]
        apply sectors_apart dst k n _ (by omega) (by omega) last
        unfold Within
        omega

/-- Below the top of the address space the sectors are one run. -/
theorem stored_contiguous (lba n : Nat) (whole : lba + n ≤ image.length / 512)
    (room : dst.toNat + n * 512 ≤ 2 ^ 32) :
    stored mem image lba dst n =
      ByteMemory.write mem dst.toNat ((image.drop (lba * 512)).take (n * 512)) := by
  induction n with
  | zero => simp [stored]
  | succ n ih =>
    have shorter : n * 512 ≤ (n + 1) * 512 := Nat.mul_le_mul_right _ n.le_succ
    have before := ih (by omega) (Nat.le_trans (Nat.add_le_add_left shorter _) room)
    have front : ((image.drop (lba * 512)).take (n * 512)).length = n * 512 := by
      rw [List.length_take, List.length_drop]
      omega
    have place : (dst + BitVec.ofNat 32 n * 512).toNat =
        dst.toNat + ((image.drop (lba * 512)).take (n * 512)).length := by
      rw [front]
      bv_omega
    rw [stored, before, place, ByteMemory.write_append, Nat.succ_mul, List.take_add,
      List.drop_drop, sectorAt]
    congr 4
    omega

end Loop

def delivered (m : Machine) : Memory Byte :=
  stored m.mem ((bootImage m).getD []) (request m).lba (buffer m) (found m)

theorem found_le (m : Machine) : found m ≤ (request m).count := by
  unfold found
  split
  · exact Nat.zero_le _
  · split
    · exact Nat.min_le_left _ _
    · exact Nat.zero_le _

/-- What is found lies in the image. -/
theorem found_whole (m : Machine) (some : 0 < found m) :
    (request m).lba + found m ≤ ((bootImage m).getD []).length / 512 := by
  revert some
  unfold found available
  split
  · omega
  · cases bootImage m with
    | none => exact fun some => absurd some (Nat.lt_irrefl 0)
    | some image =>
      simp only [Option.getD_some]
      omega

theorem transfer_eq (m : Machine) : transfer m = (BitVec.ofNat 32 (found m), delivered m) := by
  have unfolded : transfer m =
      match (if ((lo8 (m.env.regs .ecx)).setWidth 32 &&& 0x3F : Word) = 0 then none else bootImage m) with
      | some image => readLoop image (seekLba m) (buffer m) (request m).count 0 m.mem
      | none => (0, m.mem) := rfl
  rw [unfolded, delivered, found]
  by_cases start : (request m).sector = 0
  · rw [if_pos ((sector_zero m).mpr start), if_pos start]
    rfl
  · rw [if_neg (mt (sector_zero m).mp start), if_neg start]
    cases bootImage m with
    | none => rfl
    | some image =>
      have bounds := request_bounds m
      have loop := readLoop_stored m.mem image (seekLba m) (buffer m) (request m).count 0
        (by change 0 + _ < _; omega)
      rw [seekLba_eq m start] at loop
      simpa [stored, available] using loop

/-- The count in AL is exact: no request finds more than a byte can count. -/
theorem readSectors_eq (m : Machine) : readSectors m =
    { machine := Machine.setReg { m with mem := delivered m } .eax
        (setLo8 (m.env.regs .eax) (BitVec.ofNat 8 (found m)))
      cf := !Complete m
      rah := if Complete m then 0 else 4 } := by
  have bounds := request_bounds m
  have below := found_le m
  have whole : (BitVec.ofNat 32 (found m) = (lo8 (m.env.regs .eax)).setWidth 32 ∧
      (lo8 (m.env.regs .eax)).setWidth 32 ≠ (0 : Word)) ↔ Complete m := by
    simp only [Complete, request] at *
    rw [← BitVec.toNat_inj, ne_eq, ← BitVec.toNat_inj]
    simp
    omega
  have low : lo8 (BitVec.ofNat 32 (found m)) = BitVec.ofNat 8 (found m) := by
    simp [lo8]
  simp only [readSectors, transfer_eq, whole, low]
  by_cases complete : Complete m <;> simp [complete]

/-- All that AH=02 promises of one call. -/
structure ReadsExactly (q : Stock) (m : Machine) : Prop where
  count : (lo8 ((int13 m).env.regs .eax)).toNat = found m
  carry : cpuComputeEflags q (int13 m).env &&& ccC = if Complete m then 0 else 1
  status : hi8 ((int13 m).env.regs .eax) = if Complete m then 0x00 else 0x04
  /-- Byte `i` of sector `k` stands behind the physical address of that sector. -/
  sectors : ∀ image, bootImage m = some image → ∀ k < found m, ∀ i < 512,
    image[((request m).lba + k) * 512 + i]? =
      some ((int13 m).mem ((buffer m + BitVec.ofNat 32 k * 512).toNat + i))
  others : ∀ place, (∀ k < found m, ¬ Within (buffer m + BitVec.ofNat 32 k * 512).toNat 512 place) →
    (int13 m).mem place = m.mem place
  contiguous : ∀ image, bootImage m = some image → (buffer m).toNat + found m * 512 ≤ 2 ^ 32 →
    (int13 m).mem = ByteMemory.write m.mem (buffer m).toNat
      ((image.drop ((request m).lba * 512)).take (found m * 512))
  eip : (int13 m).env.eip = (word (frame m) 0).setWidth 32
  cs : ((int13 m).env.segs .cs).selector = (word (frame m) 2).setWidth 32 ∧
    ((int13 m).env.segs .cs).base = (word (frame m) 2).setWidth 32 <<< 4
  sp : (int13 m).env.regs .esp = set16 (m.env.regs .esp) (lo16 (m.env.regs .esp) + 6)
  ax : (int13 m).env.regs .eax = set16 (m.env.regs .eax) (lo16 ((int13 m).env.regs .eax))
  others_kept : ∀ r, r ≠ .eax → r ≠ .esp → (int13 m).env.regs r = m.env.regs r

section Registers

theorem setLo8_set16 (r : Word) (v : Byte) : set16 r (lo16 (setLo8 r v)) = setLo8 r v := by
  ext i hi
  simp [set16, lo16, setLo8]
  interval_cases i <;> simp

theorem setHi8_set16 (r s : Word) (v : Byte) (high : set16 r (lo16 s) = s) :
    set16 r (lo16 (setHi8 s v)) = setHi8 s v := by
  rw [← high]
  ext i hi
  simp [set16, lo16, setHi8]
  interval_cases i <;> simp

end Registers

theorem int13_reads (q : Stock) (m : Machine) (drive : 0x80 ≤ lo8 (m.env.regs .edx))
    (function : hi8 (m.env.regs .eax) = 0x02) : ReadsExactly q m := by
  have bounds := request_bounds m
  have below := found_le m
  have served := serve_read m (by simpa using drive) function
  rw [readSectors_eq] at served
  have eax := int13_eax m
  have mem : (int13 m).mem = delivered m := by rw [int13_mem, served]; rfl
  have ax : (int13 m).env.regs .eax = setHi8 (setLo8 (m.env.regs .eax) (BitVec.ofNat 8 (found m)))
      (if Complete m then 0 else 4) := by
    rw [eax, served]
    simp [Machine.setReg, Env.setReg]
  have whole (image : List Byte) (opens : bootImage m = some image) (some : 0 < found m) :
      (request m).lba + found m ≤ image.length / 512 := by
    simpa [opens] using found_whole m some
  constructor
  case count =>
    rw [ax, lo8_setHi8, lo8_setLo8]
    exact Nat.mod_eq_of_lt (by omega)
  case carry =>
    rw [int13_carry, served]
    by_cases complete : Complete m <;> simp [complete]
  case status => rw [ax, hi8_setHi8]
  case sectors =>
    intro image opens k hk i hi
    rw [mem, delivered, opens]
    exact stored_inside m.mem image (buffer m) _ _ k i (by omega) (whole image opens (by omega)) hk hi
  case others =>
    intro place outside
    rw [mem]
    exact stored_outside _ _ _ _ _ _ outside
  case contiguous =>
    intro image opens room
    rw [mem, delivered, opens, Option.getD_some]
    by_cases none : found m = 0
    · rw [none]; simp [stored]
    · exact stored_contiguous _ _ _ _ _ (whole image opens (Nat.pos_of_ne_zero none)) room
  case eip => rfl
  case cs => constructor <;> simp [int13, iret, Env.setReg, Env.setSeg, pcStoreEflags]
  case sp =>
    simp [int13, iret, served, Machine.setReg, Env.setReg, Env.setSeg, pcStoreEflags]
  case ax =>
    rw [ax]
    exact (setHi8_set16 _ _ _ (setLo8_set16 _ _)).symm
  case others_kept =>
    intro r notEax notEsp
    simp [int13, iret, served, Machine.setReg, Env.setReg, Env.setSeg, pcStoreEflags, notEax, notEsp]

/-- A request for two sectors from an image of one and a half. -/
def partialRead : Machine :=
  .start { (default : Env) with regs := fun
      | .eax => 0x0202
      | .ecx => 0x0001
      | .edx => 0x0080
      | .ebx => 0x7C00
      | _ => 0 }
    (fun _ => 0) (fun _ => 0) (fun _ => some "disk.img") (fun _ => some (List.replicate 768 0xE5))

theorem int13_reads_partially : ReadsExactly default partialRead :=
  int13_reads default partialRead (by decide) (by decide)

end Pc110.Int13
