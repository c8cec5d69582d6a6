import Pc110.Int13Read

/-! The disk AH=08 describes and the disk AH=02 serves. The read takes any CHS address
apart without asking the geometry, so an address outside it reads the sector its
arithmetic ends at whenever the image has one there. -/
namespace Pc110.Int13

open LsbBits (Byte)

structure SingleSector (m : Machine) : Prop where
  function : hi8 (m.env.regs .eax) = 0x02
  count : (request m).count = 1

/-- An address on the one drive with the geometry AH=08 reports. -/
structure Advertised (m : Machine) : Prop where
  drive : lo8 (m.env.regs .edx) = 0x80
  cylinder : (request m).cylinder ≤ 127
  head : (request m).head ≤ 1
  sector : 1 ≤ (request m).sector ∧ (request m).sector ≤ 32

def address (m : Machine) : Byte × Nat × Nat × Nat :=
  (lo8 (m.env.regs .edx), (request m).cylinder, (request m).head, (request m).sector)

/-- The boot image has a whole sector at the place the address comes to. -/
def Readable (m : Machine) : Prop :=
  (request m).sector ≠ 0 ∧ ∃ image, bootImage m = some image ∧ (request m).lba < image.length / 512

/-- A request off the advertised disk fails and stores nothing. -/
def RefusesOutside (q : Stock) (m : Machine) : Prop :=
  ¬ Advertised m → cpuComputeEflags q (int13 m).env &&& ccC = 1 ∧ (int13 m).mem = m.mem

structure Returns (q : Stock) (m : Machine) (n : Nat) : Prop where
  carry : cpuComputeEflags q (int13 m).env &&& ccC = 0
  sought : (seekLba m).toNat = n
  data : ∀ image, bootImage m = some image → ∀ i < 512,
    image[n * 512 + i]? = some ((int13 m).mem ((buffer m).toNat + i))

def Distinct (q : Stock) (m m' : Machine) : Prop :=
  address m ≠ address m' → ∀ n n', Returns q m n → Returns q m' n' → n ≠ n'

/-- The address is on the advertised disk, or DL names a floppy, or the image has nothing
to read there. -/
def Guarded (m : Machine) : Prop :=
  Advertised m ∨ lo8 (m.env.regs .edx) < 0x80 ∨ ¬ Readable m

theorem lo8_set16 (r : Word) (v : BitVec 16) : lo8 (set16 r v) = v.setWidth 8 := by
  ext i hi
  simp [lo8, set16]

theorem hi8_set16 (r : Word) (v : BitVec 16) : hi8 (set16 r v) = (v >>> 8).setWidth 8 := by
  ext i hi
  simp [hi8, set16]
  interval_cases i <;> simp

/-- AH=08 answers in the registers AH=02 takes its address from. -/
theorem driveParameters_reports (m : Machine) :
    (request (driveParameters m).machine).cylinder = 127 ∧
    (request (driveParameters m).machine).head = 1 ∧
    (request (driveParameters m).machine).sector = 32 ∧
    lo8 ((driveParameters m).machine.env.regs .edx) = 1 := by
  have cx : (driveParameters m).machine.env.regs .ecx = set16 (m.env.regs .ecx) 0x7F20 := by
    simp [driveParameters, Machine.setReg, Env.setReg]
    rfl
  have dx : (driveParameters m).machine.env.regs .edx = set16 (m.env.regs .edx) 0x0101 := by
    simp [driveParameters, Machine.setReg, Env.setReg, set16, heads, BitVec.or_assoc]
  simp only [request, cx, dx, lo8_set16, hi8_set16]
  decide

section Outcomes
variable (q : Stock) {m : Machine}

theorem found_readable (single : SingleSector m) (readable : Readable m) : found m = 1 := by
  obtain ⟨start, image, opens, inside⟩ := readable
  rw [found, if_neg start, opens]
  simp only [single.count, available]
  omega

theorem found_unreadable (closed : ¬ Readable m) : found m = 0 := by
  unfold found
  split
  case isTrue => rfl
  case isFalse start =>
    split
    case h_1 image opens =>
      have outside : ¬ (request m).lba < image.length / 512 :=
        fun inside => closed ⟨start, image, opens, inside⟩
      simp only [available]
      omega
    case h_2 => rfl

/-- A request to any fixed disk is served wherever the image has a sector for it. -/
theorem single_served (single : SingleSector m) (drive : 0x80 ≤ lo8 (m.env.regs .edx))
    (readable : Readable m) : Returns q m (request m).lba := by
  have reads := int13_reads q m drive single.function
  have one := found_readable single readable
  constructor
  · rw [reads.carry, if_pos]
    exact ⟨by rw [one, single.count], by rw [single.count]; decide⟩
  · exact seekLba_eq m readable.1
  · intro image opens i hi
    have byte := reads.sectors image opens 0 (by omega) i hi
    simpa using byte

theorem single_refused (single : SingleSector m)
    (closed : lo8 (m.env.regs .edx) < 0x80 ∨ ¬ Readable m) :
    cpuComputeEflags q (int13 m).env &&& ccC = 1 ∧ (int13 m).mem = m.mem := by
  by_cases floppy : lo8 (m.env.regs .edx) < 0x80
  · have served : serve m = ⟨m, true, 0x80⟩ := by simp only [serve, if_pos floppy]
    constructor
    · rw [int13_carry, served]; rfl
    · rw [int13_mem, served]
  · have none := found_unreadable (closed.resolve_left floppy)
    have reads := int13_reads q m (by simpa using floppy) single.function
    constructor
    · rw [reads.carry, if_neg]
      intro complete
      have := complete.1
      rw [none, single.count] at this
      contradiction
    · funext place
      exact reads.others place fun k hk => by omega

theorem of_returns (single : SingleSector m) {n : Nat} (returns : Returns q m n) :
    0x80 ≤ lo8 (m.env.regs .edx) ∧ Readable m ∧ n = (request m).lba := by
  have opened : 0x80 ≤ lo8 (m.env.regs .edx) ∧ Readable m := by
    by_contra closed
    have refused := (single_refused q single (by
      by_cases readable : Readable m
      · exact .inl (by simpa [readable] using closed)
      · exact .inr readable)).1
    rw [returns.carry] at refused
    contradiction
  refine ⟨opened.1, opened.2, ?_⟩
  rw [← returns.sought, seekLba_eq m opened.2.1]

theorem refusesOutside_iff (single : SingleSector m) : RefusesOutside q m ↔ Guarded m := by
  constructor
  · intro refuses
    by_contra open_
    simp only [Guarded, not_or, not_not, BitVec.not_lt] at open_
    obtain ⟨outside, drive, readable⟩ := open_
    have refused := (refuses outside).1
    rw [(single_served q single drive readable).carry] at refused
    contradiction
  · rintro (inside | closed) outside
    · contradiction
    · exact single_refused q single closed

end Outcomes

theorem address_of_lba {m m' : Machine} (here : Advertised m) (there : Advertised m')
    (same : (request m).lba = (request m').lba) : address m = address m' := by
  obtain ⟨drive, -, head, first, last⟩ := here
  obtain ⟨drive', -, head', first', last'⟩ := there
  simp only [Request.lba] at same
  have track : (request m).cylinder * 2 + (request m).head =
      (request m').cylinder * 2 + (request m').head := by omega
  have sector : (request m).sector = (request m').sector := by omega
  have cylinder : (request m).cylinder = (request m').cylinder := by omega
  rw [address, address, drive, drive', sector, cylinder]
  congr 3
  omega

theorem distinct_of_guarded (q : Stock) {m m' : Machine} (single : SingleSector m)
    (single' : SingleSector m') (guarded : Guarded m) (guarded' : Guarded m') :
    Distinct q m m' := by
  intro differ n n' returns returns' same
  obtain ⟨drive, readable, rfl⟩ := of_returns q single returns
  obtain ⟨drive', readable', rfl⟩ := of_returns q single' returns'
  have advertised : Advertised m := by
    rcases guarded with inside | floppy | closed
    · exact inside
    · exact absurd floppy (BitVec.not_lt.mpr drive)
    · contradiction
  have advertised' : Advertised m' := by
    rcases guarded' with inside | floppy | closed
    · exact inside
    · exact absurd floppy (BitVec.not_lt.mpr drive')
    · contradiction
  exact differ (address_of_lba advertised advertised' same)

/-- The service keeps to its disk on exactly the guarded requests. -/
theorem int13_geometry_iff (q : Stock) (m m' : Machine) (single : SingleSector m)
    (single' : SingleSector m') :
    (RefusesOutside q m ∧ RefusesOutside q m' ∧ Distinct q m m') ↔ Guarded m ∧ Guarded m' := by
  rw [refusesOutside_iff q single, refusesOutside_iff q single']
  constructor
  · rintro ⟨guarded, guarded', -⟩
    exact ⟨guarded, guarded'⟩
  · rintro ⟨guarded, guarded'⟩
    exact ⟨guarded, guarded', distinct_of_guarded q single single' guarded guarded'⟩

/-- A request for CHS (0, `head`, `sector`) of the first disk, an image of 64 sectors. -/
def trackZero (head sector : Byte) : Machine :=
  .start { (default : Env) with regs := fun
      | .eax => 0x0201
      | .ecx => sector.setWidth 32
      | .edx => 0x80 ||| head.setWidth 32 <<< 8
      | .ebx => 0x7C00
      | _ => 0 }
    (fun _ => 0) (fun _ => 0) (fun _ => some "disk.img") (fun _ => some (List.replicate 32768 0))

theorem trackZero_single (head sector : Byte) : SingleSector (trackZero head sector) := by
  constructor
  · change hi8 0x0201 = 0x02; decide
  · change (lo8 0x0201).toNat = 1; decide

theorem int13_geometry_iff_trackZero :
    (RefusesOutside default (trackZero 0 33) ∧ RefusesOutside default (trackZero 1 1) ∧
      Distinct default (trackZero 0 33) (trackZero 1 1)) ↔
    Guarded (trackZero 0 33) ∧ Guarded (trackZero 1 1) :=
  int13_geometry_iff default _ _ (trackZero_single 0 33) (trackZero_single 1 1)

/-- Sector 33 of a track with 32 sectors is served, as the first of the next track. -/
theorem int13_aliases :
    ¬ ∀ (q : Stock) (m m' : Machine), SingleSector m → SingleSector m' → bootImage m = bootImage m' →
      RefusesOutside q m ∧ RefusesOutside q m' ∧ Distinct q m m' := by
  intro strict
  have readable (head sector : Byte) (place : request (trackZero head sector) = ⟨0, head.toNat, sector.toNat, 1⟩)
      (lba : (head.toNat * 32 + sector.toNat - 1) = 32) (start : sector.toNat ≠ 0) :
      Readable (trackZero head sector) := by
    refine ⟨by rw [place]; exact start, List.replicate 32768 0, rfl, ?_⟩
    rw [List.length_replicate, place, Request.lba]
    simp [lba]
  have first := single_served default (trackZero_single 0 33) (by decide) (readable 0 33 rfl rfl (by decide))
  have second := single_served default (trackZero_single 1 1) (by decide) (readable 1 1 rfl rfl (by decide))
  obtain ⟨-, -, distinct⟩ := strict default _ _ (trackZero_single 0 33) (trackZero_single 1 1) rfl
  exact distinct (by decide) _ _ first second rfl

end Pc110.Int13
