import Pc110.EramPolicy

/-! INT 19h without Easy-Setup, over runs: an arrival either boots the whole first sector of
PC110BOOT or leaves the machine to the ROM, and the latch it sets lets no second one boot. -/
namespace Pc110

/-- Neither PC110SETUP nor PC110POSTUI. -/
structure PlainBoot (getenv : EnvVar → Option String) : Prop where
  noSetup : getenv .pc110Setup = none
  noUi : getenv .pc110PostUi = none

inductive BootFails (m : Machine) : Prop where
  | booted : m.statics.booted = true → BootFails m
  /-- PC110BOOT is unset or empty. -/
  | unnamed : m.path .pc110Boot = none → BootFails m
  | unopened (path) : m.path .pc110Boot = some path → m.files path = none → BootFails m
  | short (path image) : m.path .pc110Boot = some path → m.files path = some image → image.length < 512 →
      BootFails m

structure LeftToRom (m : Machine) (r : Bool × Machine) : Prop where
  taken : r.1 = false
  env : r.2.env = m.env
  mem : r.2.mem = m.mem
  booted : r.2.statics.booted = m.statics.booted

/-- The call enters the first sector of an image, with what POST left out filled in. -/
structure EntersSector (q : Stock) (image : List LsbBits.Byte) (m : Machine) (r : Bool × Machine) : Prop where
  taken : r.1 = true
  booted : r.2.statics.booted = true
  sector : r.2.read 0x7C00 512 = image.take 512
  mem : ∀ place, ¬ ByteMemory.Within 0x7C00 512 place → ¬ ByteMemory.Within 0xFEA93 16 place →
    ¬ ByteMemory.Within 0x413 2 place → r.2.mem place = m.mem place
  eip : r.2.env.eip = 0x7C00
  entered : ∀ s ∈ [Seg.cs, .ds, .es], (r.2.env.segs s).selector = 0 ∧ (r.2.env.segs s).base = 0
  segs : ∀ s, s ∉ [Seg.cs, .ds, .es] → r.2.env.segs s = m.env.segs s
  drive : lo8 (r.2.env.regs .edx) = 0x80
  edx : r.2.env.regs .edx &&& ~~~0xFF = m.env.regs .edx &&& ~~~0xFF
  regs : ∀ r', r' ≠ .edx → r.2.env.regs r' = m.env.regs r'
  flags : cpuComputeEflags q r.2.env = cpuComputeEflags q m.env

def BootsWhole (q : Stock) (m : Machine) (e : Event) : Prop :=
  e = .call → At 0x52BD m →
    (BootFails m → LeftToRom m (postIntercept q m.pc m)) ∧
    (¬ BootFails m → ∃ image, (m.path .pc110Boot).bind m.files = some image ∧
      EntersSector q image m (postIntercept q m.pc m))

def bootTaken (q : Stock) : Event → Machine → Bool
  | .call, m => At 0x52BD m ∧ (postIntercept q m.pc m).1 = true
  | _, _ => false

section Steps
variable {q : Stock} {m : Machine}

theorem bootDisk_enters (path : String) {image : List LsbBits.Byte} (whole : (image.take 512).length = 512)
    {s : Machine} (env : s.env = m.env) (mem : s.mem = m.mem) :
    EntersSector q image m (true, bootDisk path (image.take 512) s) := by
  have stored : (bootDisk path (image.take 512) s).mem = ByteMemory.write (ByteMemory.write
      (ByteMemory.write m.mem 0x7C00 (image.take 512)) 0xFEA93 fdpt) 0x413 [0x80, 0x02] := by
    rw [← mem]
    rfl
  have edx : (bootDisk path (image.take 512) s).env.regs = Function.update m.env.regs .edx
      (setLo8 (m.env.regs .edx) 0x80) := by
    rw [← env]
    rfl
  refine ⟨rfl, rfl, ?_, ?_, rfl, ?_, ?_, ?_, ?_, ?_, ?_⟩
  · have back := ByteMemory.read_write m.mem 0x7C00 (image.take 512)
    rw [whole] at back
    rw [Machine.read, stored, ByteMemory.read_write_apart _ _ _ _ _ (.inr (by decide)),
      ByteMemory.read_write_apart _ _ _ _ _ (.inl (by decide)), back]
  · intro place sector table size
    rw [stored, ByteMemory.write_outside _ _ _ _ size, ByteMemory.write_outside _ _ _ _ table,
      ByteMemory.write_outside]
    rwa [whole]
  · intro seg member
    simp only [List.mem_cons, List.not_mem_nil, or_false] at member
    rcases member with rfl | rfl | rfl <;> exact ⟨rfl, rfl⟩
  · intro seg other
    rw [← env]
    cases seg with
    | cs | ds | es => exact absurd (by decide) other
    | ss | fs | gs => rfl
  · rw [edx, Function.update_self, lo8_setLo8]
  · rw [edx, Function.update_self, setLo8_rest]
  · intro r other
    rw [edx, Function.update_of_ne other]
  · rw [← env]
    rfl

theorem atBoot_mem (d : Diag) : (m.atBoot d).mem = m.mem := by
  unfold Machine.atBoot
  split <;> rfl

/-- The failures are all that keeps a fresh machine from a whole sector. -/
theorem bootFails_iff : BootFails m ↔ (m.statics.booted = false → ∀ path image, m.path .pc110Boot = some path →
    m.files path = some image → (image.take 512).length ≠ 512) := by
  constructor
  · intro fails fresh path image named opens whole
    cases fails with
    | booted booted => exact absurd (booted.symm.trans fresh) (by decide)
    | unnamed unnamed => exact absurd (unnamed.symm.trans named) (by simp)
    | unopened path' named' unopened =>
      obtain rfl := Option.some.inj (named'.symm.trans named)
      exact absurd (unopened.symm.trans opens) (by simp)
    | short path' image named' opens' short =>
      obtain rfl := Option.some.inj (named'.symm.trans named)
      obtain rfl := Option.some.inj (opens'.symm.trans opens)
      rw [List.length_take] at whole
      omega
  · intro unread
    cases booted : m.statics.booted with
    | true => exact .booted booted
    | false =>
      cases named : m.path .pc110Boot with
      | none => exact .unnamed named
      | some path =>
        cases opens : m.files path with
        | none => exact .unopened path named opens
        | some image =>
          have short := unread booted path image named opens
          rw [List.length_take] at short
          exact .short path image named opens (by omega)

/-- An arrival without Easy-Setup boots or fails, as a whole. -/
theorem bootsWhole (plain : PlainBoot m.getenv) (e : Event) : BootsWhole q m e := by
  rintro rfl here
  have noUi : ¬ m.has .pc110PostUi := by simp [Machine.has, plain.noUi]
  have noSetup : ¬ m.has .pc110Setup := by simp [Machine.has, plain.noSetup]
  rcases here.1.boot_takes (q := q) here.2 with ⟨ui, -⟩ | ⟨-, setup, -⟩ |
    ⟨fresh, -, -, d, path, bf, named, opens, whole, eq⟩ | ⟨unread, d, eq⟩
  · exact absurd ui noUi
  · exact absurd setup noSetup
  · rw [eq]
    refine ⟨fun fails => absurd whole (bootFails_iff.mp fails fresh path bf named opens), fun _ => ?_⟩
    refine ⟨bf, ?_, bootDisk_enters path whole (atBoot_eip d) (atBoot_mem d)⟩
    rw [named, Option.bind_some, opens]
  · have fails : BootFails m := bootFails_iff.mpr fun fresh => (unread fresh).2.2
    rw [eq]
    refine ⟨fun _ => ⟨rfl, atBoot_eip d, atBoot_mem d, ?_⟩, fun succeeds => absurd fails succeeds⟩
    exact (congrArg Statics.booted (atBoot_statics d)).trans (Machine.inBios_booted m d)

/-- Such an arrival is handled exactly where it boots. -/
theorem bootTaken_eq (plain : PlainBoot m.getenv) (e : Event) : bootTaken q e m = boots q e m := by
  cases e with
  | call =>
    simp only [bootTaken, boots]
    rw [decide_eq_decide]
    constructor
    · rintro ⟨here, taken⟩
      obtain ⟨stops, enters⟩ := bootsWhole (q := q) plain .call rfl here
      by_cases fails : BootFails m
      · exact absurd ((stops fails).taken.symm.trans taken) (by decide)
      · obtain ⟨image, -, enters⟩ := enters fails
        have fresh : m.statics.booted = false := Bool.eq_false_iff.mpr fun booted => fails (.booted booted)
        exact ⟨⟨here.1, here.2, fresh⟩, taken, enters.booted, (enters.entered .cs (by decide)).2, enters.eip⟩
    · rintro ⟨arrival, boots⟩
      exact ⟨⟨arrival.reaches, arrival.here⟩, boots.1⟩
  | key | kbcReset | guest | host | systemReset => rfl

theorem bootTaken_booted (plain : PlainBoot m.getenv) (e : Event) (booted : m.statics.booted = true) :
    bootTaken q e m = false := by
  rw [bootTaken_eq plain]
  cases e with
  | call => exact decide_eq_false fun boots => absurd (booted.symm.trans boots.1.fresh) (by decide)
  | key | kbcReset | guest | host | systemReset => rfl

theorem step_plain (plain : PlainBoot m.getenv) (e : Event) : PlainBoot (m.step q e).getenv := by
  rw [step_getenv]
  exact plain

end Steps

/-- In a run without Easy-Setup INT 19h boots whole or not at all, and once at most. -/
theorem run_bootsOnce (q : Stock) (m : Machine) (events : List Event) (plain : PlainBoot m.getenv) :
    Runs.Always (Machine.step q) (BootsWhole q) events m ∧
    Runs.count (Machine.step q) (bootTaken q) events m ≤ 1 := by
  constructor
  · exact Runs.always_of_invariant (Machine.step q) (fun _ e plain => step_plain plain e)
      (fun _ e plain => bootsWhole plain e) events m plain
  · refine Runs.count_le_one (Machine.step q) (fun m => m.statics.booted) (fun _ e plain => step_plain plain e) ?_
      (fun _ e plain => bootTaken_booted plain e) events m plain
    intro s e plain
    rw [bootTaken_eq plain]
    exact booted_iff q s e

def arrivedTwice : List Event := [
  .guest (cpuAt 0x52BD) (fun _ => 0) (fun _ => 0),
  .call,
  .guest (cpuAt 0x52BD) (fun _ => 0) (fun _ => 0),
  .call]

theorem run_bootsOnce_twice :
    Runs.Always (Machine.step default) (BootsWhole default) arrivedTwice blankStart ∧
    Runs.count (Machine.step default) (bootTaken default) arrivedTwice blankStart ≤ 1 :=
  run_bootsOnce default blankStart arrivedTwice ⟨rfl, rfl⟩

example : Runs.count (Machine.step default) (bootTaken default) arrivedTwice blankStart = 1 := by decide +kernel

end Pc110
