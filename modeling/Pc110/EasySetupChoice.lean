import Pc110.PostRun

/-! The F1 choice under PC110POSTUI, over runs with keys and CPU resets between the
arrivals at the boot decision. The latch behind the choice is set by every key and never
cleared, so it speaks of all POSTs so far. -/
namespace Pc110

/-- A call at the boot decision F000:52BD, before any disk has booted. -/
structure Arrival (m : Machine) : Prop where
  reaches : Reaches m.pc m
  here : (Site.of m m.pc).rom 0x52BD
  fresh : m.statics.booted = false

/-- The call hands over to Easy-Setup, from its image or from the ROM. -/
def EntersSetup (r : Bool × Machine) : Prop :=
  r.1 = true ∧
    (((r.2.env.segs .cs).base = 0x50000 ∧ r.2.env.eip = 0) ∨
      ((r.2.env.segs .cs).base = 0xF0000 ∧ r.2.env.eip = 0x3391))

/-- The call hands over to the boot sector. -/
def BootsDisk (r : Bool × Machine) : Prop :=
  r.1 = true ∧ r.2.statics.booted = true ∧ (r.2.env.segs .cs).base = 0 ∧ r.2.env.eip = 0x7C00

/-- PC110BOOT names a file with a whole first sector. -/
def DiskReadable (m : Machine) : Prop :=
  ∃ path bf, m.path .pc110Boot = some path ∧ m.files path = some bf ∧ (bf.take 512).length = 512

structure RealisticBoot (getenv : EnvVar → Option String) : Prop where
  ui : (getenv .pc110PostUi).isSome = true
  noSetup : getenv .pc110Setup = none

/-- The machine with the keys of its run: whether any was pressed, and whether one was
pressed since the last CPU reset. -/
structure Watched where
  machine : Machine
  ever : Bool
  since : Bool

def Watched.start (m : Machine) : Watched := ⟨m, false, false⟩

def watch (q : Stock) (e : Event) (w : Watched) : Watched where
  machine := w.machine.step q e
  ever := match e with
    | .key => true
    | _ => w.ever
  since := match e with
    | .key => true
    | e => if Resets q w.machine e then false else w.since

/-- At an arrival, Easy-Setup is entered only for a key of this POST; without one a readable
disk boots. -/
def ChoosesByKey (q : Stock) (w : Watched) (e : Event) : Prop :=
  e = .call → Arrival w.machine →
    let r := postIntercept q w.machine.pc w.machine
    (EntersSetup r → w.since = true) ∧ (w.since = false → DiskReadable w.machine → BootsDisk r)

/-- No arrival has keys of earlier POSTs only. -/
def NoStaleKey (w : Watched) (e : Event) : Prop :=
  e = .call → Arrival w.machine → w.ever = true → w.since = true

structure Latched (w : Watched) : Prop where
  env : RealisticBoot w.machine.getenv
  latch : w.machine.statics.keyPressed = w.ever

section Steps
variable {q : Stock} {m : Machine}

theorem atBoot_eip (d : Diag) : (m.atBoot d).env = m.env := by
  unfold Machine.atBoot
  split <;> rfl

theorem reportSetup_env (r : Report) : (reportSetup r m).env = m.env := by
  unfold reportSetup
  split <;> rfl

theorem enterEasySetup_enters (forced : Bool) (base : (m.env.segs .cs).base = 0xF0000) :
    EntersSetup (true, enterEasySetup forced m) := by
  refine ⟨rfl, ?_⟩
  unfold enterEasySetup
  split
  · left
    unfold enterImage
    rw [reportSetup_env]
    exact ⟨rfl, rfl⟩
  · right
    refine ⟨?_, rfl⟩
    change ((reportSetup _ m).env.segs .cs).base = _
    rw [reportSetup_env]
    exact base

theorem EntersSetup.not_bootsDisk {r : Bool × Machine} (enters : EntersSetup r) : ¬ BootsDisk r := by
  rintro ⟨-, -, base, -⟩
  rcases enters with ⟨-, ⟨image, -⟩ | ⟨rom, -⟩⟩
  · exact absurd (image.symm.trans base) (by decide)
  · exact absurd (rom.symm.trans base) (by decide)

/-- The choice made at an arrival: by the latch, then by the disk. -/
theorem arrival_choice (boot : RealisticBoot m.getenv) (arrival : Arrival m) :
    let r := postIntercept q m.pc m
    (m.statics.keyPressed = true ∧ EntersSetup r) ∨
    (m.statics.keyPressed = false ∧ DiskReadable m ∧ BootsDisk r ∧ ¬ EntersSetup r) ∨
    (m.statics.keyPressed = false ∧ ¬ DiskReadable m ∧ ¬ EntersSetup r) := by
  intro r
  obtain ⟨reaches, here, fresh⟩ := arrival
  have ui : m.has .pc110PostUi = true := boot.ui
  have noSetup : m.has .pc110Setup = false := by simp [Machine.has, boot.noSetup]
  have unpressed (noKey : ¬ (m.has .pc110PostUi ∧ m.statics.keyPressed = true)) : m.statics.keyPressed = false :=
    Bool.eq_false_iff.mpr fun key => noKey ⟨ui, key⟩
  rcases reaches.boot_takes (q := q) here with ⟨-, -, key, d, eq⟩ | ⟨-, forced, -⟩ |
    ⟨-, noKey, -, d, path, bf, named, opens, whole, eq⟩ | ⟨unread, d, eq⟩
  · have base : ((m.atBoot d).env.segs .cs).base = 0xF0000 := by rw [atBoot_eip]; exact here.1
    refine .inl ⟨key, ?_⟩
    simp only [r, eq]
    exact enterEasySetup_enters false base
  · exact absurd (noSetup.symm.trans forced) (by decide)
  · have boots : BootsDisk r := by simp only [r, eq]; exact ⟨rfl, rfl, rfl, rfl⟩
    exact .inr (.inl ⟨unpressed noKey, ⟨path, bf, named, opens, whole⟩, boots,
      fun enters => enters.not_bootsDisk boots⟩)
  · obtain ⟨noKey, -, unread⟩ := unread fresh
    refine .inr (.inr ⟨unpressed noKey, ?_, ?_⟩)
    · rintro ⟨path, bf, named, opens, whole⟩
      exact unread path bf named opens whole
    · simp only [r, eq]
      exact fun enters => Bool.noConfusion enters.1

/-- One arrival chooses by the keys of its POST exactly when the latch holds no stale key. -/
theorem choosesByKey_iff {w : Watched} (latched : Latched w) (e : Event) :
    ChoosesByKey q w e ↔ NoStaleKey w e := by
  constructor
  · rintro chooses rfl arrival ever
    rcases arrival_choice (q := q) latched.env arrival with ⟨-, enters⟩ | ⟨key, -⟩ | ⟨key, -⟩
    · exact (chooses rfl arrival).1 enters
    all_goals exact absurd (ever.symm.trans (latched.latch.symm.trans key)) (by decide)
  · rintro noStale rfl arrival
    rcases arrival_choice (q := q) latched.env arrival with ⟨key, enters⟩ |
      ⟨-, -, boots, avoids⟩ | ⟨-, unreadable, avoids⟩
    · have since := noStale rfl arrival (latched.latch.symm.trans key)
      exact ⟨fun _ => since, fun none => absurd (since.symm.trans none) (by decide)⟩
    · exact ⟨fun enters => absurd enters avoids, fun _ _ => boots⟩
    · exact ⟨fun enters => absurd enters avoids, fun _ readable => absurd readable unreadable⟩

theorem keyPressed_call (noSetup : m.getenv .pc110Setup = none) :
    (m.step q .call).statics.keyPressed = m.statics.keyPressed := by
  obtain ⟨⟨resets, moves, -⟩, -, -⟩ := postIntercept_frame q m.pc m
  change (postIntercept q m.pc m).2.statics.keyPressed = _
  cases moves with
  | stays kept | portReset _ _ _ kept | warmReset _ _ kept | boot _ _ kept | counts _ _ _ _ _ kept =>
    exact kept.keyPressed
  | setup _ _ forced => simp [Machine.has, noSetup] at forced

theorem watch_latched (q : Stock) (w : Watched) (e : Event) (latched : Latched w) :
    Latched (watch q e w) := by
  refine ⟨?_, ?_⟩
  · change RealisticBoot (w.machine.step q e).getenv
    rw [step_getenv]
    exact latched.env
  · cases e with
    | key => rfl
    | call => exact (keyPressed_call latched.env.noSetup).trans latched.latch
    | kbcReset =>
      refine Eq.trans ?_ latched.latch
      simp only [watch, Machine.step]
      split <;> rfl
    | guest | host | systemReset => exact latched.latch

end Steps

/-- From power-on, every arrival chooses by the keys of its own POST exactly when none has
stale keys only. -/
theorem run_choosesByKey_iff (q : Stock) (events : List Event) (env : Env)
    (mem : ByteMemory.Memory LsbBits.Byte) (bus : Nat → LsbBits.Byte)
    (getenv : EnvVar → Option String) (files : String → Option (List LsbBits.Byte))
    (boot : RealisticBoot getenv) :
    let w := Watched.start (.start env mem bus getenv files)
    Runs.Always (watch q) (ChoosesByKey q) events w ↔ Runs.Always (watch q) NoStaleKey events w :=
  Runs.always_iff (watch q) (fun w e latched _ => watch_latched q w e latched)
    (fun _ e latched => choosesByKey_iff latched e) events _ ⟨boot, rfl⟩

def realisticBoot : EnvVar → Option String
  | .pc110Post | .pc110PostUi => some "1"
  | .pc110Boot => some "disk.img"
  | _ => none

/-- A key and Easy-Setup, then a restart through F000:5516, up to the boot decision. -/
def restarted : List Event := [
  .key,
  .call,
  .guest (cpuAt 0x5516) (fun _ => 0) (fun _ => 0),
  .call,
  .guest (cpuAt 0x52BD) (fun _ => 0) (fun _ => 0)]

/-- A key for either POST. -/
def keyedTwice : List Event := [
  .key,
  .call,
  .guest (cpuAt 0x5516) (fun _ => 0) (fun _ => 0),
  .call,
  .key,
  .guest (cpuAt 0x52BD) (fun _ => 0) (fun _ => 0),
  .call]

theorem run_choosesByKey_keyedTwice :
    let w := Watched.start
      (.start (cpuAt 0x52BD) (fun _ => 0) (fun _ => 0) realisticBoot fun _ => some (List.replicate 512 0))
    Runs.Always (watch default) (ChoosesByKey default) keyedTwice w := by
  refine (run_choosesByKey_iff default keyedTwice _ _ _ _ _ ⟨rfl, rfl⟩).mpr ?_
  have other {w : Watched} {e : Event} (no : e ≠ .call) : NoStaleKey w e := fun call => absurd call no
  unfold keyedTwice
  refine ⟨other nofun, ?_, other nofun, ?_, other nofun, other nofun, ?_, trivial⟩
  all_goals exact fun _ _ _ => by decide +kernel

/-- The key of the first POST still enters Easy-Setup after the restart. -/
theorem not_choosesByKey_restarted : ¬ ∀ (q : Stock) (events : List Event) (env : Env)
    (mem : ByteMemory.Memory LsbBits.Byte) (bus : Nat → LsbBits.Byte)
    (getenv : EnvVar → Option String) (files : String → Option (List LsbBits.Byte)),
    RealisticBoot getenv →
    Runs.Always (watch q) (ChoosesByKey q) events (.start (.start env mem bus getenv files)) := by
  intro every
  let power : Watched := .start
    (.start (cpuAt 0x52BD) (fun _ => 0) (fun _ => 0) realisticBoot fun _ => some (List.replicate 512 0))
  let w := Runs.run (watch default) restarted power
  have last : ChoosesByKey default w .call :=
    (every default (restarted ++ [.call]) _ _ _ _ _ ⟨rfl, rfl⟩).at
  have arrival : Arrival w.machine :=
    ⟨⟨by decide +kernel, by decide +kernel, by decide +kernel, by decide +kernel⟩,
      by decide +kernel, by decide +kernel⟩
  have enters : EntersSetup (postIntercept default w.machine.pc w.machine) :=
    ⟨by decide +kernel, .inr (by decide +kernel)⟩
  have stale : w.since = false := by decide +kernel
  exact Bool.noConfusion (stale.symm.trans ((last rfl arrival).1 enters))

end Pc110
