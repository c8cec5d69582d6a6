import Pc110.ResumeMagic

/-! The mode-set detour of the realistic boot, over runs with both reset paths. The latch
behind it is dated by the reset counter, which only F000:5516 counts up: a port-level reset
starts a POST that finds the detour done. Nothing records an outstanding detour, so the
sentinel answers whoever comes by. -/
namespace Pc110

def TakesModeSet (q : Stock) (m : Machine) : Prop :=
  ∃ d, postIntercept q m.pc m = (true, injectModeSet q (m.inBios d))

def TakesSentinel (q : Stock) (m : Machine) : Prop :=
  ∃ d, postIntercept q m.pc m = (true, modeSetDone (m.inBios d))

/-- The machine with the history of its run: whether F000:542C is yet to be reached since
the last CPU reset, whether it was reached since the last reset at F000:5516, whether
F000:FF00 is yet to be reached behind the POST's first arrival there, and whether a mode set
injected since the last CPU reset still waits for its sentinel. -/
structure Detours where
  machine : Machine
  fresh : Bool
  reached : Bool
  awaited : Bool
  pending : Bool

def Detours.start (m : Machine) : Detours := ⟨m, true, false, false, false⟩

def follow (q : Stock) (e : Event) (w : Detours) : Detours :=
  let m := w.machine
  match e with
  | .call =>
    let (taken, s) := postIntercept q m.pc m
    if Resets q m .call then ⟨s, true, w.reached && !At 0x5516 m, false, false⟩
    else if At 0x542C m then ⟨s, false, true, w.awaited || w.fresh, w.pending || taken⟩
    else if At 0xFF00 m then { w with machine := s, awaited := false, pending := false }
    else { w with machine := s }
  | e => { w with machine := m.step q e }

/-- The first arrival of a POST at F000:542C takes the mode set and no later one does, and
the sentinel acts for an outstanding detour only. -/
def OneDetour (q : Stock) (w : Detours) (e : Event) : Prop :=
  e = .call →
    (At 0x542C w.machine → (TakesModeSet q w.machine ↔ w.fresh = true)) ∧
    (At 0xFF00 w.machine → TakesSentinel q w.machine → w.pending = true)

/-- No POST begun by a port-level reset reaches F000:542C behind an earlier one that did,
and the guest comes to F000:FF00 only behind that arrival of its POST, and once at most. -/
def DetoursMeet (w : Detours) (e : Event) : Prop :=
  e = .call →
    (At 0x542C w.machine → w.fresh = true → w.reached = false) ∧
    (At 0xFF00 w.machine → w.awaited = true)

/-- The mode is set for the POST that the reset counter names. -/
def Statics.SetThisPost (st : Statics) : Prop := st.rbModeset = true ∧ st.rbGen = st.resetCount

/-- The latch holds the arrivals since the last reset at F000:5516, and while each POST has
its one detour, the detour is outstanding where it is awaited. -/
structure DetoursLatched (w : Detours) : Prop where
  ui : w.machine.has .pc110PostUi = true
  latch : w.machine.statics.SetThisPost ↔ w.reached = true
  first : w.fresh = false → w.reached = true
  outstanding : w.pending = w.awaited

section Steps
variable {q : Stock} {m s : Machine}

theorem inBios_latch (ui : m.has .pc110PostUi = true) (d : Diag) :
    (m.inBios d).statics.rbGen = (m.inBios d).statics.resetCount ∧
    ((m.inBios d).statics.rbModeset = true ↔ m.statics.SetThisPost) := by
  by_cases stale : m.statics.rbGen = m.statics.resetCount <;>
    simp [Machine.inBios, Statics.fresh, Statics.SetThisPost, ui, stale]

theorem inBios_setThisPost (ui : m.has .pc110PostUi = true) (d : Diag) :
    (m.inBios d).statics.SetThisPost ↔ m.statics.SetThisPost := by
  rw [← (inBios_latch ui d).2, Statics.SetThisPost, and_iff_left (inBios_latch ui d).1]

theorem GuestOnly.setThisPost {m' : Machine} (guest : GuestOnly m m') :
    m'.statics.SetThisPost ↔ m.statics.SetThisPost := by rw [guest.statics]

/-- The teletype: a mode set unless the latch says there was one. -/
theorem teletype_call (ui : m.has .pc110PostUi = true) (here : At 0x542C m) :
    (¬ m.statics.SetThisPost ∧ TakesModeSet q m ∨
      m.statics.SetThisPost ∧ (postIntercept q m.pc m).1 = false) ∧
    (m.step q .call).statics.SetThisPost := by
  have apart {off : BitVec 16} (there : (Site.of m m.pc).rom off) : off = 0x542C :=
    there.2.symm.trans here.2.2
  change _ ∧ (postIntercept q m.pc m).2.statics.SetThisPost
  have takes := here.1.takes (q := q)
  unfold TakesModeSet
  generalize postIntercept q m.pc m = r at *
  obtain ⟨taken, s⟩ := r
  rcases takes with rom | ⟨unhandled, -⟩
  · change TakesRom q _ m taken s at rom
    cases rom with
    | inject d _ _ unset =>
      have latch := inBios_latch ui d
      refine ⟨.inl ⟨fun set => ?_, d, rfl⟩, ?_⟩
      · exact absurd (latch.2.mpr set) (by simp [unset])
      · rw [(injectModeSet_guestOnly q (m.inBios d)).setThisPost]
        exact ⟨rfl, latch.1⟩
    | tick d _ _ set =>
      have latch := inBios_latch ui d
      refine ⟨.inr ⟨latch.2.mp set, rfl⟩, ?_⟩
      rw [(countTick_guestOnly (m.inBios d)).setThisPost]
      exact ⟨set, latch.1⟩
    | reported _ _ _ member => rw [here.2.2] at member; exact absurd member (by decide)
    | sentinel _ _ there | warmReset _ there | resume _ there | int13 _ there | uiSetup _ _ there
    | setup _ there | boot _ _ _ there | noBoot _ there => exact absurd (apart there) (by decide)
  · exact absurd here.2 (unhandled.teletype ui)

/-- The sentinel acts for every arrival. -/
theorem sentinel_call (ui : m.has .pc110PostUi = true) (here : At 0xFF00 m) : TakesSentinel q m := by
  have apart {off : BitVec 16} (there : (Site.of m m.pc).rom off) : off = 0xFF00 :=
    there.2.symm.trans here.2.2
  have takes := here.1.takes (q := q)
  unfold TakesSentinel
  generalize postIntercept q m.pc m = r at *
  obtain ⟨taken, s⟩ := r
  rcases takes with rom | ⟨unhandled, -⟩
  · change TakesRom q _ m taken s at rom
    cases rom with
    | sentinel d => exact ⟨d, rfl⟩
    | reported _ _ _ member => rw [here.2.2] at member; exact absurd member (by decide)
    | inject _ _ there | tick _ _ there | warmReset _ there | resume _ there | int13 _ there
    | uiSetup _ _ there | setup _ there | boot _ _ _ there | noBoot _ there =>
      exact absurd (apart there) (by decide)
  · exact absurd here.2 (unhandled.sentinel ui)

/-- The reset at F000:5516 dates the latch back. -/
theorem warmReset_call (ui : m.has .pc110PostUi = true) (here : At 0x5516 m) :
    Resets q m .call ∧ ¬ (m.step q .call).statics.SetThisPost := by
  obtain ⟨d, call⟩ := postIntercept_warmReset (q := q) here.1 here.2
  obtain ⟨m', guest, -, reset⟩ := warmReset_cpuReset q (m.inBios d) (Site.of m m.pc).prevOff
  have after : m.step q .call = m'.cpuReset q := by
    change (postIntercept q m.pc m).2 = _
    rw [call, reset]
  constructor
  · have resets : m'.resets = m.resets := guest.resets
    rw [Resets, after, cpuReset_resets, resets]
    exact Nat.succ_ne_self _
  · rw [after]
    change ¬ m'.statics.SetThisPost
    rw [guest.setThisPost]
    rintro ⟨-, gen⟩
    have latch := (inBios_latch ui d).1
    simp only at gen
    omega

/-- Statics that tell the same of the detour: the POST the mode is set for, and the saved EAX. -/
structure Statics.SameDetour (a b : Statics) : Prop where
  gen : b.rbGen = a.rbGen
  modeset : b.rbModeset = a.rbModeset
  saved : b.rbSavedEax = a.rbSavedEax
  count : b.resetCount = a.resetCount

theorem Statics.SameDetour.setThisPost {a b : Statics} (same : a.SameDetour b) : b.SetThisPost ↔ a.SetThisPost := by
  rw [SetThisPost, SetThisPost, same.gen, same.modeset, same.count]

theorem inBios_savedEax (m : Machine) (d : Diag) : (m.inBios d).statics.rbSavedEax = m.statics.rbSavedEax := by
  simp only [Machine.inBios, Statics.fresh]
  split <;> rfl

theorem inBios_enabled (m : Machine) (d : Diag) : (m.inBios d).statics.enabled = some true := by
  simp only [Machine.inBios, Statics.fresh]
  split <;> rfl

/-- A call that neither sets the mode nor resets at F000:5516 keeps what the statics tell of the
detour, from before it or from behind the gate. -/
theorem call_detour (set : At 0x542C m → m.statics.SetThisPost) (noReset : ¬ At 0x5516 m) :
    (m.step q .call).statics.enabled = some m.enabled ∧
    (m.statics.SameDetour (m.step q .call).statics ∨
      ∃ d, (m.inBios d).statics.SameDetour (m.step q .call).statics) := by
  change (postIntercept q m.pc m).2.statics.enabled = _ ∧
    (m.statics.SameDetour (postIntercept q m.pc m).2.statics ∨
      ∃ d, (m.inBios d).statics.SameDetour (postIntercept q m.pc m).2.statics)
  have leaves {st : Statics} {s : Machine} (on : m.enabled = true) (d : Diag) (same : s.statics = st)
      (enabled : st.enabled = some true) (kept : (m.inBios d).statics.SameDetour st) :
      s.statics.enabled = some m.enabled ∧
        (m.statics.SameDetour s.statics ∨ ∃ d, (m.inBios d).statics.SameDetour s.statics) := by
    rw [same, on]
    exact ⟨enabled, .inr ⟨d, kept⟩⟩
  have enabled := inBios_enabled m
  have boot (d : Diag) : (m.atBoot d).statics.enabled = some true ∧
      (m.inBios d).statics.SameDetour (m.atBoot d).statics := by
    rw [atBoot_statics]
    exact ⟨enabled d, rfl, rfl, rfl, rfl⟩
  have taking := postIntercept_takes q m.pc m
  generalize (postIntercept q m.pc m).1 = taken at *
  generalize (postIntercept q m.pc m).2 = s at *
  cases taking with
  | disabled off => exact ⟨congrArg some off.symm, .inl ⟨rfl, rfl, rfl, rfl⟩⟩
  | emptyLog _ on | outside _ on => exact ⟨congrArg some on.symm, .inl ⟨rfl, rfl, rfl, rfl⟩⟩
  | portReset d on =>
    obtain ⟨m', guest, -, eq⟩ := portReset_cpuReset q (m.seen d)
    have reset : (m'.cpuReset q).statics = { (m.seen d).statics with kbcResetPending := false } := guest.statics
    rw [eq, reset]
    exact ⟨congrArg some on.symm, .inl ⟨rfl, rfl, rfl, rfl⟩⟩
  | rom _ _ reaches rom =>
    have on := reaches.on
    cases rom with
    | inject d ui here unset =>
      exact absurd (((inBios_latch ui d).2.mpr (set ⟨reaches, here⟩)).symm.trans unset) (by decide)
    | warmReset _ here => exact absurd ⟨reaches, here⟩ noReset
    | tick d => exact leaves on d (countTick_guestOnly _).statics (enabled d) ⟨rfl, rfl, rfl, rfl⟩
    | sentinel d => exact leaves on d (modeSetDone_guestOnly _).statics (enabled d) ⟨rfl, rfl, rfl, rfl⟩
    | reported d => exact leaves on d rfl (enabled d) ⟨rfl, rfl, rfl, rfl⟩
    | resume d => exact leaves on d (forceResume_guestOnly _).statics (enabled d) ⟨rfl, rfl, rfl, rfl⟩
    | int13 d => exact leaves on d (int13_guestOnly _).statics (enabled d) ⟨rfl, rfl, rfl, rfl⟩
    | uiSetup d => exact leaves on d (enterEasySetup_guestOnly _ false).statics (boot d).1 (boot d).2
    | setup d =>
      obtain ⟨gen, modeset, saved, count⟩ := (boot d).2
      exact leaves on d (enterEasySetup_guestOnly _ true).statics (boot d).1 ⟨gen, modeset, saved, count⟩
    | boot d path =>
      obtain ⟨gen, modeset, saved, count⟩ := (boot d).2
      exact leaves on d (bootDisk_guestOnly _ path _).statics (boot d).1 ⟨gen, modeset, saved, count⟩
    | noBoot d => exact leaves on d rfl (boot d).1 (boot d).2
  | completer _ _ reaches _ completer =>
    have on := reaches.on
    cases completer with
    | memoryTest d | counting d | passes d => exact leaves on d rfl (enabled d) ⟨rfl, rfl, rfl, rfl⟩
    | atOnce d => exact leaves on d (completeAtOnce_guestOnly _ _).statics (enabled d) ⟨rfl, rfl, rfl, rfl⟩
    | completes d c => exact leaves on d (complete_guestOnly q _ _ c).statics (enabled d) ⟨rfl, rfl, rfl, rfl⟩

/-- Elsewhere the latch and the counter stay in step. -/
theorem other_call (ui : m.has .pc110PostUi = true) (noTeletype : ¬ At 0x542C m) (noReset : ¬ At 0x5516 m) :
    (m.step q .call).statics.SetThisPost ↔ m.statics.SetThisPost := by
  rcases (call_detour (q := q) (fun here => absurd here noTeletype) noReset).2 with same | ⟨d, same⟩
  · exact same.setThisPost
  · rw [same.setThisPost, inBios_setThisPost ui d]

/-- Between calls nothing moves the latch. -/
theorem other_step (e : Event) (other : e ≠ .call) :
    (m.step q e).statics.SetThisPost ↔ m.statics.SetThisPost := by
  cases e with
  | call => exact absurd rfl other
  | kbcReset =>
    simp only [Machine.step]
    split <;> rfl
  | key | guest | host | systemReset => exact Iff.rfl

end Steps

section Runs
variable {q : Stock} {w : Detours}

theorem At.noPort {off : BitVec 16} {m : Machine} (here : At off m) : ¬ ServesPort m := fun serves =>
  absurd (serves.pending.symm.trans here.1.idle) (by decide)

/-- The arrival at F000:542C sets the mode where it is the first since F000:5516, and
handles nothing elsewhere. -/
theorem modeSet_iff (latched : DetoursLatched w) (here : At 0x542C w.machine) :
    (TakesModeSet q w.machine ↔ ¬ w.reached = true) ∧
    (TakesModeSet q w.machine ↔ (postIntercept q w.machine.pc w.machine).1 = true) := by
  rw [← latched.latch]
  rcases (teletype_call (q := q) latched.ui here).1 with ⟨unset, takes⟩ | ⟨set, counts⟩
  · refine ⟨iff_of_true takes unset, iff_of_true takes ?_⟩
    obtain ⟨d, eq⟩ := takes
    rw [eq]
  · have not : ¬ TakesModeSet q w.machine := by
      rintro ⟨d, eq⟩
      rw [eq] at counts
      exact Bool.noConfusion counts
    exact ⟨iff_of_false not (not_not.mpr set), iff_of_false not (Bool.eq_false_iff.mp counts)⟩

theorem follow_latched (e : Event) (latched : DetoursLatched w) (rule : OneDetour q w e) :
    DetoursLatched (follow q e w) := by
  have ui (s : Machine) (same : s.getenv = w.machine.getenv) : s.has .pc110PostUi = true := by
    rw [Machine.has, same]
    exact latched.ui
  by_cases call : e = .call
  case neg =>
    have kept : follow q e w = { w with machine := w.machine.step q e } := by
      cases e with
      | call => exact absurd rfl call
      | key | kbcReset | guest | host | systemReset => rfl
    rw [kept]
    exact ⟨ui _ (step_getenv q w.machine e), (other_step e call).trans latched.latch, latched.first,
      latched.outstanding⟩
  subst call
  have host := ui _ (step_getenv q w.machine .call)
  by_cases reset : Resets q w.machine .call
  · have after : follow q .call w =
        ⟨w.machine.step q .call, true, w.reached && !At 0x5516 w.machine, false, false⟩ := if_pos reset
    rw [after]
    refine ⟨host, ?_, fun stale => Bool.noConfusion stale, rfl⟩
    rcases resets_call reset with port | warm
    · have elsewhere (off : BitVec 16) : ¬ At off w.machine := fun here => here.noPort port
      rw [other_call latched.ui (elsewhere _) (elsewhere _), latched.latch]
      simp [elsewhere]
    · have warm : At 0x5516 w.machine := warm
      have cleared : (w.reached && !At 0x5516 w.machine) = false := by
        rw [decide_eq_true warm, Bool.not_true, Bool.and_false]
      exact iff_of_false (warmReset_call latched.ui warm).2 (Bool.eq_false_iff.mp cleared)
  have noWarm : ¬ At 0x5516 w.machine := fun warm => reset (warmReset_call latched.ui warm).1
  by_cases teletype : At 0x542C w.machine
  · have after : follow q .call w = ⟨w.machine.step q .call, false, true, w.awaited || w.fresh,
        w.pending || (postIntercept q w.machine.pc w.machine).1⟩ :=
      (if_neg reset).trans (if_pos teletype)
    have set := (teletype_call (q := q) latched.ui teletype).2
    have first : (postIntercept q w.machine.pc w.machine).1 = w.fresh := by
      rw [Bool.eq_iff_iff, ← (modeSet_iff latched teletype).2]
      exact (rule rfl).1 teletype
    rw [after]
    refine ⟨host, iff_of_true set rfl, fun _ => rfl, ?_⟩
    rw [first, latched.outstanding]
  · have latch := (other_call (q := q) latched.ui teletype noWarm).trans latched.latch
    by_cases sentinel : At 0xFF00 w.machine
    · have after : follow q .call w =
          { w with machine := w.machine.step q .call, awaited := false, pending := false } :=
        (if_neg reset).trans ((if_neg teletype).trans (if_pos sentinel))
      rw [after]
      exact ⟨host, latch, latched.first, rfl⟩
    · have after : follow q .call w = { w with machine := w.machine.step q .call } :=
        (if_neg reset).trans ((if_neg teletype).trans (if_neg sentinel))
      rw [after]
      exact ⟨host, latch, latched.first, latched.outstanding⟩

theorem oneDetour_iff (e : Event) (latched : DetoursLatched w) : OneDetour q w e ↔ DetoursMeet w e := by
  have outstanding := latched.outstanding
  constructor
  · rintro rule rfl
    refine ⟨fun here fresh => ?_, fun here => ?_⟩
    · exact Bool.eq_false_iff.mpr ((modeSet_iff latched here).1.mp (((rule rfl).1 here).mpr fresh))
    · rw [← outstanding]
      exact (rule rfl).2 here (sentinel_call latched.ui here)
  · rintro meet rfl
    refine ⟨fun here => ?_, fun here _ => outstanding.trans ((meet rfl).2 here)⟩
    rw [(modeSet_iff latched here).1]
    cases fresh : w.fresh with
    | true => exact iff_of_true (Bool.eq_false_iff.mp ((meet rfl).1 here fresh)) rfl
    | false => exact iff_of_false (not_not.mpr (latched.first fresh)) Bool.false_ne_true

end Runs

/-- From power-on, every POST has its one detour exactly when the detours meet. -/
theorem run_oneDetour_iff (q : Stock) (events : List Event) (env : Env)
    (mem : ByteMemory.Memory LsbBits.Byte) (bus : Nat → LsbBits.Byte)
    (getenv : EnvVar → Option String) (files : String → Option (List LsbBits.Byte))
    (ui : (getenv .pc110PostUi).isSome = true) :
    let w := Detours.start (.start env mem bus getenv files)
    Runs.Always (follow q) (OneDetour q) events w ↔ Runs.Always (follow q) DetoursMeet events w :=
  Runs.always_iff (follow q) (fun _ e latched rule => follow_latched e latched rule)
    (fun _ e latched => oneDetour_iff e latched) events _
    ⟨ui, iff_of_false (fun set => Bool.noConfusion set.1) Bool.false_ne_true,
      fun stale => Bool.noConfusion stale, rfl⟩

def postUi : EnvVar → Option String
  | .pc110Post | .pc110PostUi => some "1"
  | _ => none

theorem run_oneDetour_first :
    Runs.Always (follow default) (OneDetour default) [.call]
      (.start (.start (cpuAt 0x542C) (fun _ => 0) (fun _ => 0) postUi fun _ => none)) :=
  (run_oneDetour_iff default [.call] _ _ _ postUi _ rfl).mpr
    ⟨fun _ => ⟨fun _ _ => rfl, fun sentinel => absurd sentinel (by decide +kernel)⟩, trivial⟩

/-- The detour of the first POST, a reset by the driver, and the next POST's teletype. -/
def portRestarted : List Event := [
  .call,
  .kbcReset,
  .call,
  .guest (cpuAt 0x542C) (fun _ => 0) (fun _ => 0)]

/-- Behind a port-level reset the mode is not set again. -/
theorem not_oneDetour : ¬ ∀ (q : Stock) (events : List Event) (env : Env)
    (mem : ByteMemory.Memory LsbBits.Byte) (bus : Nat → LsbBits.Byte)
    (getenv : EnvVar → Option String) (files : String → Option (List LsbBits.Byte)),
    (getenv .pc110PostUi).isSome = true →
    Runs.Always (follow q) (OneDetour q) events (.start (.start env mem bus getenv files)) := by
  intro every
  let power : Detours := .start (.start (cpuAt 0x542C) (fun _ => 0) (fun _ => 0) postUi fun _ => none)
  let w := Runs.run (follow default) portRestarted power
  have last : OneDetour default w .call := (every default (portRestarted ++ [.call]) _ _ _ _ _ rfl).at
  have here : At 0x542C w.machine :=
    ⟨⟨by decide +kernel, by decide +kernel, by decide +kernel, by decide +kernel⟩, by decide +kernel⟩
  have fresh : w.fresh = true := by decide +kernel
  have counts : (postIntercept default w.machine.pc w.machine).1 = false := by decide +kernel
  obtain ⟨d, eq⟩ := ((last rfl).1 here).mpr fresh
  rw [eq] at counts
  exact Bool.noConfusion counts

end Pc110
