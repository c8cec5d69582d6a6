import Pc110.PostInterceptCases

/-! What the intercept does to code outside the BIOS. A call is transparent when the block
runs as if there were no intercept. Under CS base 20000 the POST completers apply to any
code, booted or not, which is where transparency is lost. -/
namespace Pc110

/-- Two machines the guest cannot tell apart. The latches of the file agree too; only
counters, rings and the `rb_*` state of the POST may differ. -/
structure SameGuest (q : Stock) (m m' : Machine) : Prop where
  regs : m'.env.regs = m.env.regs
  segs : m'.env.segs = m.env.segs
  eip : m'.env.eip = m.env.eip
  flags : cpuComputeEflags q m'.env = cpuComputeEflags q m.env
  control : m'.env.cr0 = m.env.cr0 ∧ m'.env.cpl = m.env.cpl
  tables : m'.env.gdt = m.env.gdt ∧ m'.env.ldt = m.env.ldt ∧ m'.env.idt = m.env.idt
  mem : m'.mem = m.mem
  effects : m'.effects = m.effects
  latches : m'.statics.booted = m.statics.booted ∧ m'.statics.keyPressed = m.statics.keyPressed ∧
    m'.statics.kbcResetPending = m.statics.kbcResetPending ∧ m'.statics.entered = m.statics.entered

def Transparent (q : Stock) (pc : Word) (m : Machine) : Prop :=
  (postIntercept q pc m).1 = false ∧ SameGuest q m (postIntercept q pc m).2

/-- The memory test has already reported success. -/
def MemoryTestPassed (q : Stock) (m : Machine) : Prop :=
  lo16 (m.env.regs .eax) = 0 ∧ cpuComputeEflags q m.env &&& ccZ = ccZ ∧
    cpuComputeEflags q m.env &&& ccC = 0

structure Undisturbed (q : Stock) (pc : Word) (m : Machine) : Prop where
  service : readsErrorLog pc m = false
  atOnce : (m.env.segs .cs).base = 0x20000 → (Site.of m pc).off ∉ completedAtOnce
  memoryTest : (m.env.segs .cs).base = 0x20000 → (Site.of m pc).off = 0x61BE → MemoryTestPassed q m
  loops : (m.env.segs .cs).base = 0x20000 → ∀ c : Counter, c.site (Site.of m pc).off →
    m.statics.hits c + 1 < c.threshold

theorem sameGuest_seen (q : Stock) (m : Machine) (d : Diag) : SameGuest q m (m.seen d) :=
  ⟨rfl, rfl, rfl, rfl, ⟨rfl, rfl⟩, ⟨rfl, rfl, rfl⟩, rfl, rfl, rfl, rfl, rfl, rfl⟩

theorem sameGuest_inBios (q : Stock) (m : Machine) (d : Diag) : SameGuest q m (m.inBios d) :=
  ⟨rfl, rfl, rfl, rfl, ⟨rfl, rfl⟩, ⟨rfl, rfl, rfl⟩, rfl, rfl,
    by simp, by simp, by simp, by simp⟩

theorem SameGuest.setHits {q : Stock} {m m' : Machine} (same : SameGuest q m m') (c : Counter) (h : Nat) :
    SameGuest q m (m'.setHits c h) :=
  ⟨same.regs, same.segs, same.eip, same.flags, same.control, same.tables, same.mem, same.effects,
    same.latches⟩

/-- The flags of a passed memory test, whatever form the condition codes were in. -/
theorem passMemoryTest_flags (q : Stock) (m : Machine) :
    cpuComputeEflags q (passMemoryTest q m).env = (cpuComputeEflags q m.env ||| ccZ) &&& ~~~ccC := by
  simp only [passMemoryTest, setCf, setZf, cpuComputeEflags_pcStoreEflags]
  rfl

theorem passed_flags_iff (f : Word) :
    (f ||| ccZ) &&& ~~~ccC = f ↔ f &&& ccZ = ccZ ∧ f &&& ccC = 0 := by
  constructor
  · intro same
    rw [← same]
    constructor
    · ext i hi; simp [ccZ, ccC]; interval_cases i <;> simp
    · ext i hi; simp [ccZ, ccC]; interval_cases i <;> simp
  · rintro ⟨zero, carry⟩
    have bit6 : f.getLsbD 6 = true := by simpa [ccZ] using congrArg (·.getLsbD 6) zero
    have bit0 : f.getLsbD 0 = false := by simpa [ccC] using congrArg (·.getLsbD 0) carry
    ext i hi
    simp [ccZ, ccC]
    interval_cases i <;> simp_all

theorem cleared_low_iff (r : Word) : r &&& ~~~0xFFFF = r ↔ lo16 r = 0 := by
  constructor
  · intro same
    rw [← same]
    ext i hi; simp [lo16]
  · intro low
    have bit (j : Nat) (h : j < 16) : r[j] = false := by
      simpa [lo16, h, BitVec.getLsbD_eq_getElem (show j < 32 by omega)] using congrArg (·.getLsbD j) low
    ext i hi
    simp
    interval_cases i <;> simp [bit]

theorem sameGuest_passMemoryTest (q : Stock) (m : Machine) (d : Diag) :
    SameGuest q m (passMemoryTest q (m.inBios d)) ↔ MemoryTestPassed q m := by
  have flags := passMemoryTest_flags q (m.inBios d)
  have regs : (passMemoryTest q (m.inBios d)).env.regs =
      Function.update m.env.regs .eax (m.env.regs .eax &&& ~~~0xFFFF) := rfl
  constructor
  · intro same
    have eax := congrFun (regs.symm.trans same.regs) .eax
    rw [Function.update_self] at eax
    exact ⟨(cleared_low_iff _).mp eax, (passed_flags_iff _).mp (flags.symm.trans same.flags)⟩
  · rintro ⟨low, passed⟩
    have base := sameGuest_inBios q m d
    refine ⟨?_, rfl, rfl, flags.trans ((passed_flags_iff _).mpr passed), ⟨rfl, rfl⟩, ⟨rfl, rfl, rfl⟩,
      rfl, rfl, base.latches⟩
    rw [regs, (cleared_low_iff _).mpr low, Function.update_eq_self]

/-- The handlers of the F-segment act under its CS base. -/
theorem TakesRom.base {q : Stock} {site : Site} {m s : Machine} {taken : Bool}
    (taking : TakesRom q site m taken s) : site.csbase = 0xF0000 := by
  cases taking <;> first | assumption | exact And.left ‹_›

/-- A call from outside the F-segment is transparent exactly when no branch acts on it. -/
theorem transparent_iff (q : Stock) (pc : Word) (m : Machine) (on : m.enabled = true)
    (idle : m.statics.kbcResetPending = false) (outside : (m.env.segs .cs).base ≠ 0xF0000) :
    Transparent q pc m ↔ Undisturbed q pc m := by
  unfold Transparent
  have taking := postIntercept_takes q pc m
  generalize (postIntercept q pc m).1 = taken at *
  generalize (postIntercept q pc m).2 = s at *
  cases taking with
  | disabled off => simp [on] at off
  | emptyLog d _ service =>
    exact ⟨fun h => Bool.noConfusion h.1, fun h => by simp [h.service] at service⟩
  | portReset d _ _ pending => simp [idle] at pending
  | outside d _ service _ _ other =>
    refine ⟨fun _ => ⟨service, ?_, ?_, ?_⟩, fun _ => ⟨rfl, sameGuest_seen q m d⟩⟩
    all_goals exact fun base => absurd base other
  | rom _ _ reaches rom => exact absurd rom.base outside
  | completer _ _ reaches unhandled completer =>
    have base : (m.env.segs .cs).base = 0x20000 := reaches.gate.resolve_left outside
    cases completer with
    | memoryTest d off =>
      have apart (c : Counter) : ¬ c.site (Site.of m pc).off := fun h => (site_apart h).2.2 off
      refine ⟨fun h => ⟨reaches.service, ?_, ?_, ?_⟩, fun h => ⟨rfl, ?_⟩⟩
      · rw [off]; exact fun _ => by decide
      · exact fun _ _ => (sameGuest_passMemoryTest q m d).mp h.2
      · exact fun _ c site => absurd site (apart c)
      · exact (sameGuest_passMemoryTest q m d).mpr (h.memoryTest base off)
    | atOnce d member => exact ⟨fun h => Bool.noConfusion h.1, fun h => absurd member (h.atOnce base)⟩
    | counting d c site few =>
      obtain ⟨once, _, test⟩ := site_apart site
      refine ⟨fun _ => ⟨reaches.service, fun _ => once, fun _ off => absurd off test, ?_⟩,
        fun _ => ⟨rfl, (sameGuest_inBios q m d).setHits c _⟩⟩
      intro _ c' site'
      rw [← Counter.site_unique site site']
      exact few
    | completes d c site many =>
      exact ⟨fun h => Bool.noConfusion h.1, fun h => absurd (h.loops base c site) (Nat.not_lt.mpr many)⟩
    | passes d test once loops =>
      exact ⟨fun _ => ⟨reaches.service, fun _ => once, fun _ off => absurd off test,
        fun _ c site => absurd site (loops c)⟩, fun _ => ⟨rfl, sameGuest_inBios q m d⟩⟩

/-- Booted code at CS:IP = 2000:off. -/
def driverAt (off : Word) : Machine :=
  { Machine.start
      { (default : Env) with
        segs := fun | .cs => ⟨0x2000, 0x20000, 0xFFFF, 0⟩ | _ => default
        eip := off }
      (fun _ => 0) (fun _ => 0) (fun v => if v = .pc110Post then some "1" else none) (fun _ => none) with
    statics := { Statics.initial with booted := true } }

theorem transparent_driverAt : Transparent default 0x20100 (driverAt 0x100) := by
  apply (transparent_iff default 0x20100 (driverAt 0x100) rfl rfl (by decide)).mpr
  refine ⟨rfl, fun _ => by decide, fun _ off => absurd off (by decide), fun _ c site => ?_⟩
  cases c <;> exact absurd site (by decide)

/-- A driver that happens to run at 2000:6981 is thrown out of its code. -/
theorem not_transparent_driverAt : ¬ ∀ (q : Stock) (pc : Word) (m : Machine), m.enabled = true →
    m.statics.booted = true → m.statics.kbcResetPending = false → (m.env.segs .cs).base ≠ 0xF0000 →
    Transparent q pc m := by
  intro every
  have taken : (postIntercept default 0x26981 (driverAt 0x6981)).1 = true := rfl
  have left := (every default 0x26981 (driverAt 0x6981) rfl rfl rfl (by decide)).1
  exact Bool.noConfusion (taken.symm.trans left)

end Pc110
