import Pc110.PostIntercept

/-! Everything one call of the intercept can do. `Takes` has a constructor for each way the
cascade ends, with the tests that lead there; properties of single calls are proved by
cases on it. -/
namespace Pc110

open Cascade (guarded run_branch)

namespace Counter

def site (off : BitVec 16) : Counter → Prop
  | .h6943 => off = 0x6943
  | .hC960 => off = 0xC960
  | .hEA90 => off = 0xEA90
  | .h6961 => off = 0x6961
  | .h53C1 => off = 0x53C1
  | .hCksum => 0x3CC1 ≤ off ∧ off < 0x3CC8
  | .hCopy => off = 0x3C34
  | .hDelay => 0x4139 ≤ off ∧ off ≤ 0x413E
  | .hMempat => (0x61DB ≤ off ∧ off ≤ 0x61E0) ∨ (0x61E9 ≤ off ∧ off ≤ 0x61EE)

instance (off : BitVec 16) : (c : Counter) → Decidable (c.site off)
  | .h6943 => inferInstanceAs (Decidable (off = 0x6943))
  | .hC960 => inferInstanceAs (Decidable (off = 0xC960))
  | .hEA90 => inferInstanceAs (Decidable (off = 0xEA90))
  | .h6961 => inferInstanceAs (Decidable (off = 0x6961))
  | .h53C1 => inferInstanceAs (Decidable (off = 0x53C1))
  | .hCksum => inferInstanceAs (Decidable (0x3CC1 ≤ off ∧ off < 0x3CC8))
  | .hCopy => inferInstanceAs (Decidable (off = 0x3C34))
  | .hDelay => inferInstanceAs (Decidable (0x4139 ≤ off ∧ off ≤ 0x413E))
  | .hMempat => inferInstanceAs
      (Decidable ((0x61DB ≤ off ∧ off ≤ 0x61E0) ∨ (0x61E9 ≤ off ∧ off ≤ 0x61EE)))

def threshold : Counter → Nat
  | .h6943 | .hEA90 | .h6961 => 1024
  | .hC960 | .h53C1 | .hCksum => 4096
  | .hCopy => 512
  | .hDelay => 256
  | .hMempat => 128

def complete (q : Stock) (off : BitVec 16) : Counter → Machine → Machine
  | .h6943, m => pitReady q m
  | .hC960, m => (clearCx m).setEip 0xC966
  | .hEA90, m => (clearCx m).setEip 0xEA92
  | .h6961, m => statusReady m
  | .h53C1, m => m.setEip 0x53CE
  | .hCksum, m => completeChecksum m off
  | .hCopy, m => completeCopy q m off
  | .hDelay, m => completeDelay m
  | .hMempat, m => completeMempat q m off

theorem site_unique {off : BitVec 16} {c c' : Counter} (h : c.site off) (h' : c'.site off) : c = c' := by
  cases c <;> cases c' <;> first | rfl | (simp only [site] at h h'; bv_omega)

end Counter

def completedAtOnce : List (BitVec 16) :=
  [0x6981, 0x6D3A, 0x3D90, 0x6998, 0x6999, 0x52BE, 0x52BF, 0x4A51]

def completeAtOnce (off : BitVec 16) (m : Machine) : Machine :=
  if off = 0x6981 then (m.setReg .ebx (set16 (m.env.regs .ebx) 0x1700)).setEip 0x698F
  else if off = 0x6D3A then skipOptionRom m
  else if off = 0x3D90 then m.setEip 0x3D9E
  else if off = 0x6998 ∨ off = 0x6999 then m.setEip 0x699A
  else if off = 0x52BE ∨ off = 0x52BF then m.setEip 0x52C0
  else postHalt m

def reportOffsets : List (BitVec 16) := resetGates ++ [0x5B68, 0xE9CE, 0x4B75, 0x4B81, 0x469D]

/-- The offsets handled under CS base F0000 only. -/
def romOffsets : List (BitVec 16) :=
  [0x542C, 0xFF00, 0x5516] ++ reportOffsets ++ [0x4656, 0xD2D7, 0x52BD]

theorem site_apart {off : BitVec 16} {c : Counter} (h : c.site off) :
    off ∉ completedAtOnce ∧ off ∉ romOffsets ∧ off ≠ 0x61BE := by
  simp only [completedAtOnce, romOffsets, reportOffsets, resetGates, List.mem_append, List.mem_cons,
    List.not_mem_nil, or_false, not_or]
  cases c <;> simp only [Counter.site] at h <;> bv_omega

/-- The `rb_*` state of the POST the call belongs to. -/
def Statics.fresh (st : Statics) (ui : Bool) : Statics :=
  if ui ∧ st.rbGen ≠ st.resetCount then
    { st with rbGen := st.resetCount, rbModeset := false, rbTicks := 0 }
  else st

namespace Machine

def seen (m : Machine) (d : Diag) : Machine :=
  { m with statics := { m.statics with enabled := some true }, diag := d }

def inBios (m : Machine) (d : Diag) : Machine :=
  { m with
    statics := { m.statics with enabled := some true }.fresh (m.has .pc110PostUi)
    diag := d }

/-- Only the `rb_*` state and `enabled` differ. -/
theorem inBios_statics (m : Machine) (d : Diag) :
    (m.inBios d).statics.booted = m.statics.booted ∧
    (m.inBios d).statics.keyPressed = m.statics.keyPressed ∧
    (m.inBios d).statics.kbcResetPending = m.statics.kbcResetPending ∧
    (m.inBios d).statics.entered = m.statics.entered ∧
    (m.inBios d).statics.resetCount = m.statics.resetCount ∧
    (m.inBios d).statics.hits = m.statics.hits := by
  unfold inBios Statics.fresh
  split <;> exact ⟨rfl, rfl, rfl, rfl, rfl, rfl⟩

@[simp] theorem inBios_booted (m : Machine) (d : Diag) :
    (m.inBios d).statics.booted = m.statics.booted := (inBios_statics m d).1

@[simp] theorem inBios_keyPressed (m : Machine) (d : Diag) :
    (m.inBios d).statics.keyPressed = m.statics.keyPressed := (inBios_statics m d).2.1

@[simp] theorem inBios_kbcResetPending (m : Machine) (d : Diag) :
    (m.inBios d).statics.kbcResetPending = m.statics.kbcResetPending := (inBios_statics m d).2.2.1

@[simp] theorem inBios_entered (m : Machine) (d : Diag) :
    (m.inBios d).statics.entered = m.statics.entered := (inBios_statics m d).2.2.2.1

@[simp] theorem inBios_hits (m : Machine) (d : Diag) :
    (m.inBios d).statics.hits = m.statics.hits := (inBios_statics m d).2.2.2.2.2

def atBoot (m : Machine) (d : Diag) : Machine :=
  if m.has .pc110PostUi ∧ ¬ m.statics.booted then (m.inBios d).modifyPort 0x61 (· &&& ~~~3)
  else m.inBios d

end Machine

/-- The call gets past the gate. -/
structure Reaches (pc : Word) (m : Machine) : Prop where
  on : m.enabled = true
  service : readsErrorLog pc m = false
  idle : m.statics.kbcResetPending = false
  gate : (m.env.segs .cs).base = 0xF0000 ∨ (m.env.segs .cs).base = 0x20000

instance (pc : Word) (m : Machine) : Decidable (Reaches pc m) :=
  decidable_of_iff (m.enabled = true ∧ readsErrorLog pc m = false ∧ m.statics.kbcResetPending = false ∧
      ((m.env.segs .cs).base = 0xF0000 ∨ (m.env.segs .cs).base = 0x20000))
    ⟨fun ⟨on, service, idle, gate⟩ => ⟨on, service, idle, gate⟩,
      fun ⟨on, service, idle, gate⟩ => ⟨on, service, idle, gate⟩⟩

/-- What a call past the gate can do under CS base F0000 only. -/
inductive TakesRom (q : Stock) (site : Site) (m : Machine) : Bool → Machine → Prop where
  | inject (d) : m.has .pc110PostUi → site.rom 0x542C → (m.inBios d).statics.rbModeset = false →
      TakesRom q site m true (injectModeSet q (m.inBios d))
  | tick (d) : m.has .pc110PostUi → site.rom 0x542C → (m.inBios d).statics.rbModeset = true →
      TakesRom q site m false (countTick (m.inBios d))
  | sentinel (d) : m.has .pc110PostUi → site.rom 0xFF00 →
      TakesRom q site m true (modeSetDone (m.inBios d))
  | warmReset (d) : site.rom 0x5516 → TakesRom q site m true (warmReset q site.prevOff (m.inBios d))
  | reported (d) : site.csbase = 0xF0000 → m.has .pc110RstLog → site.off ∈ reportOffsets →
      TakesRom q site m false (m.inBios d)
  | resume (d) : site.rom 0x4656 → m.statics.booted → m.has .pc110Resume →
      TakesRom q site m true (forceResume (m.inBios d))
  | int13 (d) : site.rom 0xD2D7 → m.has .pc110Boot →
      TakesRom q site m true (Int13.int13 (m.inBios d))
  | uiSetup (d) : m.has .pc110PostUi → site.rom 0x52BD → m.statics.booted = false →
      m.statics.keyPressed = true → TakesRom q site m true (enterEasySetup false (m.atBoot d))
  | setup (d) : site.rom 0x52BD → m.statics.booted = false → m.has .pc110Setup →
      ¬ (m.has .pc110PostUi ∧ m.statics.keyPressed = true) →
      ¬ (m.statics.entered = true ∧ m.statics.keyPressed = true) →
      TakesRom q site m true (enterEasySetup true { m.atBoot d with
        statics := { (m.atBoot d).statics with entered := true, keyPressed := false } })
  | boot (d path bf) : site.rom 0x52BD → m.statics.booted = false →
      ¬ (m.has .pc110PostUi ∧ m.statics.keyPressed = true) →
      ¬ (m.has .pc110Setup ∧ ¬ (m.statics.entered = true ∧ m.statics.keyPressed = true)) →
      m.path .pc110Boot = some path → m.files path = some bf → (bf.take 512).length = 512 →
      TakesRom q site m true (bootDisk path (bf.take 512) (m.atBoot d))
  | noBoot (d) : site.rom 0x52BD →
      (m.statics.booted = false →
        ¬ (m.has .pc110PostUi ∧ m.statics.keyPressed = true) ∧
        ¬ (m.has .pc110Setup ∧ ¬ (m.statics.entered = true ∧ m.statics.keyPressed = true)) ∧
        ∀ path bf, m.path .pc110Boot = some path → m.files path = some bf → (bf.take 512).length ≠ 512) →
      TakesRom q site m false (m.atBoot d)

structure Unhandled (site : Site) (m : Machine) : Prop where
  teletype : m.has .pc110PostUi → ¬ site.rom 0x542C
  sentinel : m.has .pc110PostUi → ¬ site.rom 0xFF00
  reset : ¬ site.rom 0x5516
  report : site.csbase = 0xF0000 → m.has .pc110RstLog → site.off ∉ reportOffsets
  resume : site.rom 0x4656 → m.statics.booted → ¬ m.has .pc110Resume
  int13 : site.rom 0xD2D7 → ¬ m.has .pc110Boot
  boot : ¬ site.rom 0x52BD

/-- What a completer can do, under either CS base. -/
inductive TakesCompleter (q : Stock) (off : BitVec 16) (m : Machine) : Bool → Machine → Prop where
  | memoryTest (d) : off = 0x61BE → TakesCompleter q off m false (passMemoryTest q (m.inBios d))
  | atOnce (d) : off ∈ completedAtOnce → TakesCompleter q off m true (completeAtOnce off (m.inBios d))
  | counting (d) (c : Counter) : c.site off → m.statics.hits c + 1 < c.threshold →
      TakesCompleter q off m false ((m.inBios d).setHits c (m.statics.hits c + 1))
  | completes (d) (c : Counter) : c.site off → c.threshold ≤ m.statics.hits c + 1 →
      TakesCompleter q off m true (c.complete q off ((m.inBios d).setHits c 0))
  | passes (d) : off ≠ 0x61BE → off ∉ completedAtOnce → (∀ c : Counter, ¬ c.site off) →
      TakesCompleter q off m false (m.inBios d)

inductive Takes (q : Stock) (pc : Word) (m : Machine) : Bool → Machine → Prop where
  | disabled : m.enabled = false →
      Takes q pc m false { m with statics := { m.statics with enabled := some false } }
  | emptyLog (d) : m.enabled = true → readsErrorLog pc m = true →
      Takes q pc m true (forceEmptyLog (m.seen d))
  | portReset (d) : m.enabled = true → readsErrorLog pc m = false →
      m.statics.kbcResetPending = true → Takes q pc m true (portReset q (m.seen d))
  | outside (d) : m.enabled = true → readsErrorLog pc m = false →
      m.statics.kbcResetPending = false → (m.env.segs .cs).base ≠ 0xF0000 →
      (m.env.segs .cs).base ≠ 0x20000 → Takes q pc m false (m.seen d)
  | rom (taken s) : Reaches pc m → TakesRom q (.of m pc) m taken s → Takes q pc m taken s
  | completer (taken s) : Reaches pc m → Unhandled (.of m pc) m →
      TakesCompleter q (Site.of m pc).off m taken s → Takes q pc m taken s

section Proof
variable {q : Stock} {m : Machine}

theorem run_notes {P : Bool × Machine → Prop} {last : Bool} {c : Machine → Prop} [DecidablePred c]
    {f : Machine → Diag} {rest : List Stage} {s : Machine}
    (noted : ∀ d, P (Cascade.run last rest { s with diag := d })) :
    P (Cascade.run last (guarded c (note f) :: rest) s) :=
  run_branch (fun _ => noted (f s)) (fun _ => noted s.diag)

/-- A counting stage at one of its own offsets. -/
theorem afterHits_takes {off : BitVec 16} (c : Counter) {complete : Machine → Machine}
    {rest : List Stage} {d : Diag} (inside : c.site off) (completed : complete = c.complete q off) :
    let r := Cascade.run false (afterHits c c.threshold complete :: rest) (m.inBios d)
    TakesCompleter q off m r.1 r.2 := by
  subst completed
  simp only [Cascade.run, afterHits, Machine.inBios_hits]
  by_cases few : m.statics.hits c + 1 < c.threshold
  · rw [if_pos few]
    exact .counting d c inside few
  · rw [if_neg few]
    exact .completes d c inside (Nat.le_of_not_lt few)

theorem completers_take (off : BitVec 16) (d : Diag) :
    let r := Cascade.run false (completerStages q off) (m.inBios d)
    TakesCompleter q off m r.1 r.2 := by
  let P : Bool × Machine → Prop := fun r => TakesCompleter q off m r.1 r.2
  have once {f : Machine → Machine} {rest : List Stage} (member : off ∈ completedAtOnce)
      (same : f = completeAtOnce off) : P (Cascade.run false (leave true f :: rest) (m.inBios d)) := by
    subst same
    exact .atOnce d member
  change P _
  refine run_branch (fun h => .memoryTest d h) fun h61BE => ?_
  refine run_branch (fun h => once (by subst h; decide) (by subst h; rfl)) fun h6981 => ?_
  refine run_branch (fun h => afterHits_takes .h6943 h rfl) fun h6943 => ?_
  refine run_branch (fun h => afterHits_takes .hC960 h rfl) fun hC960 => ?_
  refine run_branch (fun h => afterHits_takes .hEA90 h rfl) fun hEA90 => ?_
  refine run_branch (fun h => afterHits_takes .h6961 h rfl) fun h6961 => ?_
  refine run_branch (fun h => afterHits_takes .h53C1 h rfl) fun h53C1 => ?_
  refine run_branch (fun h => once (by subst h; decide) (by subst h; rfl)) fun h6D3A => ?_
  refine run_branch (fun h => once (by subst h; decide) (by subst h; rfl)) fun h3D90 => ?_
  refine run_branch (fun h => once (by rcases h with h | h <;> subst h <;> decide)
    (by rcases h with h | h <;> subst h <;> rfl)) fun h6998 => ?_
  refine run_branch (fun h => once (by rcases h with h | h <;> subst h <;> decide)
    (by rcases h with h | h <;> subst h <;> rfl)) fun h52BE => ?_
  refine run_branch (fun h => once (by subst h; decide) (by subst h; rfl)) fun h4A51 => ?_
  refine run_branch (fun h => afterHits_takes .hCksum h rfl) fun hCksum => ?_
  refine run_branch (fun h => afterHits_takes .hCopy h rfl) fun hCopy => ?_
  refine run_branch (fun h => afterHits_takes .hDelay h rfl) fun hDelay => ?_
  refine run_branch (fun h => afterHits_takes .hMempat h rfl) fun hMempat => ?_
  refine .passes d h61BE ?_ ?_
  · simp only [completedAtOnce, List.mem_cons, List.not_mem_nil, or_false, not_or] at *
    exact ⟨h6981, h6D3A, h3D90, h6998.1, h6998.2, h52BE.1, h52BE.2, h4A51⟩
  · intro c
    cases c <;> assumption

theorem atBoot_diag (d d' : Diag) : { m.atBoot d with diag := d' } = m.atBoot d' := by
  unfold Machine.atBoot
  split <;> rfl

theorem atBoot_statics (d : Diag) : (m.atBoot d).statics = (m.inBios d).statics := by
  unfold Machine.atBoot
  split <;> rfl

/-- At the boot decision no completer stands behind. -/
theorem run_completers_boot (q : Stock) (s : Machine) :
    Cascade.run false (completerStages q 0x52BD) s = (false, s) := rfl

theorem atBoot_host (d : Diag) (v : EnvVar) : (m.atBoot d).has v = m.has v ∧
    (m.atBoot d).path v = m.path v ∧ (m.atBoot d).files = m.files := by
  unfold Machine.atBoot
  split <;> exact ⟨rfl, rfl, rfl⟩

/-- INT 19h, once neither choice has entered Easy-Setup. -/
theorem diskBoot_takes {site : Site} (d : Diag) (here : site.rom 0x52BD)
    (noKey : m.statics.booted = false → ¬ (m.has .pc110PostUi ∧ m.statics.keyPressed = true))
    (noSetup : m.statics.booted = false →
      ¬ (m.has .pc110Setup ∧ ¬ (m.statics.entered = true ∧ m.statics.keyPressed = true))) :
    let r := Cascade.run false (guarded (fun _ => site.rom 0x52BD) diskBoot ::
      completerStages q site.off) (m.atBoot d)
    TakesRom q site m r.1 r.2 := by
  have booted : (m.atBoot d).statics.booted = m.statics.booted := by
    rw [atBoot_statics, Machine.inBios_booted]
  have stays (d : Diag) (none : m.statics.booted = false → ∀ path bf, m.path .pc110Boot = some path →
      m.files path = some bf → (bf.take 512).length ≠ 512) :
      let r := Cascade.run false (completerStages q site.off) (m.atBoot d)
      TakesRom q site m r.1 r.2 := by
    rw [here.2, run_completers_boot]
    exact .noBoot d here fun fresh => ⟨noKey fresh, noSetup fresh, none fresh⟩
  let P : Bool × Machine → Prop := fun r => TakesRom q site m r.1 r.2
  change P _
  refine run_branch (fun _ => ?_) (fun elsewhere => absurd here elsewhere)
  have path := (atBoot_host (m := m) d .pc110Boot).2.1
  have files := (atBoot_host (m := m) d .pc110Boot).2.2
  cases hp : m.path .pc110Boot with
  | none =>
    rw [Cascade.run_next _ _ _ _ (m.atBoot d) (by simp [diskBoot, path, hp])]
    exact stays d fun _ _ _ h => by simp [hp] at h
  | some bootpath =>
    cases hb : m.statics.booted with
    | true =>
      rw [Cascade.run_next _ _ _ _ (m.atBoot d) (by simp [diskBoot, path, hp, booted, hb])]
      exact stays d fun fresh => by simp [hb] at fresh
    | false =>
      cases hf : m.files bootpath with
      | none =>
        rw [Cascade.run_next _ _ _ _ _ (by simp [diskBoot, path, files, hp, hf, booted, hb]; rfl), atBoot_diag]
        refine stays _ fun _ path' bf' hp' hf' => ?_
        obtain rfl : bootpath = path' := Option.some.inj (hp.symm.trans hp')
        simp [hf] at hf'
      | some bf =>
        by_cases whole : (bf.take 512).length = 512
        · rw [Cascade.run_done _ true _ _ _ (bootDisk bootpath (bf.take 512) (m.atBoot d))
            (by simp only [diskBoot, path, files, hp, hf, booted, hb, whole]; rfl)]
          exact .boot d bootpath bf here hb (noKey hb) (noSetup hb) hp hf whole
        · rw [Cascade.run_next _ _ _ _ _
            (by simp only [diskBoot, path, files, hp, hf, booted, hb, whole]; rfl), atBoot_diag]
          refine stays _ fun _ path' bf' hp' hf' => ?_
          obtain rfl : bootpath = path' := Option.some.inj (hp.symm.trans hp')
          obtain rfl : bf = bf' := Option.some.inj (hf.symm.trans hf')
          exact whole

/-- The boot decision once the POSTUI choice has fallen through. -/
theorem bootDecision_takes {site : Site} (d : Diag) (here : site.rom 0x52BD)
    (noKey : m.statics.booted = false → ¬ (m.has .pc110PostUi ∧ m.statics.keyPressed = true)) :
    let r := Cascade.run false ((bootStages site).drop 1 ++ completerStages q site.off) (m.atBoot d)
    TakesRom q site m r.1 r.2 := by
  let P : Bool × Machine → Prop := fun r => TakesRom q site m r.1 r.2
  have booted (d : Diag) : (m.atBoot d).statics.booted = m.statics.booted := by
    rw [atBoot_statics, Machine.inBios_booted]
  have entered (d : Diag) : (m.atBoot d).statics.entered = m.statics.entered := by
    rw [atBoot_statics, Machine.inBios_entered]
  have keyPressed (d : Diag) : (m.atBoot d).statics.keyPressed = m.statics.keyPressed := by
    rw [atBoot_statics, Machine.inBios_keyPressed]
  change P _
  refine run_notes fun d => ?_
  rw [atBoot_diag]
  refine run_branch ?_ fun skipped => ?_
  · rintro ⟨-, fresh, forced⟩
    rw [(atBoot_host d _).1] at forced
    rw [booted, Bool.not_eq_true] at fresh
    by_cases restart : m.statics.entered = true ∧ m.statics.keyPressed = true
    · rw [Cascade.run_next _ _ _ _ (m.atBoot d) (by simp [setupDecision, entered, keyPressed, restart])]
      exact diskBoot_takes d here noKey fun _ h => h.2 restart
    · rw [Cascade.run_done _ true _ _ _ _ (by rw [setupDecision, entered, keyPressed, if_neg restart])]
      exact .setup d here fresh forced (noKey fresh) restart
  · refine diskBoot_takes d here noKey fun fresh h => skipped ⟨here, ?_, ?_⟩
    · rw [booted, fresh]; decide
    · rw [(atBoot_host d _).1]; exact h.1

theorem freshPost_inBios (d : Diag) :
    guarded (fun m => m.has .pc110PostUi) freshPost (m.seen d) = .next (m.inBios d) := by
  by_cases ui : m.has .pc110PostUi
  · rw [Cascade.guarded_enter freshPost ui]
    by_cases stale : m.statics.rbGen = m.statics.resetCount <;>
      simp [freshPost, Machine.inBios, Statics.fresh, Machine.seen, ui, stale]
  · rw [Cascade.guarded_pass freshPost ui]
    simp [Machine.inBios, Statics.fresh, ui, Machine.seen]

theorem report_takes {site : Site} {f : Machine → Diag} {rest : List Stage} {d : Diag}
    (here : site.csbase = 0xF0000) (log : m.has .pc110RstLog) (member : site.off ∈ reportOffsets) :
    let r := Cascade.run false (reportOnly f :: rest) (m.inBios d)
    TakesRom q site m r.1 r.2 ∨ Unhandled site m ∧ TakesCompleter q site.off m r.1 r.2 :=
  .inl (.reported _ here log member)

/-- Elsewhere the boot decision is passed over. -/
theorem bootStages_elsewhere {site : Site} (elsewhere : ¬ site.rom 0x52BD) (s : Machine) :
    ∀ stage ∈ bootStages site, stage s = .next s := by
  intro stage member
  simp only [bootStages, List.mem_cons, List.not_mem_nil, or_false] at member
  rcases member with rfl | rfl | rfl | rfl
  · exact Cascade.guarded_pass _ fun h => elsewhere h.2.1
  · exact Cascade.guarded_pass _ fun h => elsewhere h.1
  · exact Cascade.guarded_pass _ fun h => elsewhere h.1
  · exact Cascade.guarded_pass _ elsewhere

theorem bootStages_takes {site : Site} (d : Diag) (here : site.rom 0x52BD) :
    let r := Cascade.run false (bootStages site ++ completerStages q site.off) (m.inBios d)
    TakesRom q site m r.1 r.2 := by
  change TakesRom q site m (Cascade.run false _ _).1 (Cascade.run false _ _).2
  by_cases ui : m.has .pc110PostUi ∧ ¬ m.statics.booted
  · have beep : (m.inBios d).modifyPort 0x61 (· &&& ~~~3) = m.atBoot d := by
      rw [Machine.atBoot, if_pos ui]
    have fresh : m.statics.booted = false := by simpa using ui.2
    have entered : guarded (fun m => m.has .pc110PostUi ∧ site.rom 0x52BD ∧ ¬ m.statics.booted)
        uiBootDecision (m.inBios d) = uiBootDecision (m.inBios d) :=
      Cascade.guarded_enter _ ⟨ui.1, here, by simpa using fresh⟩
    cases key : m.statics.keyPressed with
    | true =>
      rw [bootStages, List.cons_append, Cascade.run_done _ true _ _ _ (enterEasySetup false (m.atBoot d))
        (by rw [entered, uiBootDecision, beep, atBoot_statics, Machine.inBios_keyPressed, key]; rfl)]
      exact .uiSetup d ui.1 here fresh key
    | false =>
      rw [bootStages, List.cons_append, Cascade.run_next _ _ _ _ (m.atBoot d)
        (by rw [entered, uiBootDecision, beep, atBoot_statics, Machine.inBios_keyPressed, key]; rfl)]
      exact bootDecision_takes d here fun _ h => by simp [key] at h
  · rw [bootStages, List.cons_append, Cascade.run_next _ _ _ _ (m.atBoot d)
      (by rw [Cascade.guarded_pass _ (fun h => ui ⟨h.1, by simpa using h.2.2⟩), Machine.atBoot, if_neg ui])]
    exact bootDecision_takes d here fun fresh h => ui ⟨h.1, by simp [fresh]⟩

theorem bios_takes (q : Stock) (m : Machine) (site : Site) (d : Diag) :
    let r := Cascade.run false (romStages q site ++ (bootStages site ++ completerStages q site.off))
      (m.seen d)
    TakesRom q site m r.1 r.2 ∨ Unhandled site m ∧ TakesCompleter q site.off m r.1 r.2 := by
  let P : Bool × Machine → Prop := fun r =>
    TakesRom q site m r.1 r.2 ∨ Unhandled site m ∧ TakesCompleter q site.off m r.1 r.2
  change P _
  simp only [romStages, List.cons_append, List.nil_append]
  rw [Cascade.run_next _ _ _ _ _ (freshPost_inBios d)]
  refine run_branch ?_ fun noTeletype => ?_
  · rintro ⟨ui, here⟩
    cases set : (m.inBios d).statics.rbModeset with
    | false =>
      rw [Cascade.run_done _ true _ _ _ _ (by rw [teletype, set]; rfl)]
      exact .inl (.inject d ui here set)
    | true =>
      rw [Cascade.run_done _ false _ _ _ _ (by rw [teletype, set]; rfl)]
      exact .inl (.tick d ui here set)
  refine run_branch ?_ fun noSentinel => ?_
  · rintro ⟨ui, here⟩
    exact .inl (.sentinel d ui here)
  rw [Cascade.run_next _ (note _) _ _ _ rfl]
  refine run_notes fun d => ?_
  change P (Cascade.run false _ (m.inBios d))
  refine run_branch (fun here => .inl (.warmReset d here)) fun noReset => ?_
  refine run_branch ?_ fun noGate => ?_
  · rintro ⟨here, log, member⟩
    exact report_takes here log (List.mem_append_left _ member)
  refine run_branch ?_ fun no5B68 => ?_
  · rintro ⟨here, log⟩
    exact report_takes here.1 log (by rw [here.2]; decide)
  refine run_branch ?_ fun noE9CE => ?_
  · rintro ⟨here, log⟩
    exact report_takes here.1 log (by rw [here.2]; decide)
  refine run_branch ?_ fun noFork => ?_
  · rintro ⟨here, log, off⟩
    exact report_takes here log (by rcases off with h | h <;> rw [h] <;> decide)
  refine run_branch ?_ fun no469D => ?_
  · rintro ⟨here, log⟩
    exact report_takes here.1 log (by rw [here.2]; decide)
  refine run_branch ?_ fun noResume => ?_
  · rintro ⟨here, booted, resume⟩
    exact .inl (.resume d here (by simpa using booted) resume)
  refine run_branch ?_ fun noInt13 => ?_
  · rintro ⟨here, boot⟩
    exact .inl (.int13 d here boot)
  by_cases here : site.rom 0x52BD
  · exact .inl (bootStages_takes d here)
  · right
    rw [Cascade.run_skip _ (bootStages site) _ _ (bootStages_elsewhere here _)]
    refine ⟨⟨fun ui h => noTeletype ⟨ui, h⟩, fun ui h => noSentinel ⟨ui, h⟩, noReset, ?_,
      fun h booted resume => noResume ⟨h, by simpa using booted, resume⟩, fun h boot => noInt13 ⟨h, boot⟩,
      here⟩, completers_take site.off d⟩
    intro base log member
    rcases List.mem_append.mp member with gate | other
    · exact noGate ⟨base, log, gate⟩
    · simp only [List.mem_cons, List.not_mem_nil, or_false] at other
      rcases other with h | h | h | h | h
      · exact no5B68 ⟨⟨base, h⟩, log⟩
      · exact noE9CE ⟨⟨base, h⟩, log⟩
      · exact noFork ⟨base, log, .inl h⟩
      · exact noFork ⟨base, log, .inr h⟩
      · exact no469D ⟨⟨base, h⟩, log⟩

/-- The stages behind the record of the PC. -/
def laterStages (q : Stock) (site : Site) : List Stage :=
  (entryStages q site).drop 2 ++ romStages q site ++ bootStages site ++ completerStages q site.off

/-- A call looks first whether the intercept is enabled, and then records its PC. -/
theorem postIntercept_front (q : Stock) (pc : Word) (m : Machine) : postIntercept q pc m =
    if m.enabled then Cascade.run false (laterStages q (.of m pc)) (m.seen (trackPc pc (m.seen m.diag)))
    else (false, { m with statics := { m.statics with enabled := some false } }) := by
  have split : stages q (.of m pc) = checkEnabled :: note (trackPc pc) :: laterStages q (.of m pc) := rfl
  rw [postIntercept, split]
  cases on : m.enabled with
  | false => exact Cascade.run_done _ false _ _ _ _ (by simp only [checkEnabled, on]; rfl)
  | true =>
    rw [Cascade.run_next _ _ _ _ (m.seen m.diag) (by simp only [checkEnabled, on]; rfl),
      Cascade.run_next _ (note _) _ _ _ rfl]
    rfl

theorem postIntercept_takes (q : Stock) (pc : Word) (m : Machine) :
    Takes q pc m (postIntercept q pc m).1 (postIntercept q pc m).2 := by
  let P : Bool × Machine → Prop := fun r => Takes q pc m r.1 r.2
  change P _
  rw [postIntercept_front]
  cases on : m.enabled with
  | false => exact .disabled on
  | true =>
    simp only [if_true, laterStages, entryStages, List.drop_succ_cons, List.drop_zero, List.cons_append, List.nil_append]
    refine run_notes fun d => ?_
    change P (Cascade.run false _ (m.seen d))
    refine run_branch (fun log => .emptyLog d on log) fun noLog => ?_
    have service : readsErrorLog pc m = false := Bool.eq_false_iff.mpr noLog
    refine run_notes fun d => ?_
    change P (Cascade.run false _ (m.seen d))
    refine run_branch (fun pending => .portReset d on service pending) fun idle => ?_
    have idle : m.statics.kbcResetPending = false := Bool.eq_false_iff.mpr idle
    refine run_branch (fun far => .outside _ on service idle far.1 far.2) fun near => ?_
    have reaches : Reaches pc m := ⟨on, service, idle, by
      by_cases base : (m.env.segs .cs).base = 0xF0000
      · exact .inl base
      · exact .inr (not_not.mp fun other => near ⟨base, other⟩)⟩
    rw [List.append_assoc]
    rcases bios_takes q m (.of m pc) d with rom | ⟨unhandled, completer⟩
    · exact .rom _ _ reaches rom
    · exact .completer _ _ reaches unhandled completer

/-- The forced empty log comes before everything but the notes. -/
theorem postIntercept_emptyLog {pc : Word} (on : m.enabled = true) (service : readsErrorLog pc m = true) :
    ∃ d, postIntercept q pc m = (true, forceEmptyLog (m.seen d)) := by
  have taking := postIntercept_takes q pc m
  generalize postIntercept q pc m = r at *
  obtain ⟨taken, s⟩ := r
  change Takes q pc m taken s at taking
  cases taking with
  | emptyLog d => exact ⟨d, rfl⟩
  | disabled off => simp [on] at off
  | portReset _ _ other | outside _ _ other => simp [service] at other
  | rom _ _ reaches | completer _ _ reaches => exact absurd (service.symm.trans reaches.service) (by decide)

/-- A pending request is served before the gate. -/
theorem postIntercept_portReset {pc : Word} (on : m.enabled = true) (service : readsErrorLog pc m = false)
    (pending : m.statics.kbcResetPending = true) :
    ∃ d, postIntercept q pc m = (true, portReset q (m.seen d)) := by
  have taking := postIntercept_takes q pc m
  generalize postIntercept q pc m = r at *
  obtain ⟨taken, s⟩ := r
  change Takes q pc m taken s at taking
  cases taking with
  | disabled off => simp [on] at off
  | emptyLog _ _ log => simp [service] at log
  | portReset d => exact ⟨d, rfl⟩
  | outside _ _ _ idle => simp [pending] at idle
  | rom _ _ reaches | completer _ _ reaches => exact absurd (pending.symm.trans reaches.idle) (by decide)

theorem Reaches.takes {pc : Word} (reaches : Reaches pc m) :
    TakesRom q (.of m pc) m (postIntercept q pc m).1 (postIntercept q pc m).2 ∨
    Unhandled (.of m pc) m ∧
      TakesCompleter q (Site.of m pc).off m (postIntercept q pc m).1 (postIntercept q pc m).2 := by
  have taking := postIntercept_takes q pc m
  generalize (postIntercept q pc m).1 = taken at *
  generalize (postIntercept q pc m).2 = s at *
  cases taking with
  | disabled off => simp [reaches.on] at off
  | emptyLog _ _ log => simp [reaches.service] at log
  | portReset _ _ _ pending => simp [reaches.idle] at pending
  | outside _ _ _ _ rom copy => exact reaches.gate.elim (fun h => absurd h rom) (fun h => absurd h copy)
  | rom _ _ _ rom => exact .inl rom
  | completer _ _ _ unhandled completer => exact .inr ⟨unhandled, completer⟩

/-- At the boot decision: Easy-Setup by key, Easy-Setup by PC110SETUP, the disk, or the ROM. -/
theorem Reaches.boot_takes {pc : Word} (reaches : Reaches pc m) (here : (Site.of m pc).rom 0x52BD) :
    (m.has .pc110PostUi ∧ m.statics.booted = false ∧ m.statics.keyPressed = true ∧
      ∃ d, postIntercept q pc m = (true, enterEasySetup false (m.atBoot d))) ∨
    (m.statics.booted = false ∧ m.has .pc110Setup ∧
      ¬ (m.has .pc110PostUi ∧ m.statics.keyPressed = true) ∧
      ¬ (m.statics.entered = true ∧ m.statics.keyPressed = true) ∧
      ∃ d, postIntercept q pc m = (true, enterEasySetup true { m.atBoot d with
        statics := { (m.atBoot d).statics with entered := true, keyPressed := false } })) ∨
    (m.statics.booted = false ∧ ¬ (m.has .pc110PostUi ∧ m.statics.keyPressed = true) ∧
      ¬ (m.has .pc110Setup ∧ ¬ (m.statics.entered = true ∧ m.statics.keyPressed = true)) ∧
      ∃ d path bf, m.path .pc110Boot = some path ∧ m.files path = some bf ∧ (bf.take 512).length = 512 ∧
        postIntercept q pc m = (true, bootDisk path (bf.take 512) (m.atBoot d))) ∨
    ((m.statics.booted = false →
        ¬ (m.has .pc110PostUi ∧ m.statics.keyPressed = true) ∧
        ¬ (m.has .pc110Setup ∧ ¬ (m.statics.entered = true ∧ m.statics.keyPressed = true)) ∧
        ∀ path bf, m.path .pc110Boot = some path → m.files path = some bf → (bf.take 512).length ≠ 512) ∧
      ∃ d, postIntercept q pc m = (false, m.atBoot d)) := by
  have apart {off : BitVec 16} (there : (Site.of m pc).rom off) : off = 0x52BD :=
    there.2.symm.trans here.2
  have takes := reaches.takes (q := q)
  generalize postIntercept q pc m = r at *
  obtain ⟨taken, s⟩ := r
  rcases takes with rom | ⟨unhandled, -⟩
  · change TakesRom q _ m taken s at rom
    cases rom with
    | uiSetup d ui _ fresh key => exact .inl ⟨ui, fresh, key, d, rfl⟩
    | setup d _ fresh forced noKey first => exact .inr (.inl ⟨fresh, forced, noKey, first, d, rfl⟩)
    | boot d path bf _ fresh noKey noSetup named opens whole =>
      exact .inr (.inr (.inl ⟨fresh, noKey, noSetup, d, path, bf, named, opens, whole, rfl⟩))
    | noBoot d _ unread => exact .inr (.inr (.inr ⟨unread, d, rfl⟩))
    | reported _ _ _ member => rw [here.2] at member; exact absurd member (by decide)
    | inject _ _ there | tick _ _ there | sentinel _ _ there | warmReset _ there | resume _ there
    | int13 _ there => exact absurd (apart there) (by decide)
  · exact absurd here unhandled.boot

/-- The one handler of F000:5516. -/
theorem postIntercept_warmReset {pc : Word} (reaches : Reaches pc m) (here : (Site.of m pc).rom 0x5516) :
    ∃ d, postIntercept q pc m = (true, warmReset q (Site.of m pc).prevOff (m.inBios d)) := by
  have apart {off : BitVec 16} (there : (Site.of m pc).rom off) : off = 0x5516 :=
    there.2.symm.trans here.2
  have takes := reaches.takes (q := q)
  generalize postIntercept q pc m = r at *
  obtain ⟨taken, s⟩ := r
  rcases takes with rom | ⟨unhandled, -⟩
  · change TakesRom q _ m taken s at rom
    cases rom with
    | warmReset d => exact ⟨d, rfl⟩
    | reported _ _ _ member => rw [here.2] at member; exact absurd member (by decide)
    | inject _ _ there | tick _ _ there | sentinel _ _ there | resume _ there | int13 _ there
    | uiSetup _ _ there | setup _ there | boot _ _ _ there | noBoot _ there =>
      exact absurd (apart there) (by decide)
  · exact absurd here unhandled.reset

end Proof

end Pc110
