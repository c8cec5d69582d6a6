import Pc110.RingFrames

/-! PC110RSTLOG, PC110ESLOG, PC110TRACE and PC110HEARTBEAT print and do nothing else, as long as
what the first of them prints stays in its buffer. Two machines that differ in these variables, and
in what they have printed, take every call the same way and stay equal but for that, whatever
happens between the calls. -/
namespace Pc110

open Cascade (guarded Alike guarded_alike)

/-- The variables that only turn diagnostics on. -/
def logVars : List EnvVar := [.pc110RstLog, .pc110EsLog, .pc110Trace, .pc110Heartbeat]

/-- The same machine in another host environment, with other diagnostics. -/
def Machine.under (m : Machine) (getenv : EnvVar → Option String) (d : Diag) : Machine :=
  { m with getenv := getenv, diag := d }

/-- Environments that turn on the same features, whatever they log. -/
def SameFeatures (g g' : EnvVar → Option String) : Prop := ∀ v, v ∉ logVars → g' v = g v

/-- Machines in two environments, equal but for the diagnostics. -/
structure Twins (g g' : EnvVar → Option String) (m m' : Machine) : Prop where
  left : m.getenv = g
  right : ∃ d, m' = m.under g' d

def verdict (q : Stock) : Event → Machine → Option Bool
  | .call, m => some (postIntercept q m.pc m).1
  | _, _ => none

/-- The step overruns no buffer. -/
def StaysInBuffers (q : Stock) (m : Machine) (e : Event) : Prop :=
  (m.step q e).effects.count .overrun = m.effects.count .overrun

section Stages
variable {g g' : EnvVar → Option String} {q : Stock}

theorem Twins.diag {m m' : Machine} (twins : Twins g g' m m') (d d' : Diag) :
    Twins g g' { m with diag := d } { m' with diag := d' } := by
  obtain ⟨left, -, rfl⟩ := twins
  exact ⟨left, d', rfl⟩

/-- A change that asks neither the environment nor the diagnostics. -/
theorem Twins.map {f : Machine → Machine} {m m' : Machine} (twins : Twins g g' m m')
    (aside : ∀ d, ∃ d', f (m.under g' d) = (f m).under g' d') (getenv : (f m).getenv = m.getenv) :
    Twins g g' (f m) (f m') := by
  obtain ⟨left, d, rfl⟩ := twins
  exact ⟨getenv.trans left, aside d⟩

theorem SameFeatures.has (same : SameFeatures g g') {m m' : Machine} (twins : Twins g g' m m') {v : EnvVar}
    (feature : v ∉ logVars) : m'.has v = m.has v ∧ m'.path v = m.path v := by
  obtain ⟨rfl, d, rfl⟩ := twins
  have eq : (m.under g' d).getenv v = m.getenv v := same v feature
  exact ⟨congrArg Option.isSome eq, congrArg (Option.filter (· ≠ "")) eq⟩

/-- Diagnostics on the way, behind whatever tests. -/
theorem notes_alike {c c' : Machine → Prop} [DecidablePred c] [DecidablePred c'] (f f' : Machine → Diag) :
    Alike (Twins g g') (guarded c (note f)) (guarded c' (note f')) := by
  intro m m' twins
  have noted (c : Machine → Prop) [DecidablePred c] (f : Machine → Diag) (m : Machine) :
      ∃ d, guarded c (note f) m = .next { m with diag := d } := by
    by_cases h : c m
    · exact ⟨f m, Cascade.guarded_enter _ h⟩
    · exact ⟨m.diag, Cascade.guarded_pass _ h⟩
  obtain ⟨d, eq⟩ := noted c f m
  obtain ⟨d', eq'⟩ := noted c' f' m'
  rw [eq, eq']
  exact .next (twins.diag d d')

theorem note_alike (f f' : Machine → Diag) : Alike (Twins g g') (note f) (note f') :=
  fun _ _ twins => .next (twins.diag _ _)

theorem leave_alike {taken : Bool} {f f' : Machine → Machine}
    (map : ∀ m m', Twins g g' m m' → Twins g g' (f m) (f' m')) :
    Alike (Twins g g') (leave taken f) (leave taken f') :=
  fun m m' twins => .done (map m m' twins)

theorem leave_plain {taken : Bool} {f : Machine → Machine}
    (aside : ∀ m d, ∃ d', f (m.under g' d) = (f m).under g' d') (getenv : ∀ m, (f m).getenv = m.getenv) :
    Alike (Twins g g') (leave taken f) (leave taken f) :=
  leave_alike fun m _ twins => twins.map (aside m) (getenv m)

theorem afterHits_alike (c : Counter) (limit : Nat) {f : Machine → Machine}
    (aside : ∀ m d, ∃ d', f (m.under g' d) = (f m).under g' d') (getenv : ∀ m, (f m).getenv = m.getenv) :
    Alike (Twins g g') (afterHits c limit f) (afterHits c limit f) := by
  rintro m m' ⟨left, d, rfl⟩
  by_cases few : m.statics.hits c + 1 < limit
  · simp only [afterHits, Machine.under, few, if_true]
    exact .done ⟨left, d, rfl⟩
  · simp only [afterHits, Machine.under, few, if_false]
    exact .done ⟨(getenv _).trans left, aside (m.setHits c 0) d⟩

theorem checkEnabled_alike (same : SameFeatures g g') : Alike (Twins g g') checkEnabled checkEnabled := by
  intro m m' twins
  have post := (same.has twins (v := .pc110Post) (by decide)).1
  obtain ⟨left, d, rfl⟩ := twins
  have enabled : (m.under g' d).enabled = m.enabled := congrArg m.statics.enabled.getD post
  simp only [checkEnabled, enabled]
  cases m.enabled with
  | true => exact .next ⟨left, d, rfl⟩
  | false => exact .done ⟨left, d, rfl⟩

theorem readsErrorLog_twins (same : SameFeatures g g') (pc : Word) {m m' : Machine} (twins : Twins g g' m m') :
    readsErrorLog pc m' = readsErrorLog pc m := by
  have setup := (same.has twins (v := .pc110Setup) (by decide)).1
  have ui := (same.has twins (v := .pc110PostUi) (by decide)).1
  obtain ⟨-, d, rfl⟩ := twins
  simp only [readsErrorLog, setup, ui]
  rfl

theorem portReset_eq (q : Stock) (m : Machine) : ∃ d, portReset q m = Machine.cpuReset q { m with
    mem := ByteMemory.write m.mem 0x472 warmSig
    statics := { m.statics with kbcResetPending := false }
    diag := d } := by
  unfold portReset
  dsimp only
  split
  · exact ⟨_, rfl⟩
  · exact ⟨m.diag, rfl⟩

theorem portReset_twins {m m' : Machine} (twins : Twins g g' m m') :
    Twins g g' (portReset q m) (portReset q m') := by
  obtain ⟨d, eq⟩ := portReset_eq q m
  obtain ⟨d', eq'⟩ := portReset_eq q m'
  obtain ⟨left, _, rfl⟩ := twins
  rw [eq, eq']
  exact ⟨left, d', rfl⟩

theorem warmReset_twins (prevOff prevOff' : BitVec 16) {m m' : Machine} (twins : Twins g g' m m')
    (fits : (warmReset q prevOff m).effects.count .overrun = m.effects.count .overrun)
    (fits' : (warmReset q prevOff' m').effects.count .overrun = m'.effects.count .overrun) :
    Twins g g' (warmReset q prevOff m) (warmReset q prevOff' m') := by
  have printed (prevOff : BitVec 16) (m : Machine)
      (fits : (warmReset q prevOff m).effects.count .overrun = m.effects.count .overrun) :
      ¬ (m.has .pc110RstLog = true ∧ reportOverruns m.diag = true) := by
    obtain ⟨d, eq⟩ := warmReset_eq q m prevOff
    intro overruns
    rw [eq, if_pos overruns] at fits
    simp [Machine.cpuReset] at fits
  obtain ⟨d, eq⟩ := warmReset_eq q m prevOff
  obtain ⟨d', eq'⟩ := warmReset_eq q m' prevOff'
  rw [eq, eq', if_neg (printed _ m fits), if_neg (printed _ m' fits')]
  obtain ⟨left, _, rfl⟩ := twins
  exact ⟨left, d', rfl⟩

/-- The stages before the gate and the gate itself. -/
theorem entry_alike (same : SameFeatures g g') {site site' : Site} (pc : site'.pc = site.pc)
    (base : site'.csbase = site.csbase) :
    List.Forall₂ (Alike (Twins g g')) (entryStages q site) (entryStages q site') := by
  unfold entryStages
  rw [pc, base]
  refine .cons (checkEnabled_alike same) (.cons (note_alike _ _) (.cons (notes_alike _ _) (.cons ?_
    (.cons (notes_alike _ _) (.cons ?_ (.cons ?_ .nil))))))
  · refine guarded_alike (fun m m' twins => ?_) (leave_plain (fun _ d => ⟨d, rfl⟩) fun _ => rfl)
    rw [readsErrorLog_twins same site.pc twins]
  · refine guarded_alike ?_ (leave_alike fun _ _ => portReset_twins)
    rintro m m' ⟨-, d, rfl⟩
    exact Iff.rfl
  · exact guarded_alike (fun _ _ _ => Iff.rfl) (leave_alike fun _ _ twins => twins.diag _ _)

theorem freshPost_alike : Alike (Twins g g') freshPost freshPost := by
  rintro m m' ⟨left, d, rfl⟩
  by_cases current : m.statics.rbGen = m.statics.resetCount
  · simp only [freshPost, Machine.under, current, ne_eq, not_true_eq_false, if_false]
    exact .next ⟨left, d, rfl⟩
  · simp only [freshPost, Machine.under, current, ne_eq, not_false_eq_true, if_true]
    exact .next ⟨left, d, rfl⟩

theorem teletype_alike : Alike (Twins g g') (teletype q) (teletype q) := by
  rintro m m' ⟨left, d, rfl⟩
  have ticked : Twins g g' (countTick m) (countTick (m.under g' d)) := by
    by_cases last : m.statics.rbTicks + 1 = 12
    · simp only [countTick, Machine.under, last, if_true]
      exact ⟨left, d, rfl⟩
    · simp only [countTick, Machine.under, last, if_false]
      exact ⟨left, d, rfl⟩
  cases set : m.statics.rbModeset with
  | true =>
    simp only [teletype, Machine.under, set, not_true_eq_false, if_false]
    exact .done ticked
  | false =>
    simp only [teletype, Machine.under, set, Bool.false_eq_true, not_false_eq_true, if_true]
    exact .done ⟨left, d, rfl⟩

theorem forceResume_twins {m m' : Machine} (twins : Twins g g' m m') :
    Twins g g' (forceResume m) (forceResume m') := by
  have quiet (m : Machine) : ∃ d, forceResume m = { m with diag := d }.setEip 0xA6E4 := by
    unfold forceResume
    split
    · exact ⟨_, rfl⟩
    · exact ⟨m.diag, rfl⟩
  obtain ⟨d, eq⟩ := quiet m
  obtain ⟨d', eq'⟩ := quiet m'
  obtain ⟨left, _, rfl⟩ := twins
  rw [eq, eq']
  exact ⟨left, d', rfl⟩

/-- The service asks for PC110BOOT alone. -/
theorem serve_under {m : Machine} (boot : g' .pc110Boot = m.getenv .pc110Boot) (d : Diag) :
    Int13.serve (m.under g' d) = { Int13.serve m with machine := (Int13.serve m).machine.under g' d } := by
  have moved : Int13.transfer (m.under g' d) = Int13.transfer m := by
    simp only [Int13.transfer, Machine.under, boot]
  have sectors : Int13.readSectors (m.under g' d) =
      { Int13.readSectors m with machine := (Int13.readSectors m).machine.under g' d } := by
    simp only [Int13.readSectors, moved]
    rfl
  have cpu : (m.under g' d).env = m.env := rfl
  simp only [Int13.serve, sectors, cpu]
  split_ifs <;> rfl

theorem int13_twins (same : SameFeatures g g') {m m' : Machine} (twins : Twins g g' m m') :
    Twins g g' (Int13.int13 m) (Int13.int13 m') := by
  obtain ⟨rfl, d, rfl⟩ := twins
  refine ⟨(int13_guestOnly m).getenv, d, ?_⟩
  simp only [Int13.int13, serve_under (same .pc110Boot (by decide)) d]
  rfl

theorem skip_alike {c c' : Machine → Prop} [DecidablePred c] [DecidablePred c'] {stage stage' : Stage}
    (never : ∀ m, ¬ c m) (never' : ∀ m, ¬ c' m) : Alike (Twins g g') (guarded c stage) (guarded c' stage') := by
  intro m m' twins
  rw [Cascade.guarded_pass _ (never m), Cascade.guarded_pass _ (never' m')]
  exact .next twins

/-- Where the handlers are not the same whatever is logged. -/
def loggedOffsets : List (BitVec 16) := 0x5516 :: reportOffsets

/-- The handlers of the F-segment, away from these. -/
theorem rom_alike (same : SameFeatures g g') {site site' : Site} (base : site'.csbase = site.csbase)
    (off : site'.off = site.off) (acts : ¬ (site.csbase = 0xF0000 ∧ site.off ∈ loggedOffsets)) :
    List.Forall₂ (Alike (Twins g g')) (romStages q site) (romStages q site') := by
  have has {v : EnvVar} (feature : v ∉ logVars) {m m' : Machine} (twins : Twins g g' m m') :
      m'.has v = m.has v := (same.has twins feature).1
  have apart {P : Prop} (here : BitVec 16) (member : here ∈ loggedOffsets) :
      ¬ ((site.csbase = 0xF0000 ∧ site.off = here) ∧ P) :=
    fun h => acts ⟨h.1.1, h.1.2 ▸ member⟩
  unfold romStages Site.rom
  rw [base, off]
  refine .cons ?_ (.cons ?_ (.cons ?_ (.cons (note_alike _ _) (.cons (notes_alike _ _) (.cons ?_ (.cons ?_ (.cons ?_
    (.cons ?_ (.cons ?_ (.cons ?_ (.cons ?_ (.cons ?_ .nil))))))))))))
  · exact guarded_alike (fun _ _ twins => by rw [has (by decide) twins]) freshPost_alike
  · exact guarded_alike (fun _ _ twins => by rw [has (by decide) twins]) teletype_alike
  · exact guarded_alike (fun _ _ twins => by rw [has (by decide) twins])
      (leave_plain (fun _ d => ⟨d, rfl⟩) fun _ => rfl)
  · have never (_ : Machine) : ¬ (site.csbase = 0xF0000 ∧ site.off = 0x5516) :=
      fun here => acts ⟨here.1, here.2 ▸ List.mem_cons_self ..⟩
    exact skip_alike never never
  · have never (m : Machine) : ¬ (site.csbase = 0xF0000 ∧ m.has .pc110RstLog ∧ site.off ∈ resetGates) :=
      fun h => acts ⟨h.1, List.mem_cons_of_mem _ (List.mem_append_left _ h.2.2)⟩
    exact skip_alike never never
  · exact skip_alike (fun _ => apart _ (by decide)) fun _ => apart _ (by decide)
  · exact skip_alike (fun _ => apart _ (by decide)) fun _ => apart _ (by decide)
  · have never (m : Machine) :
        ¬ (site.csbase = 0xF0000 ∧ m.has .pc110RstLog ∧ (site.off = 0x4B75 ∨ site.off = 0x4B81)) := by
      rintro ⟨rom, -, here | here⟩
      · exact acts ⟨rom, here ▸ by decide⟩
      · exact acts ⟨rom, here ▸ by decide⟩
    exact skip_alike never never
  · exact skip_alike (fun _ => apart _ (by decide)) fun _ => apart _ (by decide)
  · refine guarded_alike (fun m m' twins => ?_) (leave_alike fun _ _ => forceResume_twins)
    have resume := has (v := .pc110Resume) (by decide) twins
    obtain ⟨-, d, rfl⟩ := twins
    rw [resume]
    rfl
  · exact guarded_alike (fun _ _ twins => by rw [has (by decide) twins]) (leave_alike fun _ _ => int13_twins same)

theorem reportSetup_eq (r : Report) (m : Machine) : ∃ d, reportSetup r m = { m with diag := d } := by
  unfold reportSetup
  split
  · exact ⟨_, rfl⟩
  · exact ⟨m.diag, rfl⟩

/-- Memory with the image, its palette fixed or not. -/
def imageMemory (noPalFix : Bool) (sbuf : List LsbBits.Byte) (mem : ByteMemory.Memory LsbBits.Byte) :
    ByteMemory.Memory LsbBits.Byte :=
  let loaded := ByteMemory.write mem 0x50000 sbuf
  if noPalFix then loaded
  else ByteMemory.write loaded (0x50000 + 0xBCF6) (ByteMemory.read loaded (0x50000 + 0xBCFF) 9)

/-- The CPU at the image, with the drive it came from. -/
def imageEntry (hard : Bool) (env : Env) : Env :=
  let env := (((env.setSeg .cs 0x5000 0x50000).setSeg .ds 0 0).setSeg .es 0 0).setSeg .ss 0 0
  let env := (env.setReg .esp 0x7000).setReg .edx (if hard then 0x80 else 0x00)
  { env with eip := 0 }

theorem enterImage_eq (forced : Bool) (sbuf : List LsbBits.Byte) (m : Machine) :
    ∃ d, enterImage forced sbuf m = { m with
      env := imageEntry (m.has .pc110SetupHd) m.env
      mem := imageMemory (m.has .pc110NoPalFix) sbuf m.mem
      diag := d } := by
  have asked : (m.poke 0x50000 sbuf).has .pc110NoPalFix = m.has .pc110NoPalFix := rfl
  simp only [enterImage, asked]
  cases m.has .pc110NoPalFix with
  | true =>
    simp only [if_true]
    obtain ⟨d, eq⟩ := reportSetup_eq (.setupLoaded forced sbuf.length) _
    exact ⟨d, eq⟩
  | false =>
    simp only [Bool.false_eq_true, if_false]
    obtain ⟨d, eq⟩ := reportSetup_eq (.setupLoaded forced sbuf.length) _
    exact ⟨d, eq⟩

/-- The hand-over to Easy-Setup asks for its image, the palette and the drive number. -/
theorem enterEasySetup_twins (same : SameFeatures g g') (forced : Bool) {m m' : Machine}
    (twins : Twins g g' m m') : Twins g g' (enterEasySetup forced m) (enterEasySetup forced m') := by
  have image := (same.has twins (v := .pc110SetupImg) (by decide)).2
  have palette := (same.has twins (v := .pc110NoPalFix) (by decide)).1
  have drive := (same.has twins (v := .pc110SetupHd) (by decide)).1
  obtain ⟨left, old, rfl⟩ := twins
  have files : (m.under g' old).files = m.files := rfl
  simp only [enterEasySetup, image, files]
  cases (m.path .pc110SetupImg).bind m.files with
  | none =>
    obtain ⟨d, eq⟩ := reportSetup_eq (.setupRom forced) m
    obtain ⟨d', eq'⟩ := reportSetup_eq (.setupRom forced) (m.under g' old)
    simp only [enterRom, eq, eq']
    exact ⟨left, d', rfl⟩
  | some sf =>
    obtain ⟨d, eq⟩ := enterImage_eq forced (sf.take 300000) m
    obtain ⟨d', eq'⟩ := enterImage_eq forced (sf.take 300000) (m.under g' old)
    simp only [eq, eq', drive, palette]
    exact ⟨left, d', rfl⟩

theorem uiBootDecision_alike (same : SameFeatures g g') :
    Alike (Twins g g') uiBootDecision uiBootDecision := by
  rintro m m' ⟨left, d, rfl⟩
  have quiet : Twins g g' (m.modifyPort 0x61 (· &&& ~~~3)) ((m.under g' d).modifyPort 0x61 (· &&& ~~~3)) :=
    ⟨left, d, rfl⟩
  have key : ((m.under g' d).modifyPort 0x61 (· &&& ~~~3)).statics.keyPressed = m.statics.keyPressed := rfl
  have key' : (m.modifyPort 0x61 (· &&& ~~~3)).statics.keyPressed = m.statics.keyPressed := rfl
  simp only [uiBootDecision, key, key']
  cases m.statics.keyPressed with
  | true => exact .done (enterEasySetup_twins same false quiet)
  | false => exact .next quiet

theorem setupDecision_alike (same : SameFeatures g g') : Alike (Twins g g') setupDecision setupDecision := by
  rintro m m' ⟨left, d, rfl⟩
  by_cases restart : m.statics.entered = true ∧ m.statics.keyPressed = true
  · simp only [setupDecision, Machine.under, restart, and_self, if_true]
    exact .next ⟨left, d, rfl⟩
  · simp only [setupDecision, Machine.under, restart, if_false]
    exact .done (enterEasySetup_twins same true ⟨left, d, rfl⟩)

theorem diskBoot_alike (same : SameFeatures g g') : Alike (Twins g g') diskBoot diskBoot := by
  intro m m' twins
  have path := (same.has twins (v := .pc110Boot) (by decide)).2
  obtain ⟨left, d, rfl⟩ := twins
  have files : (m.under g' d).files = m.files := rfl
  have booted : (m.under g' d).statics.booted = m.statics.booted := rfl
  simp only [diskBoot, path, files, booted]
  cases m.path .pc110Boot with
  | none => exact .next ⟨left, d, rfl⟩
  | some bootpath =>
    cases m.statics.booted with
    | true => exact .next ⟨left, d, rfl⟩
    | false =>
      cases opens : m.files bootpath with
      | none =>
        simp only [opens]
        exact .next ⟨left, _, rfl⟩
      | some bf =>
        simp only [opens]
        by_cases whole : (bf.take 512).length = 512
        · simp only [whole, if_true]
          exact .done ⟨left, _, rfl⟩
        · simp only [whole, if_false]
          exact .next ⟨left, _, rfl⟩

theorem boot_alike (same : SameFeatures g g') {site site' : Site} (base : site'.csbase = site.csbase)
    (off : site'.off = site.off) : List.Forall₂ (Alike (Twins g g')) (bootStages site) (bootStages site') := by
  have has {v : EnvVar} (feature : v ∉ logVars) {m m' : Machine} (twins : Twins g g' m m') :
      m'.has v = m.has v := (same.has twins feature).1
  have booted {m m' : Machine} (twins : Twins g g' m m') : m'.statics.booted = m.statics.booted := by
    obtain ⟨-, d, rfl⟩ := twins
    rfl
  unfold bootStages Site.rom
  rw [base, off]
  refine .cons ?_ (.cons (notes_alike _ _) (.cons ?_ (.cons ?_ .nil)))
  · exact guarded_alike (fun _ _ twins => by rw [has (by decide) twins, booted twins]) (uiBootDecision_alike same)
  · exact guarded_alike (fun _ _ twins => by rw [has (by decide) twins, booted twins]) (setupDecision_alike same)
  · exact guarded_alike (fun _ _ _ => Iff.rfl) (diskBoot_alike same)

theorem mempatLoop_under (second : Bool) (cx : Nat) (m : Machine) (di : BitVec 16) (d : Diag) :
    mempatLoop q second cx (m.under g' d) di =
      ((mempatLoop q second cx m di).1.under g' d, (mempatLoop q second cx m di).2) := by
  have one (m : Machine) (di : BitVec 16) : mempatStep q second (m.under g' d) di =
      ((mempatStep q second m di).1.under g' d, (mempatStep q second m di).2) := by
    cases second <;> rfl
  induction cx generalizing m di with
  | zero => rfl
  | succ cx ih => simp only [mempatLoop, one, ih]

theorem completers_alike (off : BitVec 16) :
    List.Forall₂ (Alike (Twins g g')) (completerStages q off) (completerStages q off) := by
  have once {c : Prop} [Decidable c] {taken : Bool} {f : Machine → Machine}
      (aside : ∀ m d, ∃ d', f (m.under g' d) = (f m).under g' d') (getenv : ∀ m, (f m).getenv = m.getenv) :
      Alike (Twins g g') (guarded (fun _ => c) (leave taken f)) (guarded (fun _ => c) (leave taken f)) :=
    guarded_alike (fun _ _ _ => Iff.rfl) (leave_plain aside getenv)
  have counted {c : Prop} [Decidable c] (counter : Counter) (limit : Nat) {f : Machine → Machine}
      (aside : ∀ m d, ∃ d', f (m.under g' d) = (f m).under g' d') (getenv : ∀ m, (f m).getenv = m.getenv) :
      Alike (Twins g g') (guarded (fun _ => c) (afterHits counter limit f))
        (guarded (fun _ => c) (afterHits counter limit f)) :=
    guarded_alike (fun _ _ _ => Iff.rfl) (afterHits_alike counter limit aside getenv)
  have delay (m : Machine) (d : Diag) : completeDelay (m.under g' d) = (completeDelay m).under g' d := by
    by_cases idle : lo16 (m.env.regs .ecx) = 0
    · simp only [completeDelay, Machine.under, idle, ne_eq, not_true_eq_false, if_false]
    · simp only [completeDelay, Machine.under, idle, ne_eq, not_false_eq_true, if_true]
      rfl
  have pattern (m : Machine) (d : Diag) :
      completeMempat q (m.under g' d) off = (completeMempat q m off).under g' d := by
    simp only [completeMempat]
    rw [show (m.under g' d).env = m.env from rfl, mempatLoop_under]
    rfl
  refine .cons ?_ (.cons ?_ (.cons ?_ (.cons ?_ (.cons ?_ (.cons ?_ (.cons ?_ (.cons ?_ (.cons ?_ (.cons ?_ (.cons ?_
    (.cons ?_ (.cons ?_ (.cons ?_ (.cons ?_ (.cons ?_ .nil)))))))))))))))
  · exact once (fun _ d => ⟨d, rfl⟩) fun _ => rfl
  · exact once (fun _ d => ⟨d, rfl⟩) fun _ => rfl
  · exact counted _ _ (fun _ d => ⟨d, rfl⟩) fun _ => rfl
  · exact counted _ _ (fun _ d => ⟨d, rfl⟩) fun _ => rfl
  · exact counted _ _ (fun _ d => ⟨d, rfl⟩) fun _ => rfl
  · exact counted _ _ (fun _ d => ⟨d, rfl⟩) fun _ => rfl
  · exact counted _ _ (fun _ d => ⟨d, rfl⟩) fun _ => rfl
  · exact once (fun _ d => ⟨d, rfl⟩) fun _ => rfl
  · exact once (fun _ d => ⟨d, rfl⟩) fun _ => rfl
  · exact once (fun _ d => ⟨d, rfl⟩) fun _ => rfl
  · exact once (fun _ d => ⟨d, rfl⟩) fun _ => rfl
  · exact once (fun _ _ => ⟨_, rfl⟩) fun _ => rfl
  · exact counted _ _ (fun _ d => ⟨d, rfl⟩) fun _ => rfl
  · exact counted _ _ (fun _ d => ⟨d, rfl⟩) fun _ => rfl
  · exact counted _ _ (fun m d => ⟨d, delay m d⟩) fun m => (completeDelay_guestOnly m).getenv
  · exact counted _ _ (fun m d => ⟨d, pattern m d⟩) fun m => (mempatLoop_guestOnly q m _ _ _).getenv

end Stages

section Calls
variable {g g' : EnvVar → Option String} {q : Stock}

/-- Where the handlers print, no completer waits. -/
theorem TakesCompleter.passed {off : BitVec 16} {m s : Machine} {taken : Bool} (member : off ∈ reportOffsets)
    (completer : TakesCompleter q off m taken s) : ∃ d, (taken, s) = (false, m.inBios d) := by
  have elsewhere : off ∉ completedAtOnce ∧ off ≠ 0x61BE := by
    simp only [reportOffsets, resetGates, List.cons_append, List.nil_append, List.mem_cons, List.not_mem_nil,
      or_false] at member
    rcases member with h | h | h | h | h | h | h | h | h | h <;> subst h <;> decide
  have outside : off ∈ romOffsets := List.mem_append_left _ (List.mem_append_right _ member)
  cases completer with
  | passes d => exact ⟨d, rfl⟩
  | memoryTest d there => exact absurd there elsewhere.2
  | atOnce d there => exact absurd there elsewhere.1
  | counting _ _ site | completes _ _ site => exact absurd outside (site_apart site).2.1

theorem TakesRom.printed {site : Site} {m s : Machine} {taken : Bool} (member : site.off ∈ reportOffsets)
    (rom : TakesRom q site m taken s) : ∃ d, (taken, s) = (false, m.inBios d) := by
  have apart {off : BitVec 16} (there : site.rom off) (acts : off ∉ reportOffsets) : False := by
    rw [there.2] at member
    exact acts member
  cases rom with
  | reported d => exact ⟨d, rfl⟩
  | inject _ _ there | tick _ _ there | sentinel _ _ there | warmReset _ there | resume _ there | int13 _ there
  | uiSetup _ _ there | setup _ there | boot _ _ _ there | noBoot _ there => exact (apart there (by decide)).elim

/-- A place that only prints is left as one that is passed. -/
theorem postIntercept_reported {pc : Word} {m : Machine} (reaches : Reaches pc m)
    (member : (Site.of m pc).off ∈ reportOffsets) : ∃ d, postIntercept q pc m = (false, m.inBios d) := by
  rcases reaches.takes (q := q) with rom | ⟨-, completer⟩
  · exact rom.printed member
  · exact completer.passed member

/-- A reset of twins, whose reports stay in their buffers. -/
theorem reset_twins {pc : Word} {m m' : Machine} (reaches : Reaches pc m) (reaches' : Reaches pc m')
    (here : (Site.of m pc).rom 0x5516) (here' : (Site.of m' pc).rom 0x5516)
    (twins : ∀ d d', Twins g g' (m.inBios d) (m'.inBios d'))
    (fits : (postIntercept q pc m).2.effects.count .overrun = m.effects.count .overrun)
    (fits' : (postIntercept q pc m').2.effects.count .overrun = m'.effects.count .overrun) :
    (postIntercept q pc m').1 = (postIntercept q pc m).1 ∧
      Twins g g' (postIntercept q pc m).2 (postIntercept q pc m').2 := by
  obtain ⟨d, eq⟩ := postIntercept_warmReset (q := q) reaches here
  obtain ⟨d', eq'⟩ := postIntercept_warmReset (q := q) reaches' here'
  rw [eq] at fits
  rw [eq'] at fits'
  rw [eq, eq']
  exact ⟨rfl, warmReset_twins _ _ (twins d d') fits fits'⟩

theorem call_twins (same : SameFeatures g g') (pc : Word) {m m' : Machine} (twins : Twins g g' m m')
    (fits : (postIntercept q pc m).2.effects.count .overrun = m.effects.count .overrun)
    (fits' : (postIntercept q pc m').2.effects.count .overrun = m'.effects.count .overrun) :
    (postIntercept q pc m').1 = (postIntercept q pc m).1 ∧
      Twins g g' (postIntercept q pc m).2 (postIntercept q pc m').2 := by
  have related := twins
  obtain ⟨left, old, rfl⟩ := twins
  by_cases prints : (m.env.segs .cs).base = 0xF0000 ∧ (Site.of m pc).off ∈ loggedOffsets
  · have ui : (m.under g' old).has .pc110PostUi = m.has .pc110PostUi := (same.has related (by decide)).1
    have on : (m.under g' old).enabled = m.enabled :=
      congrArg m.statics.enabled.getD (same.has related (v := .pc110Post) (by decide)).1
    have query := readsErrorLog_twins same pc related
    cases enabled : m.enabled with
    | false =>
      rw [postIntercept_front, postIntercept_front, on, enabled]
      exact ⟨rfl, left, old, rfl⟩
    | true =>
      cases service : readsErrorLog pc m with
      | true =>
        obtain ⟨d, eq⟩ := postIntercept_emptyLog (q := q) enabled service
        obtain ⟨d', eq'⟩ := postIntercept_emptyLog (q := q) (on.trans enabled) (query.trans service)
        rw [eq, eq']
        exact ⟨rfl, left, d', rfl⟩
      | false =>
        cases waits : m.statics.kbcResetPending with
        | true =>
          obtain ⟨d, eq⟩ := postIntercept_portReset (q := q) enabled service waits
          obtain ⟨d', eq'⟩ := postIntercept_portReset (q := q) (on.trans enabled) (query.trans service) waits
          rw [eq, eq']
          exact ⟨rfl, portReset_twins ⟨left, d', rfl⟩⟩
        | false =>
          have reaches : Reaches pc m := ⟨enabled, service, waits, .inl prints.1⟩
          have reaches' : Reaches pc (m.under g' old) :=
            ⟨on.trans enabled, query.trans service, waits, .inl prints.1⟩
          have inBios (d d' : Diag) : Twins g g' (m.inBios d) ((m.under g' old).inBios d') := by
            refine ⟨left, d', ?_⟩
            simp only [Machine.inBios, ui]
            rfl
          rcases List.mem_cons.mp prints.2 with reset | member
          · exact reset_twins reaches reaches' ⟨prints.1, reset⟩ ⟨prints.1, reset⟩ inBios fits fits'
          · obtain ⟨d, eq⟩ := postIntercept_reported (q := q) reaches member
            obtain ⟨d', eq'⟩ := postIntercept_reported (q := q) reaches' member
            rw [eq, eq']
            exact ⟨rfl, inBios d d'⟩
  · let site := Site.of m pc
    let site' := Site.of (m.under g' old) pc
    have entry : List.Forall₂ (Alike (Twins g g')) (entryStages q site) (entryStages q site') :=
      entry_alike same rfl rfl
    have rom : List.Forall₂ (Alike (Twins g g')) (romStages q site) (romStages q site') :=
      rom_alike same rfl rfl prints
    have boot : List.Forall₂ (Alike (Twins g g')) (bootStages site) (bootStages site') := boot_alike same rfl rfl
    have completers : List.Forall₂ (Alike (Twins g g')) (completerStages q site.off) (completerStages q site'.off) :=
      completers_alike site.off
    have alike : List.Forall₂ (Alike (Twins g g')) (stages q site) (stages q site') :=
      List.rel_append (List.rel_append (List.rel_append entry rom) boot) completers
    have agree := Cascade.run_alike false alike m (m.under g' old) related
    exact ⟨agree.1.symm, agree.2⟩

theorem step_twins (same : SameFeatures g g') (e : Event) {m m' : Machine} (twins : Twins g g' m m')
    (fits : StaysInBuffers q m e) (fits' : StaysInBuffers q m' e) :
    verdict q e m' = verdict q e m ∧ Twins g g' (m.step q e) (m'.step q e) := by
  have post := (same.has twins (v := .pc110Post) (by decide)).1
  cases e with
  | call =>
    have pc : m'.pc = m.pc := by
      obtain ⟨-, d, rfl⟩ := twins
      rfl
    have call := call_twins (q := q) same m.pc twins fits (by rw [← pc]; exact fits')
    simp only [verdict, Machine.step, pc]
    exact ⟨congrArg some call.1, call.2⟩
  | kbcReset =>
    obtain ⟨left, d, rfl⟩ := twins
    refine ⟨rfl, ?_⟩
    simp only [Machine.step, post]
    split
    · exact ⟨left, d, rfl⟩
    · exact ⟨left, d, rfl⟩
  | key | guest | host | systemReset =>
    obtain ⟨left, d, rfl⟩ := twins
    exact ⟨rfl, left, d, rfl⟩

end Calls

/-- Logging never steers: whatever the log variables are set to, two runs that overrun no buffer take
every call the same way and end in the same machine, up to what has been printed. -/
theorem run_logsAside (q : Stock) (events : List Event) (m : Machine) (getenv : EnvVar → Option String)
    (same : SameFeatures m.getenv getenv) (d : Diag) (fits : Runs.Always (Machine.step q) (StaysInBuffers q) events m)
    (fits' : Runs.Always (Machine.step q) (StaysInBuffers q) events (m.under getenv d)) :
    Runs.recorded (Machine.step q) (verdict q) events (m.under getenv d) =
      Runs.recorded (Machine.step q) (verdict q) events m ∧
    ∃ d', Runs.run (Machine.step q) events (m.under getenv d) =
      (Runs.run (Machine.step q) events m).under getenv d' := by
  have twins : Twins m.getenv getenv m (m.under getenv d) := ⟨rfl, d, rfl⟩
  generalize m.under getenv d = m' at twins fits'
  generalize m.getenv = g at same twins
  induction events generalizing m m' with
  | nil => exact ⟨rfl, twins.right⟩
  | cons e events ih =>
    obtain ⟨first, next⟩ := step_twins (q := q) same e twins fits.1 fits'.1
    obtain ⟨verdicts, last⟩ := ih _ fits.2 _ fits'.2 next
    exact ⟨by rw [Runs.recorded, first, verdicts]; rfl, last⟩

def logsOn (getenv : EnvVar → Option String) : EnvVar → Option String :=
  fun v => if v ∈ logVars then some "1" else getenv v

/-- A machine about to be reset at F000:5516, which logs nothing. -/
def unlogged : Machine :=
  .start (cpuAt 0x5516) (fun _ => 0) (fun _ => 0) (fun | .pc110Post => some "1" | _ => none) fun _ => none

theorem run_logsAside_reset :
    Runs.recorded (Machine.step default) (verdict default) [.call]
        (unlogged.under (logsOn unlogged.getenv) .initial) =
      Runs.recorded (Machine.step default) (verdict default) [.call] unlogged ∧
    ∃ d', Runs.run (Machine.step default) [.call] (unlogged.under (logsOn unlogged.getenv) .initial) =
      (Runs.run (Machine.step default) [.call] unlogged).under (logsOn unlogged.getenv) d' :=
  run_logsAside default [.call] unlogged _ (fun _ feature => if_neg feature) .initial
    ⟨by unfold StaysInBuffers; decide +kernel, trivial⟩ ⟨by unfold StaysInBuffers; decide +kernel, trivial⟩

end Pc110
