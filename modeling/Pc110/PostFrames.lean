import Pc110.PostInterceptCases

/-! What the branches of the intercept leave alone besides the guest they act on: the
statics of the file, the host, and the number of CPU resets. From this, what a call can do
to the latches and counters, whatever it does to the guest. -/
namespace Pc110

open LsbBits (Byte)

def Machine.resets (m : Machine) : Nat := m.effects.count .cpuReset

/-- Registers, memory and ports may differ. -/
structure GuestOnly (m m' : Machine) : Prop where
  statics : m'.statics = m.statics
  getenv : m'.getenv = m.getenv
  files : m'.files = m.files
  resets : m'.resets = m.resets

namespace GuestOnly
variable {m m' m'' : Machine}

theorem refl (m : Machine) : GuestOnly m m := ⟨rfl, rfl, rfl, rfl⟩

theorem trans (a : GuestOnly m m') (b : GuestOnly m' m'') : GuestOnly m m'' :=
  ⟨b.statics.trans a.statics, b.getenv.trans a.getenv, b.files.trans a.files, b.resets.trans a.resets⟩

theorem env (a : GuestOnly m m') (env : Env) : GuestOnly m { m' with env } := a.trans ⟨rfl, rfl, rfl, rfl⟩

theorem diag (a : GuestOnly m m') (d : Diag) : GuestOnly m { m' with diag := d } :=
  a.trans ⟨rfl, rfl, rfl, rfl⟩

theorem mem (a : GuestOnly m m') (mem : ByteMemory.Memory Byte) : GuestOnly m { m' with mem } :=
  a.trans ⟨rfl, rfl, rfl, rfl⟩

theorem setReg (a : GuestOnly m m') (r : Reg) (v : Word) : GuestOnly m (m'.setReg r v) := a.env _

theorem setSeg (a : GuestOnly m m') (s : Seg) (selector base : Word) :
    GuestOnly m (m'.setSeg s selector base) := a.env _

theorem setEip (a : GuestOnly m m') (eip : Word) : GuestOnly m (m'.setEip eip) := a.env _

theorem poke (a : GuestOnly m m') (address : Nat) (data : List Byte) :
    GuestOnly m (m'.poke address data) := a.mem _

theorem outb (a : GuestOnly m m') (port : Nat) (value : Byte) : GuestOnly m (m'.outb port value) :=
  a.trans ⟨rfl, rfl, rfl, by simp [Machine.resets, Machine.outb]⟩

theorem modifyPort (a : GuestOnly m m') (port : Nat) (f : Byte → Byte) :
    GuestOnly m (m'.modifyPort port f) := by
  have read : GuestOnly m' (m'.inb port) := ⟨rfl, rfl, rfl, by simp [Machine.resets, Machine.inb]⟩
  exact (a.trans read).outb port _

theorem ite {c : Prop} [Decidable c] (a : GuestOnly m m') (b : GuestOnly m m'') :
    GuestOnly m (if c then m' else m'') := by
  split
  · exact a
  · exact b

end GuestOnly

section Branches
variable (q : Stock) (m : Machine)

/-- The port-level reset: the request consumed and 1234h in the BDA. -/
theorem portReset_cpuReset : ∃ m',
    GuestOnly { m with statics := { m.statics with kbcResetPending := false } } m' ∧
    m'.mem = ByteMemory.write m.mem 0x472 warmSig ∧ portReset q m = m'.cpuReset q := by
  refine ⟨_, .ite (((GuestOnly.refl _).poke _ _).diag _) ((GuestOnly.refl _).poke _ _), ?_, rfl⟩
  split <;> rfl

/-- The reset at F000:5516: 1234h in the BDA before boot, the driver's value after it. -/
theorem warmReset_eq (prevOff : BitVec 16) : ∃ d, warmReset q prevOff m = Machine.cpuReset q { m with
    mem := if m.statics.booted then m.mem else ByteMemory.write m.mem 0x472 warmSig
    effects := m.effects ++ if m.has .pc110RstLog ∧ reportOverruns m.diag then [.overrun] else []
    statics := { m.statics with resetCount := m.statics.resetCount + 1 }
    diag := d } := by
  let counted (m : Machine) : Machine :=
    { m with statics := { m.statics with resetCount := m.statics.resetCount + 1 } }
  let logged (m : Machine) (cur72 : List Byte) : Machine :=
    if m.has .pc110RstLog then logReset prevOff cur72 m else m
  let dumped (m : Machine) : Machine :=
    if m.statics.booted ∧ m.has .pc110RstLog then { m with diag := resetHistory m } else m
  have reports (m : Machine) (cur72 : List Byte) : ∃ d, dumped (logged m cur72) = { m with
      effects := m.effects ++ if m.has .pc110RstLog ∧ reportOverruns m.diag then [.overrun] else []
      diag := d } := by
    have first : ∃ d, logged m cur72 = { m with
        effects := m.effects ++ if m.has .pc110RstLog ∧ reportOverruns m.diag then [.overrun] else []
        diag := d } := by
      cases log : m.has .pc110RstLog with
      | true =>
        simp only [logged, log, true_and]
        exact ⟨_, rfl⟩
      | false =>
        simp only [logged, log, Bool.false_eq_true, false_and, if_false, List.append_nil]
        exact ⟨m.diag, rfl⟩
    have second (m : Machine) : ∃ d, dumped m = { m with diag := d } := by
      simp only [dumped]
      split
      · exact ⟨_, rfl⟩
      · exact ⟨m.diag, rfl⟩
    obtain ⟨d, eq⟩ := first
    obtain ⟨d', eq'⟩ := second (logged m cur72)
    exact ⟨d', by rw [eq', eq]⟩
  cases booted : m.statics.booted with
  | true =>
    obtain ⟨d, eq⟩ := reports (counted m) (m.read 0x472 2)
    have behind : warmReset q prevOff m = (dumped (logged (counted m) (m.read 0x472 2))).cpuReset q := by
      simp only [warmReset, booted]
      rfl
    exact ⟨d, by rw [behind, eq]; simp only [counted, booted]; rfl⟩
  | false =>
    obtain ⟨d, eq⟩ := reports (counted (m.poke 0x472 warmSig)) (m.read 0x472 2)
    have behind : warmReset q prevOff m =
        (dumped (logged (counted (m.poke 0x472 warmSig)) (m.read 0x472 2))).cpuReset q := by
      simp only [warmReset, booted]
      rfl
    exact ⟨d, by rw [behind, eq]; simp only [counted, Machine.poke, booted]; rfl⟩

theorem warmReset_cpuReset (prevOff : BitVec 16) : ∃ m',
    GuestOnly { m with statics := { m.statics with resetCount := m.statics.resetCount + 1 } } m' ∧
    m'.mem = (if m.statics.booted then m.mem else ByteMemory.write m.mem 0x472 warmSig) ∧
    warmReset q prevOff m = m'.cpuReset q := by
  obtain ⟨d, eq⟩ := warmReset_eq q m prevOff
  refine ⟨{ m with
    mem := if m.statics.booted then m.mem else ByteMemory.write m.mem 0x472 warmSig
    effects := m.effects ++ if m.has .pc110RstLog ∧ reportOverruns m.diag then [.overrun] else []
    statics := { m.statics with resetCount := m.statics.resetCount + 1 }
    diag := d }, ⟨rfl, rfl, rfl, ?_⟩, rfl, eq⟩
  simp only [Machine.resets, List.count_append]
  split <;> rfl

theorem atBoot_guestOnly (d : Diag) : GuestOnly (m.inBios d) (m.atBoot d) :=
  .ite ((GuestOnly.refl _).modifyPort _ _) (.refl _)

theorem injectModeSet_guestOnly : GuestOnly
    { m with statics := { m.statics with rbModeset := true, rbSavedEax := m.env.regs .eax } }
    (injectModeSet q m) :=
  ⟨rfl, rfl, rfl, rfl⟩

theorem countTick_guestOnly : GuestOnly
    { m with statics := { m.statics with rbTicks := m.statics.rbTicks + 1 } } (countTick m) :=
  .ite ((GuestOnly.refl _).modifyPort _ _) (.refl _)

theorem modeSetDone_guestOnly : GuestOnly m (modeSetDone m) := by
  have prompt := ((GuestOnly.refl m).setReg .eax m.statics.rbSavedEax).poke (0xB8000 + 24 * 80 * 2) promptCells
  exact (((((prompt.outb _ _).outb _ _).outb _ _).modifyPort _ _).setSeg _ _ _).setEip _

theorem forceResume_guestOnly : GuestOnly m (forceResume m) :=
  GuestOnly.setEip (.ite ((GuestOnly.refl m).diag _) (.refl m)) _

theorem serve_guestOnly : GuestOnly m (Int13.serve m).machine := by
  simp only [Int13.serve]
  split_ifs <;> exact ⟨rfl, rfl, rfl, rfl⟩

theorem int13_guestOnly : GuestOnly m (Int13.int13 m) :=
  ((serve_guestOnly m).setReg _ _).env _

theorem enterImage_guestOnly (forced : Bool) (sbuf : List Byte) :
    GuestOnly m (enterImage forced sbuf m) := by
  have loaded := (GuestOnly.refl m).poke 0x50000 sbuf
  have themed : GuestOnly m _ := .ite (c := (m.poke 0x50000 sbuf).has .pc110NoPalFix) loaded
    (loaded.poke (0x50000 + 0xBCF6) ((m.poke 0x50000 sbuf).read (0x50000 + 0xBCFF) 9))
  have segments := (((themed.setSeg .cs 0x5000 0x50000).setSeg .ds 0 0).setSeg .es 0 0).setSeg .ss 0 0
  exact .ite ((((segments.setReg _ _).setReg _ _).setEip _).diag _)
    (((segments.setReg _ _).setReg _ _).setEip _)

theorem enterEasySetup_guestOnly (forced : Bool) : GuestOnly m (enterEasySetup forced m) := by
  unfold enterEasySetup
  split
  · exact enterImage_guestOnly m forced _
  · exact GuestOnly.setEip (.ite ((GuestOnly.refl m).diag _) (.refl m)) _

theorem bootDisk_guestOnly (path : String) (sec : List Byte) :
    GuestOnly { m with statics := { m.statics with booted := true } } (bootDisk path sec m) :=
  ⟨rfl, rfl, rfl, rfl⟩

theorem completeAtOnce_guestOnly (off : BitVec 16) : GuestOnly m (completeAtOnce off m) := by
  unfold completeAtOnce
  split_ifs <;> exact ⟨rfl, rfl, rfl, rfl⟩

theorem mempatStep_guestOnly (second : Bool) (di : BitVec 16) :
    GuestOnly m (mempatStep q second m di).1 := by
  cases second <;> exact ⟨rfl, rfl, rfl, rfl⟩

theorem mempatLoop_guestOnly (second : Bool) (cx : Nat) (di : BitVec 16) :
    GuestOnly m (mempatLoop q second cx m di).1 := by
  induction cx generalizing m di with
  | zero => exact .refl m
  | succ cx ih => exact (mempatStep_guestOnly q m second di).trans (ih _ _)

theorem completeDelay_guestOnly : GuestOnly m (completeDelay m) :=
  GuestOnly.env (.ite ((GuestOnly.refl m).poke _ _) (.refl m)) _

theorem complete_guestOnly (off : BitVec 16) (c : Counter) : GuestOnly m (c.complete q off m) := by
  cases c with
  | hMempat => exact (mempatLoop_guestOnly q m _ _ _).env _
  | hDelay => exact completeDelay_guestOnly m
  | h6943 | hC960 | hEA90 | h6961 | h53C1 | hCksum | hCopy => exact ⟨rfl, rfl, rfl, rfl⟩

end Branches

/-- Equal but for `enabled` and the `rb_*` state. -/
structure Statics.Kept (a b : Statics) : Prop where
  booted : b.booted = a.booted
  keyPressed : b.keyPressed = a.keyPressed
  kbcResetPending : b.kbcResetPending = a.kbcResetPending
  entered : b.entered = a.entered
  resetCount : b.resetCount = a.resetCount
  hits : b.hits = a.hits

/-- The latches and counters behind a call, and the CPU resets it made. -/
inductive Moves (pc : Word) (m : Machine) : Statics → Nat → Prop where
  | stays (st) : m.statics.Kept st → Moves pc m st 0
  | portReset (st) : m.enabled = true → readsErrorLog pc m = false →
      m.statics.kbcResetPending = true →
      { m.statics with kbcResetPending := false }.Kept st → Moves pc m st 1
  | warmReset (st) : Reaches pc m → (Site.of m pc).rom 0x5516 →
      { m.statics with resetCount := m.statics.resetCount + 1 }.Kept st → Moves pc m st 1
  | setup (st) : Reaches pc m → (Site.of m pc).rom 0x52BD → m.has .pc110Setup →
      { m.statics with entered := true, keyPressed := false }.Kept st → Moves pc m st 0
  | boot (st) : Reaches pc m → (Site.of m pc).rom 0x52BD →
      { m.statics with booted := true }.Kept st → Moves pc m st 0
  | counts (st c h) : Reaches pc m → Counter.site (Site.of m pc).off c →
      h ≤ m.statics.hits c + 1 →
      { m.statics with hits := Function.update m.statics.hits c h }.Kept st → Moves pc m st 0

/-- A call moves the latches, and touches neither the environment nor the files. -/
structure CallFrame (pc : Word) (m s : Machine) : Prop where
  moves : ∃ resets, Moves pc m s.statics resets ∧ s.resets = m.resets + resets
  getenv : s.getenv = m.getenv
  files : s.files = m.files

section Calls
variable {q : Stock} {pc : Word} {m m' s : Machine}

theorem kept_inBios (m : Machine) (d : Diag) : m.statics.Kept (m.inBios d).statics :=
  ⟨by simp, by simp, by simp, by simp, (Machine.inBios_statics m d).2.2.2.2.1, by simp⟩

theorem Statics.Kept.refl (a : Statics) : a.Kept a := ⟨rfl, rfl, rfl, rfl, rfl, rfl⟩

/-- The frame of a branch that acts on the guest of a machine with known statics. -/
theorem CallFrame.of_guestOnly (guest : GuestOnly m' s) (moves : Moves pc m m'.statics 0)
    (getenv : m'.getenv = m.getenv) (files : m'.files = m.files) (resets : m'.resets = m.resets) :
    CallFrame pc m s :=
  ⟨⟨0, guest.statics ▸ moves, guest.resets.trans resets⟩, guest.getenv.trans getenv,
    guest.files.trans files⟩

theorem CallFrame.stays (d : Diag) (guest : GuestOnly (m.inBios d) s) : CallFrame pc m s :=
  .of_guestOnly guest (.stays _ (kept_inBios m d)) rfl rfl rfl

theorem cpuReset_resets (q : Stock) (m : Machine) : (m.cpuReset q).resets = m.resets + 1 := by
  simp [Machine.resets, Machine.cpuReset]

theorem CallFrame.of_cpuReset (guest : GuestOnly m' s) (moves : Moves pc m m'.statics 1)
    (getenv : m'.getenv = m.getenv) (files : m'.files = m.files) (resets : m'.resets = m.resets) :
    CallFrame pc m (s.cpuReset q) :=
  ⟨⟨1, guest.statics ▸ moves, by rw [cpuReset_resets, guest.resets, resets]⟩,
    guest.getenv.trans getenv, guest.files.trans files⟩

theorem rom_frame {taken : Bool} (reaches : Reaches pc m) (rom : TakesRom q (.of m pc) m taken s) :
    CallFrame pc m s := by
  have kept := kept_inBios m
  cases rom with
  | inject d =>
    exact .of_guestOnly (injectModeSet_guestOnly q _) (.stays _ { kept d with }) rfl rfl rfl
  | tick d => exact .of_guestOnly (countTick_guestOnly _) (.stays _ { kept d with }) rfl rfl rfl
  | sentinel d => exact .stays d (modeSetDone_guestOnly _)
  | warmReset d here =>
    obtain ⟨m', guest, -, eq⟩ := warmReset_cpuReset q (m.inBios d) (Site.of m pc).prevOff
    rw [eq]
    refine .of_cpuReset guest (.warmReset _ reaches here ?_) rfl rfl rfl
    exact { kept d with resetCount := congrArg (· + 1) (kept d).resetCount }
  | reported d => exact .stays d (.refl _)
  | resume d => exact .stays d (forceResume_guestOnly _)
  | int13 d => exact .stays d (int13_guestOnly _)
  | uiSetup d => exact .stays d ((atBoot_guestOnly m d).trans (enterEasySetup_guestOnly _ false))
  | setup d here booted setup =>
    have atBoot := atBoot_guestOnly m d
    refine .of_guestOnly (enterEasySetup_guestOnly _ true) (.setup _ reaches here setup ?_)
      atBoot.getenv atBoot.files atBoot.resets
    rw [atBoot.statics]
    exact { kept d with entered := rfl, keyPressed := rfl }
  | boot d path bf here =>
    have atBoot := atBoot_guestOnly m d
    refine .of_guestOnly (bootDisk_guestOnly _ path _) (.boot _ reaches here ?_)
      atBoot.getenv atBoot.files atBoot.resets
    rw [atBoot.statics]
    exact { kept d with booted := rfl }
  | noBoot d => exact .stays d (atBoot_guestOnly m d)

theorem kept_setHits (d : Diag) (c : Counter) (h : Nat) :
    { m.statics with hits := Function.update m.statics.hits c h }.Kept
      ((m.inBios d).setHits c h).statics :=
  { kept_inBios m d with hits := by simp [Machine.setHits] }

theorem completer_frame {taken : Bool} (reaches : Reaches pc m)
    (completer : TakesCompleter q (Site.of m pc).off m taken s) : CallFrame pc m s := by
  cases completer with
  | memoryTest d => exact .stays d ⟨rfl, rfl, rfl, rfl⟩
  | atOnce d => exact .stays d (completeAtOnce_guestOnly _ _)
  | counting d c site =>
    exact .of_guestOnly (.refl _) (.counts _ c _ reaches site le_rfl (kept_setHits d c _)) rfl rfl rfl
  | completes d c site =>
    exact .of_guestOnly (complete_guestOnly q _ _ c)
      (.counts _ c _ reaches site (Nat.zero_le _) (kept_setHits d c 0)) rfl rfl rfl
  | passes d => exact .stays d (.refl _)

theorem postIntercept_frame (q : Stock) (pc : Word) (m : Machine) :
    CallFrame pc m (postIntercept q pc m).2 := by
  have taking := postIntercept_takes q pc m
  generalize (postIntercept q pc m).1 = taken at *
  generalize (postIntercept q pc m).2 = s at *
  cases taking with
  | disabled => exact ⟨⟨0, .stays _ ⟨rfl, rfl, rfl, rfl, rfl, rfl⟩, rfl⟩, rfl, rfl⟩
  | emptyLog d => exact ⟨⟨0, .stays _ ⟨rfl, rfl, rfl, rfl, rfl, rfl⟩, rfl⟩, rfl, rfl⟩
  | portReset d on service pending =>
    obtain ⟨m', guest, -, eq⟩ := portReset_cpuReset q (m.seen d)
    rw [eq]
    exact .of_cpuReset guest (.portReset _ on service pending ⟨rfl, rfl, rfl, rfl, rfl, rfl⟩) rfl rfl rfl
  | outside d => exact ⟨⟨0, .stays _ ⟨rfl, rfl, rfl, rfl, rfl, rfl⟩, rfl⟩, rfl, rfl⟩
  | rom _ _ reaches rom => exact rom_frame reaches rom
  | completer _ _ reaches _ completer => exact completer_frame reaches completer

end Calls

end Pc110
