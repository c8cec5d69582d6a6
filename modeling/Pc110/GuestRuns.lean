import Pc110.Library.Inevitable
import Pc110.Library.RealModeRuns
import Pc110.Transparency
import Pc110.PostRun

/-! Real-mode code under the patched `cpu_exec_loop`: calls of the intercept before blocks,
instructions inside them, and service routines of interrupts in between. A block may end behind
any instruction, and a block that was chained is entered without a call; an interrupt always
comes back to the loop. -/
namespace Pc110

open RealMode (State Agree Glides Fetches)
open Inevitability (Inevitable)

def Reg.named : RealMode.Reg → Reg
  | .ax => .eax
  | .cx => .ecx
  | .dx => .edx
  | .bx => .ebx
  | .sp => .esp
  | .bp => .ebp
  | .si => .esi
  | .di => .edi

def Seg.named : RealMode.Seg → Seg
  | .es => .es
  | .cs => .cs
  | .ss => .ss
  | .ds => .ds

def Reg.number : Reg → Nat
  | .eax => 0
  | .ecx => 1
  | .edx => 2
  | .ebx => 3
  | .esp => 4
  | .ebp => 5
  | .esi => 6
  | .edi => 7

def Seg.real : Seg → Option RealMode.Seg
  | .es => some .es
  | .cs => some .cs
  | .ss => some .ss
  | .ds => some .ds
  | .fs => none
  | .gs => none

/-- The machine as 16-bit real-mode code sees it. -/
def Machine.view (q : Stock) (m : Machine) : State where
  regs := fun r => lo16 (m.env.regs (.named r))
  segs := fun s => ⟨lo16 (m.env.segs (.named s)).selector, (m.env.segs (.named s)).base⟩
  ip := lo16 m.env.eip
  flags := lo16 (cpuComputeEflags q m.env)
  mem := m.mem

/-- `DESC_B_MASK` -/
def descB : Word := 1 <<< 22

/-- 16-bit real mode, with the vector table at 0. -/
structure InRealMode (m : Machine) : Prop where
  pe : m.env.cr0 &&& 1 = 0
  code : (m.env.segs .cs).flags &&& descB = 0
  stack : (m.env.segs .ss).flags &&& descB = 0
  vectors : m.env.idt.base = 0
  eip : m.env.eip = (lo16 m.env.eip).setWidth 32

/-- The guest alone has moved, and is still in real mode. -/
structure GuestMoved (m m' : Machine) : Prop where
  real : InRealMode m'
  host : m' = { m with env := m'.env, mem := m'.mem }

inductive Executes (q : Stock) (m m' : Machine) : Bool → Prop where
  | next : InRealMode m → GuestMoved m m' → (m.view q).step = some (.next (m'.view q)) → Executes q m m' false
  | raised : InRealMode m → GuestMoved m m' → (m.view q).step = some (.raised (m'.view q)) → Executes q m m' true

/-- Interrupts served between two blocks come back with the processor as it was, and leave the
cells of `kept`, the files and the environment alone. -/
structure Serviced (q : Stock) (kept : Nat → Prop) (m m' : Machine) : Prop where
  view : Agree kept (m.view q) (m'.view q)
  real : InRealMode m → InRealMode m'
  enabled : m'.enabled = m.enabled
  idle : m.statics.kbcResetPending = false → m'.statics.kbcResetPending = false
  getenv : m'.getenv = m.getenv
  files : m'.files = m.files
  /-- None is served while they are disabled and no instruction is trapped. -/
  masked : (m.view q).flags &&& (RealMode.interruptFlag ||| RealMode.trapFlag) = 0 → m' = m

structure CpuLoop where
  machine : Machine
  inBlock : Bool

inductive LoopStep (q : Stock) (kept : Nat → Prop) : CpuLoop → CpuLoop → Prop where
  | call {m m'} : Serviced q kept m m' →
      LoopStep q kept ⟨m, false⟩ ⟨(postIntercept q m'.pc m').2, !(postIntercept q m'.pc m').1⟩
  | inside {m m'} : Executes q m m' false → LoopStep q kept ⟨m, true⟩ ⟨m', true⟩
  | ends {m m' raised} : Executes q m m' raised → LoopStep q kept ⟨m, true⟩ ⟨m', false⟩

/-- What the boot relies on throughout: the intercept on, no reset waiting, real mode, and the disk. -/
structure Steady (image : List LsbBits.Byte) (m : Machine) : Prop where
  on : m.enabled = true
  idle : m.statics.kbcResetPending = false
  real : InRealMode m
  named : m.getenv .pc110Boot ≠ none
  disk : (m.getenv .pc110Boot).bind m.files = some image

section Views
variable {q : Stock} {m m' : Machine}

theorem lo16_setWidth16 (v : BitVec 16) : lo16 (v.setWidth 32) = v := by
  ext i hi
  simp [lo16]

theorem exists_moved (q : Stock) (m : Machine) (real : InRealMode m) (s : State) :
    ∃ m', GuestMoved m m' ∧ m'.view q = s := by
  let env : Env := { m.env with
    regs := fun r => set16 (m.env.regs r) (s.regs (.numbered r.number))
    segs := fun seg => (seg.real).elim (m.env.segs seg) fun r =>
      { m.env.segs seg with selector := (s.segs r).selector.setWidth 32, base := (s.segs r).base }
    eip := s.ip.setWidth 32 }
  let flagged := pcStoreEflags env (set16 (cpuComputeEflags q m.env) s.flags)
  refine ⟨{ m with env := flagged, mem := s.mem }, ⟨⟨real.pe, real.code, real.stack, real.vectors, ?_⟩, rfl⟩, ?_⟩
  · change s.ip.setWidth 32 = (lo16 (s.ip.setWidth 32)).setWidth 32
    rw [lo16_setWidth16]
  · have flags : lo16 (cpuComputeEflags q flagged) = s.flags := by
      simp only [flagged, cpuComputeEflags_pcStoreEflags, lo16_set16]
    have regs (r : RealMode.Reg) : lo16 (flagged.regs (.named r)) = s.regs r := by
      cases r <;> exact lo16_set16 _ _
    have segs (seg : RealMode.Seg) :
        (⟨lo16 (flagged.segs (.named seg)).selector, (flagged.segs (.named seg)).base⟩ : RealMode.Segment) =
          s.segs seg := by
      cases seg <;> exact congrArg (RealMode.Segment.mk · _) (lo16_setWidth16 _)
    exact State.ext (funext regs) (funext segs) (lo16_setWidth16 _) flags rfl

theorem Serviced.refl (q : Stock) (kept : Nat → Prop) (m : Machine) : Serviced q kept m m :=
  ⟨.refl _, id, rfl, id, rfl, rfl, fun _ => rfl⟩

theorem Steady.moved {image : List LsbBits.Byte} (steady : Steady image m) (moved : GuestMoved m m') :
    Steady image m' := by
  obtain ⟨real, host⟩ := moved
  rw [host] at real ⊢
  exact ⟨steady.on, steady.idle, real, steady.named, steady.disk⟩

theorem Steady.serviced {image : List LsbBits.Byte} {kept : Nat → Prop} (steady : Steady image m)
    (serviced : Serviced q kept m m') : Steady image m' := by
  refine ⟨serviced.enabled.trans steady.on, serviced.idle steady.idle, serviced.real steady.real, ?_, ?_⟩
  · rw [serviced.getenv]
    exact steady.named
  · rw [serviced.getenv, serviced.files]
    exact steady.disk

/-- Code in the first 64 KiB is called for in vain. -/
theorem call_aside {image : List LsbBits.Byte} (steady : Steady image m) (low : ((m.view q).segs .cs).base = 0) :
    ∃ d, postIntercept q m.pc m = (false, m.seen d) := by
  have base : (m.env.segs .cs).base = 0 := low
  have far : m.pc ≠ esDispatcher := by
    rw [Machine.pc, base, steady.real.eip, esDispatcher]
    bv_omega
  have service : readsErrorLog m.pc m = false := decide_eq_false fun query => far query.1
  have taking := postIntercept_takes q m.pc m
  generalize postIntercept q m.pc m = r at *
  obtain ⟨taken, s⟩ := r
  change Takes q m.pc m taken s at taking
  have outside (reaches : Reaches m.pc m) : False := by
    rcases reaches.gate with gate | gate
    · exact absurd (gate.symm.trans base) (by decide)
    · exact absurd (gate.symm.trans base) (by decide)
  cases taking with
  | outside d => exact ⟨d, rfl⟩
  | disabled off => exact absurd (off.symm.trans steady.on) (by decide)
  | emptyLog _ _ log => exact absurd (log.symm.trans service) (by decide)
  | portReset _ _ _ waits => exact absurd (waits.symm.trans steady.idle) (by decide)
  | rom _ _ reaches | completer _ _ reaches => exact (outside reaches).elim

theorem Steady.seen {image : List LsbBits.Byte} (steady : Steady image m) (d : Diag) : Steady image (m.seen d) :=
  ⟨rfl, steady.idle, ⟨steady.real.pe, steady.real.code, steady.real.stack, steady.real.vectors, steady.real.eip⟩,
    steady.named, steady.disk⟩

end Views

section Lift
variable {q : Stock} {kept : Nat → Prop} {image : List LsbBits.Byte}

/-- The loop holds a machine that looks like `s` to real-mode code, `kept` cells included. -/
structure Holds (q : Stock) (kept : Nat → Prop) (image : List LsbBits.Byte) (s : State) (c : CpuLoop) : Prop where
  steady : Steady image c.machine
  agree : Agree kept s (c.machine.view q)

/-- From a call in low memory the loop comes to the block. -/
theorem inBlock_inevitable {s : State} (low : (s.segs .cs).base = 0) {Q : CpuLoop → Prop}
    (next : ∀ m, Holds q kept image s ⟨m, true⟩ → Inevitable (LoopStep q kept) Q ⟨m, true⟩) {c : CpuLoop}
    (holds : Holds q kept image s c) : Inevitable (LoopStep q kept) Q c := by
  obtain ⟨m, inBlock⟩ := c
  cases inBlock with
  | true => exact next m holds
  | false =>
    refine .step ⟨_, .call (.refl q kept m)⟩ ?_
    rintro _ (@⟨_, m', serviced⟩)
    have steady := holds.steady.serviced serviced
    have agree := holds.agree.trans serviced.view
    have base : ((m'.view q).segs .cs).base = 0 := by rw [agree.segs]; exact low
    obtain ⟨d, eq⟩ := call_aside steady base
    rw [eq]
    exact next _ ⟨steady.seen d, agree⟩

theorem instruction_inevitable {s t : State} {bytes : List LsbBits.Byte} {i : RealMode.Instr}
    (low : (s.segs .cs).base = 0) (fetches : Fetches s bytes i)
    (inside : ∀ a, ByteMemory.Within s.pc bytes.length a → kept a)
    (reads : ∀ a, i.Reads (s.advance bytes.length) a → kept a)
    (next : RealMode.exec i s.ip (s.advance bytes.length) = .next t) {c : CpuLoop} (holds : Holds q kept image s c) :
    Inevitable (LoopStep q kept) (Holds q kept image t) c := by
  refine inBlock_inevitable low (fun m holds => ?_) holds
  obtain ⟨steady, agree⟩ := holds
  have fetches' := fetches.agree agree inside
  have ip : (m.view q).ip = s.ip := by
    obtain ⟨mem, -, eq⟩ := agree
    rw [eq]
  have advanced : Agree kept (s.advance bytes.length) ((m.view q).advance bytes.length) := by
    have moved := agree.setIp (s.ip + BitVec.ofNat 16 bytes.length)
    rw [RealMode.State.advance, RealMode.State.advance, ip]
    exact moved
  have outcome := RealMode.exec_agree i s.ip advanced reads
  have step := fetches'.step
  rw [ip] at step
  rw [next] at outcome
  generalize RealMode.exec i s.ip ((m.view q).advance bytes.length) = o at outcome step
  cases outcome with
  | @next _ t' agree' =>
    obtain ⟨m', moved, view⟩ := exists_moved q m steady.real t'
    rw [← view] at step
    refine .step ⟨_, .inside (.next steady.real moved step)⟩ ?_
    have after (m'' : Machine) (inBlock : Bool) (moved : GuestMoved m m'')
        (step' : (m.view q).step = some (.next (m''.view q))) : Holds q kept image t ⟨m'', inBlock⟩ := by
      have same : m''.view q = m'.view q := by
        injection Option.some.inj (step'.symm.trans step)
      exact ⟨steady.moved moved, by rw [same, view]; exact agree'⟩
    rintro _ (_ | @⟨_, m'', executes⟩ | @⟨_, m'', raised, executes⟩)
    · cases executes with
      | next _ moved step' => exact .now (after m'' true moved step')
    · cases executes with
      | next _ moved step' => exact .now (after m'' false moved step')
      | raised _ _ step' => exact absurd (step'.symm.trans step) (by rintro ⟨⟩)

/-- An interrupt instruction in low memory comes to the call before its service routine. -/
theorem int_inevitable {s : State} {bytes : List LsbBits.Byte} {n : LsbBits.Byte} (low : (s.segs .cs).base = 0)
    (fetches : Fetches s bytes (.int n)) (inside : ∀ a, ByteMemory.Within s.pc bytes.length a → kept a)
    {Q : CpuLoop → Prop} (enters : ∀ m m' : Machine, Agree kept s (m.view q) → Steady image m' →
      m'.view q = ((m.view q).advance bytes.length).raise n → Inevitable (LoopStep q kept) Q ⟨m', false⟩) {c : CpuLoop}
    (holds : Holds q kept image s c) : Inevitable (LoopStep q kept) Q c := by
  refine inBlock_inevitable low (fun m holds => ?_) holds
  obtain ⟨steady, agree⟩ := holds
  have step : (m.view q).step = some (.raised (((m.view q).advance bytes.length).raise n)) :=
    (fetches.agree agree inside).step
  obtain ⟨m', moved, view⟩ := exists_moved q m steady.real (((m.view q).advance bytes.length).raise n)
  rw [← view] at step
  refine .step ⟨_, .ends (.raised steady.real moved step)⟩ ?_
  rintro _ (_ | @⟨_, m'', executes⟩ | @⟨_, m'', raised, executes⟩)
  · cases executes with
    | next _ _ step' => exact absurd (step'.symm.trans step) (by rintro ⟨⟩)
  · cases executes with
    | next _ _ step' => exact absurd (step'.symm.trans step) (by rintro ⟨⟩)
    | raised _ moved' step' =>
      have same : m''.view q = m'.view q := by
        injection Option.some.inj (step'.symm.trans step)
      exact enters m m'' agree (steady.moved moved') (same.trans view)

/-- No interrupt comes before a call that they are disabled for. -/
theorem call_inevitable {m : Machine} (masked : (m.view q).flags &&& (RealMode.interruptFlag ||| RealMode.trapFlag) = 0)
    {Q : CpuLoop → Prop}
    (next : Inevitable (LoopStep q kept) Q ⟨(postIntercept q m.pc m).2, !(postIntercept q m.pc m).1⟩) :
    Inevitable (LoopStep q kept) Q ⟨m, false⟩ := by
  refine .step ⟨_, .call (.refl q kept m)⟩ ?_
  rintro _ (@⟨_, m', serviced⟩)
  obtain rfl := serviced.masked masked
  exact next

/-- What a real-mode program comes to, it comes to under the loop. -/
theorem glides_inevitable {s t : State} (glides : Glides kept (fun s => (s.segs .cs).base = 0) s t) {c : CpuLoop}
    (holds : Holds q kept image s c) : Inevitable (LoopStep q kept) (Holds q kept image t) c := by
  induction glides generalizing c with
  | refl => exact .now holds
  | step low fetches inside reads next _ ih =>
    exact (instruction_inevitable low fetches inside reads next holds).trans fun _ holds => ih holds

end Lift

end Pc110
