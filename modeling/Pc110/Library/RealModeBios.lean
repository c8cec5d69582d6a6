import Pc110.Library.Inevitable
import Pc110.Library.RealModeRuns

/-! Real-mode programs over a BIOS. An `INT` comes back in a state that the BIOS chooses, and
between instructions its interrupts may change any cell but those it keeps. What a program
comes to without interrupts it comes to with them, as long as it counts on kept cells only. -/
namespace RealMode

open LsbBits (Byte)
open ByteMemory (Within)
open Inevitability (Inevitable)

structure Bios where
  /-- How interrupt `n` comes back, called with IP behind the instruction. -/
  serves : Byte → State → State → Prop
  /-- The cells that interrupts before an instruction leave alone, whatever memory holds. -/
  keeps : State → Nat → Prop
  unread : ∀ s mem a, keeps s a → keeps { s with mem := mem } a

def Bios.Keeps (bios : Bios) (P : Nat → Prop) (s : State) : Prop := ∀ a, P a → bios.keeps s a

/-- One instruction, behind whatever interrupts came before it. -/
inductive Turn (bios : Bios) : State → State → Prop where
  | inside {s s' t} : Agree (bios.keeps s) s s' → s'.step = some (.next t) → Turn bios s t
  | called {s s' t} {bytes : List Byte} {n : Byte} : Agree (bios.keeps s) s s' →
      Fetches s' bytes (.int n) → bios.serves n (s'.advance bytes.length) t → Turn bios s t
  /-- An interrupt ends the wait. -/
  | woken {s s' t} : Agree (bios.keeps s) s s' → s'.step = some (.halted t) → Turn bios s t

/-! ## Stacks and services -/

/-- Not among the `depth` cells below the top of the stack. -/
def Spared (depth : Nat) (s : State) (a : Nat) : Prop :=
  ¬ Within (s.address .ss (s.regs .sp) - depth) depth a

/-- Interrupts are served only while they are enabled, on `depth` bytes of the stack, and leave the
other cells of `P` alone. -/
structure Bios.Spares (bios : Bios) (P : Nat → Prop) (depth : Nat) : Prop where
  spares : ∀ s a, P a → Spared depth s a → bios.keeps s a
  masked : ∀ s a, s.flags &&& interruptFlag = 0 → bios.keeps s a

/-- A service that comes back, of the cells of `P` with stores to those of `stores` and to `depth`
bytes of the stack. -/
structure Back (P : Nat → Prop) (depth : Nat) (stores : Nat → Prop) (s t : State) : Prop where
  ip : t.ip = s.ip
  segs : t.segs = s.segs
  sp : t.regs .sp = s.regs .sp
  si : t.regs .si = s.regs .si
  forward : t.flags &&& directionFlag = s.flags &&& directionFlag
  mem : ∀ a, P a → Spared depth s a → ¬ stores a → t.mem a = s.mem a

theorem half_congr {s t : State} (same : t.regs = s.regs) (h : Half) : t.half h = s.half h := by
  rw [State.half, State.half, same]

section Steps
variable {bios : Bios} {P : Nat → Prop} {Q : State → Prop} {s t c : State} {bytes : List Byte} {i : Instr}

theorem Agree.mono {P' : Nat → Prop} (agree : Agree P s c) (fewer : ∀ a, P' a → P a) : Agree P' s c := by
  obtain ⟨mem, same, rfl⟩ := agree
  exact ⟨mem, fun a cell => same a (fewer a cell), rfl⟩

/-- Interrupts leave alone what the program counts on. -/
theorem Agree.interrupted {c' : State} (agree : Agree P s c) (keeps : bios.Keeps P s)
    (interrupts : Agree (bios.keeps c) c c') : Agree P s c' := by
  refine agree.trans (interrupts.mono fun a cell => ?_)
  obtain ⟨mem, -, rfl⟩ := agree
  exact bios.unread s mem a (keeps a cell)

/-- An interrupt instruction comes to one of the ways the BIOS comes back. -/
theorem call_inevitable {n : Byte} (fetches : Fetches s bytes (.int n)) (inside : ∀ a, Within s.pc bytes.length a → P a)
    (keeps : bios.Keeps P s) (holds : Agree P s c)
    (answers : ∀ c', Agree P s c' → ∃ t, bios.serves n (c'.advance bytes.length) t)
    (next : ∀ c' t, Agree P s c' → bios.serves n (c'.advance bytes.length) t → Inevitable (Turn bios) Q t) :
    Inevitable (Turn bios) Q c := by
  obtain ⟨t, serves⟩ := answers c holds
  refine .step ⟨t, .called (.refl c) (fetches.agree holds inside) serves⟩ ?_
  rintro v (⟨interrupts, step⟩ | ⟨interrupts, called, serves⟩ | ⟨interrupts, step⟩)
  · have agree := holds.interrupted keeps interrupts
    have same := (fetches.agree agree inside).step.symm.trans step
    cases same
  rotate_left
  · have agree := holds.interrupted keeps interrupts
    have same := (fetches.agree agree inside).step.symm.trans step
    cases same
  · have agree := holds.interrupted keeps interrupts
    obtain ⟨rfl, same⟩ := (fetches.agree agree inside).unique called
    cases same
    exact next _ _ agree serves

end Steps

end RealMode
