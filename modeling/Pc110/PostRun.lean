import Pc110.Library.Runs
import Pc110.PostFrames

/-! Runs of the machine as the intercept sees them: keys, KBC reset requests, whatever the
guest and the host do between translation blocks, machine resets, and the calls
themselves. -/
namespace Pc110

open LsbBits (Byte)
open ByteMemory (Memory)

inductive Event where
  /-- `ps2_put_keycode`. -/
  | key
  /-- `pc110_kbc_cpu_reset_or_system`. -/
  | kbcReset
  | guest (env : Env) (mem : Memory Byte) (bus : Nat → Byte)
  | host (files : String → Option (List Byte))
  /-- QEMU's full machine reset, which leaves the statics alone. -/
  | systemReset (env : Env) (mem : Memory Byte)
  /-- `cpu_exec_loop` at a translation block. -/
  | call

/-- The linear PC of the next block. -/
def Machine.pc (m : Machine) : Word := (m.env.segs .cs).base + m.env.eip

/-- The guest arrives at F000:`off`, and the intercept gets that far. -/
def At (off : BitVec 16) (m : Machine) : Prop := Reaches m.pc m ∧ (Site.of m m.pc).rom off

instance (off : BitVec 16) (m : Machine) : Decidable (At off m) := inferInstanceAs (Decidable (_ ∧ _))

def Machine.step (q : Stock) : Event → Machine → Machine
  | .key, m => { m with statics := { m.statics with keyPressed := true } }
  -- without PC110POST a system reset is requested instead, an event of its own
  | .kbcReset, m =>
    if m.has .pc110Post then { m with statics := { m.statics with kbcResetPending := true } } else m
  | .guest env mem bus, m => { m with env, mem, bus }
  | .host files, m => { m with files }
  | .systemReset env mem, m => { m with env, mem, effects := m.effects ++ [.cpuReset] }
  | .call, m => (postIntercept q m.pc m).2

theorem step_getenv (q : Stock) (m : Machine) (e : Event) : (m.step q e).getenv = m.getenv := by
  cases e with
  | call => exact (postIntercept_frame q m.pc m).getenv
  | kbcReset =>
    simp only [Machine.step]
    split <;> rfl
  | key | guest | host | systemReset => rfl

theorem run_getenv (q : Stock) (events : List Event) (m : Machine) :
    (Runs.run (Machine.step q) events m).getenv = m.getenv :=
  Runs.run_keeps (Machine.step q) (fun e m => step_getenv q m e) events m

theorem idle_call {q : Stock} {m : Machine} (idle : m.statics.kbcResetPending = false) :
    (m.step q .call).statics.kbcResetPending = false := by
  obtain ⟨⟨resets, moves, -⟩, -, -⟩ := postIntercept_frame q m.pc m
  change (postIntercept q m.pc m).2.statics.kbcResetPending = false
  cases moves with
  | portReset _ _ _ kept => exact kept.kbcResetPending
  | stays kept | warmReset _ _ kept | setup _ _ _ kept | boot _ _ kept | counts _ _ _ _ _ kept =>
    exact kept.kbcResetPending.trans idle

def cpuAt (off : Word) : Env :=
  { (default : Env) with
    segs := fun | .cs => ⟨0xF000, 0xF0000, 0xFFFF, 0⟩ | _ => default
    eip := off }

def Resets (q : Stock) (m : Machine) (e : Event) : Prop := (m.step q e).resets ≠ m.resets

instance (q : Stock) (m : Machine) (e : Event) : Decidable (Resets q m e) :=
  inferInstanceAs (Decidable (¬ _ = _))

end Pc110
