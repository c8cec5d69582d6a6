import Pc110.PostRun

/-! The resume magic of the driver, the word 40:72 of the BDA, across the two paths that
reset the CPU for a KBC reset request. F000:5516 honours it once booted. The port-level
path stores 1234h over it, booted or not. -/
namespace Pc110

open LsbBits (Byte)

def Machine.magic (m : Machine) : List Byte := m.read 0x472 2

/-- A reset made by the intercept leaves the driver's magic, or 1234h before boot. -/
def HonoursResume (q : Stock) (m : Machine) (e : Event) : Prop :=
  e = .call → Resets q m e → (m.step q e).magic = if m.statics.booted then m.magic else warmSig

structure ServesPort (m : Machine) : Prop where
  on : m.enabled = true
  service : readsErrorLog m.pc m = false
  pending : m.statics.kbcResetPending = true

/-- Behind boot, requests are served at the port level with 1234h left as the magic. -/
def LeavesWarm (m : Machine) (e : Event) : Prop :=
  e = .call → ServesPort m → m.statics.booted = true → m.magic = warmSig

section Steps
variable {q : Stock} {m : Machine}

theorem read_warmSig (mem : ByteMemory.Memory Byte) :
    ByteMemory.read (ByteMemory.write mem 0x472 warmSig) 0x472 2 = warmSig :=
  ByteMemory.read_write mem 0x472 warmSig

/-- The port-level path: a reset, and 1234h whatever was there. -/
theorem portReset_magic (serves : ServesPort m) :
    Resets q m .call ∧ (m.step q .call).magic = warmSig := by
  obtain ⟨d, call⟩ := postIntercept_portReset (q := q) serves.on serves.service serves.pending
  obtain ⟨m', guest, mem, reset⟩ := portReset_cpuReset q (m.seen d)
  have after : m.step q .call = m'.cpuReset q := by
    change (postIntercept q m.pc m).2 = _
    rw [call, reset]
  constructor
  · have resets : m'.resets = m.resets := guest.resets
    rw [Resets, after, cpuReset_resets, resets]
    exact Nat.succ_ne_self _
  · rw [after]
    change ByteMemory.read m'.mem 0x472 2 = warmSig
    rw [mem]
    exact read_warmSig _

/-- F000:5516 honours the driver's magic. -/
theorem warmReset_magic (reaches : Reaches m.pc m) (here : (Site.of m m.pc).rom 0x5516) :
    (m.step q .call).magic = if m.statics.booted then m.magic else warmSig := by
  obtain ⟨d, call⟩ := postIntercept_warmReset (q := q) reaches here
  obtain ⟨m', -, mem, reset⟩ := warmReset_cpuReset q (m.inBios d) (Site.of m m.pc).prevOff
  have after : m.step q .call = m'.cpuReset q := by
    change (postIntercept q m.pc m).2 = _
    rw [call, reset]
  rw [after]
  change ByteMemory.read m'.mem 0x472 2 = _
  rw [mem, Machine.inBios_booted]
  cases m.statics.booted with
  | true => rfl
  | false => exact read_warmSig _

/-- The intercept resets the CPU on these two paths only. -/
theorem resets_call (reset : Resets q m .call) :
    ServesPort m ∨ (Reaches m.pc m ∧ (Site.of m m.pc).rom 0x5516) := by
  obtain ⟨⟨resets, moves, count⟩, -, -⟩ := postIntercept_frame q m.pc m
  change (postIntercept q m.pc m).2.resets ≠ m.resets at reset
  cases moves with
  | portReset on service pending => exact .inl ⟨on, service, pending⟩
  | warmReset reaches here => exact .inr ⟨reaches, here⟩
  | stays | setup | boot | counts => exact absurd count reset

/-- One step honours the magic exactly under the condition on the port-level path. -/
theorem honoursResume_iff (m : Machine) (e : Event) : HonoursResume q m e ↔ LeavesWarm m e := by
  constructor
  · rintro honours rfl serves booted
    obtain ⟨reset, stored⟩ := portReset_magic (q := q) serves
    have kept := honours rfl reset
    rw [stored, booted, if_pos rfl] at kept
    exact kept.symm
  · rintro leaves rfl reset
    rcases resets_call reset with serves | ⟨reaches, here⟩
    · rw [(portReset_magic serves).2]
      split
      case isTrue booted => exact (leaves rfl serves booted).symm
      case isFalse => rfl
    · exact warmReset_magic reaches here

end Steps

/-- A run honours the resume magic exactly when its port-level resets find 1234h there. -/
theorem run_honoursResume_iff (q : Stock) (events : List Event) (m : Machine) :
    Runs.Always (Machine.step q) (HonoursResume q) events m ↔
      Runs.Always (Machine.step q) LeavesWarm events m :=
  Runs.always_iff (Machine.step q) (I := fun _ => True) (fun _ _ _ _ => trivial)
    (fun m e _ => honoursResume_iff m e) events m trivial

/-- POST at the boot decision F000:52BD, with a blank disk to boot. -/
def atBootDecision : Machine :=
  .start (cpuAt 0x52BD) (fun _ => 0) (fun _ => 0)
    (fun | .pc110Post => some "1" | .pc110Boot => some "disk.img" | _ => none)
    (fun _ => some (List.replicate 512 0))

/-- The disk boots, and its driver leaves 4321h as the magic and asks for a reset. -/
def driverReset : List Event := [
  .call,
  .guest
    { (default : Env) with
      segs := fun | .cs => ⟨0x0100, 0x1000, 0xFFFF, 0⟩ | _ => default
      eip := 0x200 }
    (ByteMemory.write (fun _ => 0) 0x472 [0x21, 0x43]) (fun _ => 0),
  .kbcReset]

/-- The port-level reset stores 1234h over the driver's magic. -/
theorem not_honoursResume_driverReset : ¬ ∀ (q : Stock) (events : List Event) (m : Machine),
    Runs.Always (Machine.step q) (HonoursResume q) events m := by
  intro every
  let driver := Runs.run (Machine.step default) driverReset atBootDecision
  have last : HonoursResume default driver .call :=
    (every default (driverReset ++ [.call]) atBootDecision).at
  have kept := last rfl (by decide +kernel)
  have lost : (driver.step default .call).magic ≠
      if driver.statics.booted then driver.magic else warmSig := by decide +kernel
  exact lost kept

end Pc110
