import Pc110.PostRun

/-! The reset line of the keyboard controller, over runs. A request waits in
`pc110_kbc_reset_pending` until a call takes it; requests that come while one waits are one.
The CPU resets of a run are those requests, the arrivals at F000:5516 and the machine's own
resets, none lost and none made twice. -/
namespace Pc110

/-- A request while none waits. -/
def requests : Event → Machine → Bool
  | .kbcReset, m => m.has .pc110Post && !m.statics.kbcResetPending
  | _, _ => false

def resetsMachine : Event → Machine → Bool
  | .systemReset _ _, _ => true
  | _, _ => false

/-- A waiting request and the warm resets still to be matched with resets of the CPU. -/
structure Account where
  resets : Nat
  waiting : Nat
  warm : Nat

def Machine.account (m : Machine) : Account where
  resets := m.resets
  waiting := m.statics.kbcResetPending.toNat
  warm := m.statics.resetCount

/-- The account behind a step: what it made is what it was asked for. -/
def Balanced (a b : Account) (requests machine : Nat) : Prop :=
  b.resets + b.waiting + a.warm = a.resets + a.waiting + b.warm + requests + machine

/-- A call that meets a waiting request and is no query of the error log. -/
structure Meets (m : Machine) : Prop where
  on : m.enabled = true
  service : readsErrorLog m.pc m = false
  waits : m.statics.kbcResetPending = true

structure Served (q : Stock) (m s : Machine) : Prop where
  resets : s.resets = m.resets + 1
  taken : s.statics.kbcResetPending = false
  mem : s.mem = ByteMemory.write m.mem 0x472 warmSig
  cpu : ∃ env, s.env = q.cpuReset env

/-- A waiting request is served at the first call that is no query of the error log; at such
a query it keeps waiting, and nothing is reset. -/
def ServesRequests (q : Stock) (m : Machine) (e : Event) : Prop :=
  e = .call →
    (Meets m → Served q m (m.step q .call)) ∧
    (m.enabled = true → m.statics.kbcResetPending = true → readsErrorLog m.pc m = true →
      (m.step q .call).statics.kbcResetPending = true ∧ (m.step q .call).resets = m.resets)

section Steps
variable {q : Stock} {m : Machine}

theorem Meets.served (meets : Meets m) : Served q m (m.step q .call) := by
  obtain ⟨d, eq⟩ := postIntercept_portReset (q := q) meets.on meets.service meets.waits
  obtain ⟨m', guest, mem, reset⟩ := portReset_cpuReset q (m.seen d)
  have behind : m.step q .call = m'.cpuReset q := (congrArg Prod.snd eq).trans reset
  rw [behind]
  exact ⟨(cpuReset_resets q m').trans (congrArg (· + 1) guest.resets), congrArg Statics.kbcResetPending guest.statics,
    mem, m'.env, rfl⟩

theorem servesRequests (e : Event) : ServesRequests q m e := by
  rintro rfl
  refine ⟨Meets.served, fun on waits log => ?_⟩
  obtain ⟨d, eq⟩ := postIntercept_emptyLog (q := q) on log
  have behind : m.step q .call = forceEmptyLog (m.seen d) := congrArg Prod.snd eq
  rw [behind]
  exact ⟨waits, rfl⟩

/-- A call makes a reset for the request it takes or for the arrival it counts. -/
theorem call_balanced : Balanced m.account (m.step q .call).account 0 0 := by
  obtain ⟨⟨resets, moves, made⟩, -, -⟩ := postIntercept_frame q m.pc m
  change (m.step q .call).resets = m.resets + resets at made
  change Moves m.pc m (m.step q .call).statics resets at moves
  simp only [Balanced, Machine.account, made]
  cases moves with
  | portReset _ _ waits kept =>
    simp only [kept.kbcResetPending, kept.resetCount, waits, Bool.toNat_true, Bool.toNat_false]
    omega
  | stays kept | warmReset _ _ kept | setup _ _ _ kept | boot _ _ kept | counts _ _ _ _ _ kept =>
    simp only [kept.kbcResetPending, kept.resetCount]
    omega

theorem step_balanced (e : Event) :
    Balanced m.account (m.step q e).account (requests e m).toNat (resetsMachine e m).toNat := by
  cases e with
  | call => exact call_balanced
  | kbcReset =>
    cases on : m.has .pc110Post <;> cases waits : m.statics.kbcResetPending <;>
      simp [Balanced, Machine.account, Machine.step, Machine.resets, requests, resetsMachine, on, waits]
    omega
  | systemReset env mem =>
    simp [Balanced, Machine.account, Machine.step, Machine.resets, requests, resetsMachine]
    omega
  | key | guest | host =>
    simp [Balanced, Machine.account, Machine.step, Machine.resets, requests, resetsMachine]

/-- The accounts of a run add up. -/
theorem run_balanced (events : List Event) :
    Balanced m.account (Runs.run (Machine.step q) events m).account
      (Runs.count (Machine.step q) requests events m) (Runs.count (Machine.step q) resetsMachine events m) := by
  induction events generalizing m with
  | nil => simp [Balanced, Runs.run, Runs.count]
  | cons e events ih =>
    have first := step_balanced (q := q) (m := m) e
    have later := ih (m := m.step q e)
    simp only [Balanced, Runs.run, Runs.count] at *
    omega

end Steps

/-- No request is lost and none is served twice: in every run the resets of the CPU are those of
F000:5516, those of the machine, and one for each request that found none waiting, less the
one that may still wait at the end. -/
theorem run_servesRequests (q : Stock) (m : Machine) (events : List Event) :
    let s := Runs.run (Machine.step q) events m
    s.resets + s.statics.kbcResetPending.toNat + m.statics.resetCount =
      m.resets + m.statics.kbcResetPending.toNat + s.statics.resetCount +
        Runs.count (Machine.step q) requests events m + Runs.count (Machine.step q) resetsMachine events m ∧
    Runs.Always (Machine.step q) (ServesRequests q) events m :=
  ⟨run_balanced events, Runs.always_of_invariant (Machine.step q) (I := fun _ => True) (fun _ _ _ => trivial)
    (fun _ e _ => servesRequests e) events m trivial⟩

end Pc110
