import Pc110.EasySetupChoice

/-! The boot decision under PC110SETUP, over runs. Two latches carry the rule: `entered`,
set for good by the first entry, and the key latch, cleared by every entry. A boot decision
behind keys of the current session is a restart and goes to the disk. -/
namespace Pc110

/-- PC110SETUP without PC110POSTUI. -/
structure ForcedSetup (getenv : EnvVar → Option String) : Prop where
  setup : (getenv .pc110Setup).isSome = true
  noUi : getenv .pc110PostUi = none

instance (m : Machine) : Decidable (Arrival m) :=
  decidable_of_iff (Reaches m.pc m ∧ (Site.of m m.pc).rom 0x52BD ∧ m.statics.booted = false)
    ⟨fun ⟨reaches, here, fresh⟩ => ⟨reaches, here, fresh⟩,
      fun ⟨reaches, here, fresh⟩ => ⟨reaches, here, fresh⟩⟩

instance (r : Bool × Machine) : Decidable (EntersSetup r) := inferInstanceAs (Decidable (_ ∧ _))

instance (r : Bool × Machine) : Decidable (BootsDisk r) := inferInstanceAs (Decidable (_ ∧ _))

def enters (q : Stock) : Event → Machine → Bool
  | .call, m => Arrival m ∧ EntersSetup (postIntercept q m.pc m)
  | _, _ => false

def boots (q : Stock) : Event → Machine → Bool
  | .call, m => Arrival m ∧ BootsDisk (postIntercept q m.pc m)
  | _, _ => false

/-- The machine with the history of its run: whether Easy-Setup was ever entered, whether a
key was pressed since the latest entry, and whether the disk was booted. -/
structure Session where
  machine : Machine
  entered : Bool
  keySince : Bool
  booted : Bool

def Session.start (m : Machine) : Session := ⟨m, false, false, false⟩

def observe (q : Stock) (e : Event) (s : Session) : Session where
  machine := s.machine.step q e
  entered := s.entered || enters q e s.machine
  keySince := match e with
    | .key => true
    | e => s.keySince && !enters q e s.machine
  booted := s.booted || boots q e s.machine

/-- Easy-Setup is entered unless there is a key since its latest entry; then the disk is
booted, or the ROM goes on where the disk cannot be read. Behind a boot nothing enters. -/
structure DecidesBySession (q : Stock) (s : Session) : Prop where
  enters : Arrival s.machine →
    (EntersSetup (postIntercept q s.machine.pc s.machine) ↔ s.entered = false ∨ s.keySince = false)
  otherwise : Arrival s.machine → ¬ EntersSetup (postIntercept q s.machine.pc s.machine) →
    (DiskReadable s.machine → BootsDisk (postIntercept q s.machine.pc s.machine)) ∧
    (¬ DiskReadable s.machine → (postIntercept q s.machine.pc s.machine).1 = false ∧
      (postIntercept q s.machine.pc s.machine).2.env = s.machine.env)
  booted : s.booted = true → Reaches s.machine.pc s.machine →
    (Site.of s.machine s.machine.pc).rom 0x52BD →
    ¬ EntersSetup (postIntercept q s.machine.pc s.machine)

def SetupRule (q : Stock) (s : Session) (e : Event) : Prop := e = .call → DecidesBySession q s

structure Tracked (s : Session) : Prop where
  env : ForcedSetup s.machine.getenv
  entered : s.machine.statics.entered = s.entered
  key : s.entered = true → s.machine.statics.keyPressed = s.keySince
  booted : s.booted = true → s.machine.statics.booted = true

section Steps
variable {q : Stock} {m : Machine}

/-- A session that ends at the boot decision. -/
def Restarts (m : Machine) : Prop := m.statics.entered = true ∧ m.statics.keyPressed = true

structure LatchesKept (m s : Machine) : Prop where
  entered : s.statics.entered = m.statics.entered
  keyPressed : s.statics.keyPressed = m.statics.keyPressed

theorem session_choice (forced : ForcedSetup m.getenv) (arrival : Arrival m) :
    let r := postIntercept q m.pc m
    (¬ Restarts m ∧ EntersSetup r ∧ r.2.statics.entered = true ∧ r.2.statics.keyPressed = false) ∨
    (Restarts m ∧ DiskReadable m ∧ BootsDisk r ∧ ¬ EntersSetup r ∧ LatchesKept m r.2) ∨
    (Restarts m ∧ ¬ DiskReadable m ∧ r.1 = false ∧ r.2.env = m.env ∧ LatchesKept m r.2) := by
  intro r
  obtain ⟨reaches, here, fresh⟩ := arrival
  have noUi : m.has .pc110PostUi = false := by simp [Machine.has, forced.noUi]
  have setup : m.has .pc110Setup = true := forced.setup
  have kept (d : Diag) : LatchesKept m (m.atBoot d) :=
    ⟨by rw [atBoot_statics, Machine.inBios_entered], by rw [atBoot_statics, Machine.inBios_keyPressed]⟩
  rcases reaches.boot_takes (q := q) here with ⟨ui, -⟩ | ⟨-, -, -, first, d, eq⟩ |
    ⟨-, -, restart, d, path, bf, named, opens, whole, eq⟩ | ⟨unread, d, eq⟩
  · exact absurd (noUi.symm.trans ui) (by decide)
  · have base : ((m.atBoot d).env.segs .cs).base = 0xF0000 := by rw [atBoot_eip]; exact here.1
    have statics := (enterEasySetup_guestOnly { m.atBoot d with
      statics := { (m.atBoot d).statics with entered := true, keyPressed := false } } true).statics
    refine .inl ⟨first, ?_, ?_, ?_⟩
    · simp only [r, eq]; exact enterEasySetup_enters true base
    · simp only [r, eq, statics]
    · simp only [r, eq, statics]
  · have restarts : Restarts m := by simpa [setup, Restarts] using restart
    have boots : BootsDisk r := by simp only [r, eq]; exact ⟨rfl, rfl, rfl, rfl⟩
    have avoids : ¬ EntersSetup r := fun enters => enters.not_bootsDisk boots
    refine .inr (.inl ⟨restarts, ⟨path, bf, named, opens, whole⟩, boots, avoids, ?_⟩)
    simp only [r, eq]
    exact ⟨(kept d).entered, (kept d).keyPressed⟩
  · obtain ⟨-, restart, unread⟩ := unread fresh
    have restarts : Restarts m := by simpa [setup, Restarts] using restart
    refine .inr (.inr ⟨restarts, ?_, ?_, ?_, ?_⟩)
    · rintro ⟨path, bf, named, opens, whole⟩
      exact unread path bf named opens whole
    · simp only [r, eq]
    · simp only [r, eq]; exact atBoot_eip d
    · simp only [r, eq]; exact kept d

theorem booted_step (e : Event) (booted : m.statics.booted = true) :
    (m.step q e).statics.booted = true := by
  cases e with
  | call =>
    obtain ⟨⟨resets, moves, -⟩, -, -⟩ := postIntercept_frame q m.pc m
    change (postIntercept q m.pc m).2.statics.booted = true
    cases moves with
    | stays kept | portReset _ _ _ kept | warmReset _ _ kept | setup _ _ _ kept
    | counts _ _ _ _ _ kept => exact kept.booted.trans booted
    | boot _ _ kept => exact kept.booted
  | kbcReset =>
    simp only [Machine.step]
    split <;> exact booted
  | key | guest | host | systemReset => exact booted

/-- Behind a boot the decision falls to the ROM. -/
theorem not_entersSetup_booted (reaches : Reaches m.pc m) (here : (Site.of m m.pc).rom 0x52BD)
    (booted : m.statics.booted = true) :
    ¬ EntersSetup (postIntercept q m.pc m) ∧ LatchesKept m (postIntercept q m.pc m).2 := by
  rcases reaches.boot_takes (q := q) here with ⟨-, fresh, -⟩ | ⟨fresh, -⟩ | ⟨fresh, -⟩ | ⟨-, d, eq⟩
  · exact absurd (booted.symm.trans fresh) (by decide)
  · exact absurd (booted.symm.trans fresh) (by decide)
  · exact absurd (booted.symm.trans fresh) (by decide)
  · rw [eq]
    refine ⟨fun enters => Bool.noConfusion enters.1, ?_, ?_⟩
    · rw [atBoot_statics, Machine.inBios_entered]
    · rw [atBoot_statics, Machine.inBios_keyPressed]

/-- Only an arrival moves the latches. -/
theorem latchesKept_elsewhere (elsewhere : ¬ (Reaches m.pc m ∧ (Site.of m m.pc).rom 0x52BD)) :
    LatchesKept m (postIntercept q m.pc m).2 := by
  obtain ⟨⟨resets, moves, -⟩, -, -⟩ := postIntercept_frame q m.pc m
  cases moves with
  | stays kept | portReset _ _ _ kept | warmReset _ _ kept | boot _ _ kept | counts _ _ _ _ _ kept =>
    exact ⟨kept.entered, kept.keyPressed⟩
  | setup reaches here => exact absurd ⟨reaches, here⟩ elsewhere

/-- What a call does to the latches, by whether it enters. -/
theorem latches_call (forced : ForcedSetup m.getenv) :
    let s := (postIntercept q m.pc m).2
    if enters q .call m then s.statics.entered = true ∧ s.statics.keyPressed = false
    else LatchesKept m s := by
  intro s
  by_cases there : Reaches m.pc m ∧ (Site.of m m.pc).rom 0x52BD
  case neg =>
    have none : enters q .call m = false :=
      decide_eq_false fun entered => there ⟨entered.1.reaches, entered.1.here⟩
    rw [none]
    exact latchesKept_elsewhere there
  obtain ⟨reaches, here⟩ := there
  cases booted : m.statics.booted with
  | true =>
    obtain ⟨avoids, kept⟩ := not_entersSetup_booted (q := q) reaches here booted
    have none : enters q .call m = false := decide_eq_false fun entered => avoids entered.2
    rw [none]
    exact kept
  | false =>
    have arrival : Arrival m := ⟨reaches, here, booted⟩
    rcases session_choice (q := q) forced arrival with ⟨-, entered, latches⟩ |
      ⟨-, -, -, avoids, kept⟩ | ⟨-, -, falls, -, kept⟩
    · have some : enters q .call m = true := decide_eq_true ⟨arrival, entered⟩
      rw [some]
      exact latches
    · have none : enters q .call m = false := decide_eq_false fun entered => avoids entered.2
      rw [none]
      exact kept
    · have none : enters q .call m = false := decide_eq_false fun entered =>
        Bool.noConfusion (falls.symm.trans entered.2.1)
      rw [none]
      exact kept

end Steps

section Runs
variable {q : Stock} {s : Session}

theorem decidesBySession (tracked : Tracked s) (e : Event) : SetupRule q s e := by
  rintro rfl
  have restarts : Restarts s.machine ↔ ¬ (s.entered = false ∨ s.keySince = false) := by
    rw [Restarts, tracked.entered]
    cases entered : s.entered with
    | false => simp
    | true => simp [tracked.key entered]
  constructor
  · intro arrival
    rcases session_choice (q := q) tracked.env arrival with ⟨first, enters, -⟩ |
      ⟨restart, -, -, avoids, -⟩ | ⟨restart, -, falls, -⟩
    · exact iff_of_true enters (not_not.mp (mt restarts.mpr first))
    · exact iff_of_false avoids (restarts.mp restart)
    · exact iff_of_false (fun enters => Bool.noConfusion (falls.symm.trans enters.1)) (restarts.mp restart)
  · intro arrival avoids
    rcases session_choice (q := q) tracked.env arrival with ⟨-, enters, -⟩ |
      ⟨-, readable, boots, -⟩ | ⟨-, unreadable, falls, env, -⟩
    · exact absurd enters avoids
    · exact ⟨fun _ => boots, fun unreadable => absurd readable unreadable⟩
    · exact ⟨fun readable => absurd readable unreadable, fun _ => ⟨falls, env⟩⟩
  · intro booted reaches here
    exact (not_entersSetup_booted reaches here (tracked.booted booted)).1

theorem observe_tracked (e : Event) (tracked : Tracked s) : Tracked (observe q e s) := by
  have env : ForcedSetup (s.machine.step q e).getenv := by
    rw [step_getenv]
    exact tracked.env
  have booted : (s.booted || boots q e s.machine) = true → (s.machine.step q e).statics.booted = true := by
    intro either
    rcases Bool.or_eq_true_iff.mp either with before | now
    · exact booted_step e (tracked.booted before)
    · cases e with
      | call => exact (of_decide_eq_true now).2.2.1
      | key | kbcReset | guest | host | systemReset => exact Bool.noConfusion now
  refine ⟨env, ?_, ?_, booted⟩
  · cases e with
    | call =>
      have latches := latches_call (q := q) tracked.env
      change (postIntercept q _ s.machine).2.statics.entered = (s.entered || enters q .call s.machine)
      cases now : enters q .call s.machine with
      | true => rw [now] at latches; rw [latches.1, Bool.or_true]
      | false => rw [now] at latches; rw [Bool.or_false, ← tracked.entered]; exact latches.entered
    | kbcReset =>
      refine Eq.trans ?_ (tracked.entered.trans (Bool.or_false _).symm)
      simp only [Machine.step, observe]
      split <;> rfl
    | key | guest | host | systemReset => exact tracked.entered.trans (Bool.or_false _).symm
  · intro entered
    cases e with
    | call =>
      have latches := latches_call (q := q) tracked.env
      change (postIntercept q _ s.machine).2.statics.keyPressed =
        (s.keySince && !enters q .call s.machine)
      change (s.entered || enters q .call s.machine) = true at entered
      cases now : enters q .call s.machine with
      | true => rw [now] at latches; rw [latches.2, Bool.not_true, Bool.and_false]
      | false =>
        rw [now] at latches
        rw [now, Bool.or_false] at entered
        rw [Bool.not_false, Bool.and_true, ← tracked.key entered]
        exact latches.keyPressed
    | key => rfl
    | kbcReset =>
      refine Eq.trans ?_ ((tracked.key (by simpa [observe, enters] using entered)).trans
        (Bool.and_true _).symm)
      simp only [Machine.step, observe]
      split <;> rfl
    | guest | host | systemReset =>
      exact (tracked.key (by simpa [observe, enters] using entered)).trans (Bool.and_true _).symm

end Runs

/-- From power-on, every boot decision goes by the session it ends. -/
theorem run_setupRule (q : Stock) (events : List Event) (env : Env)
    (mem : ByteMemory.Memory LsbBits.Byte) (bus : Nat → LsbBits.Byte)
    (getenv : EnvVar → Option String) (files : String → Option (List LsbBits.Byte))
    (forced : ForcedSetup getenv) :
    Runs.Always (observe q) (SetupRule q) events (.start (.start env mem bus getenv files)) := by
  have initial : Tracked (.start (.start env mem bus getenv files)) :=
    ⟨forced, rfl, fun entered => Bool.noConfusion entered, fun booted => Bool.noConfusion booted⟩
  exact Runs.always_of_invariant (observe q) (fun _ e tracked => observe_tracked e tracked)
    (fun _ e tracked => decidesBySession tracked e) events _ initial

def forcedSetup : EnvVar → Option String
  | .pc110Post | .pc110Setup => some "1"
  | .pc110Boot => some "disk.img"
  | _ => none

/-- Power-on, a spurious reset, then a key and a restart. -/
theorem run_setupRule_restarted :
    Runs.Always (observe default) (SetupRule default)
      [.key, .call, .guest (cpuAt 0x52BD) (fun _ => 0) (fun _ => 0), .call, .key,
        .guest (cpuAt 0x52BD) (fun _ => 0) (fun _ => 0), .call]
      (.start (.start (cpuAt 0x52BD) (fun _ => 0) (fun _ => 0) forcedSetup fun _ => some (List.replicate 512 0))) :=
  run_setupRule default _ _ _ _ _ _ ⟨rfl, rfl⟩

end Pc110
