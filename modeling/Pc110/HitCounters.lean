import Pc110.PostRun

/-! The hit counters behind the thresholded completers, over runs. A counter is one static
for all instances of its loop, and both mempat loops share one; only a completion clears
it. Hits that an instance leaves behind when it ends by itself count for the next. -/
namespace Pc110

/-- The loops with a thresholded completer. -/
inductive Loop where
  | h6943 | hC960 | hEA90 | h6961 | h53C1 | cksum | copy | delay | shl | rcl
  deriving DecidableEq, Repr

namespace Loop

def counter : Loop → Counter
  | .h6943 => .h6943
  | .hC960 => .hC960
  | .hEA90 => .hEA90
  | .h6961 => .h6961
  | .h53C1 => .h53C1
  | .cksum => .hCksum
  | .copy => .hCopy
  | .delay => .hDelay
  | .shl | .rcl => .hMempat

def site (off : BitVec 16) : Loop → Prop
  | .shl => 0x61DB ≤ off ∧ off ≤ 0x61E0
  | .rcl => 0x61E9 ≤ off ∧ off ≤ 0x61EE
  | loop => loop.counter.site off

instance (off : BitVec 16) : (loop : Loop) → Decidable (loop.site off)
  | .shl => inferInstanceAs (Decidable (0x61DB ≤ off ∧ off ≤ 0x61E0))
  | .rcl => inferInstanceAs (Decidable (0x61E9 ≤ off ∧ off ≤ 0x61EE))
  | .h6943 => inferInstanceAs (Decidable (Counter.site off (counter .h6943)))
  | .hC960 => inferInstanceAs (Decidable (Counter.site off (counter .hC960)))
  | .hEA90 => inferInstanceAs (Decidable (Counter.site off (counter .hEA90)))
  | .h6961 => inferInstanceAs (Decidable (Counter.site off (counter .h6961)))
  | .h53C1 => inferInstanceAs (Decidable (Counter.site off (counter .h53C1)))
  | .cksum => inferInstanceAs (Decidable (Counter.site off (counter .cksum)))
  | .copy => inferInstanceAs (Decidable (Counter.site off (counter .copy)))
  | .delay => inferInstanceAs (Decidable (Counter.site off (counter .delay)))

def threshold (loop : Loop) : Nat := loop.counter.threshold

theorem site_counter {off : BitVec 16} {loop : Loop} (here : loop.site off) :
    loop.counter.site off := by
  cases loop with
  | shl => exact .inl here
  | rcl => exact .inr here
  | h6943 | hC960 | hEA90 | h6961 | h53C1 | cksum | copy | delay => exact here

end Loop

/-- Where the ROM goes on behind each loop, outside all of them. -/
structure LoopExits where
  off : Loop → BitVec 16
  outside : ∀ loop (c : Counter), ¬ c.site (off loop)

def InBiosAt (m : Machine) (P : BitVec 16 → Prop) : Prop :=
  ((m.env.segs .cs).base = 0xF0000 ∨ (m.env.segs .cs).base = 0x20000) ∧ P (Site.of m m.pc).off

instance (m : Machine) (P : BitVec 16 → Prop) [DecidablePred P] : Decidable (InBiosAt m P) :=
  inferInstanceAs (Decidable (_ ∧ _))

/-- The machine with the calls of its run: for each loop, how many were at its site since
the last at its exit, and whether its counter holds other hits than these. -/
structure Counted where
  machine : Machine
  since : Loop → Nat
  stale : Loop → Bool

def Counted.start (m : Machine) : Counted := ⟨m, fun _ => 0, fun _ => false⟩

def countCall (exits : LoopExits) (q : Stock) (e : Event) (w : Counted) : Counted :=
  let m := w.machine
  let s := m.step q e
  match e with
  | .call =>
    { machine := s
      since := fun loop =>
        if InBiosAt m (· = exits.off loop) then 0
        else if InBiosAt m (loop.site ·) then w.since loop + 1
        else w.since loop
      stale := fun loop =>
        let hits := s.statics.hits loop.counter
        let counted := hits ≠ m.statics.hits loop.counter
        hits ≠ 0 ∧ (w.stale loop = true ∨ InBiosAt m (· = exits.off loop) ∨
          (counted ∧ ¬ InBiosAt m (loop.site ·))) }
  | _ => { w with machine := s }

structure Fires (q : Stock) (m : Machine) (loop : Loop) : Prop where
  reaches : Reaches m.pc m
  here : loop.site (Site.of m m.pc).off
  taken : (postIntercept q m.pc m).1 = true

/-- A loop is completed only after as many calls at its site, this one included, as its
threshold says, all since the last call at its exit. Only such a call ends an instance: one that a
CPU reset cuts off counts on. -/
def FiresStuck (q : Stock) (w : Counted) (e : Event) : Prop :=
  e = .call → ∀ loop, Fires q w.machine loop → loop.threshold ≤ w.since loop + 1

/-- No call at a loop finds its counter about to be full with stale hits among the hits. -/
def NoStaleHits (w : Counted) (e : Event) : Prop :=
  e = .call → ∀ loop : Loop, Reaches w.machine.pc w.machine →
    loop.site (Site.of w.machine w.machine.pc).off →
    loop.threshold ≤ w.machine.statics.hits loop.counter + 1 → w.stale loop = false

/-- A counter without stale hits holds no more than the calls counted here. -/
def HitsCounted (w : Counted) : Prop :=
  ∀ loop, w.stale loop = false → w.machine.statics.hits loop.counter ≤ w.since loop

section Steps
variable {q : Stock} {m s : Machine}

/-- The handlers of the F-segment stand at their own offsets. -/
theorem TakesRom.off_mem {site : Site} {taken : Bool} (taking : TakesRom q site m taken s) :
    site.off ∈ romOffsets := by
  have member {off : BitVec 16} (here : site.rom off) (listed : off ∈ romOffsets) :
      site.off ∈ romOffsets := here.2 ▸ listed
  cases taking with
  | reported _ _ _ listed =>
    exact List.mem_append_left _ (List.mem_append_right _ listed)
  | inject _ _ here | tick _ _ here | sentinel _ _ here | warmReset _ here | resume _ here
  | int13 _ here | uiSetup _ _ here | setup _ here | boot _ _ _ here | noBoot _ here =>
    exact member here (by decide)

/-- Past the gate, a call at a site completes the loop at its threshold, and not before. -/
theorem taken_iff (reaches : Reaches m.pc m) {c : Counter} (here : c.site (Site.of m m.pc).off) :
    (postIntercept q m.pc m).1 = true ↔ c.threshold ≤ m.statics.hits c + 1 := by
  obtain ⟨once, noRom, noTest⟩ := site_apart here
  have takes := reaches.takes (q := q)
  generalize postIntercept q m.pc m = r at *
  obtain ⟨taken, s⟩ := r
  rcases takes with rom | ⟨-, completer⟩
  · exact absurd rom.off_mem noRom
  · change TakesCompleter q _ m taken s at completer
    cases completer with
    | memoryTest _ off => exact absurd off noTest
    | atOnce _ listed => exact absurd listed once
    | passes _ _ _ apart => exact absurd here (apart c)
    | counting _ c' here' few =>
      rw [Counter.site_unique here here']
      exact ⟨fun done => Bool.noConfusion done, fun many => absurd few (Nat.not_lt.mpr many)⟩
    | completes _ c' here' many =>
      rw [Counter.site_unique here here']
      exact ⟨fun _ => many, fun _ => rfl⟩

theorem hits_call (m : Machine) (c : Counter) :
    (m.step q .call).statics.hits c ≤ m.statics.hits c + 1 := by
  obtain ⟨⟨resets, moves, -⟩, -, -⟩ := postIntercept_frame q m.pc m
  change (postIntercept q m.pc m).2.statics.hits c ≤ _
  cases moves with
  | stays kept | portReset _ _ _ kept | warmReset _ _ kept | setup _ _ _ kept | boot _ _ kept =>
    rw [kept.hits]
    exact Nat.le_succ _
  | counts c' h _ _ bound kept =>
    rw [kept.hits]
    change Function.update m.statics.hits c' h c ≤ _
    by_cases same : c = c'
    · subst same
      rw [Function.update_self]
      exact bound
    · rw [Function.update_of_ne same]
      exact Nat.le_succ _

theorem hits_step (m : Machine) {e : Event} (other : e ≠ .call) :
    (m.step q e).statics.hits = m.statics.hits := by
  cases e with
  | call => exact absurd rfl other
  | kbcReset =>
    simp only [Machine.step]
    split <;> rfl
  | key | guest | host | systemReset => rfl

end Steps

section Runs
variable {exits : LoopExits} {q : Stock} {w : Counted}

theorem since_exit {loop : Loop} (left : InBiosAt w.machine (· = exits.off loop)) :
    (countCall exits q .call w).since loop = 0 := if_pos left

theorem countCall_hitsCounted (e : Event) (inv : HitsCounted w) : HitsCounted (countCall exits q e w) := by
  by_cases call : e = .call
  case neg =>
    have kept : countCall exits q e w = { w with machine := w.machine.step q e } := by
      cases e with
      | call => exact absurd rfl call
      | key | kbcReset | guest | host | systemReset => rfl
    rw [kept]
    intro loop clean
    rw [hits_step w.machine call]
    exact inv loop clean
  subst call
  intro loop clean
  have grown := hits_call (q := q) w.machine loop.counter
  simp only [countCall, decide_eq_false_iff_not, not_and_or, not_or, not_not] at clean
  rcases clean with zero | ⟨clean, inside, own⟩
  · exact le_of_eq_of_le zero (Nat.zero_le _)
  have before := inv loop (Bool.eq_false_iff.mpr clean)
  simp only [countCall, if_neg inside]
  split
  case isTrue => exact grown.trans (Nat.succ_le_succ before)
  case isFalse elsewhere =>
    rcases own with same | here
    · exact same ▸ before
    · exact absurd here elsewhere

/-- A completion without stale hits has its threshold of calls behind it. -/
theorem firesStuck_of_clean (e : Event) (inv : HitsCounted w) (clean : NoStaleHits w e) :
    FiresStuck q w e := by
  rintro rfl loop fires
  have many := (taken_iff fires.reaches (Loop.site_counter fires.here)).mp fires.taken
  have own := inv loop (clean rfl loop fires.reaches fires.here many)
  exact many.trans (Nat.succ_le_succ own)

end Runs

/-- From power-on: where no completion has stale hits, only stuck loops are completed. -/
theorem run_firesStuck (exits : LoopExits) (q : Stock) (events : List Event) (env : Env)
    (mem : ByteMemory.Memory LsbBits.Byte) (bus : Nat → LsbBits.Byte)
    (getenv : EnvVar → Option String) (files : String → Option (List LsbBits.Byte))
    (clean : Runs.Always (countCall exits q) NoStaleHits events
      (.start (.start env mem bus getenv files))) :
    Runs.Always (countCall exits q) (FiresStuck q) events (.start (.start env mem bus getenv files)) :=
  Runs.always_under (countCall exits q) (I := HitsCounted) (fun _ e inv _ => countCall_hitsCounted e inv)
    (fun _ e inv clean => firesStuck_of_clean e inv clean) events _ (fun _ _ => Nat.le_refl 0) clean

section Strings

/-- The exits of the ROM's loops: where the completers continue, and behind LOOP 6958. -/
def romExits : LoopExits where
  off
    | .h6943 => 0x6949
    | .hC960 => 0xC966
    | .hEA90 => 0xEA92
    | .h6961 => 0x6965
    | .h53C1 => 0x53CE
    | .cksum => 0x3CC8
    | .copy => 0x3C4E
    | .delay => 0x413F
    | .shl => 0x61E1
    | .rcl => 0x61EF
  outside loop c := by cases loop <;> cases c <;> decide

def arrive (off : Word) : Event := .guest (cpuAt off) (fun _ => 0) (fun _ => 0)

/-- A status string of one character, printed and left at its end. -/
def string : List Event := [arrive 0x53C1, .call, arrive 0x53CE, .call]

def strings : Nat → List Event
  | 0 => []
  | n + 1 => strings n ++ string

def atPost : Machine :=
  .start (cpuAt 0x53C1) (fun _ => 0) (fun _ => 0) (fun v => if v = .pc110Post then some "1" else none)
    (fun _ => none)

/-- Between two calls of the intercept, with `h` hits counted at 53C1. -/
structure Printing (h : Nat) (m : Machine) : Prop where
  on : m.enabled = true
  idle : m.statics.kbcResetPending = false
  hits : m.statics.hits .h53C1 = h

variable {q : Stock} {m : Machine} {h : Nat}

theorem Printing.inBios (printing : Printing h m) (d : Diag) : Printing h (m.inBios d) := by
  refine ⟨?_, by simp [printing.idle], by simp [printing.hits]⟩
  simp only [Machine.enabled, Machine.inBios, Statics.fresh]
  split <;> rfl

theorem Printing.arrive (printing : Printing h m) (off : Word) :
    Printing h (m.step q (arrive off)) :=
  ⟨printing.on, printing.idle, printing.hits⟩

theorem Printing.reaches (printing : Printing h m) (off : Word) (here : m.env = cpuAt off)
    (apart : 0xF0000 + off ≠ esDispatcher) : Reaches m.pc m := by
  have elsewhere : m.pc ≠ esDispatcher := by rw [Machine.pc, here]; exact apart
  exact ⟨printing.on, decide_eq_false fun service => elsewhere service.1, printing.idle,
    .inl (by rw [here]; rfl)⟩

theorem site_cpuAt (off : Word) (here : m.env = cpuAt off) : (Site.of m m.pc).off = lo16 off := by
  have base : (m.env.segs .cs).base = 0xF0000 := by rw [here]; rfl
  have eip : m.env.eip = off := by rw [here]; rfl
  simp only [Site.of, Machine.pc, base, eip, BitVec.add_comm, BitVec.add_sub_cancel]

/-- A call away from the handlers of the F-segment is up to the completers. -/
theorem Printing.completer (printing : Printing h m) {off : Word} (here : m.env = cpuAt off)
    (apart : 0xF0000 + off ≠ esDispatcher) (noRom : lo16 off ∉ romOffsets) :
    TakesCompleter q (lo16 off) m (postIntercept q m.pc m).1 (m.step q .call) := by
  have site := site_cpuAt off here
  rcases (printing.reaches off here apart).takes (q := q) with rom | ⟨-, completer⟩
  · exact absurd rom.off_mem (site ▸ noRom)
  · exact site ▸ completer

theorem Printing.character (printing : Printing h m) (here : m.env = cpuAt 0x53C1) (few : h + 1 < 4096) :
    Printing (h + 1) (m.step q .call) := by
  have completer := printing.completer (q := q) here (by decide) (by decide)
  generalize (postIntercept q m.pc m).1 = taken at completer
  generalize m.step q .call = s at *
  cases completer with
  | counting d c site _ =>
    obtain rfl : c = .h53C1 := Counter.site_unique site rfl
    have counted := printing.inBios d
    exact ⟨counted.on, counted.idle, by simp [Machine.setHits, printing.hits]⟩
  | completes d c site many =>
    obtain rfl : c = .h53C1 := Counter.site_unique site rfl
    rw [printing.hits] at many
    exact absurd few (Nat.not_lt.mpr many)
  | memoryTest _ off => exact absurd off (by decide)
  | atOnce _ listed => exact absurd listed (by decide)
  | passes _ _ _ apart => exact absurd rfl (apart .h53C1)

/-- The end of a string, where nothing is counted and nothing cleared. -/
theorem Printing.leave (printing : Printing h m) (here : m.env = cpuAt 0x53CE) :
    Printing h (m.step q .call) := by
  have completer := printing.completer (q := q) here (by decide) (by decide)
  generalize (postIntercept q m.pc m).1 = taken at completer
  generalize m.step q .call = s at *
  cases completer with
  | passes d => exact printing.inBios d
  | counting _ c site | completes _ c site => exact absurd site (romExits.outside .h53C1 c)
  | memoryTest _ off => exact absurd off (by decide)
  | atOnce _ listed => exact absurd listed (by decide)

def endless : Nat → List Event
  | 0 => []
  | n + 1 => arrive 0x53C1 :: .call :: endless n

theorem endless_clean (n : Nat) (w : Counted) (clean : w.stale .h53C1 = false) :
    Runs.Always (countCall romExits q) NoStaleHits (endless n) w := by
  induction n generalizing w with
  | zero => trivial
  | succ n ih =>
    have site : (Site.of (w.machine.step q (arrive 0x53C1)) (w.machine.step q (arrive 0x53C1)).pc).off =
        0x53C1 := site_cpuAt 0x53C1 rfl
    refine ⟨fun call => Event.noConfusion call, ?_, ih _ ?_⟩
    · rintro - loop - here -
      have here : loop.site 0x53C1 := site ▸ here
      cases loop with
      | h53C1 => exact clean
      | h6943 | hC960 | hEA90 | h6961 | cksum | copy | delay | shl | rcl => exact absurd here (by decide)
    · have inside : ¬ InBiosAt (w.machine.step q (arrive 0x53C1)) (· = romExits.off .h53C1) :=
        fun left => absurd (site.symm.trans left.2) (by decide)
      have own : InBiosAt (w.machine.step q (arrive 0x53C1)) (Loop.h53C1.site ·) := ⟨.inl rfl, site⟩
      refine decide_eq_false fun stale => ?_
      rcases stale.2 with before | left | other
      · exact absurd (clean.symm.trans before) (by decide)
      · exact inside left
      · exact other.2 own

/-- A string without an end is stopped after 4096 characters, as it should. -/
theorem run_firesStuck_endless :
    Runs.Always (countCall romExits default) (FiresStuck default) (endless 4096) (.start atPost) :=
  run_firesStuck romExits default (endless 4096) _ _ _ _ _ (endless_clean 4096 _ rfl)

def printed (n : Nat) : Counted := Runs.run (countCall romExits default) (strings n) (.start atPost)

/-- Every string leaves its hit behind. -/
theorem printed_hits (n : Nat) (few : n < 4096) :
    Printing n (printed n).machine ∧ (printed n).since .h53C1 = 0 := by
  induction n with
  | zero => exact ⟨⟨rfl, rfl, rfl⟩, rfl⟩
  | succ n ih =>
    obtain ⟨printing, -⟩ := ih (Nat.lt_of_succ_lt few)
    have again : printed (n + 1) = Runs.run (countCall romExits default) string (printed n) :=
      Runs.run_append _ _ _ _
    rw [again]
    generalize printed n = w at *
    have first := (printing.arrive (q := default) 0x53C1).character (q := default) rfl few
    have last := first.arrive (q := default) 0x53CE
    have left : InBiosAt (((w.machine.step default (arrive 0x53C1)).step default .call).step default
        (arrive 0x53CE)) (· = romExits.off .h53C1) := ⟨.inl rfl, site_cpuAt 0x53CE rfl⟩
    exact ⟨last.leave rfl, since_exit left⟩

/-- With one hit missing, the next character completes the loop. -/
theorem printed_fires (n : Nat) (full : n + 1 = 4096) :
    let w := countCall romExits default (arrive 0x53C1) (printed n)
    Fires default w.machine .h53C1 ∧ w.since .h53C1 = 0 := by
  obtain ⟨printing, since⟩ := printed_hits n (full ▸ Nat.lt_succ_self n)
  generalize printed n = w at *
  have here := printing.arrive (q := default) 0x53C1
  have reaches := here.reaches 0x53C1 rfl (by decide)
  have site := site_cpuAt (m := w.machine.step default (arrive 0x53C1)) 0x53C1 rfl
  have taken := (taken_iff (q := default) (c := .h53C1) reaches site).mpr
    (by rw [here.hits, full]; exact Nat.le_refl _)
  exact ⟨⟨reaches, site, taken⟩, since⟩

/-- The first and only character of the 4096th string is taken for an endless loop. -/
theorem not_firesStuck_strings : ¬ ∀ (exits : LoopExits) (q : Stock) (events : List Event) (env : Env)
    (mem : ByteMemory.Memory LsbBits.Byte) (bus : Nat → LsbBits.Byte)
    (getenv : EnvVar → Option String) (files : String → Option (List LsbBits.Byte)),
    Runs.Always (countCall exits q) (FiresStuck q) events (.start (.start env mem bus getenv files)) := by
  intro every
  obtain ⟨n, full⟩ : ∃ n, n + 1 = 4096 := ⟨4095, rfl⟩
  obtain ⟨fires, since⟩ := printed_fires n full
  have always : Runs.Always (countCall romExits default) (FiresStuck default)
      (strings n ++ [arrive 0x53C1] ++ [.call]) (.start atPost) := every _ _ _ _ _ _ _ _
  have last := always.at
  rw [Runs.run_append] at last
  have many := last rfl .h53C1 fires
  change Loop.threshold .h53C1 ≤ (countCall romExits default (arrive 0x53C1) (printed n)).since .h53C1 + 1 at many
  rw [since] at many
  exact absurd many (by decide)

end Strings

end Pc110
