import Pc110.EasySetupChoice
import Pc110.ErrorLog
import Pc110.MemoryPattern
import Pc110.ModeSetDetour
import Pc110.Transparency

/-! The head of the patched `cpu_exec_loop`. A call that handles its block goes round the loop
again, through `cpu_handle_interrupt` and before any block is looked up. INT 13h apart, whose
caller may be another hooked address, and as long as no interrupt is accepted on the way, a block
is looked up after three handled calls at the latest. -/
namespace Pc110

/-- The loop's head, with what `cpu_handle_interrupt` makes of the machine on each pass: calls
until one does not `continue`. The block is looked up at the PC which that call was given. -/
def blockEntry (q : Stock) (interrupt : Nat → Machine → Machine) : (calls pass : Nat) → Machine →
    Option (Word × Machine)
  | 0, _, _ => none
  | calls + 1, pass, m =>
    let m := interrupt pass m
    let pc := m.pc
    let (taken, s) := postIntercept q pc m
    if taken then blockEntry q interrupt calls (pass + 1) s else some (pc, s)

structure ResetVector (q : Stock) : Prop where
  base : ∀ env, ((q.cpuReset env).segs .cs).base = 0xFFFF0000
  eip : ∀ env, (q.cpuReset env).eip = 0xFFF0

def ServesDisk (m : Machine) : Prop := At 0xD2D7 m ∧ m.has .pc110Boot

instance (m : Machine) : Decidable (ServesDisk m) := inferInstanceAs (Decidable (_ ∧ _))

/-- None of the next calls, as far as they are handled, serves INT 13h. -/
def NoDisk (q : Stock) : (calls : Nat) → Machine → Prop
  | 0, _ => True
  | calls + 1, m =>
    ¬ ServesDisk m ∧ ((postIntercept q m.pc m).1 = true → NoDisk q calls (postIntercept q m.pc m).2)

/-- Where completers and handlers of the BIOS continue in it. -/
def exits : List Word :=
  [0x698F, 0x6D49, 0x3D9E, 0x699A, 0x52C0, 0x4A53, 0x6949, 0xC966, 0xEA92, 0x6958, 0x53CE, 0x3CC8, 0x3C4E,
    0x413F, 0x61E1, 0x61EF, 0xA6E4, 0x3391]

def Acts (off : BitVec 16) : Prop :=
  off ∈ [(0x542C : BitVec 16), 0xFF00, 0x5516, 0x4656, 0xD2D7, 0x52BD] ∨ off ∈ completedAtOnce ∨
    ∃ c : Counter, c.site off

/-- Nothing is there to be handled: outside the BIOS, or at an exit in it. -/
structure Lands (m : Machine) : Prop where
  idle : m.statics.kbcResetPending = false
  service : readsErrorLog m.pc m = false
  place : ((m.env.segs .cs).base ≠ 0xF0000 ∧ (m.env.segs .cs).base ≠ 0x20000) ∨ ¬ Acts (Site.of m m.pc).off

section Calls
variable {q : Stock} {m s : Machine} {taken : Bool}

/-- A call that falls through has not moved CS:EIP. -/
theorem passed_pc (passes : (postIntercept q m.pc m).1 = false) : (postIntercept q m.pc m).2.pc = m.pc := by
  have taking := postIntercept_takes q m.pc m
  rw [passes] at taking
  generalize (postIntercept q m.pc m).2 = s at *
  cases taking with
  | disabled | outside => rfl
  | rom _ _ _ rom =>
    cases rom with
    | tick =>
      unfold countTick
      dsimp only
      split <;> rfl
    | reported => rfl
    | noBoot =>
      unfold Machine.atBoot
      split <;> rfl
  | completer _ _ _ _ completer =>
    cases completer with
    | passes | memoryTest | counting => rfl

theorem TakesRom.acts {site : Site} (rom : TakesRom q site m true s) : Acts site.off := by
  have here {off : BitVec 16} (there : site.rom off)
      (member : off ∈ [(0x542C : BitVec 16), 0xFF00, 0x5516, 0x4656, 0xD2D7, 0x52BD]) : Acts site.off :=
    .inl (by rw [there.2]; exact member)
  cases rom with
  | inject _ _ there | sentinel _ _ there | warmReset _ there | resume _ there | int13 _ there
  | uiSetup _ _ there | setup _ there | boot _ _ _ there => exact here there (by decide)

theorem TakesCompleter.acts {off : BitVec 16} (completer : TakesCompleter q off m true s) : Acts off := by
  cases completer with
  | atOnce d member => exact .inr (.inl member)
  | completes d c site => exact .inr (.inr ⟨c, site⟩)

theorem Lands.passes (lands : Lands m) : (postIntercept q m.pc m).1 = false := by
  have taking := postIntercept_takes q m.pc m
  generalize (postIntercept q m.pc m).1 = taken at *
  generalize (postIntercept q m.pc m).2 = s at *
  cases taken with
  | false => rfl
  | true =>
    have inside (reaches : Reaches m.pc m) (acts : Acts (Site.of m m.pc).off) : False :=
      lands.place.elim (fun far => reaches.gate.elim far.1 far.2) (fun quiet => quiet acts)
    cases taking with
    | emptyLog _ _ log => exact absurd (lands.service.symm.trans log) (by decide)
    | portReset _ _ _ waits => exact absurd (lands.idle.symm.trans waits) (by decide)
    | rom _ _ reaches rom => exact (inside reaches rom.acts).elim
    | completer _ _ reaches _ completer => exact (inside reaches completer.acts).elim

theorem exits_quiet {e : Word} (member : e ∈ exits) : ¬ Acts (lo16 e) ∧ e.toNat < 0x10000 := by
  simp only [exits, List.mem_cons, List.not_mem_nil, or_false] at member
  rcases member with h | h | h | h | h | h | h | h | h | h | h | h | h | h | h | h | h | h <;>
  · subst h
    refine ⟨?_, by decide⟩
    rintro (rom | once | ⟨c, site⟩)
    · exact absurd rom (by decide)
    · exact absurd once (by decide)
    · cases c <;> exact absurd site (by decide)

theorem Lands.exit {e : Word} (member : e ∈ exits) (idle : s.statics.kbcResetPending = false)
    (gate : (s.env.segs .cs).base = 0xF0000 ∨ (s.env.segs .cs).base = 0x20000) (eip : s.env.eip = e) :
    Lands s := by
  obtain ⟨quiet, low⟩ := exits_quiet member
  have off : (Site.of s s.pc).off = lo16 e := by
    simp only [Site.of, Machine.pc, eip, BitVec.add_comm, BitVec.add_sub_cancel]
  refine ⟨idle, ?_, .inr (by rw [off]; exact quiet)⟩
  have elsewhere : s.pc ≠ esDispatcher := by
    rw [Machine.pc, eip, esDispatcher]
    rcases gate with base | base
    · rw [base]; bv_omega
    · rw [base]; bv_omega
  simp [readsErrorLog, elsewhere]

theorem Lands.outside (idle : s.statics.kbcResetPending = false) {base eip : Word}
    (cs : (s.env.segs .cs).base = base) (ip : s.env.eip = eip) (far : base ≠ 0xF0000 ∧ base ≠ 0x20000)
    (elsewhere : base + eip ≠ esDispatcher) : Lands s := by
  refine ⟨idle, ?_, .inl (by rw [cs]; exact far)⟩
  have pc : s.pc ≠ esDispatcher := by rw [Machine.pc, cs, ip]; exact elsewhere
  simp [readsErrorLog, pc]

theorem Lands.reset (vector : ResetVector q) (idle : s.statics.kbcResetPending = false) : Lands (s.cpuReset q) :=
  .outside idle (vector.base s.env) (vector.eip s.env) (by decide) (by decide)

theorem complete_exit (q : Stock) (off : BitVec 16) (c : Counter) (m : Machine) :
    (c.complete q off m).env.eip ∈ exits ∧ (c.complete q off m).env.segs = m.env.segs := by
  cases c with
  | hMempat =>
    have leaves := completeMempat_leaves q m off
    obtain ⟨_, _, _, _, _, _, _, rest⟩ := leaves.rest
    have segs : (completeMempat q m off).env.segs = m.env.segs := by rw [rest]
    refine ⟨?_, segs⟩
    change (completeMempat q m off).env.eip ∈ exits
    rw [leaves.eip]
    split <;> decide
  | hDelay => exact ⟨by change (0x413F : Word) ∈ exits; decide, rfl⟩
  | h6943 => exact ⟨by change (0x6949 : Word) ∈ exits; decide, rfl⟩
  | hC960 => exact ⟨by change (0xC966 : Word) ∈ exits; decide, rfl⟩
  | hEA90 => exact ⟨by change (0xEA92 : Word) ∈ exits; decide, rfl⟩
  | h6961 => exact ⟨by change (0x6958 : Word) ∈ exits; decide, rfl⟩
  | h53C1 => exact ⟨by change (0x53CE : Word) ∈ exits; decide, rfl⟩
  | hCksum => exact ⟨by change (0x3CC8 : Word) ∈ exits; decide, rfl⟩
  | hCopy => exact ⟨by change (0x3C4E : Word) ∈ exits; decide, rfl⟩

theorem completeAtOnce_exit (off : BitVec 16) (m : Machine) :
    (completeAtOnce off m).env.eip ∈ exits ∧ (completeAtOnce off m).env.segs = m.env.segs := by
  unfold completeAtOnce
  split_ifs
  · exact ⟨by change (0x698F : Word) ∈ exits; decide, rfl⟩
  · exact ⟨by change (0x6D49 : Word) ∈ exits; decide, rfl⟩
  · exact ⟨by change (0x3D9E : Word) ∈ exits; decide, rfl⟩
  · exact ⟨by change (0x699A : Word) ∈ exits; decide, rfl⟩
  · exact ⟨by change (0x52C0 : Word) ∈ exits; decide, rfl⟩
  · exact ⟨by change (0x4A53 : Word) ∈ exits; decide, rfl⟩

theorem TakesCompleter.lands {off : BitVec 16} (reaches : Reaches m.pc m)
    (completer : TakesCompleter q off m true s) : Lands s := by
  have idle (d : Diag) : (m.inBios d).statics.kbcResetPending = false := by
    rw [Machine.inBios_kbcResetPending]
    exact reaches.idle
  cases completer with
  | atOnce d =>
    obtain ⟨member, segs⟩ := completeAtOnce_exit off (m.inBios d)
    refine .exit member ?_ (by rw [segs]; exact reaches.gate) rfl
    exact (congrArg Statics.kbcResetPending (completeAtOnce_guestOnly _ _).statics).trans (idle d)
  | completes d c =>
    obtain ⟨member, segs⟩ := complete_exit q off c ((m.inBios d).setHits c 0)
    refine .exit member ?_ (by rw [segs]; exact reaches.gate) rfl
    exact (congrArg Statics.kbcResetPending (complete_guestOnly q _ _ c).statics).trans (idle d)

/-- Behind the injected mode set: the POST has its detour, and AX holds the mode. -/
structure Injected (s : Machine) : Prop where
  ui : s.has .pc110PostUi = true
  set : s.statics.SetThisPost
  idle : s.statics.kbcResetPending = false
  eax : s.env.regs .eax = 0x0003

/-- Behind the sentinel, at the teletype again. -/
structure Returned (s : Machine) : Prop where
  ui : s.has .pc110PostUi = true
  idle : s.statics.kbcResetPending = false
  base : (s.env.segs .cs).base = 0xF0000
  eip : s.env.eip = 0x542C

/-- What a handler of the F-segment leaves behind, INT 13h apart. -/
inductive Leaves (m s : Machine) : Prop where
  | lands : Lands s → Leaves m s
  | injected : ¬ m.statics.SetThisPost → Injected s → Leaves m s
  | returned : (m.statics.SetThisPost → s.statics.SetThisPost) → Returned s → Leaves m s

theorem enterEasySetup_lands (forced : Bool) (idle : m.statics.kbcResetPending = false)
    (base : (m.env.segs .cs).base = 0xF0000) : Lands (enterEasySetup forced m) := by
  have kept : (enterEasySetup forced m).statics.kbcResetPending = false :=
    (congrArg Statics.kbcResetPending (enterEasySetup_guestOnly m forced).statics).trans idle
  rcases (enterEasySetup_enters forced base).2 with ⟨cs, eip⟩ | ⟨cs, eip⟩
  · exact .outside kept cs eip (by decide) (by decide)
  · exact .exit (by decide) kept (.inl cs) eip

theorem TakesRom.leaves (vector : ResetVector q) (reaches : Reaches m.pc m) (noDisk : ¬ ServesDisk m)
    (rom : TakesRom q (.of m m.pc) m true s) : Leaves m s := by
  have base : (m.env.segs .cs).base = 0xF0000 := rom.base
  have idle (d : Diag) : (m.inBios d).statics.kbcResetPending = false := by
    rw [Machine.inBios_kbcResetPending]
    exact reaches.idle
  have atBoot (d : Diag) : (m.atBoot d).statics.kbcResetPending = false ∧
      ((m.atBoot d).env.segs .cs).base = 0xF0000 := by
    rw [atBoot_statics, atBoot_eip]
    exact ⟨idle d, base⟩
  cases rom with
  | inject d ui _ unset =>
    have latch := inBios_latch ui d
    refine .injected (fun set => ?_) ⟨ui, ⟨rfl, latch.1⟩, idle d, rfl⟩
    exact absurd ((latch.2.mpr set).symm.trans unset) (by decide)
  | sentinel d ui =>
    refine .returned (fun set => ?_) ⟨ui, idle d, rfl, rfl⟩
    rw [(modeSetDone_guestOnly (m.inBios d)).setThisPost, inBios_setThisPost ui d]
    exact set
  | warmReset d =>
    obtain ⟨m', guest, -, reset⟩ := warmReset_cpuReset q (m.inBios d) (Site.of m m.pc).prevOff
    rw [reset]
    exact .lands (.reset vector ((congrArg Statics.kbcResetPending guest.statics).trans (idle d)))
  | resume d =>
    have segs : ((forceResume (m.inBios d)).env.segs .cs).base = 0xF0000 := by
      unfold forceResume
      split <;> exact base
    exact .lands (.exit (e := 0xA6E4) (by decide)
      ((congrArg Statics.kbcResetPending (forceResume_guestOnly _).statics).trans (idle d)) (.inl segs) rfl)
  | int13 d here boot => exact absurd ⟨⟨reaches, here⟩, boot⟩ noDisk
  | uiSetup d => exact .lands (enterEasySetup_lands false (atBoot d).1 (atBoot d).2)
  | setup d => exact .lands (enterEasySetup_lands true (atBoot d).1 (atBoot d).2)
  | boot d path bf =>
    have idle := (congrArg Statics.kbcResetPending
      (bootDisk_guestOnly (m.atBoot d) path (bf.take 512)).statics).trans (atBoot d).1
    have cs : ((bootDisk path (bf.take 512) (m.atBoot d)).env.segs .cs).base = 0 := rfl
    have eip : (bootDisk path (bf.take 512) (m.atBoot d)).env.eip = 0x7C00 := rfl
    exact .lands (.outside idle cs eip (by decide) (by decide))

theorem handled_leaves (vector : ResetVector q) (noDisk : ¬ ServesDisk m) (service : readsErrorLog m.pc m = false)
    (handled : (postIntercept q m.pc m).1 = true) : Leaves m (postIntercept q m.pc m).2 := by
  have taking := postIntercept_takes q m.pc m
  rw [handled] at taking
  generalize (postIntercept q m.pc m).2 = s at *
  cases taking with
  | emptyLog _ _ log => exact absurd (service.symm.trans log) (by decide)
  | portReset d =>
    obtain ⟨m', guest, -, reset⟩ := portReset_cpuReset q (m.seen d)
    rw [reset]
    exact .lands (.reset vector (congrArg Statics.kbcResetPending guest.statics))
  | rom _ _ reaches rom => exact rom.leaves vector reaches noDisk
  | completer _ _ reaches _ completer => exact .lands (completer.lands reaches)

end Calls

section Loop
variable {q : Stock} {m : Machine}

def uninterrupted : Nat → Machine → Machine := fun _ => id

@[simp] theorem uninterrupted_apply (pass : Nat) (m : Machine) : uninterrupted pass m = m := rfl

/-- Without interrupts the loop's head is left within so many calls, for the block at CS:EIP. -/
def EntersWithin (q : Stock) (calls : Nat) (m : Machine) : Prop :=
  ∀ pass, ∃ s, blockEntry q uninterrupted calls pass m = some (s.pc, s)

theorem entersWithin_succ {calls : Nat} (next : (postIntercept q m.pc m).1 = true →
    EntersWithin q calls (postIntercept q m.pc m).2) : EntersWithin q (calls + 1) m := by
  intro pass
  cases taken : (postIntercept q m.pc m).1 with
  | false =>
    refine ⟨(postIntercept q m.pc m).2, ?_⟩
    simp [blockEntry, taken, passed_pc taken]
  | true =>
    obtain ⟨s, eq⟩ := next taken (pass + 1)
    exact ⟨s, by simpa [blockEntry, taken] using eq⟩

theorem blockEntry_mono {interrupt : Nat → Machine → Machine} {calls more pass : Nat} (within : calls ≤ more)
    {r : Word × Machine} (found : blockEntry q interrupt calls pass m = some r) :
    blockEntry q interrupt more pass m = some r := by
  induction calls generalizing more pass m with
  | zero => exact absurd found (by simp [blockEntry])
  | succ calls ih =>
    obtain ⟨more, rfl⟩ := Nat.exists_eq_add_of_le' (Nat.lt_of_lt_of_le (Nat.succ_pos calls) within)
    simp only [blockEntry] at found ⊢
    split at found
    case isTrue taken =>
      rw [if_pos taken]
      exact ih (Nat.le_of_succ_le_succ within) found
    case isFalse passes =>
      rw [if_neg passes]
      exact found

theorem EntersWithin.mono {calls more : Nat} (enters : EntersWithin q calls m) (within : calls ≤ more) :
    EntersWithin q more m := by
  intro pass
  obtain ⟨s, found⟩ := enters pass
  exact ⟨s, blockEntry_mono within found⟩

theorem blockEntry_uninterrupted {interrupt : Nat → Machine → Machine} {calls pass : Nat}
    (none : ∀ k, pass ≤ k → k < pass + calls → interrupt k = id) :
    blockEntry q interrupt calls pass m = blockEntry q uninterrupted calls pass m := by
  induction calls generalizing pass m with
  | zero => rfl
  | succ calls ih =>
    have now := none pass (Nat.le_refl _) (by omega)
    simp only [blockEntry, now, uninterrupted_apply, id_eq]
    rw [ih fun k low high => none k (by omega) (by omega)]
    rfl

theorem Lands.enters (lands : Lands m) (calls : Nat) : EntersWithin q (calls + 1) m :=
  entersWithin_succ fun taken => absurd (lands.passes.symm.trans taken) (by decide)

theorem noQuery (eax : hi8 (m.env.regs .eax) ≠ 0x21) : readsErrorLog m.pc m = false :=
  decide_eq_false fun query => eax query.2.2.1

theorem Returned.service (returned : Returned m) : readsErrorLog m.pc m = false := by
  have elsewhere : m.pc ≠ esDispatcher := by
    rw [Machine.pc, returned.base, returned.eip]
    decide
  simp [readsErrorLog, elsewhere]

/-- At the teletype a character is counted and the block runs, or the mode is set first. -/
theorem Returned.teletype (returned : Returned m) : (postIntercept q m.pc m).1 = false ∨
    ¬ m.statics.SetThisPost ∧ Injected (postIntercept q m.pc m).2 := by
  cases on : m.enabled with
  | false =>
    rw [postIntercept_front, on]
    exact .inl rfl
  | true =>
    have off : (Site.of m m.pc).off = 0x542C := by
      simp only [Site.of, Machine.pc, returned.eip, BitVec.add_comm, BitVec.add_sub_cancel]
      decide
    have here : At 0x542C m := ⟨⟨on, returned.service, returned.idle, .inl returned.base⟩, returned.base, off⟩
    rcases (teletype_call (q := q) returned.ui here).1 with ⟨unset, d, takes⟩ | ⟨-, passes⟩
    · have idle : (m.inBios d).statics.kbcResetPending = false :=
        (Machine.inBios_kbcResetPending m d).trans returned.idle
      rw [takes]
      exact .inr ⟨unset, returned.ui, ⟨rfl, (inBios_latch returned.ui d).1⟩, idle, rfl⟩
    · exact .inl passes

theorem Injected.enters (vector : ResetVector q) (injected : Injected m) (noDisk : ¬ ServesDisk m) :
    EntersWithin q 2 m := by
  refine entersWithin_succ fun taken => ?_
  have service : readsErrorLog m.pc m = false := noQuery (by rw [injected.eax]; decide)
  cases handled_leaves vector noDisk service taken with
  | lands lands => exact lands.enters 0
  | injected unset => exact absurd injected.set unset
  | returned kept returned =>
    refine entersWithin_succ fun taken => ?_
    rcases returned.teletype (q := q) with passes | ⟨unset, -⟩
    · exact absurd (passes.symm.trans taken) (by decide)
    · exact absurd (kept injected.set) unset

/-- The teletype behind a sentinel sets the mode where none was awaited. -/
theorem Returned.enters (vector : ResetVector q) (returned : Returned m) (noDisk : NoDisk q 2 m) :
    EntersWithin q 3 m := by
  refine entersWithin_succ fun taken => ?_
  rcases returned.teletype (q := q) with passes | ⟨-, injected⟩
  · exact absurd (passes.symm.trans taken) (by decide)
  · exact injected.enters vector (noDisk.2 taken).1

/-- Behind a forced empty log nothing but a waiting reset is left to be handled. -/
theorem emptyLog_enters (vector : ResetVector q) (d : Diag) :
    EntersWithin q 2 (forceEmptyLog (m.seen d)) := by
  have service : readsErrorLog (forceEmptyLog (m.seen d)).pc (forceEmptyLog (m.seen d)) = false := by
    apply noQuery
    simp [forceEmptyLog_regs, Machine.seen]
  cases waits : m.statics.kbcResetPending with
  | true =>
    refine entersWithin_succ fun _ => ?_
    obtain ⟨d', eq⟩ := postIntercept_portReset (q := q) (m := forceEmptyLog (m.seen d)) rfl service waits
    obtain ⟨m', guest, -, reset⟩ := portReset_cpuReset q ((forceEmptyLog (m.seen d)).seen d')
    rw [eq, reset]
    exact (Lands.reset vector (congrArg Statics.kbcResetPending guest.statics)).enters 0
  | false =>
    have off : (Site.of (forceEmptyLog (m.seen d)) (forceEmptyLog (m.seen d)).pc).off = 9 := by
      change lo16 ((m.env.segs .cs).base + 9 - (m.env.segs .cs).base) = 9
      rw [BitVec.add_comm, BitVec.add_sub_cancel]
      decide
    have quiet : ¬ Acts 9 := by
      rintro (rom | once | ⟨c, site⟩)
      · exact absurd rom (by decide)
      · exact absurd once (by decide)
      · cases c <;> exact absurd site (by decide)
    have lands : Lands (forceEmptyLog (m.seen d)) := ⟨waits, service, .inr (by rw [off]; exact quiet)⟩
    exact lands.enters 1

/-- The head of the loop from any machine, unless one of the first three calls serves INT 13h. -/
theorem entersWithin_four (vector : ResetVector q) (m : Machine) (noDisk : NoDisk q 3 m) : EntersWithin q 4 m := by
  refine entersWithin_succ fun taken => ?_
  cases service : readsErrorLog m.pc m with
  | true =>
    cases on : m.enabled with
    | false =>
      rw [postIntercept_front, on] at taken
      exact Bool.noConfusion taken
    | true =>
      obtain ⟨d, eq⟩ := postIntercept_emptyLog (q := q) on service
      rw [eq]
      exact (emptyLog_enters vector d).mono (by decide)
  | false =>
    cases handled_leaves vector noDisk.1 service taken with
    | lands lands => exact lands.enters 2
    | injected _ injected =>
      exact (injected.enters vector (noDisk.2 taken).1).mono (by decide)
    | returned _ returned => exact returned.enters vector (noDisk.2 taken)

end Loop

/-- From wherever the first pass finds the machine, four calls at most come to the block at the CS:EIP
where the handled ones left it, unless one of the first three serves INT 13h or an interrupt is
accepted between them. -/
theorem blockEntry_reached (q : Stock) (vector : ResetVector q) (interrupt : Nat → Machine → Machine) (m : Machine)
    (noDisk : NoDisk q 3 (interrupt 0 m)) (none : ∀ pass, 1 ≤ pass → pass ≤ 3 → interrupt pass = id) :
    ∃ s, blockEntry q interrupt 4 0 m = some (s.pc, s) := by
  obtain ⟨s, eq⟩ := entersWithin_four vector (interrupt 0 m) noDisk 0
  refine ⟨s, Eq.trans ?_ eq⟩
  have later (m : Machine) : blockEntry q interrupt 3 (0 + 1) m = blockEntry q uninterrupted 3 (0 + 1) m :=
    blockEntry_uninterrupted fun k low high => none k low (by omega)
  rw [blockEntry, blockEntry]
  simp only [later, uninterrupted_apply]
  rfl

/-- A CPU reset to the vector, and no lazy condition codes. -/
def vectorStock : Stock where
  ccComputeAll := fun _ _ _ _ => 0
  cpuReset := fun env => (env.setSeg .cs 0xF000 0xFFFF0000).setReg .edx 0 |> fun env => { env with eip := 0xFFF0 }

/-- At a sentinel nobody awaited: three handled calls, the last of them the sentinel again. -/
def straySentinel : Machine :=
  .start (cpuAt 0xFF00) (ByteMemory.write (fun _ => 0) 0x40 [0x00, 0xFF, 0x00, 0xF0]) (fun _ => 0) postUi
    fun _ => none

theorem blockEntry_reached_straySentinel :
    ∃ s, blockEntry vectorStock uninterrupted 4 0 straySentinel = some (s.pc, s) :=
  blockEntry_reached vectorStock ⟨fun _ => rfl, fun _ => rfl⟩ uninterrupted straySentinel
    ⟨by decide +kernel, fun _ => ⟨by decide +kernel, fun _ => ⟨by decide +kernel, fun _ => trivial⟩⟩⟩
    fun _ _ _ => rfl

example : (blockEntry vectorStock uninterrupted 3 0 straySentinel).isNone = true := by decide +kernel

end Pc110
