import Pc110.ReportText
import Pc110.RingFrames
import Pc110.Library.Ring

/-! What the report of the reset at F000:5516 says of the calls before it. The rings hold the last
256 and the last 16 records; the recent line is read from the first 32 slots of the former,
whatever slots its calls are in. -/
namespace Pc110

def callPc : Event → Machine → Option Word
  | .call, m => some m.pc
  | _, _ => none

/-- The PCs of the calls of a run, oldest first. -/
def calls (q : Stock) (events : List Event) (m : Machine) : List Word :=
  Runs.recorded (Machine.step q) callPc events m

def conventional (history : List Word) : List Word := history.filter (· < 0xA0000)

/-- From the 32nd most recent call to the second most recent. -/
def recentCalls (history : List Word) : List Word := (history.drop (history.length - 32)).take 31

def lastConventional (history : List Word) : List Word :=
  (conventional history).drop ((conventional history).length - 16)

/-- The rings and their free-running positions behind a history of calls. -/
structure Tracks (history : List Word) (r : Rings) : Prop where
  linPos : r.linPos = BitVec.ofNat 32 history.length
  lin : Ring.Holds 256 history r.lin
  dosPos : r.dosPos = BitVec.ofNat 32 (conventional history).length
  dos : Ring.Holds 16 (conventional history) r.dos

section Positions

/-- A mask takes a position to its slot, also once the position has wrapped. -/
theorem masked_slot (number bits : Nat) (narrow : bits ≤ 32) {mask : Word} (ones : mask.toNat = 2 ^ bits - 1) :
    (BitVec.ofNat 32 number &&& mask).toNat = number % 2 ^ bits := by
  rw [BitVec.toNat_and, ones, Nat.and_two_pow_sub_one_eq_mod, BitVec.toNat_ofNat,
    Nat.mod_mod_of_dvd _ (Nat.pow_dvd_pow 2 narrow)]

theorem masked_back (number back bits : Nat) (small : back ≤ 32) (enough : back ≤ number) (narrow : bits ≤ 32)
    {mask : Word} (ones : mask.toNat = 2 ^ bits - 1) :
    ((BitVec.ofNat 32 number - BitVec.ofNat 32 back) &&& mask).toNat = (number - back) % 2 ^ bits := by
  rw [BitVec.ofNat_sub_ofNat_of_le _ _ (by omega) enough, masked_slot _ _ narrow ones]

end Positions

section Tracking
variable {q : Stock} {history : List Word} {r : Rings} {d : Diag} {pc : Word}

theorem tracks_initial : Tracks [] Diag.initial.rings where
  linPos := rfl
  lin := Ring.holds_nil _ _
  dosPos := rfl
  dos := Ring.holds_nil _ _

theorem conventional_record (history : List Word) (pc : Word) : conventional (history ++ [pc]) =
    if pc < 0xA0000 then conventional history ++ [pc] else conventional history := by
  unfold conventional
  rw [List.filter_append]
  split
  case isTrue low => rw [List.filter_cons_of_pos (by simpa using low), List.filter_nil]
  case isFalse high => rw [List.filter_cons_of_neg (by simpa using high), List.filter_nil, List.append_nil]

theorem Tracks.record (tracks : Tracks history r) (pc : Word) : Tracks (history ++ [pc]) (r.record pc) := by
  have next (count : Nat) : BitVec.ofNat 32 count + 1 = BitVec.ofNat 32 (count + 1) := (BitVec.ofNat_add count 1).symm
  have linSlot : (r.linPos &&& 255).toNat = history.length % 256 := by
    rw [tracks.linPos]
    exact masked_slot _ 8 (by decide) rfl
  have dosSlot : (r.dosPos &&& 15).toNat = (conventional history).length % 16 := by
    rw [tracks.dosPos]
    exact masked_slot _ 4 (by decide) rfl
  constructor
  case linPos =>
    rw [List.length_append, List.length_singleton, ← next, ← tracks.linPos]
    rfl
  case lin =>
    rw [Rings.record, linSlot]
    exact tracks.lin.record pc
  case dosPos =>
    rw [conventional_record]
    unfold Rings.record
    split
    · rw [List.length_append, List.length_singleton, ← next, ← tracks.dosPos]
    · exact tracks.dosPos
  case dos =>
    rw [conventional_record]
    unfold Rings.record
    split
    · rw [dosSlot]
      exact tracks.dos.record pc
    · exact tracks.dos

/-- What is tracked while the intercept is enabled. -/
def TrackedRun (history : List Word) (m : Machine) : Prop := m.enabled = true ∧ Tracks history m.diag.rings

theorem TrackedRun.step (tracked : TrackedRun history m) (e : Event) :
    TrackedRun (history ++ (callPc e m).toList) (m.step q e) := by
  obtain ⟨on, tracks⟩ := tracked
  by_cases call : e = .call
  · subst call
    obtain ⟨enabled, rings⟩ := call_tracked (q := q) m
    rw [on, if_pos rfl] at rings
    exact ⟨enabled.trans on, rings ▸ tracks.record m.pc⟩
  · obtain ⟨enabled, diag⟩ := other_tracked (q := q) (m := m) call
    have none : callPc e m = none := by cases e <;> first | rfl | contradiction
    rw [none, Option.toList_none, List.append_nil]
    exact ⟨enabled.trans on, diag ▸ tracks⟩

theorem run_tracked (events : List Event) {m : Machine} (on : m.enabled = true) (tracks : Tracks [] m.diag.rings) :
    TrackedRun (calls q events m) (Runs.run (Machine.step q) events m) :=
  Runs.run_recorded (Machine.step q) (fun _ _ e tracked => tracked.step e) events [] m ⟨on, tracks⟩

theorem step_enabled (e : Event) (m : Machine) : (m.step q e).enabled = m.enabled := by
  by_cases call : e = .call
  · subst call
    exact (call_tracked m).1
  · exact (other_tracked call).1

theorem run_enabled (events : List Event) (m : Machine) :
    (Runs.run (Machine.step q) events m).enabled = m.enabled :=
  Runs.run_keeps (Machine.step q) step_enabled events m

end Tracking

section Reading
variable {history : List Word} {d : Diag}

/-- The call that the line shows in place of a listed one was at the same PC. -/
def SlotsCurrent (history : List Word) : Prop :=
  ∀ number, history.length ≤ number + 32 → number + 1 < history.length →
    history[Ring.latest 256 history.length (number % 32)]? = history[number]?

/-- The DOS line is the last sixteen of its history. -/
theorem Tracks.dosPcs_eq (tracks : Tracks history d.rings) (enough : 16 ≤ (conventional history).length) :
    dosPcs d = lastConventional history := by
  rw [lastConventional, ← tracks.dos.last (Nat.le_refl 16) enough]
  apply List.map_congr_left
  intro i member
  have inside := List.mem_range.mp member
  have position : d.dosRingPos = BitVec.ofNat 32 (conventional history).length := tracks.dosPos
  have slot : (_ &&& (15 : Word)).toNat = _ :=
    masked_back (conventional history).length (16 - i) 4 (by omega) (by omega) (by decide) rfl
  rw [position, slot, show (conventional history).length - (16 - i) = (conventional history).length - 16 + i by omega]
  rfl

/-- The recent line reads slots by their number modulo 32. -/
theorem Tracks.recentPcs_getElem (tracks : Tracks history d.rings) (enough : 32 ≤ history.length) {i : Nat} (inside : i < 31) :
    (recentPcs d)[i]? = history[Ring.latest 256 history.length ((history.length - 32 + i) % 32)]? := by
  have position : d.linRingPos = BitVec.ofNat 32 history.length := tracks.linPos
  have slot : (_ &&& (31 : Word)).toNat = _ :=
    masked_back history.length (32 - i) 5 (by omega) (by omega) (by decide) rfl
  have low := Nat.mod_lt (history.length - 32 + i) (by decide : 0 < 32)
  rw [tracks.lin.slot (by omega) (by omega), recentPcs, List.getElem?_map, List.getElem?_range inside, Option.map_some,
    position, slot, show history.length - (32 - i) = history.length - 32 + i by omega]
  rfl

theorem recentCalls_getElem (history : List Word) {i : Nat} (inside : i < 31) :
    (recentCalls history)[i]? = history[history.length - 32 + i]? := by
  rw [recentCalls, List.getElem?_take_of_lt inside, List.getElem?_drop]

theorem recentCalls_length (enough : 32 ≤ history.length) : (recentCalls history).length = 31 := by
  rw [recentCalls, List.length_take, List.length_drop]
  omega

/-- The recent line lists the calls it is meant to, exactly if its slots show these. -/
theorem Tracks.recent_iff (tracks : Tracks history d.rings) (enough : 32 ≤ history.length) :
    recentPcs d = recentCalls history ↔ SlotsCurrent history := by
  constructor
  · intro same number recent before
    obtain ⟨i, rfl⟩ : ∃ i, number = history.length - 32 + i := ⟨number - (history.length - 32), by omega⟩
    have inside : i < 31 := by omega
    rw [← tracks.recentPcs_getElem enough inside, same, recentCalls_getElem history inside]
  · intro current
    apply List.ext_getElem?
    intro i
    by_cases inside : i < 31
    · rw [tracks.recentPcs_getElem enough inside, recentCalls_getElem history inside]
      exact current _ (by omega) (by omega)
    · rw [List.getElem?_eq_none (by simp [recentPcs]; omega),
        List.getElem?_eq_none (by rw [recentCalls_length enough]; omega)]

/-- Where the listed calls are in the first 32 slots, the line is right. -/
theorem slotsCurrent_aligned (aligned : history.length % 256 = 32 ∨ history.length % 256 = 33) :
    SlotsCurrent history := by
  intro number recent before
  have same : number % 32 = number % 256 := by omega
  rw [same, Ring.latest_own (by omega) (by omega)]

end Reading

def Report.recent : Report → Option (List Word)
  | .kbcReset _ _ _ _ _ _ recent => some recent
  | _ => none

def Report.dos : Report → Option (List Word)
  | .recentDos pcs => some pcs
  | _ => none

def Diag.recentLines (d : Diag) : List (List Word) := d.stderr.filterMap Report.recent

def Diag.dosLines (d : Diag) : List (List Word) := d.stderr.filterMap Report.dos

/-- The call prints one line of each kind, whole, and they list the calls of the history. -/
structure ReportsHistory (history : List Word) (m m' : Machine) : Prop where
  recent : m'.diag.recentLines = m.diag.recentLines ++ [recentCalls history] ∧
    PrintedWhole 256 (recentCalls history)
  dos : 16 ≤ (conventional history).length →
    m'.diag.dosLines = m.diag.dosLines ++ [lastConventional history] ∧ PrintedWhole 160 (lastConventional history)

section Report
variable {q : Stock} {m m' s : Machine} {d d' : Diag} {r : Rings}

structure Quiet (d d' : Diag) : Prop where
  rings : d'.rings = d.rings
  recent : d'.recentLines = d.recentLines
  dos : d'.dosLines = d.dosLines

theorem quiet_report (d : Diag) {r : Report} (notRecent : r.recent = none) (notDos : r.dos = none) :
    Quiet d (d.report r) where
  rings := rfl
  recent := by simp [Diag.recentLines, Diag.report, List.filterMap_append, notRecent]
  dos := by simp [Diag.dosLines, Diag.report, List.filterMap_append, notDos]

theorem quiet_count (d : Diag) (s : Shown) : Quiet d (d.count s) := ⟨rfl, rfl, rfl⟩

theorem Quiet.trans {d'' : Diag} (a : Quiet d d') (b : Quiet d' d'') : Quiet d d'' :=
  ⟨b.rings.trans a.rings, b.recent.trans a.recent, b.dos.trans a.dos⟩

theorem quiet_reportUpTo (d : Diag) (s : Shown) (limit : Nat) {r : Report} (notRecent : r.recent = none)
    (notDos : r.dos = none) : Quiet d (d.reportUpTo s limit r) := by
  unfold Diag.reportUpTo
  split
  · exact (quiet_count d s).trans (quiet_report _ notRecent notDos)
  · exact quiet_count d s

theorem trackPc_lines (pc : Word) (m : Machine) : (trackPc pc m).recentLines = m.diag.recentLines ∧
    (trackPc pc m).dosLines = m.diag.dosLines := by
  unfold trackPc
  dsimp only
  split_ifs
  · exact ⟨(quiet_reportUpTo _ _ _ rfl rfl).recent, (quiet_reportUpTo _ _ _ rfl rfl).dos⟩
  · exact ⟨rfl, rfl⟩
  · exact ⟨rfl, rfl⟩

theorem esLog_quiet (m : Machine) : Quiet m.diag (esLog m) := quiet_reportUpTo _ _ _ rfl rfl

theorem traceRing_quiet (pc : Word) (m : Machine) : Quiet m.diag (traceRing pc m) := by
  unfold traceRing
  dsimp only
  split
  · have quiet := quiet_report m.diag (r := .trace m.diag.trDumps pc m.env.eflags m.diag.ringLines) rfl rfl
    exact ⟨quiet.rings, quiet.recent, quiet.dos⟩
  · exact ⟨rfl, rfl, rfl⟩

theorem kbDisp_quiet (off : BitVec 16) (m : Machine) : Quiet m.diag (kbDisp off m) := by
  unfold kbDisp
  dsimp only
  split
  · exact (quiet_count _ _).trans (quiet_report _ rfl rfl)
  · exact ⟨rfl, rfl, rfl⟩

/-- A call on its way to the reset: the PC is recorded, and nothing of the report printed. -/
structure Arriving (m s : Machine) : Prop where
  env : s.env = m.env
  getenv : s.getenv = m.getenv
  pending : s.statics.kbcResetPending = m.statics.kbcResetPending
  rings : s.diag.rings = m.diag.rings.record m.pc
  recent : s.diag.recentLines = m.diag.recentLines
  dos : s.diag.dosLines = m.diag.dosLines

theorem Arriving.noted (arriving : Arriving m s) (quiet : Quiet s.diag d) : Arriving m { s with diag := d } where
  env := arriving.env
  getenv := arriving.getenv
  pending := arriving.pending
  rings := quiet.rings.trans arriving.rings
  recent := quiet.recent.trans arriving.recent
  dos := quiet.dos.trans arriving.dos

theorem note_falls {c : Machine → Prop} [DecidablePred c] {f : Machine → Diag}
    (quiet : ∀ s : Machine, Quiet s.diag (f s)) (arriving : Arriving m s) :
    ∃ s', Cascade.guarded c (note f) s = .next s' ∧ Arriving m s' := by
  unfold Cascade.guarded
  split
  · exact ⟨_, rfl, arriving.noted (quiet s)⟩
  · exact ⟨s, rfl, arriving⟩

theorem skip_falls {c : Machine → Prop} [DecidablePred c] {stage : Stage} (skipped : ¬ c s) (arriving : Arriving m s) :
    ∃ s', Cascade.guarded c stage s = .next s' ∧ Arriving m s' :=
  ⟨s, Cascade.guarded_pass stage skipped, arriving⟩

theorem freshPost_falls (arriving : Arriving m s) :
    ∃ s', Cascade.guarded (fun m => m.has .pc110PostUi) freshPost s = .next s' ∧ Arriving m s' := by
  unfold Cascade.guarded freshPost
  split
  · refine ⟨_, rfl, ?_⟩
    split
    · exact ⟨arriving.env, arriving.getenv, arriving.pending, arriving.rings, arriving.recent, arriving.dos⟩
    · exact arriving
  · exact ⟨s, rfl, arriving⟩

theorem front_falls (here : At 0x5516 m) :
    let site := Site.of m m.pc
    ∀ stage ∈ (entryStages q site).drop 2 ++ (romStages q site).take 5, ∀ s, Arriving m s →
      ∃ s', stage s = .next s' ∧ Arriving m s' := by
  intro site stage member s arriving
  obtain ⟨reaches, base, off⟩ := here
  have other {off' : BitVec 16} (apart : (0x5516 : BitVec 16) ≠ off') : ¬ site.rom off' :=
    fun there => apart (off.symm.trans there.2)
  have service : readsErrorLog site.pc s = false := by
    rw [readsErrorLog, Machine.has, Machine.has, arriving.getenv, arriving.env]
    exact reaches.service
  simp only [entryStages, romStages, List.drop_succ_cons, List.drop_zero, List.take_succ_cons, List.take_zero,
    List.cons_append, List.nil_append, List.mem_cons, List.not_mem_nil, or_false] at member
  rcases member with rfl | rfl | rfl | rfl | rfl | rfl | rfl | rfl | rfl | rfl
  · exact note_falls esLog_quiet arriving
  · exact skip_falls (by rw [service]; decide) arriving
  · exact note_falls (traceRing_quiet _) arriving
  · exact skip_falls (by rw [arriving.pending, reaches.idle]; decide) arriving
  · exact skip_falls (fun far => far.1 base) arriving
  · exact freshPost_falls arriving
  · exact skip_falls (fun there => other (by decide) there.2) arriving
  · exact skip_falls (fun there => other (by decide) there.2) arriving
  · exact ⟨_, rfl, arriving.noted ⟨rfl, rfl, rfl⟩⟩
  · exact note_falls (kbDisp_quiet _) arriving

theorem call_reset (here : At 0x5516 m) :
    ∃ s, Arriving m s ∧ m.step q .call = warmReset q (Site.of m m.pc).prevOff s := by
  let site := Site.of m m.pc
  let front := (entryStages q site).drop 2 ++ (romStages q site).take 5
  let reset : Stage := Cascade.guarded (fun _ => site.rom 0x5516) (leave true (warmReset q site.prevOff))
  let back := (romStages q site).drop 6 ++ bootStages site ++ completerStages q site.off
  have split : laterStages q site = front ++ reset :: back := rfl
  obtain ⟨recent, dos⟩ := trackPc_lines m.pc (m.seen m.diag)
  have arriving : Arriving m (m.seen (trackPc m.pc (m.seen m.diag))) :=
    ⟨rfl, rfl, rfl, trackPc_rings m.pc _, recent, dos⟩
  obtain ⟨s, arrived, ran⟩ := Cascade.run_falls false (reset :: back) (front_falls (q := q) here) _ arriving
  have resets : reset s = .done true (warmReset q site.prevOff s) := if_pos here.2
  refine ⟨s, arrived, ?_⟩
  change (postIntercept q m.pc m).2 = _
  rw [postIntercept_front, if_pos here.1.on, split, ran, Cascade.run_done _ true _ _ _ _ resets]

theorem resetReport_lines (prevOff : BitVec 16) (cur72 : List LsbBits.Byte) (m : Machine) :
    (resetReport prevOff cur72 m).recentLines = m.diag.recentLines ++ [recentPcs m.diag] ∧
      (resetReport prevOff cur72 m).dosLines = m.diag.dosLines ++ [dosPcs m.diag] := by
  rw [resetReport]
  simp [Diag.recentLines, Diag.dosLines, Diag.report, Diag.count, List.filterMap_append, List.filterMap_cons,
    Report.recent, Report.dos]

/-- The reset prints one line of each kind, from the rings. -/
theorem warmReset_lines (log : m.has .pc110RstLog = true) (prevOff : BitVec 16) :
    (warmReset q prevOff m).diag.recentLines = m.diag.recentLines ++ [recentPcs m.diag] ∧
      (warmReset q prevOff m).diag.dosLines = m.diag.dosLines ++ [dosPcs m.diag] := by
  have reported (m' : Machine) (diag : m'.diag = m.diag) (getenv : m'.getenv = m.getenv) (cur72 : List LsbBits.Byte) :
      let logged := if m'.has .pc110RstLog then logReset prevOff cur72 m' else m'
      let dumped := if logged.statics.booted ∧ logged.has .pc110RstLog then
        { logged with diag := resetHistory logged } else logged
      dumped.diag.recentLines = m.diag.recentLines ++ [recentPcs m.diag] ∧
        dumped.diag.dosLines = m.diag.dosLines ++ [dosPcs m.diag] := by
    intro logged dumped
    have lines : logged.diag.recentLines = m.diag.recentLines ++ [recentPcs m.diag] ∧
        logged.diag.dosLines = m.diag.dosLines ++ [dosPcs m.diag] := by
      have log' : m'.has .pc110RstLog = true := by rw [Machine.has, getenv]; exact log
      rw [← diag]
      simp only [logged, if_pos log']
      exact resetReport_lines prevOff cur72 m'
    simp only [dumped]
    split
    · have quiet := quiet_reportUpTo logged.diag .dumped 1 (r := .history logged.diag.ringLines) rfl rfl
      exact ⟨quiet.recent.trans lines.1, quiet.dos.trans lines.2⟩
    · exact lines
  let counted (m : Machine) : Machine :=
    { m with statics := { m.statics with resetCount := m.statics.resetCount + 1 } }
  unfold warmReset
  dsimp only
  split
  · exact reported (counted (m.poke 0x472 warmSig)) rfl rfl (m.read 0x472 2)
  · exact reported (counted m) rfl rfl (m.read 0x472 2)

/-- Behind any history of at least 31 calls: the line is right exactly if the slots it reads show
the calls it lists, and these are not too wide for its buffer. -/
theorem reports_iff {past : List Word} (here : At 0x5516 m) (log : m.has .pc110RstLog = true)
    (tracks : Tracks past m.diag.rings) (enough : 31 ≤ past.length) :
    ReportsHistory (past ++ [m.pc]) m (m.step q .call) ↔
      SlotsCurrent (past ++ [m.pc]) ∧ ((recentCalls (past ++ [m.pc])).map extraDigits).sum ≤ 70 := by
  obtain ⟨s, arrived, resets⟩ := call_reset (q := q) here
  have logs : s.has .pc110RstLog = true := by rw [Machine.has, arrived.getenv]; exact log
  obtain ⟨recent, dos⟩ := warmReset_lines (q := q) logs (Site.of m m.pc).prevOff
  rw [← resets, arrived.recent] at recent
  rw [← resets, arrived.dos] at dos
  have tracks' : Tracks (past ++ [m.pc]) s.diag.rings := arrived.rings ▸ tracks.record m.pc
  have enough' : 32 ≤ (past ++ [m.pc]).length := by
    rw [List.length_append, List.length_singleton]
    omega
  generalize past ++ [m.pc] = history at *
  have length := recentCalls_length enough'
  have whole : PrintedWhole 256 (recentCalls history) ↔ _ :=
    printedWhole_iff (by decide) (by decide) (List.ne_nil_of_length_pos (by omega))
  rw [length] at whole
  have lists : (m.step q .call).diag.recentLines = m.diag.recentLines ++ [recentCalls history] ↔ SlotsCurrent history := by
    rw [recent, List.append_cancel_left_eq, List.cons.injEq, and_iff_left rfl]
    exact tracks'.recent_iff enough'
  constructor
  · rintro ⟨⟨lines, room⟩, -⟩
    have few := whole.mp room
    exact ⟨lists.mp lines, by omega⟩
  · rintro ⟨current, few⟩
    refine ⟨⟨lists.mpr current, whole.mpr (by omega)⟩, fun sixteen => ?_⟩
    have sixteenth : (lastConventional history).length = 16 := by
      rw [lastConventional, List.length_drop]
      omega
    have narrow := extraDigits_sum_le (lastConventional history)
    have fits : PrintedWhole 160 (lastConventional history) ↔ _ :=
      printedWhole_iff (by decide) (by decide) (List.ne_nil_of_length_pos (by omega))
    rw [dos, tracks'.dosPcs_eq sixteen]
    exact ⟨rfl, fits.mpr (by omega)⟩

end Report

/-- In every run the report of a reset shows the real history, exactly if each listed call was at
the PC of the latest call with its number modulo 32, modulo 256, and the PCs are not too wide. -/
theorem reportsHistory_iff (q : Stock) (env : Env) (mem : ByteMemory.Memory LsbBits.Byte) (bus : Nat → LsbBits.Byte)
    (getenv : EnvVar → Option String) (files : String → Option (List LsbBits.Byte)) (events : List Event) :
    let start := Machine.start env mem bus getenv files
    let m := Runs.run (Machine.step q) events start
    let history := calls q events start ++ [m.pc]
    m.has .pc110RstLog = true → At 0x5516 m → 31 ≤ (calls q events start).length →
      (ReportsHistory history m (m.step q .call) ↔
        SlotsCurrent history ∧ ((recentCalls history).map extraDigits).sum ≤ 70) := by
  intro start m history log here enough
  have on : start.enabled = true := by
    rw [← run_enabled (q := q) events start]
    exact here.1.on
  obtain ⟨-, tracks⟩ := run_tracked (q := q) events on tracks_initial
  exact reports_iff here log tracks enough

section Visits
variable {q : Stock}

def arrival (off : Word) : Event := .guest (cpuAt off) (fun _ => 0) fun _ => 0

/-- The guest comes to these offsets of F000h, and the intercept is called at each. -/
def visits (offs : List Word) : List Event := offs.flatMap fun off => [arrival off, .call]

theorem calls_visits (offs : List Word) (m : Machine) :
    calls q (visits offs) m = offs.map (0xF0000 + ·) := by
  induction offs generalizing m with
  | nil => rfl
  | cons off offs ih => exact congrArg (_ :: ·) (ih ((m.step q (arrival off)).step q .call))

theorem visits_idle (offs : List Word) {m : Machine} (idle : m.statics.kbcResetPending = false) :
    (Runs.run (Machine.step q) (visits offs) m).statics.kbcResetPending = false := by
  induction offs generalizing m with
  | nil => exact idle
  | cons off offs ih => exact ih (idle_call idle)

theorem arrives_at_reset {m : Machine} (on : m.enabled = true) (idle : m.statics.kbcResetPending = false) :
    At 0x5516 (m.step q (arrival 0x5516)) := by
  have base : ((m.step q (arrival 0x5516)).env.segs .cs).base = 0xF0000 := rfl
  have pc : (m.step q (arrival 0x5516)).pc = 0xF0000 + 0x5516 := rfl
  have off : lo16 ((0xF0000 : Word) + 0x5516 - 0xF0000) = 0x5516 := by decide
  refine ⟨⟨on, ?service, idle, .inl base⟩, base, ?off⟩
  case service =>
    have elsewhere : (m.step q (arrival 0x5516)).pc ≠ esDispatcher := by
      rw [pc]
      decide
    rw [readsErrorLog, decide_eq_false (fun there => elsewhere there.1)]
  case off =>
    rw [Site.of, pc, base]
    exact off

end Visits

/-- Power-on with PC110POST and PC110RSTLOG. -/
def logged : Machine :=
  Machine.start (cpuAt 0) (fun _ => 0) (fun _ => 0)
    (fun | .pc110Post | .pc110RstLog => some "1" | _ => none) fun _ => none

theorem logged_reset {q : Stock} {events : List Event}
    (idle : (Runs.run (Machine.step q) events logged).statics.kbcResetPending = false) :
    let m := Runs.run (Machine.step q) (events ++ [arrival 0x5516]) logged
    m.has .pc110RstLog = true ∧ At 0x5516 m ∧ m.pc = 0xF5516 ∧
      calls q (events ++ [arrival 0x5516]) logged = calls q events logged := by
  intro m
  have on : (Runs.run (Machine.step q) events logged).enabled = true := run_enabled events logged
  have arrived : m = (Runs.run (Machine.step q) events logged).step q (arrival 0x5516) :=
    Runs.run_append (Machine.step q) events [arrival 0x5516] logged
  refine ⟨?_, arrived ▸ arrives_at_reset on idle, ?_, ?_⟩
  · rw [Machine.has, run_getenv]
    rfl
  · rw [arrived]
    change (0xF0000 : Word) + 0x5516 = 0xF5516
    decide
  · rw [calls, Runs.recorded_append]
    exact List.append_nil _

def sweep : List Word := (List.range 32).map fun i => BitVec.ofNat 32 (0x100 + 2 * i)

theorem reportsHistory_iff_visits :
    let m := Runs.run (Machine.step default) (visits sweep ++ [arrival 0x5516]) logged
    ReportsHistory (sweep.map (0xF0000 + ·) ++ [0xF5516]) m (m.step default .call) := by
  intro m
  obtain ⟨log, here, pc, same⟩ := logged_reset (q := default) (visits_idle sweep (m := logged) rfl)
  have past : calls default (visits sweep ++ [arrival 0x5516]) logged = sweep.map (0xF0000 + ·) :=
    same.trans (calls_visits sweep logged)
  have enough : 31 ≤ (calls default (visits sweep ++ [arrival 0x5516]) logged).length := by
    rw [past]
    decide
  have exactly := reportsHistory_iff default (cpuAt 0) (fun _ => 0) (fun _ => 0) _ (fun _ => none)
    (visits sweep ++ [arrival 0x5516]) log here enough
  change ReportsHistory (calls _ _ logged ++ [m.pc]) _ _ ↔ SlotsCurrent (calls _ _ logged ++ [m.pc]) ∧ _ at exactly
  rw [past, pc] at exactly
  exact exactly.mpr ⟨slotsCurrent_aligned (by decide), by decide +kernel⟩

/-- One call at F000:0100, 32 at F000:0200, and then the reset: the line shows the first of them
in place of the last. -/
theorem not_reportsHistory :
    let events := visits (0x100 :: List.replicate 32 0x200) ++ [arrival 0x5516]
    let m := Runs.run (Machine.step default) events logged
    m.has .pc110RstLog = true ∧ At 0x5516 m ∧ 32 ≤ (calls default events logged).length ∧
      ¬ ReportsHistory (calls default events logged ++ [m.pc]) m (m.step default .call) := by
  intro events m
  obtain ⟨log, here, pc, same⟩ := logged_reset (visits_idle (q := default) (0x100 :: List.replicate 32 0x200)
    (m := logged) rfl)
  have past : calls default events logged = 0xF0100 :: List.replicate 32 0xF0200 :=
    same.trans (calls_visits _ logged)
  obtain ⟨-, tracks⟩ := run_tracked (q := default) events (m := logged) rfl tracks_initial
  refine ⟨log, here, by rw [past]; decide, fun shows => ?_⟩
  obtain ⟨current, -⟩ := (reports_iff here log tracks (by rw [past]; decide)).mp shows
  rw [past, pc] at current
  exact absurd (current 32 (by decide) (by decide)) (by decide)

end Pc110
