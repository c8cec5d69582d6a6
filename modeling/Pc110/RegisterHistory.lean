import Pc110.RegisterFiles

/-! The chipset by the history of its ports. Whatever the order of the accesses, a port shows
the newest byte that its own file has been given for it. -/
namespace Pc110.Chipset

open LsbBits (Byte)

section Refinement
variable {past : List Access}

theorem lastAt_next (port : Nat) (initial : Byte) (past : List Access) (x : Access) :
    lastAt port initial (x :: past) = (x.puts port).getD (lastAt port initial past) := rfl

/-- A window holds what its ports' history says. -/
structure Window.Follows {n : Nat} (w : Window n) (f : IndexedFile n) (past : List Access) : Prop where
  index : w.index = f.index past
  regs : ∀ r, w.regs r = f.register past r

namespace Window.Follows
variable {n : Nat} {w : Window n} {f : IndexedFile n}

theorem current (follows : w.Follows f past) : w.current = f.selected past :=
  congrArg (·.setWidth n) follows.index

theorem data (follows : w.Follows f past) : w.data = f.shown past := by
  rw [Window.data, follows.regs, follows.current, IndexedFile.shown]

theorem next (follows : w.Follows f past) (x : Access) : (f.next w x).Follows f (x :: past) where
  index := by
    rw [IndexedFile.index, lastAt_next]
    cases put : x.puts f.indexPort with
    | none =>
      simp only [IndexedFile.next, put, Option.map_none, Option.getD_none]
      exact follows.index
    | some v => simp only [IndexedFile.next, put, Option.map_some, Option.getD_some]
  regs r := by
    cases put : x.puts f.dataPort with
    | none =>
      rw [IndexedFile.register, History.last_skipped (by rw [put, ite_self])]
      simp only [IndexedFile.next, put, Option.elim_none]
      exact follows.regs r
    | some v =>
      simp only [IndexedFile.next, put, Option.elim_some]
      by_cases here : r = f.selected past
      · rw [IndexedFile.register, History.last, if_pos here.symm, put, Option.getD_some, here,
          ← follows.current, Function.update_self]
      · rw [IndexedFile.register, History.last_skipped (if_neg (Ne.symm here)),
          Function.update_of_ne (follows.current ▸ here)]
        exact follows.regs r

end Window.Follows

theorem seeded_follows {n : Nat} (f : IndexedFile n) : (seeded n f.seed).Follows f [] where
  index := BitVec.and_zero.symm
  regs _ := rfl

def latchAt (port : Nat) (initial : BitVec 16) (past : List Access) : BitVec 16 :=
  lastAt (port + 1) (initial.extractLsb' 8 8) past ++ lastAt port (initial.extractLsb' 0 8) past

theorem latchNext_follows {port : Nat} {initial reg : BitVec 16} (follows : reg = latchAt port initial past)
    (x : Access) : latchNext port reg x = latchAt port initial (x :: past) := by
  have high : reg.extractLsb' 8 8 = lastAt (port + 1) (initial.extractLsb' 8 8) past := by
    rw [follows]
    exact BitVec.extractLsb'_append_eq_left
  have low : reg.extractLsb' 0 8 = lastAt port (initial.extractLsb' 0 8) past := by
    rw [follows]
    exact BitVec.extractLsb'_append_eq_right
  rw [latchNext, high, low, latchAt, lastAt_next, lastAt_next]

/-- The second status port is busy for its first eight reads. -/
structure Settles (s : ChipsetState) (past : List Access) : Prop where
  busy : busyReads past ≤ 8 → s.status15EC = 0x02 ∧ s.status15ECReads.toNat = busyReads past
  ready : 8 < busyReads past → s.status15EC = 0x00

theorem busyReads_next (past : List Access) (x : Access) :
    busyReads (x :: past) = busyReads past + if x.polls 0x15EC then 1 else 0 :=
  List.countP_cons ..

theorem Settles.next {s : ChipsetState} (settles : Settles s past) (x : Access) :
    Settles (next s x) (x :: past) := by
  by_cases polls : x.polls 0x15EC
  · have count : busyReads (x :: past) = busyReads past + 1 := by rw [busyReads_next, if_pos polls]
    have reads : (Chipset.next s x).status15ECReads = s.status15ECReads + 1 := if_pos polls
    have status : (Chipset.next s x).status15EC =
        if 8 < s.status15ECReads + 1 then s.status15EC &&& ~~~0x02 else s.status15EC := by
      simp only [Chipset.next, polls, true_and]
    by_cases late : 8 < busyReads past
    · refine ⟨fun few => by omega, fun _ => ?_⟩
      rw [status, settles.ready late]
      split <;> rfl
    · obtain ⟨busy, counted⟩ := settles.busy (Nat.le_of_not_lt late)
      have reached : (s.status15ECReads + 1).toNat = busyReads past + 1 := by
        rw [BitVec.toNat_add_of_lt (by rw [counted]; simp; omega), counted]
        rfl
      have turn : 8 < s.status15ECReads + 1 ↔ 8 < busyReads past + 1 := by
        rw [BitVec.lt_def, reached]
        rfl
      constructor
      · intro few
        rw [reads, status, if_neg (mt turn.mp (by omega)), busy]
        exact ⟨rfl, reached.trans count.symm⟩
      · intro many
        rw [status, if_pos (turn.mpr (by omega)), busy]
        rfl
  · have count : busyReads (x :: past) = busyReads past := by rw [busyReads_next, if_neg polls, Nat.add_zero]
    have reads : (Chipset.next s x).status15ECReads = s.status15ECReads := if_neg polls
    have status : (Chipset.next s x).status15EC = s.status15EC := if_neg fun h => polls h.1
    exact ⟨by rw [count, reads, status]; exact settles.busy, by rw [count, status]; exact settles.ready⟩

/-- The device holds what the histories of its ports say. -/
structure Follows (past : List Access) (s : ChipsetState) : Prop where
  dmaPage : ∀ i : BitVec 4, s.dmaPage i = lastAt (0x80 + i.toNat) 0 past
  configIndex : s.configIndex = lastAt 0x4F 0 past
  rtc : s.rtc.Follows cmosFile past
  scamp : s.scamp.Follows scampFile past
  block2 : s.block2.Follows block2File past
  reg22 : s.reg22 = latchAt 0x22 0x0100 past
  reg302 : s.reg302 = latchAt 0x302 0 past
  reg704 : s.reg704 = latchAt 0x704 0 past
  mcu : s.mcu.Follows mcuFile past
  ext35 : s.ext35.Follows ext35File past
  ext15 : s.ext15.Follows ext15File past
  idle : s.status15E8 = 0
  settles : Settles s past

theorem realized_follows : Follows [] realized where
  dmaPage _ := rfl
  configIndex := rfl
  rtc := seeded_follows cmosFile
  scamp := seeded_follows scampFile
  block2 := seeded_follows block2File
  reg22 := rfl
  reg302 := rfl
  reg704 := rfl
  mcu := seeded_follows mcuFile
  ext35 := seeded_follows ext35File
  ext15 := seeded_follows ext15File
  idle := rfl
  settles := ⟨fun _ => ⟨rfl, rfl⟩, fun many => absurd many (by decide)⟩

theorem step_follows (past : List Access) (s : ChipsetState) (x : Access) (follows : Follows past s) :
    Follows (x :: past) (step s x).2 := by
  rw [step_next]
  exact {
    dmaPage := fun i => by rw [lastAt_next, ← follows.dmaPage]; rfl
    configIndex := by rw [lastAt_next, ← follows.configIndex]; rfl
    rtc := follows.rtc.next x
    scamp := follows.scamp.next x
    block2 := follows.block2.next x
    reg22 := latchNext_follows follows.reg22 x
    reg302 := latchNext_follows follows.reg302 x
    reg704 := latchNext_follows follows.reg704 x
    mcu := follows.mcu.next x
    ext35 := follows.ext35.next x
    ext15 := follows.ext15.next x
    idle := by
      change ite _ _ _ = _
      rw [follows.idle, ite_self]
    settles := follows.settles.next x }

theorem reached_follows (accesses : List Access) : Follows accesses.reverse (reached accesses) := by
  have behind := History.follows_after step_follows realized_follows accesses
  rwa [List.append_nil] at behind

end Refinement

section Answers
variable {past : List Access} {s : ChipsetState}

theorem latchRead_low (high low : Byte) : latchRead 0 1 (high ++ low : BitVec 16) = low.setWidth 16 := by
  apply BitVec.eq_of_getLsbD_eq
  intro i hi
  have bit := pair_getLsbD high low i
  interval_cases i <;> simp_all [latchRead]

theorem latchRead_high (high low : Byte) : latchRead 1 1 (high ++ low : BitVec 16) = high.setWidth 16 := by
  apply BitVec.eq_of_getLsbD_eq
  intro i hi
  have bit := pair_getLsbD high low (8 + i)
  interval_cases i <;> simp_all [latchRead]

theorem latchRead_word (reg : BitVec 16) : latchRead 0 2 reg = reg := by
  rw [latchRead, if_neg (by decide), Nat.zero_mul, BitVec.ushiftRight_zero]
  exact BitVec.and_allOnes

theorem shows_page {port : Nat} (low : 0x80 ≤ port) (high : port < 0x90) :
    shows past port = lastAt port 0 past := by
  unfold shows
  split <;> first | omega | rw [if_pos ⟨low, high⟩]

theorem Settles.turn (settles : Settles s past) (few : busyReads past ≤ 8) :
    8 < s.status15ECReads + 1 ↔ 8 ≤ busyReads past := by
  have counted := (settles.busy few).2
  rw [BitVec.lt_def, BitVec.toNat_add_of_lt (by rw [counted]; simp; omega), counted]
  exact Nat.lt_succ_iff

/-- The busy bit as the next read of its port finds it. -/
theorem Settles.answer (settles : Settles s past) :
    (if 8 < s.status15ECReads + 1 then s.status15EC &&& ~~~0x02 else s.status15EC) =
      if busyReads past < 8 then (0x02 : Byte) else 0x00 := by
  by_cases late : 8 < busyReads past
  · rw [settles.ready late, if_neg (Nat.lt_asymm late)]
    split <;> rfl
  · have few := Nat.le_of_not_lt late
    rw [(settles.busy few).1]
    by_cases last : 8 ≤ busyReads past
    · rw [if_pos ((settles.turn few).mpr last), if_neg (Nat.not_lt.mpr last)]
      rfl
    · rw [if_neg (mt (settles.turn few).mp last), if_pos (Nat.lt_of_not_le last)]

/-- Bytes and words of a latch are the bytes of its two ports. -/
theorem latchRead_follows {p port : Nat} {initial reg : BitVec 16} (follows : reg = latchAt p initial past)
    (low : shows past p = lastAt p (initial.extractLsb' 0 8) past)
    (high : shows past (p + 1) = lastAt (p + 1) (initial.extractLsb' 8 8) past) {sz : Nat}
    (width : sz = 1 ∨ sz = 2) (inside : p ≤ port ∧ port + sz ≤ p + 2) :
    (latchRead (port - p) sz reg).setWidth 64 = if sz = 1 then (shows past port).setWidth 64
      else (shows past (port + 1) ++ shows past port).setWidth 64 := by
  rw [follows, latchAt, ← low, ← high]
  rcases width with rfl | rfl
  · have place : port = p ∨ port = p + 1 := by omega
    rcases place with rfl | rfl
    · rw [if_pos rfl, Nat.sub_self, latchRead_low, BitVec.setWidth_setWidth (by decide)]
    · rw [if_pos rfl, Nat.add_sub_cancel_left, latchRead_high, BitVec.setWidth_setWidth (by decide)]
  · obtain rfl : port = p := by omega
    rw [if_neg (by decide), Nat.sub_self, latchRead_word]

theorem Window.Follows.read {n p q port : Nat} {w : Window n} {f : IndexedFile n} (follows : w.Follows f past)
    (index : shows past p = f.index past) (data : shows past q = f.shown past) (apart : p < q)
    (place : port = p ∨ port = q) : w.read (port - p) = shows past port := by
  rcases place with rfl | rfl
  · rw [Window.read, if_pos (Nat.sub_self _), index]
    exact follows.index
  · rw [Window.read, if_neg (by omega), data]
    exact follows.data

theorem ChipsetState.read_answer (follows : Follows past s) (x : Access) :
    (s.read x.region x.offset x.sz).1 = if x.sz = 1 then (shows past x.port).setWidth 64
      else (shows past (x.port + 1) ++ shows past x.port).setWidth 64 := by
  have inside := x.inside
  have width := x.width
  rw [Access.offset]
  cases region : x.region <;>
    simp only [region, Region.base, Region.size, Region.maxAccessSize] at inside width ⊢
  case io22 => exact latchRead_follows follows.reg22 rfl rfl (by omega) inside
  case io302 => exact latchRead_follows follows.reg302 rfl rfl (by omega) inside
  case io704 => exact latchRead_follows follows.reg704 rfl rfl (by omega) inside
  all_goals
    rw [if_pos (by omega)]
    have narrow : x.sz = 1 := by omega
  case ioEc =>
    simp only [ChipsetState.read, mcuRead]
    rw [follows.mcu.read (p := 0xEC) (q := 0xED) rfl rfl (by decide) (by omega)]
  case io35ea =>
    simp only [ChipsetState.read, ext35Read]
    rw [follows.ext35.read (p := 0x35EA) (q := 0x35EB) rfl rfl (by decide) (by omega)]
  case io24 =>
    simp only [ChipsetState.read, block2Read]
    rw [follows.block2.read (p := 0x24) (q := 0x25) rfl rfl (by decide) (by omega)]
  case io4f =>
    rw [show x.port = 0x4F by omega]
    exact congrArg (BitVec.setWidth 64) follows.configIndex
  case io80 =>
    rw [shows_page inside.1 (by omega)]
    have fits : (BitVec.ofNat 4 (x.port - 0x80)).toNat = x.port - 0x80 := by
      rw [BitVec.toNat_ofNat, Nat.mod_eq_of_lt (by omega)]
    rw [ChipsetState.read, dpageRead, follows.dmaPage, fits, Nat.add_sub_cancel' inside.1]
  case io70 =>
    have place : x.port = 0x70 ∨ x.port = 0x71 := by omega
    rcases place with first | second
    · rw [first]
      exact congrArg (BitVec.setWidth 64) follows.rtc.index
    · rw [second]
      refine congrArg (BitVec.setWidth 64) ((cmosGet_eq s _).trans ?_)
      rw [follows.rtc.regs, follows.rtc.current]
      rfl
  case io74 =>
    have place : x.port = 0x74 ∨ x.port = 0x75 ∨ x.port = 0x76 := by omega
    rcases place with first | second | third
    · rw [first]
      exact congrArg (BitVec.setWidth 64) follows.scamp.index
    · rw [second]
      rfl
    · rw [third]
      exact congrArg (BitVec.setWidth 64) follows.scamp.data
  case io15e8 =>
    have place : x.port = 0x15E8 ∨ x.port = 0x15E9 ∨ x.port = 0x15EA ∨ x.port = 0x15EB ∨
        x.port = 0x15EC := by omega
    rcases place with status | gap | index | data | busy
    · have idle : (ext15Read s 0).1 = 0 := by
        simp only [ext15Read, follows.idle, ite_self, if_pos]
      rw [status]
      exact congrArg (BitVec.setWidth 64) idle
    · rw [gap]
      rfl
    · rw [index]
      exact congrArg (BitVec.setWidth 64) follows.ext15.index
    · rw [data]
      exact congrArg (BitVec.setWidth 64) follows.ext15.data
    · rw [busy]
      exact congrArg (BitVec.setWidth 64) (follows.settles.answer)
  case ioEe | io3e0 | io3f0 =>
    have place : x.port = x.region.base ∨ x.port = x.region.base + 1 := by
      rw [region]
      simp only [Region.base]
      omega
    rw [region] at place
    rcases place with first | second
    · rw [first]
      rfl
    · rw [second]
      rfl

theorem step_answer (follows : Follows past s) (x : Access) : (step s x).1 = answer past x := by
  cases access : x.data with
  | some v => simp only [step, answer, access]
  | none =>
    simp only [step, answer, access]
    exact congrArg some (ChipsetState.read_answer follows x)

end Answers

section Independence
variable {past : List Access} {x y : Access}

theorem IndexedFile.index_other {n : Nat} {f : IndexedFile n} (index : y.puts f.indexPort = none) :
    f.index (y :: past) = f.index past := by
  rw [IndexedFile.index, lastAt, History.last_skipped index]
  rfl

theorem IndexedFile.shown_other {n : Nat} {f : IndexedFile n} (index : y.puts f.indexPort = none)
    (data : y.puts f.dataPort = none) : f.shown (y :: past) = f.shown past := by
  rw [IndexedFile.shown, IndexedFile.selected, IndexedFile.index_other index, IndexedFile.register,
    History.last_skipped (by rw [data, ite_self])]
  rfl

theorem busyReads_other (other : fileOf y.port ≠ 0x15EC) : busyReads (y :: past) = busyReads past := by
  have silent : y.polls 0x15EC = false := by
    rw [Access.polls, Bool.and_eq_false_iff]
    refine .inl (beq_eq_false_iff_ne.mpr fun here => other ?_)
    rw [here]
    rfl
  rw [busyReads_next, silent]
  rfl

/-- What a port shows is left alone by accesses to other files. -/
theorem shows_other {port : Nat} (other : fileOf y.port ≠ fileOf port) :
    shows (y :: past) port = shows past port := by
  have latch (p : Nat) (initial : Byte) (apart : fileOf y.port ≠ fileOf p) :
      lastAt p initial (y :: past) = lastAt p initial past := History.last_skipped (puts_other apart)
  have index {n : Nat} (f : IndexedFile n) (apart : fileOf y.port ≠ fileOf f.indexPort) :
      f.index (y :: past) = f.index past := IndexedFile.index_other (puts_other apart)
  have data {n : Nat} (f : IndexedFile n) (first : fileOf y.port ≠ fileOf f.indexPort)
      (second : fileOf y.port ≠ fileOf f.dataPort) : f.shown (y :: past) = f.shown past :=
    IndexedFile.shown_other (puts_other first) (puts_other second)
  unfold shows
  split
  case h_1 | h_14 | h_15 | h_16 | h_17 | h_18 | h_19 => exact latch _ _ other
  case h_2 | h_4 | h_6 | h_8 | h_10 | h_12 => exact index _ other
  case h_5 | h_7 | h_9 | h_11 | h_13 => exact data _ other other
  case h_3 => rw [IndexedFile.selected, index cmosFile other, data cmosFile other other, IndexedFile.selected]
  case h_20 => rfl
  case h_21 => rw [busyReads_other other]
  case h_22 => rw [latch port 0 other]

theorem answer_other (other : fileOf y.port ≠ fileOf x.port) : answer (y :: past) x = answer past x := by
  have low : shows (y :: past) x.port = shows past x.port := shows_other other
  cases access : x.data with
  | some v => simp only [answer, access]
  | none =>
    simp only [answer, access]
    rcases x.width with narrow | ⟨wide, -⟩
    · rw [if_pos narrow, if_pos narrow, low]
    · have high : shows (y :: past) (x.port + 1) = shows past (x.port + 1) :=
        shows_other (fileOf_second wide ▸ other)
      rw [low, high]

/-- A data port shows the newest byte it was given for the register that is selected now. -/
theorem IndexedFile.shown_newest {n : Nat} (f : IndexedFile n) {v : Byte} {later : List Access}
    (put : y.puts f.dataPort = some v) (selected : f.selected (later ++ y :: past) = f.selected past)
    (since : ∀ newer z older, later = newer ++ z :: older →
      f.selected (older ++ y :: past) = f.selected past → z.puts f.dataPort = none) :
    f.shown (later ++ y :: past) = v := by
  rw [IndexedFile.shown, selected, IndexedFile.register]
  refine History.last_newest (by rw [if_pos rfl, put]) later fun newer z older split => ?_
  split_ifs with same
  · exact since newer z older split same
  · rfl

end Independence

/-- Every access is answered by the history of its own file, and accesses to other files do
not change the answer. -/
theorem reached_answer (accesses : List Access) (x : Access) :
    (step (reached accesses) x).1 = answer accesses.reverse x ∧
      ∀ y : Access, fileOf y.port ≠ fileOf x.port →
        (step (reached (accesses ++ [y])) x).1 = (step (reached accesses) x).1 := by
  have model (accesses : List Access) : (step (reached accesses) x).1 = answer accesses.reverse x :=
    step_answer (reached_follows accesses) x
  refine ⟨model accesses, fun y other => ?_⟩
  rw [model, model, List.reverse_append]
  exact answer_other other

/-- The BIOS writes a CMOS index to 4Fh as well; port 71 does not notice. -/
theorem reached_answer_mirrored :
    (step (reached ([Access.of .io70 0 1 (some 0x8E) (by decide) (by decide)] ++
        [Access.of .io4f 0 1 (some 0x8E) (by decide) (by decide)]))
      (Access.of .io70 1 1 none (by decide) (by decide))).1 =
    (step (reached [Access.of .io70 0 1 (some 0x8E) (by decide) (by decide)])
      (Access.of .io70 1 1 none (by decide) (by decide))).1 :=
  (reached_answer _ _).2 _ (by decide)

end Pc110.Chipset
