import Mathlib.Tactic.IntervalCases
import Pc110.Chipset

/-! Snapshots of the chipset. The migrated fields leave out part of what the guest can
read: a restored device answers as the original exactly where that part still has the
values of a realized device. -/
namespace Pc110.Chipset

open LsbBits (Byte)
open Device (Alike)

/-- The fields of `vmstate_pc110_chipset`. -/
structure Vmstate where
  configIndex : Byte
  scamp : Window 7
  mcu : Window 8
  ext35 : Window 8
  ext15 : Window 8
  status15E8 : Byte
  status15EC : Byte

def save (s : ChipsetState) : Vmstate where
  configIndex := s.configIndex
  scamp := s.scamp
  mcu := s.mcu
  ext35 := s.ext35
  ext15 := s.ext15
  status15E8 := s.status15E8
  status15EC := s.status15EC

def load (saved : Vmstate) (s : ChipsetState) : ChipsetState :=
  { s with
    configIndex := saved.configIndex
    scamp := saved.scamp
    mcu := saved.mcu
    ext35 := saved.ext35
    ext15 := saved.ext15
    status15E8 := saved.status15E8
    status15EC := saved.status15EC }

/-- A snapshot loaded into a freshly realized device. -/
def restored (s : ChipsetState) : ChipsetState := load (save s) realized

/-- Everything outside the snapshot that the guest can see is as realized. -/
structure SeenAsRealized (s : ChipsetState) : Prop where
  dmaPage : s.dmaPage = realized.dmaPage
  rtcIndex : s.rtc.index = realized.rtc.index
  cmos : ∀ idx, cmosGet s idx = cmosGet realized idx
  block2 : s.block2 = realized.block2
  reg22 : s.reg22 = realized.reg22
  reg302 : s.reg302 = realized.reg302
  reg704 : s.reg704 = realized.reg704
  settled : s.status15EC &&& 0x02 = 0 ∨ s.status15ECReads = realized.status15ECReads

structure Settling (s : ChipsetState) : Prop where
  idle : s.status15E8 = 0
  busy : s.status15EC &&& 0x02 = 0 ∨ s.status15ECReads ≤ 8

structure SameView (s t : ChipsetState) : Prop where
  dmaPage : s.dmaPage = t.dmaPage
  configIndex : s.configIndex = t.configIndex
  rtcIndex : s.rtc.index = t.rtc.index
  cmos : ∀ idx, cmosGet s idx = cmosGet t idx
  scamp : s.scamp = t.scamp
  block2 : s.block2 = t.block2
  reg22 : s.reg22 = t.reg22
  reg302 : s.reg302 = t.reg302
  reg704 : s.reg704 = t.reg704
  mcu : s.mcu = t.mcu
  ext35 : s.ext35 = t.ext35
  ext15 : s.ext15 = t.ext15
  idle : s.status15E8 = 0 ∧ t.status15E8 = 0
  status15EC : s.status15EC = t.status15EC
  settles : t.status15EC &&& 0x02 = 0 ∨ s.status15ECReads = t.status15ECReads

section Status

theorem settled_and (status : Byte) (clear : status &&& 0x02 = 0) : status &&& ~~~0x02 = status := by
  have bit1 : status.getLsbD 1 = false := by simpa using congrArg (·.getLsbD 1) clear
  ext i hi
  simp
  interval_cases i <;> simp_all

theorem and_settled (status : Byte) : status &&& ~~~0x02 &&& 0x02 = 0 := by
  ext i hi
  simp
  interval_cases i <;> simp

/-- A cleared busy bit stays clear, whatever the count. -/
theorem settle_clear {status : Byte} (clear : status &&& 0x02 = 0) (reads : BitVec 32) :
    (if 8 < reads then status &&& ~~~0x02 else status) = status := by
  rw [settled_and status clear, ite_self]

end Status

section Bisimulation
variable {s t : ChipsetState}

def cmosShown (idx : BitVec 7) (byte : Byte) : Byte :=
  if idx = 0x0A then byte &&& 0x7F else if idx = 0x0C then 0x00 else if idx = 0x0D then 0x80 else byte

theorem cmosGet_eq (s : ChipsetState) (idx : BitVec 7) : cmosGet s idx = cmosShown idx (s.rtc.regs idx) := by
  unfold cmosGet cmosShown
  by_cases h : idx = 0x0A
  · subst h; rfl
  · simp only [if_neg h]

theorem SameView.rtcWrite (same : SameView s t) (a : Nat) (v : BitVec 64) :
    SameView (rtcWrite s a v) (rtcWrite t a v) := by
  have current : s.rtc.current = t.rtc.current := congrArg (·.setWidth 7) same.rtcIndex
  by_cases index : a = 0
  · subst index
    exact { same with rtcIndex := rfl, cmos := same.cmos }
  · refine { same with rtcIndex := ?_, cmos := fun idx => ?_ }
    · simp only [Chipset.rtcWrite, Window.write, if_neg index]
      exact same.rtcIndex
    · have kept := same.cmos idx
      simp only [cmosGet_eq, Chipset.rtcWrite, Window.write, if_neg index, Window.store, current] at kept ⊢
      by_cases here : idx = t.rtc.current
      · rw [here, Function.update_self, Function.update_self]
      · rw [Function.update_of_ne here, Function.update_of_ne here, kept]

theorem SameView.ext15Read (same : SameView s t) (a : Nat) :
    (ext15Read s a).1 = (ext15Read t a).1 ∧ SameView (ext15Read s a).2 (ext15Read t a).2 := by
  unfold Chipset.ext15Read
  split_ifs with h0 h2 h3 h4
  · simp only [same.idle.1, same.idle.2, ite_self]
    exact ⟨trivial, { same with idle := ⟨rfl, rfl⟩ }⟩
  · exact ⟨congrArg Window.index same.ext15, same⟩
  · exact ⟨congrArg Window.data same.ext15, same⟩
  · have settles := same.settles
    rcases settles with clear | reads
    · simp only [same.status15EC, settle_clear clear]
      exact ⟨trivial, { same with status15EC := rfl, settles := .inl clear }⟩
    · simp only [same.status15EC, reads]
      exact ⟨trivial, { same with status15EC := rfl, settles := .inr rfl }⟩
  · exact ⟨rfl, same⟩

theorem SameView.read (same : SameView s t) (r : Region) (a sz : Nat) :
    (s.read r a sz).1 = (t.read r a sz).1 ∧ SameView (s.read r a sz).2 (t.read r a sz).2 := by
  have answer {x y : Byte} (eq : x = y) :
      (x.setWidth 64 : BitVec 64) = y.setWidth 64 ∧ SameView s t := ⟨congrArg _ eq, same⟩
  have word {x y : BitVec 16} (eq : x = y) :
      (x.setWidth 64 : BitVec 64) = y.setWidth 64 ∧ SameView s t := ⟨congrArg _ eq, same⟩
  cases r with
  | io80 => exact answer (congrFun same.dmaPage _)
  | io4f => exact answer same.configIndex
  | io70 =>
    refine answer ?_
    simp only [rtcRead, Window.current, same.rtcIndex, same.cmos]
  | io74 => exact answer (by simp only [scampRead, same.scamp])
  | ioEc => exact answer (by simp only [mcuRead, same.mcu])
  | io15e8 => exact ⟨congrArg (BitVec.setWidth 64) (same.ext15Read a).1, (same.ext15Read a).2⟩
  | io35ea => exact answer (by simp only [ext35Read, same.ext35])
  | io24 => exact answer (by simp only [block2Read, same.block2])
  | io22 => exact word (congrArg _ same.reg22)
  | io302 => exact word (congrArg _ same.reg302)
  | io704 => exact word (congrArg _ same.reg704)
  | ioEe | io3e0 | io3f0 => exact ⟨rfl, same⟩

theorem SameView.write (same : SameView s t) (r : Region) (a sz : Nat) (v : BitVec 64) :
    SameView (s.write r a sz v) (t.write r a sz v) := by
  cases r with
  | io80 => exact { same with dmaPage := congrArg (Function.update · _ _) same.dmaPage }
  | io4f => exact { same with configIndex := rfl }
  | io70 => exact same.rtcWrite a v
  | io74 =>
    simp only [ChipsetState.write, scampWrite, same.scamp]
    split_ifs
    · exact { same with scamp := rfl }
    · exact { same with scamp := rfl }
    · exact same
  | ioEc => exact { same with mcu := congrArg (·.write a v) same.mcu }
  | io15e8 =>
    simp only [ChipsetState.write, ext15Write, same.ext15]
    split_ifs
    · exact { same with ext15 := rfl }
    · exact { same with ext15 := rfl }
    · exact same
  | io35ea => exact { same with ext35 := congrArg (·.write a v) same.ext35 }
  | io24 => exact { same with block2 := congrArg (·.write a v) same.block2 }
  | io22 => exact { same with reg22 := congrArg (latchWrite a v sz) same.reg22 }
  | io302 => exact { same with reg302 := congrArg (latchWrite a v sz) same.reg302 }
  | io704 => exact { same with reg704 := congrArg (latchWrite a v sz) same.reg704 }
  | ioEe | io3e0 | io3f0 => exact same

/-- States with the same view stay indistinguishable. -/
theorem sameView_bisimulation : Device.Bisimulation step SameView where
  answer x same := by
    unfold step
    split
    · exact congrArg some (same.read _ _ _).1
    · rfl
  next x same := by
    unfold step
    split
    · exact (same.read _ _ _).2
    · exact same.write _ _ _ _

end Bisimulation

section Invariant
variable {s : ChipsetState}

theorem Settling.ext15Read (settling : Settling s) (a : Nat) : Settling (ext15Read s a).2 := by
  unfold Chipset.ext15Read
  split_ifs with h0 h2 h3 h4 <;> try exact settling
  · refine ⟨?_, settling.busy⟩
    simp only [settling.idle, ite_self]
  · refine ⟨settling.idle, ?_⟩
    by_cases many : 8 < s.status15ECReads + 1
    · simp only [if_pos many]
      exact .inl (and_settled _)
    · simp only [if_neg many]
      exact .inr (BitVec.not_lt.mp many)

theorem Settling.write (settling : Settling s) (r : Region) (a sz : Nat) (v : BitVec 64) :
    Settling (s.write r a sz v) := by
  cases r with
  | io74 =>
    simp only [ChipsetState.write, scampWrite]
    split_ifs <;> exact ⟨settling.idle, settling.busy⟩
  | io15e8 =>
    simp only [ChipsetState.write, ext15Write]
    split_ifs <;> exact ⟨settling.idle, settling.busy⟩
  | io80 | io4f | io70 | ioEc | ioEe | io35ea | io3e0 | io3f0 | io24 | io22 | io302 | io704 =>
    exact ⟨settling.idle, settling.busy⟩

theorem settling_step (s : ChipsetState) (x : Access) (settling : Settling s) : Settling (step s x).2 := by
  unfold step
  split
  · cases x.region with
    | io15e8 => exact settling.ext15Read _
    | io80 | io4f | io70 | io74 | ioEc | ioEe | io35ea | io3e0 | io3f0 | io24 | io22 | io302 | io704 =>
      exact settling
  · exact settling.write _ _ _ _

theorem settling_reached (accesses : List Access) : Settling (reached accesses) :=
  Device.invariant_after settling_step accesses ⟨rfl, .inr (by decide)⟩

end Invariant

section Experiments
variable {s t : ChipsetState}

def Access.of (r : Region) (a sz : Nat) (data : Option (BitVec 64)) (inside : a + sz ≤ r.size)
    (width : sz = 1 ∨ sz = 2 ∧ r.maxAccessSize = 2) : Access where
  region := r
  port := r.base + a
  sz := sz
  data := data
  inside := ⟨Nat.le_add_right _ _, by omega⟩
  width := width

theorem Access.of_offset {r : Region} {a sz : Nat} {data : Option (BitVec 64)} {inside : a + sz ≤ r.size}
    {width : sz = 1 ∨ sz = 2 ∧ r.maxAccessSize = 2} : (Access.of r a sz data inside width).offset = a :=
  Nat.add_sub_cancel_left _ _

theorem step_read (s : ChipsetState) (r : Region) (a sz : Nat) (inside : a + sz ≤ r.size)
    (width : sz = 1 ∨ sz = 2 ∧ r.maxAccessSize = 2) :
    step s (.of r a sz none inside width) = (some (s.read r a sz).1, (s.read r a sz).2) := by
  simp only [step, Access.of_offset]
  rfl

theorem step_write (s : ChipsetState) (r : Region) (a sz : Nat) (v : BitVec 64) (inside : a + sz ≤ r.size)
    (width : sz = 1 ∨ sz = 2 ∧ r.maxAccessSize = 2) :
    step s (.of r a sz (some v) inside width) = (none, s.write r a sz v) := by
  simp only [step, Access.of_offset]
  rfl

theorem read_alike (alike : Alike step s t) (r : Region) (a sz : Nat) (inside : a + sz ≤ r.size)
    (width : sz = 1 ∨ sz = 2 ∧ r.maxAccessSize = 2) : (s.read r a sz).1 = (t.read r a sz).1 := by
  have answer := alike.answer (.of r a sz none inside width)
  rw [step_read, step_read] at answer
  exact Option.some.inj answer

theorem write_alike (alike : Alike step s t) (r : Region) (a : Nat) (inside : a + 1 ≤ r.size)
    (v : BitVec 64) : Alike step (s.write r a 1 v) (t.write r a 1 v) := by
  have next := alike.next (.of r a 1 (some v) inside (.inl rfl))
  rw [step_write, step_write] at next
  exact next

theorem widen_inj {n : Nat} (small : n ≤ 64) {x y : BitVec n}
    (eq : x.setWidth 64 = y.setWidth 64) : x = y := by
  have narrow := congrArg (·.setWidth n) eq
  simpa [small] using narrow

theorem byte_alike (alike : Alike step s t) (r : Region) (a : Nat) (inside : a + 1 ≤ r.size) {x y : Byte}
    (left : (s.read r a 1).1 = x.setWidth 64) (right : (t.read r a 1).1 = y.setWidth 64) : x = y :=
  widen_inj (by decide) (left.symm.trans ((read_alike alike r a 1 inside (.inl rfl)).trans right))

theorem dmaPage_alike (alike : Alike step s t) : s.dmaPage = t.dmaPage := by
  funext i
  have here : BitVec.ofNat 4 i.toNat = i := by simp
  have same := byte_alike alike .io80 i.toNat i.isLt rfl rfl
  rw [dpageRead, dpageRead, here] at same
  exact same

theorem cmos_alike (alike : Alike step s t) (idx : BitVec 7) : cmosGet s idx = cmosGet t idx := by
  have selected := write_alike alike .io70 0 (by decide) (idx.setWidth 64)
  have same := byte_alike selected .io70 1 (by decide) rfl rfl
  have current : (((idx.setWidth 64 : BitVec 64).setWidth 8 : Byte).setWidth 7 : BitVec 7) = idx := by simp
  change cmosGet s (((idx.setWidth 64 : BitVec 64).setWidth 8 : Byte).setWidth 7) =
    cmosGet t (((idx.setWidth 64 : BitVec 64).setWidth 8 : Byte).setWidth 7) at same
  rw [current] at same
  exact same

theorem block2_alike (alike : Alike step s t) : s.block2 = t.block2 := by
  refine Window.ext (byte_alike alike .io24 0 (by decide) rfl rfl) (funext fun idx => ?_)
  have selected := write_alike alike .io24 0 (by decide) (idx.setWidth 64)
  have same := byte_alike selected .io24 1 (by decide) rfl rfl
  have current : (((idx.setWidth 64 : BitVec 64).setWidth 8 : Byte).setWidth 8 : BitVec 8) = idx := by simp
  change s.block2.regs (((idx.setWidth 64 : BitVec 64).setWidth 8 : Byte).setWidth 8) =
    t.block2.regs (((idx.setWidth 64 : BitVec 64).setWidth 8 : Byte).setWidth 8) at same
  rw [current] at same
  exact same

theorem latch_alike (alike : Alike step s t) (r : Region) (inside : 0 + 2 ≤ r.size)
    (wide : r.maxAccessSize = 2) {x y : BitVec 16}
    (left : (s.read r 0 2).1 = (latchRead 0 2 x).setWidth 64)
    (right : (t.read r 0 2).1 = (latchRead 0 2 y).setWidth 64) : x = y := by
  have whole (reg : BitVec 16) : latchRead 0 2 reg = reg := by
    simp only [latchRead]
    exact BitVec.and_allOnes
  have same := read_alike alike r 0 2 inside (.inr ⟨rfl, wide⟩)
  rw [left, right, whole, whole] at same
  exact widen_inj (by decide) same

def poll : Access := .of .io15e8 4 1 none (by decide) (.inl rfl)

theorem ninth_iff {reads : BitVec 32} (few : reads.toNat ≤ 8) : 8 < reads + 1 ↔ reads.toNat = 8 := by
  have counted : (reads + 1).toNat = reads.toNat + 1 := by
    rw [BitVec.toNat_add]
    exact Nat.mod_eq_of_lt (by simp; omega)
  rw [BitVec.lt_def, counted]
  simp
  omega

/-- Up to eight reads the status stays as it was. -/
theorem polled (s : ChipsetState) (n : Nat) (few : s.status15ECReads.toNat + n ≤ 8) :
    let s' := Device.after step (List.replicate n poll) s
    s'.status15EC = s.status15EC ∧ s'.status15ECReads.toNat = s.status15ECReads.toNat + n := by
  induction n generalizing s with
  | zero => exact ⟨rfl, rfl⟩
  | succ n ih =>
    have early : ¬ 8 < s.status15ECReads + 1 := by rw [ninth_iff (by omega)]; omega
    have kept : (step s poll).2.status15EC = s.status15EC := if_neg early
    have counted : (step s poll).2.status15ECReads.toNat = s.status15ECReads.toNat + 1 := by
      change (s.status15ECReads + 1).toNat = _
      rw [BitVec.toNat_add]
      exact Nat.mod_eq_of_lt (by simp; omega)
    obtain ⟨status, reads⟩ := ih (step s poll).2 (by omega)
    exact ⟨status.trans kept, reads.trans (by omega)⟩

/-- A busy device shows how often its status was read. -/
theorem settled_alike (settling : Settling s) (fresh : t.status15ECReads = 0)
    (status : s.status15EC = t.status15EC) (alike : Alike step s t) :
    s.status15EC &&& 0x02 = 0 ∨ s.status15ECReads = 0 := by
  rcases settling.busy with clear | few
  · exact .inl clear
  by_cases zero : s.status15ECReads = 0
  · exact .inr zero
  left
  have some : s.status15ECReads.toNat ≠ 0 := fun h => zero (BitVec.eq_of_toNat_eq h)
  have few : s.status15ECReads.toNat ≤ 8 := few
  have none : t.status15ECReads.toNat = 0 := by rw [fresh]; rfl
  -- the original answers its ninth read, the restored device an earlier one
  let n := 8 - s.status15ECReads.toNat
  have again := (alike.after (List.replicate n poll)).answer poll
  obtain ⟨left, last⟩ := polled s n (by omega)
  obtain ⟨right, early⟩ := polled t n (by omega)
  generalize Device.after step (List.replicate n poll) s = s' at *
  generalize Device.after step (List.replicate n poll) t = t' at *
  have cleared : 8 < s'.status15ECReads + 1 := (ninth_iff (by omega)).mpr (by omega)
  have kept : ¬ 8 < t'.status15ECReads + 1 := by rw [ninth_iff (by omega)]; omega
  have same : (ext15Read s' 4).1 = (ext15Read t' 4).1 :=
    widen_inj (by decide) (Option.some.inj again)
  change (if _ then _ else _) = (if _ then _ else _) at same
  rw [if_pos cleared, if_neg kept, left, right, ← status] at same
  have clear := and_settled s.status15EC
  rwa [same] at clear

end Experiments

/-- A snapshot of a reachable state restores it exactly when whatever the snapshot leaves out
is seen as on a realized device. -/
theorem restored_alike_iff (accesses : List Access) :
    Alike step (restored (reached accesses)) (reached accesses) ↔ SeenAsRealized (reached accesses) := by
  have settling := settling_reached accesses
  generalize reached accesses = s at *
  constructor
  · intro alike
    have alike := alike.symm
    exact {
      dmaPage := dmaPage_alike (t := restored s) alike
      rtcIndex := byte_alike (t := restored s) alike .io70 0 (by decide) rfl rfl
      cmos := cmos_alike (t := restored s) alike
      block2 := block2_alike (t := restored s) alike
      reg22 := latch_alike alike .io22 (by decide) rfl rfl rfl
      reg302 := latch_alike alike .io302 (by decide) rfl rfl rfl
      reg704 := latch_alike alike .io704 (by decide) rfl rfl rfl
      settled := settled_alike (t := restored s) settling rfl rfl alike }
  · intro seen
    apply sameView_bisimulation.alike
    exact {
      dmaPage := seen.dmaPage.symm
      configIndex := rfl
      rtcIndex := seen.rtcIndex.symm
      cmos := fun idx => (seen.cmos idx).symm
      scamp := rfl
      block2 := seen.block2.symm
      reg22 := seen.reg22.symm
      reg302 := seen.reg302.symm
      reg704 := seen.reg704.symm
      mcu := rfl
      ext35 := rfl
      ext15 := rfl
      idle := ⟨settling.idle, settling.idle⟩
      status15EC := rfl
      settles := seen.settled.imp_right Eq.symm }

/-- A byte stored in a DMA page register is lost. -/
theorem not_restored_alike_dmaPage : ¬ ∀ accesses : List Access,
    Alike step (restored (reached accesses)) (reached accesses) := by
  intro every
  have alike := every [.of .io80 0 1 (some 0x5A) (by decide) (.inl rfl)]
  have same := congrFun (dmaPage_alike alike) 0
  exact absurd same (by decide)

end Pc110.Chipset
