import Pc110.PostRun
import Pc110.LooseCall

/-! The two interrupt returns of a machine in loose PM: the one INT 13h does by hand, with
`selector << 4` and SP, and the loose IRET of the segment helper, with the resolver and the
stack mask. They leave the same CS base, EIP and ESP on real-mode style frames only. -/
namespace Pc110

open LsbBits (Byte)
open SegHelper (Sys Linear StockSeg StackAccess getSpMask LoosePm Reads)
open Faulting (bind_ok bind_error)

/-- Where linear memory lies in physical memory, and who may access it. -/
structure PageTables where
  translate : Word → Nat
  readable : BitVec 2 → Word → Bool
  writable : BitVec 2 → Word → Bool
  reads_written : ∀ pl a, writable pl a = true → readable pl a = true

def PageTables.off : PageTables where
  translate := BitVec.toNat
  readable _ _ := true
  writable _ _ := true
  reads_written _ _ _ := rfl

def Machine.sys (m : Machine) (pages : PageTables) : Sys where
  env := m.env
  mem :=
    { cells := fun a => m.mem (pages.translate a)
      readable := pages.readable
      writable := pages.writable
      reads_written := pages.reads_written }
  post := m.has .pc110Post
  booted := m.statics.booted

namespace SegHelper

def pc110ResolveBase (selector : Word) : Helper Word := do
  let s ← get
  if selector &&& 0xFFFC ≠ 0 ∧ index selector + 7 ≤ (table s.env selector).limit then
    let (e1, e2) ← descriptorAt s.env selector .zero
    if accessByte e2 ≠ 0 then return getSegBase e1 e2
    else return pc110LooseBase selector
  else return pc110LooseBase selector

instance (selector : Word) (s : Sys) : Decidable (InLimit selector s) := inferInstanceAs (Decidable (_ ≤ _))

/-- The resolver's base: that of a live descriptor, or of the selector itself without one. -/
def HasBase (s : Sys) (selector base : Word) : Prop :=
  if selector &&& 0xFFFC ≠ 0 ∧ InLimit selector s then
    ∃ d, descriptorAt s.env selector .zero s = .ok d s ∧
      base = if accessByte d.2 ≠ 0 then getSegBase d.1 d.2 else pc110LooseBase selector
  else base = pc110LooseBase selector

variable {selector base : Word} {s : Sys}

theorem hasBase_out (out : ¬ InLimit selector s) :
    HasBase s selector base ↔ base = pc110LooseBase selector := by
  rw [HasBase, if_neg fun both => out both.2]

theorem hasBase_iff : HasBase s selector base ↔ pc110ResolveBase selector s = .ok base s := by
  simp only [HasBase, pc110ResolveBase, Faulting.get_bind]
  by_cases inside : selector &&& 0xFFFC ≠ 0 ∧ InLimit selector s
  · rw [if_pos inside, if_pos (show _ ∧ index selector + 7 ≤ (table s.env selector).limit from inside)]
    rcases reads_descriptor s.env selector .zero s with ⟨d, read⟩ | ⟨p, fault⟩
    · rw [bind_ok read, read]
      constructor
      · rintro ⟨d', same, rfl⟩
        cases same
        split <;> rfl
      · intro result
        refine ⟨d, rfl, ?_⟩
        split at result <;> cases result
        · rw [if_pos ‹_›]
        · rw [if_neg ‹_›]
    · rw [bind_error fault, fault]
      exact iff_of_false (fun ⟨d, read, _⟩ => by cases read) (fun result => by cases result)
  · rw [if_neg inside, if_neg (show ¬ (_ ∧ index selector + 7 ≤ (table s.env selector).limit) from inside)]
    constructor
    · rintro rfl
      rfl
    · intro result
      cases result
      rfl

/-- The base alone is resolved like the whole segment. -/
theorem resolve_hasBase {cs : Resolved} (isCode : Bool) (resolves : pc110ResolveSeg selector isCode s = .ok cs s) :
    HasBase s selector base ↔ base = cs.base := by
  unfold HasBase
  split
  case isTrue inside =>
    rcases reads_descriptor s.env selector .zero s with ⟨d, read⟩ | ⟨p, fault⟩
    · rw [resolve_in isCode inside.1 inside.2 read] at resolves
      cases resolves
      rw [read]
      constructor
      · rintro ⟨d', same, rfl⟩
        cases same
        split <;> rfl
      · rintro rfl
        refine ⟨d, rfl, ?_⟩
        split <;> rfl
    · rw [resolve_fault isCode inside.1 inside.2 fault] at resolves
      cases resolves
  case isFalse out =>
    rw [resolve_out isCode out] at resolves
    cases resolves
    rfl

theorem resolve_fault_noBase {p : Word} (isCode : Bool)
    (fault : pc110ResolveSeg selector isCode s = .error (.page p) s) : ¬ HasBase s selector base := by
  unfold HasBase
  split
  case isTrue inside =>
    rcases reads_descriptor s.env selector .zero s with ⟨d, read⟩ | ⟨p, stops⟩
    · rw [resolve_in isCode inside.1 inside.2 read] at fault
      cases fault
    · rintro ⟨d, read, -⟩
      rw [stops] at read
      cases read
  case isFalse out =>
    rw [resolve_out isCode out] at fault
    cases fault

end SegHelper

namespace Int13

def stackWord (m : Machine) (pages : PageTables) (i : Nat) : Word :=
  BitVec.ofNat 32 (LsbBits.value (WrapMemory.load (m.sys pages).mem.cells
    (WrapMemory.place (StackAccess.of m.env).ssBase (StackAccess.of m.env).spMask
      (m.env.regs .esp + BitVec.ofNat 32 (i * 2))) 2))

def WordReadable (m : Machine) (pages : PageTables) (i : Nat) : Prop :=
  ∀ j < 2, pages.readable m.env.cpl
    (WrapMemory.place (StackAccess.of m.env).ssBase (StackAccess.of m.env).spMask
      (m.env.regs .esp + BitVec.ofNat 32 (i * 2)) + BitVec.ofNat 32 j) = true

structure LooseHook (m : Machine) (pages : PageTables) : Prop where
  loose : LoosePm (m.sys pages)
  here : At 0xD2D7 m
  boot : m.has .pc110Boot = true

/-- The call leaves what a loose 16-bit IRET through the same frame would leave. -/
def ReturnsAsIret (q : StockSeg) (pages : PageTables) (m : Machine) : Prop :=
  ∃ s, SegHelper.helperRetProtected q 0 true 0 (m.sys pages) = .ok () s ∧
    let env := (postIntercept q.cc m.pc m).2.env
    (env.segs .cs).base = (s.env.segs .cs).base ∧ env.eip = s.env.eip ∧ env.regs .esp = s.env.regs .esp

/-- The frame may be read through the masked stack, SS:SP shows the same IP, its CS names
the segment that the resolver gives the masked stack's CS, and SP does not carry. -/
structure RealModeFrame (m : Machine) (pages : PageTables) : Prop where
  readable : ∀ i < 3, WordReadable m pages i
  ip : (word (frame m) 0).setWidth 32 = stackWord m pages 0
  cs : SegHelper.HasBase (m.sys pages) (stackWord m pages 1) ((word (frame m) 2).setWidth 32 <<< 4)
  sp : (m.env.segs .ss).flags &&& SegHelper.descB = 0 ∨ (lo16 (m.env.regs .esp)).toNat + 6 < 2 ^ 16

section Handler
variable {m : Machine}

theorem serve_env (m : Machine) : (serve m).machine.env.segs = m.env.segs ∧
    (serve m).machine.env.regs .esp = m.env.regs .esp := by
  simp only [serve]
  split_ifs <;> exact ⟨rfl, rfl⟩

/-- Where INT 13h returns to, whatever it served. -/
theorem int13_returns (m : Machine) : (int13 m).env.eip = (word (frame m) 0).setWidth 32 ∧
    ((int13 m).env.segs .cs).base = (word (frame m) 2).setWidth 32 <<< 4 ∧
    (int13 m).env.regs .esp = set16 (m.env.regs .esp) (lo16 (m.env.regs .esp) + 6) := by
  obtain ⟨-, esp⟩ := serve_env m
  refine ⟨rfl, ?_, ?_⟩
  · simp [int13, iret, Env.setReg, Env.setSeg, pcStoreEflags]
  · simp [int13, iret, Machine.setReg, Env.setReg, Env.setSeg, pcStoreEflags, esp]

theorem postIntercept_int13 (q : Stock) (here : At 0xD2D7 m) (boot : m.has .pc110Boot = true) :
    ∃ d, postIntercept q m.pc m = (true, int13 (m.inBios d)) := by
  have apart {off : BitVec 16} (there : (Site.of m m.pc).rom off) : off = 0xD2D7 :=
    there.2.symm.trans here.2.2
  have takes := here.1.takes (q := q)
  generalize postIntercept q m.pc m = r at *
  obtain ⟨taken, s⟩ := r
  rcases takes with rom | ⟨unhandled, -⟩
  · change TakesRom q _ m taken s at rom
    cases rom with
    | int13 d => exact ⟨d, rfl⟩
    | reported _ _ _ member => rw [here.2.2] at member; exact absurd member (by decide)
    | inject _ _ there | tick _ _ there | sentinel _ _ there | warmReset _ there | resume _ there
    | uiSetup _ _ there | setup _ there | boot _ _ _ there | noBoot _ there =>
      exact absurd (apart there) (by decide)
  · exact absurd boot (unhandled.int13 here.2)

end Handler

section StackPointer

theorem set16_toNat (r : Word) (v : BitVec 16) :
    (set16 r v).toNat = r.toNat / 2 ^ 16 * 2 ^ 16 + v.toNat := by
  have pieces : set16 r v = (r >>> 16).setWidth 16 ++ v := by
    ext i hi
    rw [BitVec.getElem_append]
    simp only [set16]
    by_cases low : i < 16
    · interval_cases i <;> simp
    · have : 16 + (i - 16) = i := by omega
      simp [low, this]
      interval_cases i <;> simp at *
  have low : v.toNat < 2 ^ 16 := v.isLt
  rw [pieces, BitVec.toNat_append, BitVec.toNat_setWidth, BitVec.toNat_ushiftRight, Nat.shiftRight_eq_div_pow,
    Nat.mod_eq_of_lt (by have := r.isLt; omega), ← Nat.shiftLeft_add_eq_or_of_lt low, Nat.shiftLeft_eq]

/-- On a 16-bit stack, and below a carry, SP counts like the masked pointer. -/
theorem set16_add (esp : Word) (flags : Word) :
    set16 esp (lo16 esp + 6) = (esp &&& ~~~getSpMask flags) ||| ((esp + 2 + 2 + 2) &&& getSpMask flags) ↔
      flags &&& SegHelper.descB = 0 ∨ (lo16 esp).toNat + 6 < 2 ^ 16 := by
  by_cases wide : flags &&& SegHelper.descB = 0
  · have mask : getSpMask flags = 0xFFFF := if_neg (not_not.mpr wide)
    refine iff_of_true ?_ (.inl wide)
    have up : (lo16 esp + 6).setWidth 32 = (esp + 2 + 2 + 2) &&& 0xFFFF := by
      apply BitVec.eq_of_toNat_eq
      have low := Nat.and_two_pow_sub_one_eq_mod (esp + 2 + 2 + 2).toNat 16
      rw [BitVec.toNat_and]
      refine Eq.trans ?_ low.symm
      simp [lo16]
      omega
    rw [mask, set16, up]
  · have mask : getSpMask flags = BitVec.allOnes 32 := if_pos wide
    have all : (esp &&& ~~~BitVec.allOnes 32) ||| ((esp + 2 + 2 + 2) &&& BitVec.allOnes 32) = esp + 6 := by
      rw [BitVec.not_allOnes, BitVec.and_zero, BitVec.zero_or, BitVec.and_allOnes, BitVec.add_assoc,
        BitVec.add_assoc]
      rfl
    rw [mask, all, or_iff_right wide, ← BitVec.toNat_inj, set16_toNat]
    simp only [lo16]
    have := esp.isLt
    simp
    omega

end StackPointer

section Iret
variable {q : StockSeg} {m : Machine} {pages : PageTables}

theorem stackWord_lt (m : Machine) (pages : PageTables) (i : Nat) : (stackWord m pages i).toNat < 2 ^ 16 := by
  have bound := LsbBits.value_lt (WrapMemory.load (m.sys pages).mem.cells
    (WrapMemory.place (StackAccess.of m.env).ssBase (StackAccess.of m.env).spMask
      (m.env.regs .esp + BitVec.ofNat 32 (i * 2))) 2)
  rw [WrapMemory.load_length] at bound
  rw [stackWord, BitVec.toNat_ofNat]
  omega

def iretTo (m : Machine) (pages : PageTables) (cs : SegHelper.Resolved) : Sys :=
  { m.sys pages with
    env := SegHelper.iretEnv m.env 0 ⟨stackWord m pages 1, cs.base, cs.limit, cs.flags⟩
      (stackWord m pages 0) (stackWord m pages 2) }

theorem stackWord_narrow (m : Machine) (pages : PageTables) (i : Nat) :
    stackWord m pages i &&& 0xFFFF = stackWord m pages i := by
  apply BitVec.eq_of_toNat_eq
  have low := Nat.and_two_pow_sub_one_eq_mod (stackWord m pages i).toNat 16
  rw [BitVec.toNat_and]
  exact low.trans (Nat.mod_eq_of_lt (stackWord_lt m pages i))

theorem returned_iretTo (m : Machine) (pages : PageTables) (cs : SegHelper.Resolved) :
    SegHelper.returned (m.sys pages) 0 true 0 cs = iretTo m pages cs := by
  have narrow : SegHelper.poppedWord 2 (m.sys pages) 1 &&& 0xFFFF = stackWord m pages 1 := stackWord_narrow m pages 1
  have up : m.env.regs .esp + BitVec.ofNat 32 (3 * 2) + 0 =
      m.env.regs .esp + BitVec.ofNat 32 2 + BitVec.ofNat 32 2 + BitVec.ofNat 32 2 := by
    simp [BitVec.add_assoc]
  rw [SegHelper.returned, show SegHelper.operand 0 = 2 from rfl, narrow, iretTo, SegHelper.iretEnv,
    show SegHelper.operand 0 = 2 from rfl, ← up]
  rfl

/-- The loose IRET once its words are popped: only resolving CS may still fault. -/
theorem helperRetProtected_words (loose : LoosePm (m.sys pages)) (readable : ∀ i < 3, WordReadable m pages i) :
    SegHelper.helperRetProtected q 0 true 0 (m.sys pages) =
      (SegHelper.pc110ResolveSeg (stackWord m pages 1) true >>= fun cs => set (iretTo m pages cs))
        (m.sys pages) := by
  have notV86 : stackWord m pages 2 &&& SegHelper.vmMask = 0 := by
    refine (Masks.masked_bit_iff (stackWord m pages 2) 17 (by decide)).mpr ?_
    have high := Nat.pow_lt_pow_right (show 1 < 2 by decide) (show 16 < 17 by decide)
    exact Nat.testBit_lt_two_pow (Nat.lt_trans (stackWord_lt m pages 2) high)
  have words := SegHelper.helperRetProtected_words (q := q) (SegHelper.loose_on loose) 0 true 0 readable fun _ => notV86
  simp only [returned_iretTo] at words
  rw [words]
  exact congrArg (fun selector => (SegHelper.pc110ResolveSeg selector true >>= fun cs => set (iretTo m pages cs))
    (m.sys pages)) (stackWord_narrow m pages 1)

/-- A loose IRET completes exactly through a readable frame with a CS that resolves. -/
theorem of_helperRetProtected (loose : LoosePm (m.sys pages)) {s : Sys}
    (ran : SegHelper.helperRetProtected q 0 true 0 (m.sys pages) = .ok () s) :
    (∀ i < 3, WordReadable m pages i) ∧
    ∃ cs, SegHelper.pc110ResolveSeg (stackWord m pages 1) true (m.sys pages) = .ok cs (m.sys pages) ∧
      s = iretTo m pages cs := by
  by_cases readable : ∀ i < 3, WordReadable m pages i
  · rw [helperRetProtected_words loose readable] at ran
    obtain ⟨cs, t, resolves, done⟩ := Faulting.of_bind_ok ran
    obtain rfl := (SegHelper.resolve_reads _ true _).same resolves
    cases done
    exact ⟨readable, cs, resolves, rfl⟩
  · obtain ⟨p, fault⟩ := SegHelper.helperRetProtected_denied (q := q) (s := m.sys pages) 0 true 0 readable
    rw [fault] at ran
    cases ran

theorem hook_returns (cc : Stock) (hook : LooseHook m pages) :
    let env := (postIntercept cc m.pc m).2.env
    env.eip = (word (frame m) 0).setWidth 32 ∧
    (env.segs .cs).base = (word (frame m) 2).setWidth 32 <<< 4 ∧
    env.regs .esp = set16 (m.env.regs .esp) (lo16 (m.env.regs .esp) + 6) := by
  obtain ⟨d, call⟩ := postIntercept_int13 cc hook.here hook.boot
  rw [call]
  exact int13_returns (m.inBios d)

theorem frame_of_returns (hook : LooseHook m pages) (returns : ReturnsAsIret q pages m) :
    RealModeFrame m pages := by
  obtain ⟨eip, base, esp⟩ := hook_returns q.cc hook
  obtain ⟨s, ran, sameBase, sameEip, sameEsp⟩ := returns
  obtain ⟨readable, cs, resolves, rfl⟩ := of_helperRetProtected hook.loose ran
  refine ⟨readable, eip.symm.trans sameEip, ?_, ?_⟩
  · exact (SegHelper.resolve_hasBase true resolves).mpr (base.symm.trans sameBase)
  · exact (set16_add (m.env.regs .esp) (m.env.segs .ss).flags).mp (esp.symm.trans sameEsp)

theorem returns_of_frame (hook : LooseHook m pages) (frame : RealModeFrame m pages) :
    ReturnsAsIret q pages m := by
  obtain ⟨eip, base, esp⟩ := hook_returns q.cc hook
  obtain ⟨readable, ip, cs, sp⟩ := frame
  rcases SegHelper.resolve_reads (stackWord m pages 1) true (m.sys pages) with ⟨r, resolves⟩ | ⟨p, fault⟩
  · refine ⟨iretTo m pages r, ?_, ?_, eip.trans ip, ?_⟩
    · rw [helperRetProtected_words hook.loose readable, bind_ok resolves]
      rfl
    · exact base.trans ((SegHelper.resolve_hasBase true resolves).mp cs)
    · exact esp.trans ((set16_add (m.env.regs .esp) (m.env.segs .ss).flags).mpr sp)
  · exact absurd cs (SegHelper.resolve_fault_noBase true fault)

/-- In loose PM the hook returns like a loose IRET exactly through a real-mode style frame. -/
theorem returnsAsIret_iff (q : StockSeg) (m : Machine) (pages : PageTables) (hook : LooseHook m pages) :
    ReturnsAsIret q pages m ↔ RealModeFrame m pages :=
  ⟨frame_of_returns hook, returns_of_frame hook⟩

end Iret

/-- DOS in loose PM on a 16-bit stack calls INT 13h from `selector`, without a GDT. -/
def looseCaller (selector : BitVec 16) : Machine :=
  { Machine.start { (default : Env) with
        regs := fun | .esp => 0x1000 | _ => 0
        segs := fun | .cs => ⟨0xF000, 0xF0000, 0xFFFF, 0⟩ | _ => default
        eip := 0xD2D7
        cr0 := 1 }
      (ByteMemory.write (fun _ => 0) 0x1002 [selector.setWidth 8, (selector >>> 8).setWidth 8])
      (fun _ => 0)
      (fun | .pc110Post => some "1" | .pc110Boot => some "disk.img" | _ => none) (fun _ => none) with
    statics := { Statics.initial with booted := true } }

theorem looseCaller_pc (selector : BitVec 16) : (looseCaller selector).pc = 0xFD2D7 := by
  change (0xF0000 + 0xD2D7 : Word) = 0xFD2D7
  decide

theorem looseCaller_hook (selector : BitVec 16) : LooseHook (looseCaller selector) .off where
  loose := ⟨rfl, rfl, by change (1 &&& 1 : Word) = 1; decide, by change 0 &&& SegHelper.vmMask = 0; decide⟩
  here := by
    rw [At, looseCaller_pc]
    refine ⟨⟨rfl, ?_, rfl, .inl rfl⟩, rfl, ?_⟩
    · exact decide_eq_false fun service => absurd service.1 (by decide)
    · change lo16 (0xFD2D7 - 0xF0000) = 0xD2D7
      decide
  boot := rfl

theorem looseCaller_returns : ReturnsAsIret default .off (looseCaller 0x1234) :=
  (returnsAsIret_iff default (looseCaller 0x1234) .off (looseCaller_hook 0x1234)).mpr
    ⟨fun _ _ _ _ => rfl, by decide +kernel,
      (SegHelper.hasBase_out (by decide +kernel)).mpr (by decide +kernel), .inl (by decide)⟩

/-- A caller in selector 40h, the BIOS in loose PM, is returned to at 00400 instead. -/
theorem not_returnsAsIret : ¬ ∀ (q : StockSeg) (m : Machine) (pages : PageTables),
    LooseHook m pages → ReturnsAsIret q pages m := by
  intro every
  have hook := looseCaller_hook 0x0040
  have cs := (frame_of_returns hook (every default (looseCaller 0x0040) .off hook)).cs
  exact absurd ((SegHelper.hasBase_out (by decide +kernel)).mp cs) (by decide +kernel)

end Int13

end Pc110
