import Pc110.ModeSetDetour
import Pc110.RealIret

/-! The mode-set detour as a call: the intercept pushes an interrupt frame at the teletype,
the guest runs its INT 10h handler, and the IRET through the frame arrives at the sentinel.
The frame holds the CS selector, the detour was entered by the CS base: the way back is found
under selector F000 only. The A20 gate is open. -/
namespace Pc110

open LsbBits (Byte)
open ByteMemory (Memory)
open SegHelper (FlagsSplit iretFlags returnedFlags)
open Masks (masked_eq_iff)

structure FirstTeletype (m : Machine) : Prop where
  ui : m.has .pc110PostUi = true
  here : At 0x542C m
  unset : ¬ m.statics.SetThisPost
  real : m.env.cr0 &&& 1 = 0

/-- QEMU's split of the flags: `env->eflags` holds no arithmetic flag and no DF, and what is kept
apart from it is nothing else. -/
structure FlagsApart (q : Stock) (env : Env) : Prop where
  split : FlagsSplit q env
  zero : env.eflags &&& (pcCcMask ||| dfMask) = 0

section Detour
variable (q : Stock) (m : Machine) (handler : List Event)

/-- The machine as the INT 10h handler finds it. -/
def entered : Machine := m.step q .call

def handled : Machine := Runs.run (Machine.step q) handler (entered q m)

def returned : Machine := helperIretReal (handled q m handler)

def resumed : Machine := (returned q m handler).step q .call

/-- While the handler runs, nothing asks for a reset. -/
def NoReset (m : Machine) (e : Event) : Prop := e ≠ .kbcReset ∧ (e = .call → ¬ At 0x5516 m)

/-- The handler may change AX, `wrote` and what an IRET restores. -/
structure HandlerKeeps (wrote : Nat → Prop) : Prop where
  runs : Runs.Always (Machine.step q) NoReset handler (entered q m)
  regs : ∀ r, r ≠ .eax → (handled q m handler).env.regs r = (entered q m).env.regs r
  flags : (handled q m handler).env.eflags &&& ~~~realIretMask = (entered q m).env.eflags &&& ~~~realIretMask
  mem : ∀ place, ¬ wrote place → (handled q m handler).mem place = (entered q m).mem place

def stackPlace (sp : BitVec 16) : Nat := ((m.env.segs .ss).base + sp.setWidth 32).toNat

def BelowStack (place : Nat) : Prop :=
  ∃ i, 1 ≤ i ∧ i ≤ 6 ∧ place = stackPlace m (lo16 (m.env.regs .esp) - BitVec.ofNat 16 i)

def PromptRow (place : Nat) : Prop := ByteMemory.Within (0xB8000 + 24 * 80 * 2) (80 * 2) place

/-- The words of the frame and where SP points for each, in the order they are pushed. -/
def detourFrame : List (BitVec 16 × BitVec 16) :=
  let sp := lo16 (m.env.regs .esp)
  [(sp - 2, lo16 (cpuComputeEflags q m.env)), (sp - 4, lo16 (m.env.segs .cs).selector), (sp - 6, 0xFF00)]

/-- The detour comes back to the teletype as if there had been none. -/
structure DetourTransparent (wrote : Nat → Prop) : Prop where
  arrives : At 0xFF00 (returned q m handler)
  eip : (resumed q m handler).env.eip = 0x542C
  regs : (resumed q m handler).env.regs = m.env.regs
  flags : cpuComputeEflags q (resumed q m handler).env = cpuComputeEflags q m.env
  selector : ((resumed q m handler).env.segs .cs).selector = (m.env.segs .cs).selector
  base : ((resumed q m handler).env.segs .cs).base = (m.env.segs .cs).base
  mem : ∀ place, ¬ BelowStack m place → ¬ PromptRow place → ¬ wrote place →
    (resumed q m handler).mem place = m.mem place

/-- The teletype runs under selector F000 with the reserved flag set, the handler's IRET pops the
frame as it was pushed, and a word pushed over the end of the segment changes nothing beyond. -/
structure ReturnsToSentinel (wrote : Nat → Prop) : Prop where
  selector : (m.env.segs .cs).selector = 0xF000
  reserved : (cpuComputeEflags q m.env).getLsbD 1 = true
  ip : frameWord (handled q m handler) 0 = 0xFF00
  cs : frameWord (handled q m handler) 1 = 0xF000
  flags : (frameWord (handled q m handler) 2).setWidth 32 &&& iretFlags = cpuComputeEflags q m.env &&& iretFlags
  beyond : ∀ word ∈ detourFrame q m, let place := stackPlace m word.1 + 1
    ¬ BelowStack m place → ¬ PromptRow place → ¬ wrote place → m.mem place = (word.2 >>> 8).setWidth 8

end Detour

section Open
variable {q : Stock} {m : Machine}

/-- The state of the file while a detour is out: this POST's mode is set, and EAX saved. -/
structure DetourOut (eax : Word) (m : Machine) : Prop where
  ui : m.has .pc110PostUi = true
  on : m.enabled = true
  set : m.statics.SetThisPost
  saved : m.statics.rbSavedEax = eax
  idle : m.statics.kbcResetPending = false

theorem DetourOut.step {eax : Word} {e : Event} (out : DetourOut eax m) (quiet : NoReset m e) :
    DetourOut eax (m.step q e) := by
  have ui : (m.step q e).has .pc110PostUi = true := by
    rw [Machine.has, step_getenv]
    exact out.ui
  by_cases call : e = .call
  · subst call
    obtain ⟨enabled, kept⟩ := call_detour (q := q) (fun _ => out.set) (quiet.2 rfl)
    refine ⟨ui, ?_, ?_, ?_, idle_call out.idle⟩
    · rw [Machine.enabled, enabled]
      exact out.on
    · by_cases teletype : At 0x542C m
      · exact (teletype_call (q := q) out.ui teletype).2
      · exact (other_call (q := q) out.ui teletype (quiet.2 rfl)).mpr out.set
    · rcases kept with same | ⟨d, same⟩
      · exact same.saved.trans out.saved
      · rw [same.saved, inBios_savedEax, out.saved]
  · have set := (other_step (q := q) e call).mpr out.set
    cases e with
    | call => exact absurd rfl call
    | kbcReset => exact absurd rfl quiet.1
    | key | guest | host | systemReset => exact ⟨ui, out.on, set, out.saved, out.idle⟩

end Open

section Entry
variable {q : Stock} {m : Machine}

theorem entered_eq (first : FirstTeletype m) : ∃ d, entered q m = injectModeSet q (m.inBios d) := by
  rcases (teletype_call (q := q) first.ui first.here).1 with ⟨-, d, takes⟩ | ⟨set, -⟩
  · exact ⟨d, congrArg Prod.snd takes⟩
  · exact absurd set first.unset

theorem detourOut_entered (first : FirstTeletype m) : DetourOut (m.env.regs .eax) (entered q m) := by
  have set := (teletype_call (q := q) first.ui first.here).2
  have idle := idle_call (q := q) first.here.1.idle
  obtain ⟨d, eq⟩ := entered_eq (q := q) first
  change (entered q m).statics.SetThisPost at set
  change (entered q m).statics.kbcResetPending = false at idle
  rw [eq] at set idle ⊢
  refine ⟨first.ui, ?_, set, rfl, idle⟩
  rw [Machine.enabled, (injectModeSet_guestOnly q (m.inBios d)).statics]
  change (m.inBios d).statics.enabled.getD _ = true
  rw [inBios_enabled]
  rfl

theorem detourOut_returned {handler : List Event} (first : FirstTeletype m)
    (runs : Runs.Always (Machine.step q) NoReset handler (entered q m)) :
    DetourOut (m.env.regs .eax) (returned q m handler) := by
  have out : DetourOut (m.env.regs .eax) (handled q m handler) :=
    Runs.run_under (Machine.step q) (fun _ _ out quiet => out.step quiet) handler _ (detourOut_entered first) runs
  exact ⟨out.ui, out.on, out.set, out.saved, out.idle⟩

end Entry

section Memory
variable {q : Stock} {m : Machine}

theorem words_apart (m : Machine) (sp : BitVec 16) {i j k : Nat} (left : i < 3) (right : j < 3) (other : i ≠ j)
    (cell : k < 2) : ¬ ByteMemory.Within (stackPlace m (sp - BitVec.ofNat 16 (2 * j + 2))) 2
      (stackPlace m (sp - BitVec.ofNat 16 (2 * i + 2)) + k) := by
  simp only [ByteMemory.Within, stackPlace, BitVec.toNat_add, BitVec.toNat_sub, BitVec.toNat_setWidth,
    BitVec.toNat_ofNat]
  omega

def pushWord (m : Machine) (mem : Memory Byte) (word : BitVec 16 × BitVec 16) : Memory Byte :=
  ByteMemory.write mem (stackPlace m word.1) [word.2.setWidth 8, (word.2 >>> 8).setWidth 8]

theorem entered_mem (first : FirstTeletype m) :
    (entered q m).mem = (detourFrame q m).foldl (pushWord m) m.mem := by
  obtain ⟨d, eq⟩ := entered_eq (q := q) first
  rw [eq]
  rfl

/-- Every word pushed is there when the handler starts. -/
theorem entered_cell (first : FirstTeletype m) {word : BitVec 16 × BitVec 16} (member : word ∈ detourFrame q m)
    {k : Nat} (cell : k < 2) :
    (entered q m).mem (stackPlace m word.1 + k) = (word.2 >>> (8 * k)).setWidth 8 := by
  have shows (mem : Memory Byte) (word : BitVec 16 × BitVec 16) :
      pushWord m mem word (stackPlace m word.1 + k) = (word.2 >>> (8 * k)).setWidth 8 := by
    refine (ByteMemory.write_inside mem _ k [word.2.setWidth 8, (word.2 >>> 8).setWidth 8] cell).trans ?_
    interval_cases k <;> rfl
  have kept (mem : Memory Byte) {i j : Nat} (v : BitVec 16) (left : i < 3) (right : j < 3) (other : i ≠ j) :
      pushWord m mem (lo16 (m.env.regs .esp) - BitVec.ofNat 16 (2 * j + 2), v)
          (stackPlace m (lo16 (m.env.regs .esp) - BitVec.ofNat 16 (2 * i + 2)) + k) =
        mem (stackPlace m (lo16 (m.env.regs .esp) - BitVec.ofNat 16 (2 * i + 2)) + k) :=
    ByteMemory.write_outside _ _ _ _ (words_apart m _ left right other cell)
  rw [entered_mem first]
  simp only [detourFrame, List.mem_cons, List.not_mem_nil, or_false] at member
  simp only [detourFrame, List.foldl_cons, List.foldl_nil]
  rcases member with rfl | rfl | rfl
  · refine (kept (i := 0) (j := 2) _ _ (by decide) (by decide) (by decide)).trans ?_
    refine (kept (i := 0) (j := 1) _ _ (by decide) (by decide) (by decide)).trans ?_
    exact shows _ _
  · refine (kept (i := 1) (j := 2) _ _ (by decide) (by decide) (by decide)).trans ?_
    exact shows _ _
  · exact shows _ _

theorem entered_elsewhere (first : FirstTeletype m) {place : Nat}
    (elsewhere : ∀ word ∈ detourFrame q m, place ≠ stackPlace m word.1 ∧ place ≠ stackPlace m word.1 + 1) :
    (entered q m).mem place = m.mem place := by
  rw [entered_mem first]
  generalize m.mem = mem
  generalize detourFrame q m = frame at elsewhere
  induction frame generalizing mem with
  | nil => rfl
  | cons word frame ih =>
    rw [List.foldl_cons, ih _ fun other member => elsewhere other (List.mem_cons_of_mem _ member)]
    obtain ⟨low, high⟩ := elsewhere word List.mem_cons_self
    apply ByteMemory.write_outside
    rintro ⟨above, inside⟩
    simp only [List.length_cons, List.length_nil] at inside
    omega

/-- The low bytes of the frame are below SS:SP whatever SP is. -/
theorem below_low {word : BitVec 16 × BitVec 16} (member : word ∈ detourFrame q m) :
    BelowStack m (stackPlace m word.1) := by
  simp only [detourFrame, List.mem_cons, List.not_mem_nil, or_false] at member
  rcases member with rfl | rfl | rfl
  · exact ⟨2, by decide, by decide, rfl⟩
  · exact ⟨4, by decide, by decide, rfl⟩
  · exact ⟨6, by decide, by decide, rfl⟩

theorem below_high {word : BitVec 16 × BitVec 16} (member : word ∈ detourFrame q m)
    (base : (m.env.segs .ss).base.toNat + 2 ^ 16 ≤ 2 ^ 32) (inside : word.1 ≠ 0xFFFF) :
    BelowStack m (stackPlace m word.1 + 1) := by
  have next : stackPlace m word.1 + 1 = stackPlace m (word.1 + BitVec.ofNat 16 1) := by
    have narrow := word.1.isLt
    have last : word.1.toNat ≠ 0xFFFF := fun last => inside (BitVec.eq_of_toNat_eq last)
    simp only [stackPlace, BitVec.toNat_add, BitVec.toNat_setWidth, BitVec.toNat_ofNat]
    omega
  rw [next]
  simp only [detourFrame, List.mem_cons, List.not_mem_nil, or_false] at member
  rcases member with rfl | rfl | rfl
  · exact ⟨1, by decide, by decide, congrArg _ (by bv_omega)⟩
  · exact ⟨3, by decide, by decide, congrArg _ (by bv_omega)⟩
  · exact ⟨5, by decide, by decide, congrArg _ (by bv_omega)⟩

theorem word_bytes (v : BitVec 16) : Int13.word [v.setWidth 8, (v >>> 8).setWidth 8] 0 = v := by
  ext i h
  simp only [Int13.word, List.getD_cons_zero, List.getD_cons_succ]
  interval_cases i <;> simp

/-- The handler finds the frame that an IRET takes to the sentinel. -/
theorem frameWord_entered (first : FirstTeletype m) :
    frameWord (entered q m) 0 = 0xFF00 ∧ frameWord (entered q m) 1 = lo16 (m.env.segs .cs).selector ∧
    frameWord (entered q m) 2 = lo16 (cpuComputeEflags q m.env) := by
  have pops {i : Nat} (sp : BitVec 16) {v : BitVec 16} (member : (sp, v) ∈ detourFrame q m)
      (here : lo16 (m.env.regs .esp) - 6 + BitVec.ofNat 16 (2 * i) = sp) : frameWord (entered q m) i = v := by
    obtain ⟨d, eq⟩ := entered_eq (q := q) first
    have place : ((entered q m).env.segs .ss).base = (m.env.segs .ss).base ∧
        lo16 ((entered q m).env.regs .esp) = lo16 (m.env.regs .esp) - 6 := by
      rw [eq]
      exact ⟨rfl, lo16_set16 _ _⟩
    have bytes : (entered q m).read (stackPlace m sp) 2 = [v.setWidth 8, (v >>> 8).setWidth 8] := by
      have low := entered_cell first member Nat.zero_lt_two
      have high := entered_cell first member Nat.one_lt_two
      simp only [Nat.mul_zero, Nat.add_zero, BitVec.ushiftRight_zero, Nat.mul_one] at low high
      simp [Machine.read, ByteMemory.read, List.range_succ, low, high]
    simp only [frameWord, place, here]
    change Int13.word ((entered q m).read (stackPlace m sp) 2) 0 = v
    rw [bytes, word_bytes]
  refine ⟨pops (lo16 (m.env.regs .esp) - 6) ?_ ?_, pops (lo16 (m.env.regs .esp) - 4) ?_ ?_,
    pops (lo16 (m.env.regs .esp) - 2) ?_ ?_⟩
  · simp [detourFrame]
  · bv_omega
  · simp [detourFrame]
  · bv_omega
  · simp [detourFrame]
  · bv_omega

end Memory

section Flags

/-- What real mode's IRET gives each flag: popped, set, or left alone. -/
theorem returnedFlags_real {eflags there flags : Word} (popped : Word)
    (split : flags &&& ~~~(pcCcMask ||| dfMask) = eflags &&& ~~~(pcCcMask ||| dfMask))
    (zero : eflags &&& (pcCcMask ||| dfMask) = 0)
    (same : there &&& ~~~realIretMask = eflags &&& ~~~realIretMask) {i : Nat} (h : i < 32) :
    (returnedFlags there popped realIretMask).getLsbD i =
      if iretFlags.getLsbD i then popped.getLsbD i else flags.getLsbD i || decide (i = 1) := by
  have masks : ∀ i < 32,
      iretFlags.getLsbD i = (pcCcMask.getLsbD i || dfMask.getLsbD i || realIretMask.getLsbD i) ∧
      ((pcCcMask.getLsbD i || dfMask.getLsbD i) && realIretMask.getLsbD i) = false ∧
      (iretFlags.getLsbD i && decide (i = 1)) = false ∧
      (2 : Word).getLsbD i = decide (i = 1) ∧ (0 : Word).getLsbD i = false := by decide
  obtain ⟨restored, apart, reserved, two, none⟩ := masks i h
  have split := congrArg (BitVec.getLsbD · i) split
  have zero := congrArg (BitVec.getLsbD · i) zero
  have same := congrArg (BitVec.getLsbD · i) same
  clear masks
  simp only [returnedFlags, BitVec.getLsbD_and, BitVec.getLsbD_not, BitVec.getLsbD_or, decide_eq_true h,
    Bool.true_and, two, none] at split zero same ⊢
  -- a flag is arithmetic, or DF, or under the mask, or left alone
  cases arith : pcCcMask.getLsbD i <;> cases direction : dfMask.getLsbD i <;>
    cases masked : realIretMask.getLsbD i <;> simp_all

/-- The flags are back exactly where those restored were popped and the reserved one was set. -/
theorem returnedFlags_real_iff {eflags there flags : Word} (popped : Word)
    (split : flags &&& ~~~(pcCcMask ||| dfMask) = eflags &&& ~~~(pcCcMask ||| dfMask))
    (zero : eflags &&& (pcCcMask ||| dfMask) = 0)
    (same : there &&& ~~~realIretMask = eflags &&& ~~~realIretMask) :
    returnedFlags there popped realIretMask = flags ↔
      popped &&& iretFlags = flags &&& iretFlags ∧ flags.getLsbD 1 = true := by
  have bit {i : Nat} (h : i < 32) := returnedFlags_real popped split zero same h
  constructor
  · intro back
    constructor
    · rw [masked_eq_iff]
      intro i h kept
      have here := bit h
      rw [back, BitVec.getLsbD_eq_getElem h, BitVec.getLsbD_eq_getElem h, if_pos kept] at here
      exact here.symm
    · have here := bit (show 1 < 32 by decide)
      rw [back, if_neg (by decide)] at here
      exact here.trans (Bool.or_true _)
  · rintro ⟨restored, reserved⟩
    apply BitVec.eq_of_getLsbD_eq
    intro i h
    rw [bit h]
    split_ifs with kept
    · have here := masked_eq_iff.mp restored i h kept
      rwa [← BitVec.getLsbD_eq_getElem h, ← BitVec.getLsbD_eq_getElem h] at here
    · by_cases one : i = 1
      · rw [one, reserved]
        rfl
      · rw [decide_eq_false one, Bool.or_false]

end Flags

section Return
variable {q : Stock} {m : Machine} {handler : List Event} {eax : Word}

/-- In real mode only selector F000 has the base of the F-segment. -/
theorem realBase_iff {selector : BitVec 16} : (selector.setWidth 32 <<< 4 : Word) = 0xF0000 ↔ selector = 0xF000 := by
  constructor
  · intro shifted
    apply BitVec.eq_of_toNat_eq
    have value := congrArg BitVec.toNat shifted
    have bound := selector.isLt
    simp [Nat.shiftLeft_eq] at value ⊢
    omega
  · rintro rfl
    rfl

/-- The sentinel is reached through the words FF00 and F000, whatever else was popped. -/
theorem arrives_iff (out : DetourOut eax (returned q m handler)) : At 0xFF00 (returned q m handler) ↔
    frameWord (handled q m handler) 0 = 0xFF00 ∧ frameWord (handled q m handler) 1 = 0xF000 := by
  obtain ⟨eip, cs, -⟩ := Int13.helperIretReal_returns (handled q m handler)
  change (returned q m handler).env.eip = _ at eip
  change (returned q m handler).env.segs .cs = _ at cs
  have base : ((returned q m handler).env.segs .cs).base =
      (frameWord (handled q m handler) 1).setWidth 32 <<< 4 := by rw [cs]
  have pc : (returned q m handler).pc = (frameWord (handled q m handler) 1).setWidth 32 <<< 4 +
      (frameWord (handled q m handler) 0).setWidth 32 := by rw [Machine.pc, base, eip]
  have off : (Site.of (returned q m handler) (returned q m handler).pc).off =
      frameWord (handled q m handler) 0 := by
    change lo16 ((returned q m handler).pc - ((returned q m handler).env.segs .cs).base) = _
    rw [pc, base, BitVec.add_comm, BitVec.add_sub_cancel]
    exact Int13.lo16_setWidth _
  have rom : ((returned q m handler).env.segs .cs).base = 0xF0000 ↔
      frameWord (handled q m handler) 1 = 0xF000 := by
    rw [base]
    exact realBase_iff
  constructor
  · rintro ⟨-, here, there⟩
    exact ⟨off.symm.trans there, rom.mp here⟩
  · rintro ⟨ip, cs⟩
    refine ⟨⟨out.on, ?_, out.idle, .inl (rom.mpr cs)⟩, rom.mpr cs, off.trans ip⟩
    have far : (returned q m handler).pc ≠ esDispatcher := by
      rw [pc, ip, cs]
      decide
    exact decide_eq_false fun service => far service.1

theorem resumed_leaves (out : DetourOut eax (returned q m handler)) (arrives : At 0xFF00 (returned q m handler)) :
    ∃ d, resumed q m handler = modeSetDone ((returned q m handler).inBios d) ∧
      (resumed q m handler).env.regs = Function.update (returned q m handler).env.regs .eax eax ∧
      (∀ place, ¬ PromptRow place → (resumed q m handler).mem place = (handled q m handler).mem place) := by
  obtain ⟨d, takes⟩ := sentinel_call (q := q) out.ui arrives
  have eq : resumed q m handler = modeSetDone ((returned q m handler).inBios d) := congrArg Prod.snd takes
  refine ⟨d, eq, ?_, ?_⟩
  · rw [eq]
    change Function.update (returned q m handler).env.regs .eax
      ((returned q m handler).inBios d).statics.rbSavedEax = _
    rw [inBios_savedEax, out.saved]
  · intro place elsewhere
    rw [eq]
    apply ByteMemory.write_outside
    rintro ⟨above, inside⟩
    have cells : promptCells.length = 50 := by decide +kernel
    exact elsewhere ⟨above, by omega⟩

theorem resumed_flags {d : Diag} (eq : resumed q m handler = modeSetDone ((returned q m handler).inBios d)) :
    cpuComputeEflags q (resumed q m handler).env = returnedFlags (handled q m handler).env.eflags
      ((frameWord (handled q m handler) 2).setWidth 32) realIretMask := by
  rw [eq]
  exact SegHelper.cpuComputeEflags_loadEflags q _ _ _

theorem returned_regs {wrote : Nat → Prop} (first : FirstTeletype m) (keeps : HandlerKeeps q m handler wrote) :
    Function.update (returned q m handler).env.regs .eax (m.env.regs .eax) = m.env.regs := by
  obtain ⟨d, eq⟩ := entered_eq (q := q) first
  have esp : (returned q m handler).env.regs .esp = m.env.regs .esp := by
    obtain ⟨-, -, popped⟩ := Int13.helperIretReal_returns (handled q m handler)
    have pushed : (entered q m).env.regs .esp = set16 (m.env.regs .esp) (lo16 (m.env.regs .esp) - 6) := by
      rw [eq]
      rfl
    refine popped.trans ?_
    rw [keeps.regs .esp (by decide), pushed, set16_set16, lo16_set16, BitVec.sub_add_cancel, set16_lo16]
  funext r
  by_cases accumulator : r = .eax
  · rw [accumulator, Function.update_self]
  · rw [Function.update_of_ne accumulator]
    by_cases pointer : r = .esp
    · rw [pointer, esp]
    · have kept : (returned q m handler).env.regs r = (handled q m handler).env.regs r :=
        Function.update_of_ne pointer _ _
      have entry : (entered q m).env.regs r = m.env.regs r := by
        rw [eq]
        exact (Function.update_of_ne accumulator _ _).trans (Function.update_of_ne pointer _ _)
      rw [kept, keeps.regs r accumulator, entry]

/-- Off the stack, the prompt and the handler's own writes memory is as it was exactly when no
word was pushed over the end of the segment. -/
theorem resumed_mem_iff {wrote : Nat → Prop} (first : FirstTeletype m) (keeps : HandlerKeeps q m handler wrote)
    (painted : ∀ place, ¬ PromptRow place → (resumed q m handler).mem place = (handled q m handler).mem place) :
    (∀ place, ¬ BelowStack m place → ¬ PromptRow place → ¬ wrote place →
      (resumed q m handler).mem place = m.mem place) ↔
    ∀ word ∈ detourFrame q m, let place := stackPlace m word.1 + 1
      ¬ BelowStack m place → ¬ PromptRow place → ¬ wrote place → m.mem place = (word.2 >>> 8).setWidth 8 := by
  have entry {place : Nat} (row : ¬ PromptRow place) (own : ¬ wrote place) :
      (resumed q m handler).mem place = (entered q m).mem place :=
    (painted place row).trans (keeps.mem place own)
  constructor
  · intro kept word member place below row own
    rw [← kept place below row own, entry row own]
    exact entered_cell first member Nat.one_lt_two
  · intro beyond place below row own
    rw [entry row own]
    by_cases high : ∃ word ∈ detourFrame q m, place = stackPlace m word.1 + 1
    · obtain ⟨word, member, rfl⟩ := high
      rw [entered_cell first member Nat.one_lt_two]
      exact (beyond word member below row own).symm
    · refine entered_elsewhere first fun word member => ⟨?_, ?_⟩
      · rintro rfl
        exact below (below_low member)
      · intro here
        exact high ⟨word, member, here⟩

/-- The flags an IRET restores survive the push of their low word. -/
theorem lo16_restored (f : Word) : (lo16 f).setWidth 32 &&& iretFlags = f &&& iretFlags := by
  have low : ∀ i < 32, iretFlags.getLsbD i = true → i < 16 := by decide
  apply masked_eq_iff.mpr
  intro i h restored
  have small := low i h restored
  simp [lo16, small, BitVec.getLsbD_eq_getElem h]

variable {wrote : Nat → Prop}

/-- Inside the segment a handler that leaves its frame alone returns to the sentinel. -/
theorem returnsToSentinel_inside (first : FirstTeletype m) (selector : (m.env.segs .cs).selector = 0xF000)
    (reserved : (cpuComputeEflags q m.env).getLsbD 1 = true)
    (base : (m.env.segs .ss).base.toNat + 2 ^ 16 ≤ 2 ^ 32) (inside : ∀ word ∈ detourFrame q m, word.1 ≠ 0xFFFF)
    (frame : ∀ i < 3, frameWord (handled q m handler) i = frameWord (entered q m) i) :
    ReturnsToSentinel q m handler wrote := by
  obtain ⟨ip, cs, flags⟩ := frameWord_entered (q := q) first
  refine ⟨selector, reserved, ?_, ?_, ?_, ?_⟩
  · rw [frame 0 (by decide), ip]
  · rw [frame 1 (by decide), cs, selector]
    rfl
  · rw [frame 2 (by decide), flags, lo16_restored]
  · intro word member place below
    exact absurd (below_high member base (inside word member)) below

theorem handled_eflags (first : FirstTeletype m) (keeps : HandlerKeeps q m handler wrote) :
    (handled q m handler).env.eflags &&& ~~~realIretMask = m.env.eflags &&& ~~~realIretMask := by
  obtain ⟨d, eq⟩ := entered_eq (q := q) first
  rw [keeps.flags, eq]
  rfl

theorem returnsToSentinel_of_transparent (first : FirstTeletype m) (apart : FlagsApart q m.env)
    (keeps : HandlerKeeps q m handler wrote) (transparent : DetourTransparent q m handler wrote) :
    ReturnsToSentinel q m handler wrote := by
  have out := detourOut_returned first keeps.runs
  obtain ⟨ip, cs⟩ := (arrives_iff out).mp transparent.arrives
  obtain ⟨d, eq, -, painted⟩ := resumed_leaves out transparent.arrives
  have back := transparent.flags
  rw [resumed_flags eq, returnedFlags_real_iff _ apart.split apart.zero (handled_eflags first keeps)] at back
  obtain ⟨flags, reserved⟩ := back
  have selector := transparent.selector
  rw [eq] at selector
  exact ⟨selector.symm, reserved, ip, cs, flags, (resumed_mem_iff first keeps painted).mp transparent.mem⟩

theorem transparent_of_returnsToSentinel (first : FirstTeletype m) (apart : FlagsApart q m.env)
    (keeps : HandlerKeeps q m handler wrote) (returns : ReturnsToSentinel q m handler wrote) :
    DetourTransparent q m handler wrote := by
  have out := detourOut_returned first keeps.runs
  have arrives := (arrives_iff out).mpr ⟨returns.ip, returns.cs⟩
  obtain ⟨d, eq, regs, painted⟩ := resumed_leaves out arrives
  refine ⟨arrives, ?_, ?_, ?_, ?_, ?_, (resumed_mem_iff first keeps painted).mpr returns.beyond⟩
  · rw [eq]
    rfl
  · rw [regs]
    exact returned_regs first keeps
  · rw [resumed_flags eq, returnedFlags_real_iff _ apart.split apart.zero (handled_eflags first keeps)]
    exact ⟨returns.flags, returns.reserved⟩
  · rw [eq, returns.selector]
    rfl
  · rw [eq]
    exact first.here.2.1.symm

/-- The detour is transparent exactly where its frame leads back to the sentinel. -/
theorem detourTransparent_iff (q : Stock) (m : Machine) (handler : List Event) (wrote : Nat → Prop)
    (first : FirstTeletype m) (apart : FlagsApart q m.env) (keeps : HandlerKeeps q m handler wrote) :
    DetourTransparent q m handler wrote ↔ ReturnsToSentinel q m handler wrote :=
  ⟨returnsToSentinel_of_transparent first apart keeps, transparent_of_returnsToSentinel first apart keeps⟩

end Return

/-- The POST at its first teletype, under some selector for the F-segment. -/
def teletypeUnder (selector : Word) : Machine :=
  .start
    { cpuAt 0x542C with
      regs := fun | .esp => 0x1000 | _ => 0
      segs := fun | .cs => ⟨selector, 0xF0000, 0xFFFF, 0⟩ | _ => default
      eflags := 0x0002 }
    (fun _ => 0) (fun _ => 0) postUi fun _ => none

theorem teletypeUnder_first (selector : Word) : FirstTeletype (teletypeUnder selector) where
  ui := rfl
  here := by
    have pc : (teletypeUnder selector).pc = 0xF542C := by
      change (0xF0000 + 0x542C : Word) = 0xF542C
      decide
    rw [At, pc]
    refine ⟨⟨rfl, ?_, rfl, .inl rfl⟩, rfl, ?_⟩
    · exact decide_eq_false fun service => absurd service.1 (by decide)
    · change lo16 (0xF542C - 0xF0000) = 0x542C
      decide
  unset set := Bool.noConfusion set.1
  real := by
    change (0 &&& 1 : Word) = 0
    decide

theorem teletypeUnder_flags (selector : Word) : FlagsApart default (teletypeUnder selector).env where
  split := by
    change (0x0002 ||| 0 ||| (0 &&& dfMask) : Word) &&& ~~~(pcCcMask ||| dfMask) = 0x0002 &&& ~~~(pcCcMask ||| dfMask)
    decide
  zero := by
    change (0x0002 : Word) &&& (pcCcMask ||| dfMask) = 0
    decide

theorem teletypeUnder_inside (selector : Word) :
    ∀ word ∈ detourFrame default (teletypeUnder selector), word.1 ≠ 0xFFFF := by
  intro word member
  simp only [detourFrame, List.mem_cons, List.not_mem_nil, or_false] at member
  rcases member with rfl | rfl | rfl
  · change lo16 0x1000 - 2 ≠ 0xFFFF
    decide
  · change lo16 0x1000 - 4 ≠ 0xFFFF
    decide
  · change lo16 0x1000 - 6 ≠ 0xFFFF
    decide

theorem keeps_atOnce (q : Stock) (m : Machine) : HandlerKeeps q m [] fun _ => False :=
  ⟨trivial, fun _ _ => rfl, rfl, fun _ _ => rfl⟩

theorem detourTransparent_atOnce : DetourTransparent default (teletypeUnder 0xF000) [] fun _ => False :=
  (detourTransparent_iff default (teletypeUnder 0xF000) [] (fun _ => False) (teletypeUnder_first 0xF000)
    (teletypeUnder_flags 0xF000) (keeps_atOnce _ _)).mpr
    (returnsToSentinel_inside (teletypeUnder_first 0xF000) rfl (by decide +kernel) (by decide)
      (teletypeUnder_inside 0xF000) fun _ _ => rfl)

/-- Under selector 40h, which the POST uses too, the IRET goes to 0040:FF00 instead. -/
theorem not_detourTransparent : ¬ ∀ (q : Stock) (m : Machine) (handler : List Event) (wrote : Nat → Prop),
    FirstTeletype m → FlagsApart q m.env → HandlerKeeps q m handler wrote →
    DetourTransparent q m handler wrote := by
  intro every
  have first := teletypeUnder_first 0x0040
  have flags := teletypeUnder_flags 0x0040
  have keeps := keeps_atOnce default (teletypeUnder 0x0040)
  have returns := returnsToSentinel_of_transparent first flags keeps (every _ _ _ _ first flags keeps)
  exact absurd returns.selector (by decide)

end Pc110
