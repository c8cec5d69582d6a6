import Pc110.LooseDelivery
import Pc110.SegFlags

/-! A loose IRET behind an interrupt delivered in loose PM. Delivery at the current level
pushes what the IRET pops, so everything comes back but IF: an interrupt gate clears it,
and the IRET may set it again only at a CPL the IOPL admits. -/
namespace Pc110.SegHelper

open LsbBits (Byte)
open Faulting (Ends bind_ok bind_error)
open Masks (masked_eq_iff masked_bit_iff)
open WrapMemory (Keeps)

/-- The operand size of a gate, as the shift of an IRET. -/
def gateShift (gate : Word × Word) : Nat := (gateType gate.2 >>> 3).toNat

/-- CS, EIP, ESP and the flags are as they were, resuming at `resume`. -/
structure Restored (q : Stock) (shift : Nat) (resume : Word) (before after : Env) : Prop where
  cs : after.segs .cs = before.segs .cs
  eip : after.eip = truncated (operand shift) resume
  esp : after.regs .esp = before.regs .esp
  flags : cpuComputeEflags q after &&& iretFlags = cpuComputeEflags q before &&& iretFlags

/-- The IRET can undo what the gate did to IF. -/
def RestoresIf (gate : Word × Word) (env : Env) : Prop :=
  gateType gate.2 &&& 1 ≠ 0 ∨ env.eflags &&& ifMask = 0 ∨ env.cpl ≤ ioplOf env

/-- CS holds what the resolver makes of its selector. -/
structure CsResolved (s : Sys) (cs : Resolved) : Prop where
  resolves : pc110ResolveSeg (s.env.segs .cs).selector true s = .ok cs s
  cached : s.env.segs .cs = ⟨(s.env.segs .cs).selector, cs.base, cs.limit, cs.flags⟩
  selector : (s.env.segs .cs).selector &&& 0xFFFF = (s.env.segs .cs).selector

section Delivered
variable {q : StockSeg} {s s₁ : Sys} {selector : Word}

/-- In loose PM the code descriptor is only read. -/
theorem codeDescriptor_reads (loose : LoosePm s) {d : Word × Word} {s' : Sys}
    (ran : codeDescriptor selector s = .ok d s') : s' = s := by
  have load (found : Option (Word × Word)) (load : loadSegment selector s = .ok found s) : s' = s := by
    rw [codeDescriptor_loose loose load rfl] at ran
    split at ran
    · cases ran
    split at ran
    · cases ran
    · cases ran; rfl
  rcases loadSegment_cases selector s with ⟨-, found⟩ | ⟨d, -, -, found⟩ | ⟨p, fault⟩
  · exact load _ found
  · exact load _ found
  · rw [codeDescriptor_fault fault] at ran
    cases ran

/-- What a completed delivery leaves: the frame on the stack, and the gate's CS:EIP. -/
def Delivered (s : Sys) (gate : Word × Word) (frame : Frame) (s₁ : Sys) : Prop :=
  ∃ descriptor sa cells,
    Framed (operand (gateShift gate)) (s.withCells cells) sa (frame.bytes (operand (gateShift gate))) ∧
    sa = { StackAccess.of s.env with
      sp := s.env.regs .esp - BitVec.ofNat 32 (frame.words.length * operand (gateShift gate)) } ∧
    s₁ = { s.withCells cells with env := enterGate s.env gate descriptor sa }

theorem delivered_of_ok (loose : LoosePm s) {intno : Nat} {isInt : Bool} {gate : Word × Word}
    (finds : FindsGate s intno isInt gate) {errorCode nextEip : Word} {isHw : Bool}
    (ran : doInterruptProtected q intno isInt errorCode nextEip isHw s = .ok () s₁) :
    Delivered s gate (interruptFrame q s.env intno isInt errorCode nextEip isHw) s₁ := by
  rw [doInterruptProtected_loose loose finds] at ran
  obtain ⟨descriptor, t, code, entered⟩ := Faulting.of_bind_ok ran
  obtain rfl := codeDescriptor_reads loose code
  obtain ⟨m, keeps, room⟩ := frame_room (t.env.segs .ss).flags (gateShift gate)
  generalize interruptFrame q t.env intno isInt errorCode nextEip isHw = frame at *
  rw [deliverSame, Faulting.get_bind] at entered
  obtain ⟨sa, t', pushes, finish⟩ := Faulting.of_bind_ok entered
  have ends := frame_push_ends t (.of t.env) keeps frame room
  obtain ⟨pushed, sp⟩ := ends.of_ok pushes
  obtain ⟨cells, rfl⟩ := pushed.rest
  refine ⟨descriptor, sa, cells, pushed.framed, ?_, ?_⟩
  · rw [pushed.access, sp]
    rfl
  · cases finish
    rfl

end Delivered

section Return
variable {q : StockSeg} {s : Sys}

/-- The words a loose IRET pops, wherever it takes the stack pointer from. -/
def iretEnv (env : Env) (shift : Nat) (cs : SegmentCache) (eip eflags : Word) : Env :=
  let up := BitVec.ofNat 32 (operand shift)
  let back := setEsp (loadSegCache env .cs cs) (env.regs .esp + up + up + up) (getSpMask (env.segs .ss).flags)
  let back := { back with eip }
  loadEflags back eflags (iretMask back shift)

theorem helperRetProtected_framed (loose : pc110LoosePm s = true) {shift : Nat} {eip selector eflags : Word}
    (framed : Framed (operand shift) s (.of s.env)
      [LsbBits.bytes (operand shift) eip.toNat, LsbBits.bytes (operand shift) selector.toNat,
        LsbBits.bytes (operand shift) eflags.toNat])
    (whole : truncated (operand shift) selector &&& 0xFFFF = selector)
    (notV86 : truncated (operand shift) eflags &&& vmMask = 0) {cs : Resolved}
    (resolves : pc110ResolveSeg selector true s = .ok cs s) :
    helperRetProtected q shift true 0 s = .ok () { s with
      env := iretEnv s.env shift ⟨selector, cs.base, cs.limit, cs.flags⟩ (truncated (operand shift) eip)
        (truncated (operand shift) eflags) } := by
  have framed₀ : Framed (operand shift) s (.of s.env .getpc) _ := framed.at .getpc
  obtain ⟨popEip, framed₁⟩ := pop_framed framed₀
  obtain ⟨popCs, framed₂⟩ := pop_framed framed₁
  obtain ⟨popEflags, -⟩ := pop_framed framed₂
  simp only [helperRetProtected, Faulting.get_bind, if_true]
  rw [bind_ok popEip, bind_ok popCs, bind_ok popEflags]
  rw [if_pos ⟨loose, fun vm => vm.2 notV86⟩, whole, bind_ok resolves]
  have noAddend (x : Word) : x + 0 = x := BitVec.add_zero x
  simp only [noAddend]
  rfl

end Return

section Inverse
variable {q : StockSeg} {s s₁ : Sys}

theorem pushedFlags_frame (split : FlagsSplit q.cc s.env) (shift intno : Nat) (isInt : Bool)
    (errorCode nextEip : Word) (isHw : Bool) :
    PushedFlags s.env.eflags (cpuComputeEflags q.cc s.env)
      (truncated (operand shift) (interruptFrame q s.env intno isInt errorCode nextEip isHw).eflags) where
  within i h set := by
    rw [cpuComputeEflags, BitVec.getElem_or, BitVec.getElem_or, set, Bool.true_or, Bool.true_or]
  split := split
  low i h := by
    rw [← BitVec.getLsbD_eq_getElem, truncated_bit shift _ h,
      BitVec.getLsbD_eq_getElem (Nat.lt_trans h (by decide)), interruptFrame, BitVec.getElem_or]
    split <;> interval_cases i <;> simp [rfMask]

/-- No IRET from such a frame leaves for V86. -/
theorem frame_notV86 (loose : LoosePm s) (split : FlagsSplit q.cc s.env) (shift intno : Nat) (isInt : Bool)
    (errorCode nextEip : Word) (isHw : Bool) :
    truncated (operand shift) (interruptFrame q s.env intno isInt errorCode nextEip isHw).eflags &&& vmMask = 0 := by
  have off := (masked_bit_iff s.env.eflags 17 (by decide)).mp loose.notV86
  have flag := masked_eq_iff.mp split 17 (by decide) (by decide)
  refine (masked_bit_iff _ 17 (by decide)).mpr ?_
  rcases truncated_operand shift (interruptFrame q s.env intno isInt errorCode nextEip isHw).eflags with
    same | low
  · rw [same, interruptFrame, BitVec.getElem_or, flag, off]
    split <;> simp [rfMask]
  · rw [low]
    simp

/-- The frame pushed is there behind the pointer that delivery leaves in ESP. -/
theorem framed_behind {size : Nat} {cells : WrapMemory.Cells 32 Byte} {sa : StackAccess} {sp : Word}
    {frames : List (List Byte)} (framed : Framed size (s.withCells cells) sa frames)
    (atSp : sa = { StackAccess.of s.env with sp }) (gate descriptor : Word × Word) :
    Framed size { s.withCells cells with env := enterGate s.env gate descriptor sa }
      (.of (enterGate s.env gate descriptor sa)) frames := by
  obtain ⟨m, -, keeps⟩ := getSpMask_keeps (s.env.segs .ss).flags
  have mask : sa.spMask = getSpMask (s.env.segs .ss).flags := by rw [atSp]; rfl
  have stack : StackAccess.of (enterGate s.env gate descriptor sa) =
      { sa with sp := (enterGate s.env gate descriptor sa).regs .esp } := by rw [atSp]; rfl
  have under := (setEsp_masked { s.env with eflags := gateFlags gate.2 s.env.eflags } sa.sp sa.spMask).1
  rw [stack]
  exact framed.masked (mask ▸ keeps) rfl under.symm

/-- ESP behind delivery and the three pops is ESP before. -/
theorem iretEnv_esp {sa : StackAccess} {shift m : Nat} (keeps : Keeps (getSpMask (s.env.segs .ss).flags) m)
    (mask : sa.spMask = getSpMask (s.env.segs .ss).flags)
    (top : sa.sp = s.env.regs .esp - BitVec.ofNat 32 (3 * operand shift)) (gate descriptor : Word × Word)
    (cs : SegmentCache) (eip eflags : Word) :
    (iretEnv (enterGate s.env gate descriptor sa) shift cs eip eflags).regs .esp = s.env.regs .esp := by
  obtain ⟨ra, sp, spMask, ssBase, pl⟩ := sa
  obtain rfl : spMask = _ := mask
  change sp = _ at top
  obtain ⟨under, rest⟩ := setEsp_masked { s.env with eflags := gateFlags gate.2 s.env.eflags } sp
    (getSpMask (s.env.segs .ss).flags)
  let up := BitVec.ofNat 32 (operand shift)
  have popped := WrapMemory.masked_add keeps (WrapMemory.masked_add keeps
    (WrapMemory.masked_add keeps under up) up) up
  have back : sp + up + up + up = s.env.regs .esp := by
    have three : BitVec.ofNat 32 (3 * operand shift) = up + up + up := by
      rw [show 3 * operand shift = operand shift + operand shift + operand shift by ring, BitVec.ofNat_add,
        BitVec.ofNat_add]
    rw [top, three]
    ring
  rw [back] at popped
  exact setEsp_back rest popped

/-- The flags behind delivery and an IRET are those before as far as IF comes back. -/
theorem iretEnv_flags (q : Stock) {env : Env} (gate descriptor : Word × Word) (sa : StackAccess) (shift : Nat)
    (cs : SegmentCache) (eip : Word) {popped : Word}
    (pushed : PushedFlags env.eflags (cpuComputeEflags q env) popped) :
    cpuComputeEflags q (iretEnv (enterGate env gate descriptor sa) shift cs eip popped) &&& iretFlags =
        cpuComputeEflags q env &&& iretFlags ↔ RestoresIf gate env := by
  have clear : env.eflags &&& ifMask = 0 ↔ env.eflags[9] = false := masked_bit_iff env.eflags 9 (by decide)
  rw [iretEnv, cpuComputeEflags_loadEflags, RestoresIf, clear]
  generalize back : ({ setEsp _ _ _ with eip } : Env) = env'
  have level : env'.cpl = env.cpl := by rw [← back]; rfl
  have flags : env'.eflags = gateFlags gate.2 env.eflags := by rw [← back]; rfl
  obtain ⟨tf, nt, isIf⟩ := iretMask_bits env' shift
  rw [flags, returnedFlags_iff pushed tf nt, isIf, level, ioplOf, flags, ioplOf_gateFlags]

theorem looseIret_run (loose : LoosePm s) {cs : Resolved} (resolved : CsResolved s cs)
    (split : FlagsSplit q.cc s.env) {intno : Nat} {isInt : Bool} {errorCode nextEip : Word} {isHw : Bool}
    {gate : Word × Word} (finds : FindsGate s intno isInt gate)
    (noCode : (interruptFrame q s.env intno isInt errorCode nextEip isHw).errorCode = none)
    (delivered : doInterruptProtected q intno isInt errorCode nextEip isHw s = .ok () s₁)
    (tables : TablesUnmodified s s₁) :
    ∃ s₂, helperRetProtected q (gateShift gate) true 0 s₁ = .ok () s₂ ∧
      (Restored q.cc (gateShift gate) (if isInt then nextEip else s.env.eip) s.env s₂.env ↔
        RestoresIf gate s.env) := by
  obtain ⟨descriptor, sa, cells, framed, atSp, rfl⟩ := delivered_of_ok loose finds delivered
  obtain ⟨m, -, keeps⟩ := getSpMask_keeps (s.env.segs .ss).flags
  have bytes : (interruptFrame q s.env intno isInt errorCode nextEip isHw).words =
      [if isInt then nextEip else s.env.eip, (s.env.segs .cs).selector,
        (interruptFrame q s.env intno isInt errorCode nextEip isHw).eflags] := by
    rw [Frame.words, noCode]
    rfl
  have pushed := pushedFlags_frame split (gateShift gate) intno isInt errorCode nextEip isHw
  have notV86 := frame_notV86 loose split (gateShift gate) intno isInt errorCode nextEip isHw
  rw [Frame.bytes, bytes] at framed
  rw [bytes] at atSp
  generalize (interruptFrame q s.env intno isInt errorCode nextEip isHw).eflags = eflags at *
  generalize (if isInt then nextEip else s.env.eip) = resume at *
  have mask : sa.spMask = getSpMask (s.env.segs .ss).flags := by rw [atSp]; rfl
  have top : sa.sp = s.env.regs .esp - BitVec.ofNat 32 (3 * operand (gateShift gate)) := by rw [atSp]; rfl
  let behind : Sys := { s.withCells cells with env := enterGate s.env gate descriptor sa }
  have onStack : Framed _ behind (.of behind.env) _ := framed_behind framed atSp gate descriptor
  have whole := truncated_selector (gateShift gate) resolved.selector
  have resolves : pc110ResolveSeg (s.env.segs .cs).selector true behind = .ok cs behind :=
    resolve_unmodified (s := s) resolved.selector rfl rfl rfl tables resolved.resolves
  have on : pc110LoosePm behind = true := loose_on (s := s) loose
  refine ⟨_, helperRetProtected_framed on onStack whole notV86 resolves, ?_⟩
  have flags := iretEnv_flags q.cc gate descriptor sa (gateShift gate)
    ⟨(s.env.segs .cs).selector, cs.base, cs.limit, cs.flags⟩ (truncated (operand (gateShift gate)) resume) pushed
  constructor
  · intro restored
    exact flags.mp restored.flags
  · intro restores
    exact ⟨resolved.cached.symm, rfl, iretEnv_esp keeps mask top _ _ _ _ _, flags.mpr restores⟩

end Inverse

/-- An IRET as the handler's first instruction puts CS, EIP, ESP and the flags back. NT is clear
behind delivery, so it is no task return. -/
def IretUndoes (q : StockSeg) (isInt : Bool) (nextEip : Word) (gate : Word × Word) (s s₁ : Sys) : Prop :=
  Ends (helperRetProtected q (gateShift gate) true 0) s₁
    (fun _ s₂ => Restored q.cc (gateShift gate) (if isInt then nextEip else s.env.eip) s.env s₂.env)
    fun _ _ => False

/-- A loose IRET undoes delivery exactly when it can undo what the gate did to IF. -/
theorem iretUndoes_iff (q : StockSeg) (s s₁ : Sys) (loose : LoosePm s) (cs : Resolved) (resolved : CsResolved s cs)
    (split : FlagsSplit q.cc s.env) (intno : Nat) (isInt : Bool) (errorCode nextEip : Word) (isHw : Bool)
    (gate : Word × Word) (finds : FindsGate s intno isInt gate)
    (noCode : (interruptFrame q s.env intno isInt errorCode nextEip isHw).errorCode = none)
    (delivered : doInterruptProtected q intno isInt errorCode nextEip isHw s = .ok () s₁)
    (tables : TablesUnmodified s s₁) : IretUndoes q isInt nextEip gate s s₁ ↔ RestoresIf gate s.env := by
  obtain ⟨s₂, ran, restored⟩ := looseIret_run loose resolved split finds noCode delivered tables
  rw [← restored]
  constructor
  · intro undoes
    exact undoes.of_ok ran
  · intro back
    unfold IretUndoes Ends
    rw [ran]
    exact back

/-- A driver at some level with interrupts enabled and IOPL 0, in the fallback of F000h with
a stack that has this level. -/
def interruptedAt (cpl : BitVec 2) : Sys :=
  let rpl : Word := cpl.setWidth 32
  { unrealDriver 7 with
    env := { (unrealDriver 7).env with
      cpl
      eflags := 0x202
      regs := fun _ => 0x8000
      segs := fun
        | .ss => ⟨0xF000 ||| rpl, 0xF0000 ||| rpl <<< 4, 0xFFFF, looseFlags false ||| rpl <<< 13⟩
        | _ => ⟨0xF000, 0xF0000, 0xFFFF, looseFlags true⟩ } }

theorem tables_interruptedAt (cpl : BitVec 2) {s₁ : Sys} (ldt : s₁.mem.cells 0 = 0)
    (gdt : ∀ i ≤ 7, s₁.mem.cells (0x2000 + BitVec.ofNat 32 i) = 0) :
    TablesUnmodified (interruptedAt cpl) s₁ := by
  intro selector i within
  have which : table (interruptedAt cpl).env selector = ⟨0, 0, 0, 0⟩ ∨
      table (interruptedAt cpl).env selector = ⟨0, 0x2000, 7, 0⟩ := by
    unfold table
    split
    · exact .inl rfl
    · exact .inr rfl
  rcases which with inLdt | inGdt
  · rw [inLdt] at within ⊢
    change i ≤ 0 at within
    obtain rfl := Nat.le_zero.mp within
    exact ldt
  · rw [inGdt] at within ⊢
    change i ≤ 7 at within
    rw [gdt i within]
    interval_cases i <;> rfl

theorem iretUndoes_interruptedAt : ∃ s₁,
    doInterruptProtected default 8 false 0 0 true (interruptedAt 0) = .ok () s₁ ∧
      IretUndoes default false 0 gate70 (interruptedAt 0) s₁ := by
  refine ⟨_, rfl, (iretUndoes_iff default (interruptedAt 0) _ ⟨rfl, rfl, rfl, rfl⟩ (looseSegment 0xF000 true)
    ⟨rfl, rfl, rfl⟩ rfl 8 false 0 0 true gate70 ⟨rfl, by decide, by decide, by decide⟩ rfl rfl ?_).mpr ?_⟩
  · exact tables_interruptedAt 0 rfl (by decide)
  · exact .inr (.inr (by decide))

/-- From level 3 the interrupt gate's cleared IF is never restored. -/
theorem not_iretUndoes_interruptedAt : ¬ ∀ (q : StockSeg) (s s₁ : Sys) (_ : LoosePm s) (cs : Resolved)
    (_ : CsResolved s cs) (_ : FlagsSplit q.cc s.env) (intno : Nat) (isInt : Bool) (errorCode nextEip : Word)
    (isHw : Bool) (gate : Word × Word) (_ : FindsGate s intno isInt gate)
    (_ : (interruptFrame q s.env intno isInt errorCode nextEip isHw).errorCode = none)
    (_ : doInterruptProtected q intno isInt errorCode nextEip isHw s = .ok () s₁)
    (_ : TablesUnmodified s s₁), IretUndoes q isInt nextEip gate s s₁ := by
  intro every
  have undoes := every default (interruptedAt 3) _ ⟨rfl, rfl, rfl, rfl⟩ (looseSegment 0xF000 true)
    ⟨rfl, rfl, rfl⟩ rfl 8 false 0 0 true gate70 ⟨rfl, by decide, by decide, by decide⟩ rfl rfl
    (tables_interruptedAt 3 rfl (by decide))
  have flags := (undoes.of_ok rfl).flags
  exact absurd flags (by decide)

end Pc110.SegHelper
