import Pc110.LooseIret

/-! Far calls in loose PM and the far returns behind them. Both resolve their target alike
and neither checks it, so a return finds the caller's CS:EIP as long as its frame and the
tables are unmodified. -/
namespace Pc110.SegHelper

open LsbBits (Byte)
open Faulting (Ends bind_ok bind_error)
open WrapMemory (Keeps place)

/-- The far call of stock QEMU, outside loose PM. -/
structure StockCall where
  lcallProtected : (newCs newEip : Word) → (shift : Nat) → (nextEip : Word) → Helper Unit
  deriving Inhabited

def callOperand (shift : Nat) : Nat := if shift ≠ 0 then 4 else 2

def helperLcallProtected (q : StockCall) (newCs newEip : Word) (shift : Nat) (nextEip : Word) :
    Helper Unit := do
  let s ← get
  if pc110LoosePm s then
    let sa ← (StackAccess.of s.env .getpc).push (callOperand shift) (s.env.segs .cs).selector
    let sa ← sa.push (callOperand shift) nextEip
    modify fun s => { s with env := setEsp s.env sa.sp sa.spMask }
    let cs ← pc110ResolveSeg newCs true
    modify fun s =>
      let env := loadSegCache s.env .cs
        { selector := newCs, base := cs.base, limit := cs.limit, flags := cs.flags }
      { s with env := { env with eip := newEip } }
  else q.lcallProtected newCs newEip shift nextEip

/-- CS, EIP and ESP may differ, and nothing else does. -/
structure Transfers (before after : Env) : Prop where
  regs : ∀ r, r ≠ .esp → after.regs r = before.regs r
  segs : ∀ seg, seg ≠ .cs → after.segs seg = before.segs seg
  flags : after.eflags = before.eflags ∧ after.ccOp = before.ccOp ∧ after.ccSrc = before.ccSrc ∧
    after.ccDst = before.ccDst ∧ after.ccSrc2 = before.ccSrc2 ∧ after.df = before.df
  control : after.cr0 = before.cr0 ∧ after.cpl = before.cpl
  tables : after.gdt = before.gdt ∧ after.ldt = before.ldt ∧ after.idt = before.idt

/-- What the called code leaves for the return: its frame, where it was. -/
structure FrameKept (size : Nat) (s₁ s₂ : Sys) : Prop where
  loose : pc110LoosePm s₂ = true
  stack : StackAccess.of s₂.env = StackAccess.of s₁.env
  frame : ∀ i < 2, ∀ j < size,
    let cell := place (StackAccess.of s₁.env).ssBase (StackAccess.of s₁.env).spMask
      (s₁.env.regs .esp + BitVec.ofNat 32 (i * size)) + BitVec.ofNat 32 j
    s₂.mem.cells cell = s₁.mem.cells cell
  readable : s₂.mem.readable = s₁.mem.readable
  gdt : s₂.env.gdt = s₁.env.gdt
  ldt : s₂.env.ldt = s₁.env.ldt

/-- The caller's CS:EIP again, and `addend` bytes of its stack released. -/
structure ReturnsTo (addend resume : Word) (before after : Env) : Prop where
  cs : after.segs .cs = before.segs .cs
  eip : after.eip = resume
  under : after.regs .esp &&& getSpMask (before.segs .ss).flags =
    (before.regs .esp + addend) &&& getSpMask (before.segs .ss).flags
  outside : after.regs .esp &&& ~~~getSpMask (before.segs .ss).flags =
    before.regs .esp &&& ~~~getSpMask (before.segs .ss).flags

section Call
variable {q : StockCall} {s s₁ : Sys}

def calledEnv (env : Env) (sp : Word) (cs : SegmentCache) (eip : Word) : Env :=
  { loadSegCache (setEsp env sp (getSpMask (env.segs .ss).flags)) .cs cs with eip }

theorem resolve_reads (selector : Word) (isCode : Bool) (s : Sys) : Reads (pc110ResolveSeg selector isCode) s := by
  by_cases inside : selector &&& 0xFFFC ≠ 0 ∧ InLimit selector s
  · rcases reads_descriptor s.env selector .zero s with ⟨d, read⟩ | ⟨p, fault⟩
    · exact .inl ⟨_, resolve_in isCode inside.1 inside.2 read⟩
    · exact .inr ⟨p, resolve_fault isCode inside.1 inside.2 fault⟩
  · exact .inl ⟨_, resolve_out isCode inside⟩

/-- A completed loose far call: CS and the return address on the stack, the target in CS:EIP. -/
theorem called_of_ok (loose : pc110LoosePm s = true) {newCs newEip nextEip : Word} {shift : Nat}
    (ran : helperLcallProtected q newCs newEip shift nextEip s = .ok () s₁) :
    ∃ cs cells sa, Framed (callOperand shift) (s.withCells cells) sa
        [LsbBits.bytes (callOperand shift) nextEip.toNat,
          LsbBits.bytes (callOperand shift) (s.env.segs .cs).selector.toNat] ∧
      sa = { StackAccess.of s.env .getpc with
        sp := s.env.regs .esp - BitVec.ofNat 32 (callOperand shift) - BitVec.ofNat 32 (callOperand shift) } ∧
      s₁ = { s.withCells cells with env := calledEnv s.env sa.sp cs newEip } := by
  obtain ⟨m, wide, keeps⟩ := getSpMask_keeps (s.env.segs .ss).flags
  have room : 2 * callOperand shift ≤ 2 ^ m := by
    have := Nat.pow_le_pow_right (show 0 < 2 by decide) wide
    have : callOperand shift ≤ 4 := by unfold callOperand; split <;> decide
    omega
  rw [helperLcallProtected, Faulting.get_bind, if_pos loose] at ran
  obtain ⟨sa, t, pushCs, ran⟩ := Faulting.of_bind_ok ran
  obtain ⟨sa', t', pushEip, ran⟩ := Faulting.of_bind_ok ran
  have start := Pushed.refl (callOperand shift) s (.of s.env .getpc) (.empty _ _ _)
  obtain ⟨sp, pushed⟩ := (start.push keeps _ (by simp; omega)).of_ok pushCs
  obtain ⟨sp', pushed'⟩ := (pushed.push keeps _ (by simp; omega)).of_ok pushEip
  obtain ⟨cells, rfl⟩ := pushed'.rest
  obtain ⟨_, t₁, moved, ran⟩ := Faulting.of_bind_ok ran
  cases moved
  obtain ⟨cs, t₂, resolved, ran⟩ := Faulting.of_bind_ok ran
  obtain rfl := (resolve_reads newCs true _).same resolved
  cases ran
  refine ⟨⟨newCs, cs.base, cs.limit, cs.flags⟩, cells, sa', pushed'.framed, ?_, ?_⟩
  · rw [pushed'.access, sp', sp]
    rfl
  · have mask : sa'.spMask = getSpMask (s.env.segs .ss).flags := by rw [pushed'.access]; rfl
    rw [calledEnv, ← mask]
    rfl

theorem calledEnv_transfers (env : Env) (sp : Word) (cs : SegmentCache) (eip : Word) :
    Transfers env (calledEnv env sp cs eip) where
  regs _ notEsp := Function.update_of_ne notEsp _ _
  segs _ notCs := Function.update_of_ne notCs _ _
  flags := ⟨rfl, rfl, rfl, rfl, rfl, rfl⟩
  control := ⟨rfl, rfl⟩
  tables := ⟨rfl, rfl, rfl⟩

end Call

section Return
variable {q : StockSeg} {s : Sys}

def lretEnv (env : Env) (shift : Nat) (cs : SegmentCache) (eip addend : Word) : Env :=
  let up := BitVec.ofNat 32 (operand shift)
  let back := setEsp (loadSegCache env .cs cs) (env.regs .esp + up + up + addend) (getSpMask (env.segs .ss).flags)
  { back with eip }

theorem helperRetProtected_lret (loose : pc110LoosePm s = true) {shift : Nat} {eip selector : Word}
    (framed : Framed (operand shift) s (.of s.env)
      [LsbBits.bytes (operand shift) eip.toNat, LsbBits.bytes (operand shift) selector.toNat])
    (whole : truncated (operand shift) selector &&& 0xFFFF = selector) {cs : Resolved}
    (resolves : pc110ResolveSeg selector true s = .ok cs s) (addend : Word) :
    helperRetProtected q shift false addend s = .ok () { s with
      env := lretEnv s.env shift ⟨selector, cs.base, cs.limit, cs.flags⟩ (truncated (operand shift) eip)
        addend } := by
  have framed₀ : Framed (operand shift) s (.of s.env .getpc) _ := framed.at .getpc
  obtain ⟨popEip, framed₁⟩ := pop_framed framed₀
  obtain ⟨popCs, -⟩ := pop_framed framed₁
  simp only [helperRetProtected, Faulting.get_bind]
  rw [bind_ok popEip, bind_ok popCs]
  simp only [Bool.false_eq_true, false_and, not_false_eq_true, and_true, if_false]
  rw [whole]
  change (if pc110LoosePm s = true then _ else _ : Helper Unit) s = _
  rw [if_pos loose, bind_ok resolves]
  rfl

def frameWords (isIret : Bool) : Nat := if isIret then 3 else 2

/-- The state behind either return, by what it has popped. -/
def retEnv (env : Env) (shift : Nat) (isIret : Bool) (addend : Word) (cs : SegmentCache) (eip eflags : Word) : Env :=
  let sp := env.regs .esp + BitVec.ofNat 32 (frameWords isIret * operand shift)
  let back := setEsp (loadSegCache env .cs cs) (sp + addend) (getSpMask (env.segs .ss).flags)
  let back := { back with eip }
  if isIret then loadEflags back eflags (iretMask back shift) else back

/-- The machine behind a return through the frame on its stack, once CS is resolved. -/
def returned (s : Sys) (shift : Nat) (isIret : Bool) (addend : Word) (cs : Resolved) : Sys :=
  { s with
    env := retEnv s.env shift isIret addend
      ⟨poppedWord (operand shift) s 1 &&& 0xFFFF, cs.base, cs.limit, cs.flags⟩
      (poppedWord (operand shift) s 0) (poppedWord (operand shift) s 2) }

/-- A loose return whose frame may be read has only CS left to resolve. -/
theorem helperRetProtected_words (loose : pc110LoosePm s = true) (shift : Nat) (isIret : Bool) (addend : Word)
    (readable : ∀ i < frameWords isIret, WordReadable (operand shift) s i)
    (notV86 : isIret = true → poppedWord (operand shift) s 2 &&& vmMask = 0) :
    helperRetProtected q shift isIret addend s =
      (pc110ResolveSeg (poppedWord (operand shift) s 1 &&& 0xFFFF) true >>= fun cs =>
        set (returned s shift isIret addend cs)) s := by
  have two : 2 ≤ frameWords isIret := by cases isIret <;> decide
  simp only [helperRetProtected, Faulting.get_bind]
  rw [popAt_zero (operand shift), bind_ok (pop_word (readable 0 (by omega))),
    bind_ok (pop_word (readable 1 (by omega)))]
  have finish (f : Resolved → Sys → Sys) (same : ∀ cs, f cs s = returned s shift isIret addend cs) :
      (pc110ResolveSeg (poppedWord (operand shift) s 1 &&& 0xFFFF) true >>= fun cs => modify (f cs)) s =
      (pc110ResolveSeg (poppedWord (operand shift) s 1 &&& 0xFFFF) true >>= fun cs =>
        set (returned s shift isIret addend cs)) s := by
    rcases resolve_reads (poppedWord (operand shift) s 1 &&& 0xFFFF) true s with ⟨cs, resolves⟩ | ⟨p, fault⟩
    · rw [bind_ok resolves, bind_ok resolves, ← same cs]
      rfl
    · rw [bind_error fault, bind_error fault]
  cases isIret with
  | true =>
    rw [if_pos rfl, bind_ok (pop_word (readable 2 (by decide))), if_pos ⟨loose, fun vm => vm.2 (notV86 rfl)⟩]
    exact finish _ fun cs => rfl
  | false =>
    rw [if_neg Bool.false_ne_true]
    change (if pc110LoosePm s = true ∧ ¬ (false = true ∧ _) then _ else _ : Helper Unit) s = _
    rw [if_pos ⟨loose, fun iret => Bool.false_ne_true iret.1⟩]
    exact finish _ fun cs => rfl

/-- One whose frame may not be read faults at the beginning of the instruction. -/
theorem helperRetProtected_denied (shift : Nat) (isIret : Bool) (addend : Word)
    (denied : ¬ ∀ i < frameWords isIret, WordReadable (operand shift) s i) :
    ∃ p, helperRetProtected q shift isIret addend s = .error (.page p) s.unwound := by
  simp only [helperRetProtected, Faulting.get_bind]
  rw [popAt_zero (operand shift)]
  by_cases eip : WordReadable (operand shift) s 0
  · rw [bind_ok (pop_word eip)]
    by_cases cs : WordReadable (operand shift) s 1
    · rw [bind_ok (pop_word cs)]
      cases isIret with
      | true =>
        have eflags : ¬ WordReadable (operand shift) s 2 := by
          refine fun eflags => denied fun i below => ?_
          have : i < 3 := below
          interval_cases i <;> assumption
        obtain ⟨p, fault⟩ := pop_denied eflags
        exact ⟨p, bind_error fault⟩
      | false =>
        refine absurd (fun i below => ?_) denied
        have : i < 2 := below
        interval_cases i <;> assumption
    · obtain ⟨p, fault⟩ := pop_denied cs
      exact ⟨p, bind_error fault⟩
  · obtain ⟨p, fault⟩ := pop_denied eip
    exact ⟨p, bind_error fault⟩
theorem lretEnv_transfers (env : Env) (shift : Nat) (cs : SegmentCache) (eip addend : Word) :
    Transfers env (lretEnv env shift cs eip addend) where
  regs _ notEsp := Function.update_of_ne notEsp _ _
  segs _ notCs := Function.update_of_ne notCs _ _
  flags := ⟨rfl, rfl, rfl, rfl, rfl, rfl⟩
  control := ⟨rfl, rfl⟩
  tables := ⟨rfl, rfl, rfl⟩

end Return

section Inverse
variable {s s₁ s₂ : Sys}

/-- A frame is read as long as its cells are kept. -/
theorem Framed.kept {size : Nat} {frame frame' : List Byte} (kept : FrameKept size s₁ s₂)
    (framed : Framed size s₁ (.of s₁.env) [frame, frame']) : Framed size s₂ (.of s₂.env) [frame, frame'] := by
  rw [kept.stack]
  have same (i : Nat) (below : i < 2) :
      WrapMemory.load s₂.mem.cells (place (StackAccess.of s₁.env).ssBase (StackAccess.of s₁.env).spMask
        ((StackAccess.of s₁.env).sp + BitVec.ofNat 32 (i * size))) size =
      WrapMemory.load s₁.mem.cells (place (StackAccess.of s₁.env).ssBase (StackAccess.of s₁.env).spMask
        ((StackAccess.of s₁.env).sp + BitVec.ofNat 32 (i * size))) size :=
    WrapMemory.load_congr fun j inside => kept.frame i below j inside
  refine ⟨⟨?_, ?_, trivial⟩, fun i below j inside => ?_⟩
  · have top := same 0 (by decide)
    rw [Nat.zero_mul, BitVec.add_zero] at top
    exact top.trans framed.holds.1
  · have next := same 1 (by decide)
    rw [Nat.one_mul] at next
    exact next.trans framed.holds.2.1
  · rw [kept.readable]
    exact framed.readable i below j inside

theorem callOperand_eq {shift : Nat} (sizes : shift ≤ 1) : callOperand shift = operand shift := by
  unfold callOperand operand
  split <;> split <;> omega

/-- The frame pushed is there behind the pointer that the call leaves in ESP. -/
theorem framed_called {size : Nat} {cells : WrapMemory.Cells 32 Byte} {sa : StackAccess} {sp : Word}
    {frames : List (List Byte)} (framed : Framed size (s.withCells cells) sa frames)
    (atSp : sa = { StackAccess.of s.env .getpc with sp }) (cs : SegmentCache) (eip : Word) :
    Framed size { s.withCells cells with env := calledEnv s.env sa.sp cs eip }
      (.of (calledEnv s.env sa.sp cs eip)) frames := by
  obtain ⟨m, -, keeps⟩ := getSpMask_keeps (s.env.segs .ss).flags
  have mask : sa.spMask = getSpMask (s.env.segs .ss).flags := by rw [atSp]; rfl
  have stack : StackAccess.of (calledEnv s.env sa.sp cs eip) =
      { sa with ra := .zero, sp := (calledEnv s.env sa.sp cs eip).regs .esp } := by rw [atSp]; rfl
  have under := (setEsp_masked s.env sa.sp sa.spMask).1
  rw [stack]
  exact (framed.at .zero).masked (mask ▸ keeps) rfl (under.symm.trans (by rw [mask]; rfl))

/-- The call moved ESP down by two words and the return moves it up by two and the addend. -/
theorem lretEnv_esp {env env₂ : Env} {shift : Nat} {sp addend : Word} (cs : SegmentCache) (eip : Word)
    (down : sp = env.regs .esp - BitVec.ofNat 32 (operand shift) - BitVec.ofNat 32 (operand shift))
    (esp : env₂.regs .esp = (setEsp env sp (getSpMask (env.segs .ss).flags)).regs .esp)
    (mask : getSpMask (env₂.segs .ss).flags = getSpMask (env.segs .ss).flags) :
    let after := (lretEnv env₂ shift cs eip addend).regs .esp
    after &&& getSpMask (env.segs .ss).flags = (env.regs .esp + addend) &&& getSpMask (env.segs .ss).flags ∧
    after &&& ~~~getSpMask (env.segs .ss).flags = env.regs .esp &&& ~~~getSpMask (env.segs .ss).flags := by
  obtain ⟨m, -, keeps⟩ := getSpMask_keeps (env.segs .ss).flags
  let up := BitVec.ofNat 32 (operand shift)
  obtain ⟨under, outside⟩ := setEsp_masked env sp (getSpMask (env.segs .ss).flags)
  obtain ⟨under', outside'⟩ := setEsp_masked (loadSegCache env₂ .cs cs) (env₂.regs .esp + up + up + addend)
    (getSpMask (env.segs .ss).flags)
  have released := WrapMemory.masked_add keeps (WrapMemory.masked_add keeps
    (WrapMemory.masked_add keeps under up) up) addend
  have back : sp + up + up + addend = env.regs .esp + addend := by
    rw [down]
    ring
  rw [back, ← esp] at released
  simp only [lretEnv, mask]
  exact ⟨under'.trans released, outside'.trans (esp ▸ outside)⟩

/-- A loose far return behind a loose far call comes back to the caller. -/
theorem lret_lcall (q : StockSeg) (q' : StockCall) (s s₁ s₂ : Sys) (loose : pc110LoosePm s = true)
    (cs : Resolved) (resolved : CsResolved s cs) (newCs newEip nextEip addend : Word) (shift : Nat)
    (sizes : shift ≤ 1) (fits : truncated (operand shift) nextEip = nextEip)
    (called : helperLcallProtected q' newCs newEip shift nextEip s = .ok () s₁)
    (kept : FrameKept (operand shift) s₁ s₂) (tables : TablesUnmodified s s₂) :
    Transfers s.env s₁.env ∧ ∃ s₃, helperRetProtected q shift false addend s₂ = .ok () s₃ ∧
      ReturnsTo addend nextEip s.env s₃.env ∧ Transfers s₂.env s₃.env ∧ s₃.mem = s₂.mem := by
  obtain ⟨target, cells, sa, framed, atSp, rfl⟩ := called_of_ok loose called
  rw [callOperand_eq sizes] at framed atSp
  have found := (framed_called framed atSp target newEip).kept kept
  have resolves : pc110ResolveSeg (s.env.segs .cs).selector true s₂ = .ok cs s₂ :=
    resolve_unmodified (s := s) resolved.selector kept.gdt kept.ldt kept.readable tables resolved.resolves
  have whole := truncated_selector shift resolved.selector
  have esp : s₂.env.regs .esp = (calledEnv s.env sa.sp target newEip).regs .esp :=
    congrArg StackAccess.sp kept.stack
  have mask : getSpMask (s₂.env.segs .ss).flags = getSpMask (s.env.segs .ss).flags :=
    congrArg StackAccess.spMask kept.stack
  obtain ⟨under, outside⟩ := lretEnv_esp
    ⟨(s.env.segs .cs).selector, cs.base, cs.limit, cs.flags⟩ (truncated (operand shift) nextEip)
    (congrArg StackAccess.sp atSp) esp mask
  exact ⟨calledEnv_transfers _ _ _ _, _, helperRetProtected_lret kept.loose found whole resolves addend,
    ⟨resolved.cached.symm, fits, under, outside⟩, lretEnv_transfers _ _ _ _ _, rfl⟩

end Inverse

theorem FrameKept.refl {size : Nat} {s : Sys} (loose : pc110LoosePm s = true) : FrameKept size s s :=
  ⟨loose, rfl, fun _ _ _ _ => rfl, rfl, rfl, rfl⟩

/-- A driver in the fallback of F000h calls 70h:100h and returns at once with 4 bytes of arguments. -/
theorem lret_lcall_driver : ∃ s₁ s₃,
    helperLcallProtected default 0x70 0x100 0 0x1234 (interruptedAt 0) = .ok () s₁ ∧
    helperRetProtected default 0 false 4 s₁ = .ok () s₃ ∧
    ReturnsTo 4 0x1234 (interruptedAt 0).env s₃.env ∧ Transfers s₁.env s₃.env := by
  obtain ⟨-, s₃, returned, back, only, -⟩ := lret_lcall default default (interruptedAt 0) _ _ rfl
    (looseSegment 0xF000 true) ⟨rfl, rfl, rfl⟩ 0x70 0x100 0x1234 4 0 (by decide) (by decide) rfl (.refl rfl)
    (tables_interruptedAt 0 rfl (by decide))
  exact ⟨_, s₃, rfl, returned, back, only⟩

end Pc110.SegHelper
