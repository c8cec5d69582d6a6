import Mathlib.Logic.Relation
import Pc110.LooseCall

/-! Far calls and interrupts of loose PM, nested as they come. What each of them left is pending
until its frame is popped; code in between may do what it likes but for the cells of pending
frames and of the descriptor tables. Then the stack in memory serves as the list of what is
pending: a return or IRET at the topmost frame comes back to what it was pushed for. -/
namespace Pc110.SegHelper

open LsbBits (Byte)
open Faulting (bind_ok)
open Masks (masked_eq_iff)
open WrapMemory (Keeps place)
open Relation (ReflTransGen)

/-- A far call or, with flags, an interrupt that is to be returned from. -/
structure Activation where
  /-- The machine when it was left. -/
  left : Env
  resume : Word
  shift : Nat
  flags : Option Word

namespace Activation
variable (a : Activation)

/-- The words on the stack, top first. -/
def words : List Word := [a.resume, (a.left.segs .cs).selector] ++ a.flags.toList

def frames : List (List Byte) := a.words.map fun v => LsbBits.bytes (operand a.shift) v.toNat

def stack : StackAccess :=
  let sp := a.left.regs .esp - BitVec.ofNat 32 (a.words.length * operand a.shift)
  { StackAccess.of a.left with sp := (setEsp a.left sp (getSpMask (a.left.segs .ss).flags)).regs .esp }

end Activation

/-- A far call pushes no flags. -/
def called (s : Sys) (nextEip : Word) (shift : Nat) : Activation := ⟨s.env, nextEip, shift, none⟩

/-- An interrupt pushes its gate's size of what is in the frame. -/
def interrupted (s : Sys) (gate : Word × Word) (frame : Frame) : Activation :=
  ⟨s.env, frame.eip, gateShift gate, some frame.eflags⟩

def frameCells (size n : Nat) (sa : StackAccess) (c : Word) : Prop :=
  ∃ i < n, ∃ j < size, c = place sa.ssBase sa.spMask (sa.sp + BitVec.ofNat 32 (i * size)) + BitVec.ofNat 32 j

def Activation.cells (a : Activation) (c : Word) : Prop := frameCells (operand a.shift) a.words.length a.stack c

def tableCells (env : Env) (c : Word) : Prop :=
  ∃ selector, ∃ i ≤ (table env selector).limit.toNat, c = (table env selector).base + BitVec.ofNat 32 i

/-- What everything that runs leaves alone. -/
def Guarded (env : Env) (pending : List Activation) (c : Word) : Prop :=
  tableCells env c ∨ ∃ a ∈ pending, a.cells c

/-- Memory elsewhere may differ, and so may the registers. -/
structure Leaves (guard : Word → Prop) (s s' : Sys) : Prop where
  loose : pc110LoosePm s' = pc110LoosePm s
  gdt : s'.env.gdt = s.env.gdt
  ldt : s'.env.ldt = s.env.ldt
  readable : s'.mem.readable = s.mem.readable
  cells : ∀ c, guard c → s'.mem.cells c = s.mem.cells c

section Pushes
variable {size n : Nat} {s t t' : Sys} {sa sa' : StackAccess} {v : Word}

theorem frameCells_congr {m : Nat} {sp : Word} (keeps : Keeps sa.spMask m)
    (same : sa.sp &&& sa.spMask = sp &&& sa.spMask) (c : Word) :
    frameCells size n sa c ↔ frameCells size n { sa with sp } c := by
  have place (i : Nat) : place sa.ssBase sa.spMask (sp + BitVec.ofNat 32 (i * size)) =
      place sa.ssBase sa.spMask (sa.sp + BitVec.ofNat 32 (i * size)) :=
    congrArg (sa.ssBase + ·) (WrapMemory.masked_add keeps same _).symm
  simp only [frameCells, place]

/-- Pushes store to their frames alone. -/
theorem push_only (pushes : sa.push size v t = .ok sa' t')
    (only : ∀ c, ¬ frameCells size n sa c → t.mem.cells c = s.mem.cells c) (c : Word)
    (out : ¬ frameCells size (n + 1) sa' c) : t'.mem.cells c = s.mem.cells c := by
  obtain ⟨_, t₁, wrote, done⟩ := Faulting.of_bind_ok pushes
  cases done
  have stored : t' = t.withCells (WrapMemory.store t.mem.cells (place sa.ssBase sa.spMask (sa.sp - BitVec.ofNat 32 size))
      (LsbBits.bytes size v.toNat)) := ((writeCells_ends _ sa.ra).of_ok wrote).1
  subst stored
  refine (WrapMemory.store_outside _ _ _ fun j inside here => out ⟨0, Nat.succ_pos n, j, ?_, ?_⟩).trans (only c ?_)
  · rwa [LsbBits.bytes_length] at inside
  · simpa only [Nat.zero_mul, BitVec.add_zero] using here
  · rintro ⟨i, below, j, inside, here⟩
    refine out ⟨i + 1, Nat.succ_lt_succ below, j, inside, here.trans ?_⟩
    have up : sa.sp - BitVec.ofNat 32 size + BitVec.ofNat 32 ((i + 1) * size) = sa.sp + BitVec.ofNat 32 (i * size) := by
      rw [Nat.succ_mul, BitVec.ofNat_add]
      ring
    simp only [up]

theorem push_moves (pushes : sa.push size v t = .ok sa' t') : sa' = { sa with sp := sa.sp - BitVec.ofNat 32 size } := by
  obtain ⟨_, _, -, done⟩ := Faulting.of_bind_ok pushes
  cases done
  rfl

end Pushes

/-- An entry stored its frames, where they may be read, and changed no other cell. -/
structure Entered (a : Activation) (s s' : Sys) : Prop extends Leaves (fun c => ¬ a.cells c) s s' where
  top : StackAccess.of s'.env = a.stack
  framed : Framed (operand a.shift) s' a.stack a.frames

section Entries
variable {s s' : Sys}

/-- The frame cells, by the pointer before it went into ESP. -/
theorem Activation.cells_iff (a : Activation) (c : Word) : a.cells c ↔
    frameCells (operand a.shift) a.words.length { StackAccess.of a.left with
      sp := a.left.regs .esp - BitVec.ofNat 32 (a.words.length * operand a.shift) } c := by
  obtain ⟨m, -, keeps⟩ := getSpMask_keeps (a.left.segs .ss).flags
  have same : a.stack.sp &&& a.stack.spMask = _ := (setEsp_masked a.left _ _).1
  exact frameCells_congr keeps same c

theorem called_cells {q : StockCall} (loose : pc110LoosePm s = true) {newCs newEip nextEip : Word} {shift : Nat}
    (ran : helperLcallProtected q newCs newEip shift nextEip s = .ok () s') (c : Word)
    (out : ¬ frameCells (callOperand shift) 2 { StackAccess.of s.env with
      sp := s.env.regs .esp - BitVec.ofNat 32 (callOperand shift) - BitVec.ofNat 32 (callOperand shift) } c) :
    s'.mem.cells c = s.mem.cells c := by
  rw [helperLcallProtected, Faulting.get_bind, if_pos loose] at ran
  obtain ⟨sa, t, pushCs, ran⟩ := Faulting.of_bind_ok ran
  obtain ⟨sa', t', pushEip, ran⟩ := Faulting.of_bind_ok ran
  have first := push_only (n := 0) (s := s) pushCs fun _ _ => rfl
  have second := push_only pushEip first
  obtain rfl := push_moves pushCs
  obtain rfl := push_moves pushEip
  obtain ⟨_, t₁, moved, ran⟩ := Faulting.of_bind_ok ran
  cases moved
  obtain ⟨cs, t₂, resolved, ran⟩ := Faulting.of_bind_ok ran
  obtain rfl := (resolve_reads newCs true _).same resolved
  cases ran
  exact second c out

theorem entered_of_call {q : StockCall} (loose : pc110LoosePm s = true) {newCs newEip nextEip : Word} {shift : Nat}
    (sizes : shift ≤ 1) (ran : helperLcallProtected q newCs newEip shift nextEip s = .ok () s') :
    Entered (called s nextEip shift) s s' := by
  have only := called_cells loose ran
  obtain ⟨target, cells, sa, framed, atSp, rfl⟩ := called_of_ok loose ran
  have down : s.env.regs .esp - BitVec.ofNat 32 (operand shift) - BitVec.ofNat 32 (operand shift) =
      s.env.regs .esp - BitVec.ofNat 32 (2 * operand shift) := by
    rw [Nat.two_mul, BitVec.ofNat_add]
    ring
  rw [callOperand_eq sizes, down] at only atSp
  rw [callOperand_eq sizes] at framed
  have stack : StackAccess.of (calledEnv s.env sa.sp target newEip) = (called s nextEip shift).stack := by
    rw [atSp]
    rfl
  refine ⟨⟨rfl, rfl, rfl, rfl, fun c out => only c (mt (Activation.cells_iff (called s nextEip shift) c).mpr out)⟩,
    stack, ?_⟩
  rw [← stack]
  exact framed_called framed atSp target newEip

theorem frame_push_only {size : Nat} {sa sa' : StackAccess} {frame : Frame} (noCode : frame.errorCode = none)
    (pushes : frame.push size sa s = .ok sa' s') (c : Word)
    (out : ¬ frameCells size 3 { sa with sp := sa.sp - BitVec.ofNat 32 (3 * size) } c) :
    s'.mem.cells c = s.mem.cells c := by
  obtain ⟨sa₁, t₁, pushFlags, pushes⟩ := Faulting.of_bind_ok pushes
  obtain ⟨sa₂, t₂, pushCs, pushes⟩ := Faulting.of_bind_ok pushes
  obtain ⟨sa₃, t₃, pushEip, pushes⟩ := Faulting.of_bind_ok pushes
  rw [noCode] at pushes
  cases pushes
  have first := push_only (n := 0) (s := s) pushFlags fun _ _ => rfl
  have second := push_only pushCs first
  have third := push_only pushEip second
  obtain rfl := push_moves pushFlags
  obtain rfl := push_moves pushCs
  obtain rfl := push_moves pushEip
  refine third c ?_
  have down : sa.sp - BitVec.ofNat 32 size - BitVec.ofNat 32 size - BitVec.ofNat 32 size =
      sa.sp - BitVec.ofNat 32 (3 * size) := by
    rw [show 3 * size = size + size + size by ring, BitVec.ofNat_add, BitVec.ofNat_add]
    ring
  simp only [down]
  exact out

theorem delivered_cells {q : StockSeg} (loose : LoosePm s) {intno : Nat} {isInt : Bool} {gate : Word × Word}
    (finds : FindsGate s intno isInt gate) {errorCode nextEip : Word} {isHw : Bool}
    (noCode : (interruptFrame q s.env intno isInt errorCode nextEip isHw).errorCode = none)
    (ran : doInterruptProtected q intno isInt errorCode nextEip isHw s = .ok () s') (c : Word)
    (out : ¬ frameCells (operand (gateShift gate)) 3 { StackAccess.of s.env with
      sp := s.env.regs .esp - BitVec.ofNat 32 (3 * operand (gateShift gate)) } c) :
    s'.mem.cells c = s.mem.cells c := by
  rw [doInterruptProtected_loose loose finds] at ran
  obtain ⟨descriptor, t, code, entered⟩ := Faulting.of_bind_ok ran
  obtain rfl := codeDescriptor_reads loose code
  rw [deliverSame, Faulting.get_bind] at entered
  obtain ⟨sa, t', pushes, finish⟩ := Faulting.of_bind_ok entered
  cases finish
  exact frame_push_only noCode pushes c out

theorem entered_of_interrupt {q : StockSeg} (loose : LoosePm s) {intno : Nat} {isInt : Bool} {gate : Word × Word}
    (finds : FindsGate s intno isInt gate) {errorCode nextEip : Word} {isHw : Bool}
    (noCode : (interruptFrame q s.env intno isInt errorCode nextEip isHw).errorCode = none)
    (ran : doInterruptProtected q intno isInt errorCode nextEip isHw s = .ok () s') :
    Entered (interrupted s gate (interruptFrame q s.env intno isInt errorCode nextEip isHw)) s s' := by
  have only := delivered_cells loose finds noCode ran
  obtain ⟨descriptor, sa, cells, framed, atSp, rfl⟩ := delivered_of_ok loose finds ran
  have words : (interruptFrame q s.env intno isInt errorCode nextEip isHw).words =
      (interrupted s gate (interruptFrame q s.env intno isInt errorCode nextEip isHw)).words := by
    rw [Frame.words, noCode]
    rfl
  rw [Frame.bytes, words] at framed
  rw [words] at atSp
  generalize interruptFrame q s.env intno isInt errorCode nextEip isHw = frame at *
  have stack : StackAccess.of (enterGate s.env gate descriptor sa) = (interrupted s gate frame).stack := by
    rw [atSp]
    rfl
  refine ⟨⟨rfl, rfl, rfl, rfl, fun c out => only c (mt (Activation.cells_iff (interrupted s gate frame) c).mpr out)⟩,
    stack, ?_⟩
  rw [← stack]
  exact framed_behind framed atSp gate descriptor

end Entries

structure Waits (q : Stock) (s : Sys) (a : Activation) : Prop where
  framed : Framed (operand a.shift) s a.stack a.frames
  resolves : ∃ cs, pc110ResolveSeg (a.left.segs .cs).selector true s = .ok cs s ∧
    a.left.segs .cs = ⟨(a.left.segs .cs).selector, cs.base, cs.limit, cs.flags⟩
  selector : (a.left.segs .cs).selector &&& 0xFFFF = (a.left.segs .cs).selector
  notV86 : ∀ eflags ∈ a.flags, truncated (operand a.shift) eflags &&& vmMask = 0
  flags : ∀ eflags ∈ a.flags, eflags &&& iretFlags = cpuComputeEflags q a.left &&& iretFlags

/-- The stack in memory is the list of what is pending. -/
structure Stacked (q : Stock) (s : Sys) (pending : List Activation) : Prop where
  loose : pc110LoosePm s = true
  waits : ∀ a ∈ pending, Waits q s a

/-- What is pending is what was entered and not left, last first. -/
inductive NestStep (q : StockSeg) (q' : StockCall) : Sys × List Activation → Sys × List Activation → Prop
  | code {s s' pending} (leaves : Leaves (Guarded s.env pending) s s') : NestStep q q' (s, pending) (s', pending)
  | call {s s' pending cs newCs newEip nextEip shift} (resolved : CsResolved s cs) (sizes : shift ≤ 1)
      (apart : ∀ c, Guarded s.env pending c → ¬ (called s nextEip shift).cells c)
      (ran : helperLcallProtected q' newCs newEip shift nextEip s = .ok () s') :
      NestStep q q' (s, pending) (s', called s nextEip shift :: pending)
  | interrupt {s s' pending cs intno isInt gate errorCode nextEip isHw} (on : LoosePm s)
      (resolved : CsResolved s cs) (split : FlagsSplit q.cc s.env) (finds : FindsGate s intno isInt gate)
      (noCode : (interruptFrame q s.env intno isInt errorCode nextEip isHw).errorCode = none)
      (apart : ∀ c, Guarded s.env pending c →
        ¬ (interrupted s gate (interruptFrame q s.env intno isInt errorCode nextEip isHw)).cells c)
      (ran : doInterruptProtected q intno isInt errorCode nextEip isHw s = .ok () s') :
      NestStep q q' (s, pending)
        (s', interrupted s gate (interruptFrame q s.env intno isInt errorCode nextEip isHw) :: pending)
  | leave {s s' a pending addend} (top : StackAccess.of s.env = a.stack) (plain : a.flags.isSome → addend = 0)
      (ran : helperRetProtected q a.shift a.flags.isSome addend s = .ok () s') :
      NestStep q q' (s, a :: pending) (s', pending)

section Waiting
variable {q : Stock} {s s' : Sys} {a : Activation} {pending : List Activation}

theorem Framed.leaves {guard : Word → Prop} {size : Nat} {sa : StackAccess} {frames : List (List Byte)}
    (leaves : Leaves guard s s') (guarded : ∀ c, frameCells size frames.length sa c → guard c)
    (framed : Framed size s sa frames) : Framed size s' sa frames := by
  refine ⟨framed.holds.congr fun i below j inside => ?_, fun i below j inside => ?_⟩
  · exact leaves.cells _ (guarded _ ⟨i, below, j, inside, rfl⟩)
  · rw [leaves.readable]
    exact framed.readable i below j inside

theorem Leaves.tables {guard : Word → Prop} (leaves : Leaves guard s s')
    (guarded : ∀ c, tableCells s.env c → guard c) : TablesUnmodified s s' := fun selector i within =>
  leaves.cells _ (guarded _ ⟨selector, i, within, rfl⟩)

theorem Waits.leaves {guard : Word → Prop} (leaves : Leaves guard s s')
    (tables : ∀ c, tableCells s.env c → guard c) (cells : ∀ c, a.cells c → guard c) (waits : Waits q s a) :
    Waits q s' a := by
  obtain ⟨cs, resolves, cached⟩ := waits.resolves
  have length : a.frames.length = a.words.length := List.length_map _
  refine ⟨waits.framed.leaves leaves (by rwa [length]), ⟨cs, ?_, cached⟩, waits.selector, waits.notV86,
    waits.flags⟩
  exact resolve_unmodified waits.selector leaves.gdt leaves.ldt leaves.readable (leaves.tables tables) resolves

theorem Stacked.leaves (leaves : Leaves (Guarded s.env pending) s s') (stacked : Stacked q s pending) :
    Stacked q s' pending where
  loose := leaves.loose.trans stacked.loose
  waits b waiting := (stacked.waits b waiting).leaves leaves (fun _ => .inl) fun _ inside => .inr ⟨b, waiting, inside⟩

/-- An entry apart from everything guarded is the topmost of what waits. -/
theorem Stacked.entered {cs : Resolved} (stacked : Stacked q s pending) (entered : Entered a s s')
    (apart : ∀ c, Guarded s.env pending c → ¬ a.cells c) (left : a.left = s.env) (resolved : CsResolved s cs)
    (notV86 : ∀ eflags ∈ a.flags, truncated (operand a.shift) eflags &&& vmMask = 0)
    (flags : ∀ eflags ∈ a.flags, eflags &&& iretFlags = cpuComputeEflags q a.left &&& iretFlags) :
    Stacked q s' (a :: pending) := by
  have tables (c : Word) (inside : tableCells s.env c) : ¬ a.cells c := apart c (.inl inside)
  refine ⟨entered.loose.trans stacked.loose, fun b waiting => ?_⟩
  rcases List.mem_cons.mp waiting with rfl | waiting
  · refine ⟨entered.framed, ⟨cs, ?_, ?_⟩, ?_, notV86, flags⟩
    · rw [left]
      exact resolve_unmodified resolved.selector entered.gdt entered.ldt entered.readable
        (entered.toLeaves.tables tables) resolved.resolves
    · rw [left]
      exact resolved.cached
    · rw [left]
      exact resolved.selector
  · exact (stacked.waits b waiting).leaves entered.toLeaves tables fun c inside => apart c (.inr ⟨b, waiting, inside⟩)

end Waiting

section Leaving
variable {q : StockSeg} {s : Sys} {a : Activation}

/-- ESP went down by the frame and comes back up by it and the addend. -/
theorem released_esp {left env : Env} {down mask : Word} {m : Nat} (keeps : Keeps mask m)
    (esp : env.regs .esp = (setEsp left (left.regs .esp - down) mask).regs .esp) (addend : Word) :
    let after := (setEsp env (env.regs .esp + down + addend) mask).regs .esp
    after &&& mask = (left.regs .esp + addend) &&& mask ∧ after &&& ~~~mask = left.regs .esp &&& ~~~mask := by
  obtain ⟨under, outside⟩ := setEsp_masked left (left.regs .esp - down) mask
  obtain ⟨under', outside'⟩ := setEsp_masked env (env.regs .esp + down + addend) mask
  have released := WrapMemory.masked_add keeps (WrapMemory.masked_add keeps under down) addend
  rw [BitVec.sub_add_cancel, ← esp] at released
  exact ⟨under'.trans released, outside'.trans (by rw [esp, outside])⟩

theorem lretEnv_up (env : Env) (shift : Nat) (cs : SegmentCache) (eip addend : Word) :
    (lretEnv env shift cs eip addend).regs .esp = (setEsp env
      (env.regs .esp + BitVec.ofNat 32 (2 * operand shift) + addend) (getSpMask (env.segs .ss).flags)).regs .esp := by
  have two (x : Word) : x + BitVec.ofNat 32 (2 * operand shift) =
      x + BitVec.ofNat 32 (operand shift) + BitVec.ofNat 32 (operand shift) := by
    rw [Nat.two_mul, BitVec.ofNat_add]
    ring
  rw [two]
  rfl

theorem iretEnv_up (env : Env) (shift : Nat) (cs : SegmentCache) (eip eflags : Word) :
    (iretEnv env shift cs eip eflags).regs .esp = (setEsp env
      (env.regs .esp + BitVec.ofNat 32 (3 * operand shift) + 0) (getSpMask (env.segs .ss).flags)).regs .esp := by
  have three (x : Word) : x + BitVec.ofNat 32 (3 * operand shift) + 0 =
      x + BitVec.ofNat 32 (operand shift) + BitVec.ofNat 32 (operand shift) + BitVec.ofNat 32 (operand shift) := by
    rw [show 3 * operand shift = operand shift + operand shift + operand shift by ring, BitVec.ofNat_add,
      BitVec.ofNat_add]
    ring
  rw [three]
  rfl

/-- QEMU keeps the arithmetic flags and DF out of `eflags`. -/
def PlainFlags (env : Env) : Prop := env.eflags &&& (pcCcMask ||| dfMask) = 0

theorem iretMask_level0 {env : Env} (level : env.cpl = 0) (shift : Nat) :
    iretMask env shift = if shift = 0 then 0x7300 else 0x257300 := by
  have admitted : (0 : BitVec 2) ≤ (env.eflags >>> 12).setWidth 2 := BitVec.le_def.mpr (Nat.zero_le _)
  simp only [iretMask, level, if_true, if_pos admitted]
  split <;> decide

theorem returnedFlags_all {eflags popped mask : Word} (plain : eflags &&& (pcCcMask ||| dfMask) = 0)
    (all : ∀ i < 32, iretFlags.getLsbD i = true → mask.getLsbD i = true ∨ (pcCcMask ||| dfMask).getLsbD i = true) :
    returnedFlags eflags popped mask &&& iretFlags = popped &&& iretFlags := by
  rw [masked_eq_iff]
  intro i h kept
  have fixed : ∀ j < 32, iretFlags.getLsbD j = true → (0x2 : Word).getLsbD j = false := by decide
  have zero : (0 : Word).getLsbD i = false := BitVec.getLsbD_zero
  have clear := congrArg (·.getLsbD i) plain
  have which := all i h kept
  have fixed := fixed i h kept
  simp only [BitVec.getLsbD_eq_getElem h, BitVec.getElem_and, BitVec.getElem_or] at clear which fixed zero
  simp only [returnedFlags, BitVec.getElem_or, BitVec.getElem_and, BitVec.getElem_not, fixed]
  rw [zero] at clear
  generalize mask[i] = inside at *
  cases inside with
  | true => cases popped[i] <;> simp
  | false =>
    -- the arithmetic flags and DF are loaded whatever the mask
    have own := which.resolve_left Bool.false_ne_true
    rw [own, Bool.and_true] at clear
    rw [clear]
    simp only [Bool.and_false, Bool.false_or, Bool.or_false, Bool.not_false, Bool.and_true, ← Bool.and_or_distrib_left, own]

/-- At level 0 an IRET loads the flags from its frame. -/
theorem iretEnv_level0 {q : Stock} {env : Env} (level : env.cpl = 0) (plain : PlainFlags env) (shift : Nat)
    (cs : SegmentCache) (eip eflags : Word) :
    cpuComputeEflags q (iretEnv env shift cs eip (truncated (operand shift) eflags)) &&& iretFlags =
      eflags &&& iretFlags := by
  have low : (0xFFFF : Word) &&& iretFlags = iretFlags := by decide
  have whole : truncated (operand shift) eflags &&& iretFlags = eflags &&& iretFlags := by
    rcases truncated_operand shift eflags with same | narrow
    · rw [same]
    · rw [narrow, BitVec.and_assoc, low]
  rw [iretEnv, cpuComputeEflags_loadEflags, ← whole]
  generalize back : ({ setEsp _ _ _ with eip } : Env) = env'
  have still : env'.cpl = 0 := by rw [← back]; exact level
  have same : env'.eflags = env.eflags := by rw [← back]; rfl
  refine returnedFlags_all (same ▸ plain) ?_
  rw [iretMask_level0 still]
  split <;> decide

/-- Back at what was left: its CS:EIP, its stack and, behind an IRET at level 0, its flags. -/
structure ComesBack (q : Stock) (addend : Word) (a : Activation) (s s' : Sys) : Prop where
  returns : ReturnsTo addend (truncated (operand a.shift) a.resume) a.left s'.env
  flags : a.flags.isSome → s.env.cpl = 0 → PlainFlags s.env →
    cpuComputeEflags q s'.env &&& iretFlags = cpuComputeEflags q a.left &&& iretFlags
  mem : s'.mem = s.mem

theorem Waits.returns (waits : Waits q.cc s a) (loose : pc110LoosePm s = true)
    (top : StackAccess.of s.env = a.stack) {addend : Word} (plain : a.flags.isSome → addend = 0) :
    ∃ s', helperRetProtected q a.shift a.flags.isSome addend s = .ok () s' ∧ ComesBack q.cc addend a s s' ∧
      Leaves (fun _ => True) s s' := by
  obtain ⟨cs, resolves, cached⟩ := waits.resolves
  obtain ⟨m, -, keeps⟩ := getSpMask_keeps (a.left.segs .ss).flags
  have framed := waits.framed
  have whole := truncated_selector a.shift waits.selector
  have esp : s.env.regs .esp = a.stack.sp := congrArg StackAccess.sp top
  have mask : getSpMask (s.env.segs .ss).flags = getSpMask (a.left.segs .ss).flags := congrArg StackAccess.spMask top
  obtain ⟨under, outside⟩ := released_esp keeps esp addend
  rw [← top] at framed
  obtain ⟨left, resume, shift, flags⟩ := a
  cases flags with
  | none =>
    have up := lretEnv_up s.env shift ⟨(left.segs .cs).selector, cs.base, cs.limit, cs.flags⟩
      (truncated (operand shift) resume) addend
    rw [mask] at up
    exact ⟨_, helperRetProtected_lret loose framed whole resolves addend,
      ⟨⟨cached.symm, rfl, up ▸ under, up ▸ outside⟩, Bool.noConfusion, rfl⟩,
      ⟨rfl, rfl, rfl, rfl, fun _ _ => rfl⟩⟩
  | some eflags =>
    obtain rfl := plain rfl
    have up := iretEnv_up s.env shift ⟨(left.segs .cs).selector, cs.base, cs.limit, cs.flags⟩
      (truncated (operand shift) resume) (truncated (operand shift) eflags)
    rw [mask] at up
    exact ⟨_, helperRetProtected_framed loose framed whole (waits.notV86 _ rfl) resolves,
      ⟨⟨cached.symm, rfl, up ▸ under, up ▸ outside⟩,
        fun _ level plain => (iretEnv_level0 level plain shift _ _ _).trans (waits.flags _ rfl), rfl⟩,
      ⟨rfl, rfl, rfl, rfl, fun _ _ => rfl⟩⟩

end Leaving

section Runs
variable {q : StockSeg} {q' : StockCall}

theorem interrupted_flags (s : Sys) (intno : Nat) (isInt : Bool) (errorCode nextEip : Word) (isHw : Bool) :
    (interruptFrame q s.env intno isInt errorCode nextEip isHw).eflags &&& iretFlags =
      cpuComputeEflags q.cc s.env &&& iretFlags := by
  have rest : rfMask &&& iretFlags = 0 := by decide
  unfold interruptFrame
  split
  · rw [BitVec.and_or_distrib_right, rest]
    exact BitVec.or_zero
  · exact congrArg (· &&& iretFlags) BitVec.or_zero

/-- Every step keeps what is pending on the stack. -/
theorem NestStep.stacked {s s' : Sys} {pending pending' : List Activation}
    (step : NestStep q q' (s, pending) (s', pending')) (stacked : Stacked q.cc s pending) :
    Stacked q.cc s' pending' := by
  cases step with
  | code leaves => exact stacked.leaves leaves
  | call resolved sizes apart ran =>
    exact stacked.entered (entered_of_call stacked.loose sizes ran) apart rfl resolved
      (fun _ none => nomatch none) fun _ none => nomatch none
  | @interrupt _ _ _ _ intno isInt gate errorCode nextEip isHw on resolved split finds noCode apart ran =>
    refine stacked.entered (entered_of_interrupt on finds noCode ran) apart rfl resolved ?_ ?_
    · rintro _ ⟨⟩
      exact frame_notV86 on split (gateShift gate) intno isInt errorCode nextEip isHw
    · rintro _ ⟨⟩
      exact interrupted_flags s intno isInt errorCode nextEip isHw
  | @leave _ _ a _ addend top plain ran =>
    obtain ⟨s₁, returned, -, leaves⟩ := (stacked.waits a (.head _)).returns stacked.loose top plain
    rw [ran] at returned
    cases returned
    refine Stacked.leaves ⟨leaves.loose, leaves.gdt, leaves.ldt, leaves.readable, fun c _ => leaves.cells c trivial⟩
      ⟨stacked.loose, fun b waiting => stacked.waits b (.tail _ waiting)⟩

end Runs

end Pc110.SegHelper
