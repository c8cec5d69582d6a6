import Pc110.SegHelper
import Pc110.Library.Masks

/-! The stack under the helpers: frames pushed are there to be popped. `Framed` carries what
a sequence of pushes leaves, with the right to read it back. -/
namespace Pc110.SegHelper

open LsbBits (Byte)
open Faulting (Ends bind_ok bind_error)
open WrapMemory (Holds Keeps place)

/-- The stack behind `i` pops from its top, as the returns access it. -/
def popAt (size : Nat) (s : Sys) (i : Nat) : StackAccess :=
  { StackAccess.of s.env .getpc with sp := s.env.regs .esp + BitVec.ofNat 32 (i * size) }

def poppedWord (size : Nat) (s : Sys) (i : Nat) : Word :=
  BitVec.ofNat 32 (LsbBits.value (WrapMemory.load s.mem.cells
    (place (popAt size s i).ssBase (popAt size s i).spMask (popAt size s i).sp) size))

def WordReadable (size : Nat) (s : Sys) (i : Nat) : Prop :=
  ∀ j < size, s.mem.readable (popAt size s i).pl
    (place (popAt size s i).ssBase (popAt size s i).spMask (popAt size s i).sp + BitVec.ofNat 32 j) = true

def PageFault (e : Fault) (_ : Sys) : Prop := ∃ a, e = .page a

def Sys.withCells (s : Sys) (cells : WrapMemory.Cells 32 Byte) : Sys :=
  { s with mem := { s.mem with cells } }

/-- The stack holds these frames, top first, and they may be read. -/
structure Framed (size : Nat) (s : Sys) (sa : StackAccess) (frames : List (List Byte)) : Prop where
  holds : Holds size s.mem.cells sa.ssBase sa.spMask sa.sp frames
  readable : ∀ i < frames.length, ∀ j < size,
    s.mem.readable sa.pl
      (place sa.ssBase sa.spMask (sa.sp + BitVec.ofNat 32 (i * size)) + BitVec.ofNat 32 j) = true

/-- Whatever a fault on it would restore. -/
theorem Framed.at {size : Nat} {s : Sys} {sa : StackAccess} {frames : List (List Byte)}
    (framed : Framed size s sa frames) (ra : RetAddr) : Framed size s { sa with ra } frames :=
  ⟨framed.holds, framed.readable⟩

theorem Framed.empty (size : Nat) (s : Sys) (sa : StackAccess) : Framed size s sa [] :=
  ⟨trivial, fun _ none => absurd none (Nat.not_lt_zero _)⟩

/-- The same stack through another pointer to it, in whatever state has this memory. -/
theorem Framed.masked {size m : Nat} {s s' : Sys} {sa : StackAccess} {frames : List (List Byte)} {sp : Word}
    (framed : Framed size s sa frames) (keeps : Keeps sa.spMask m) (mem : s'.mem = s.mem)
    (same : sa.sp &&& sa.spMask = sp &&& sa.spMask) : Framed size s' { sa with sp } frames := by
  refine ⟨?_, fun i below j inside => ?_⟩
  · rw [mem]
    exact framed.holds.masked keeps same
  · have up := WrapMemory.masked_add keeps same (BitVec.ofNat 32 (i * size))
    have readable := framed.readable i below j inside
    rw [mem]
    simpa only [place, up] using readable

/-- The stack pointer counts modulo the size of its segment. -/
theorem getSpMask_keeps (flags : Word) : ∃ m, 16 ≤ m ∧ Keeps (getSpMask flags) m := by
  unfold getSpMask
  split
  · refine ⟨32, by decide, by decide, fun x => ?_⟩
    have all : x &&& 0xFFFFFFFF = x := BitVec.and_allOnes
    rw [all]
    exact (Nat.mod_eq_of_lt x.isLt).symm
  · refine ⟨16, by decide, by decide, fun x => ?_⟩
    rw [BitVec.toNat_and]
    exact Nat.and_two_pow_sub_one_eq_mod x.toNat 16

/-- Under the mask `SET_ESP` sets the stack pointer, elsewhere it keeps ESP. -/
theorem setEsp_masked (env : Env) (sp mask : Word) : (setEsp env sp mask).regs .esp &&& mask = sp &&& mask ∧
    (setEsp env sp mask).regs .esp &&& ~~~mask = env.regs .esp &&& ~~~mask :=
  ⟨Masks.merged_masked _ _ _, Masks.merged_unmasked _ _ _⟩

theorem setEsp_back {env : Env} {esp sp mask : Word} (rest : env.regs .esp &&& ~~~mask = esp &&& ~~~mask)
    (top : sp &&& mask = esp &&& mask) : (setEsp env sp mask).regs .esp = esp := by
  change (env.regs .esp &&& ~~~mask) ||| (sp &&& mask) = esp
  rw [rest, top, Masks.merged_self]

section Access
variable {s : Sys} {pl : BitVec 2} {a : Word} {count : Nat}

theorem denied_none {allowed : Word → Bool} :
    denied a allowed count = none ↔ ∀ j < count, allowed (a + BitVec.ofNat 32 j) = true := by
  simp [denied]

theorem readCells_ok (readable : ∀ j < count, s.mem.readable pl (a + BitVec.ofNat 32 j) = true) (ra : RetAddr) :
    readCells pl a count ra s = .ok (WrapMemory.load s.mem.cells a count) s := by
  unfold readCells
  rw [denied_none.mpr readable]

theorem readCells_fault (denied : ¬ ∀ j < count, s.mem.readable pl (a + BitVec.ofNat 32 j) = true) (ra : RetAddr) :
    ∃ p, readCells pl a count ra s = .error (.page p) (s.exitRestore ra) := by
  obtain ⟨p, found⟩ := Option.ne_none_iff_exists'.mp (mt denied_none.mp denied)
  refine ⟨p, ?_⟩
  unfold readCells
  rw [found]

/-- A store either page-faults or is made whole, where it may also be read. -/
theorem writeCells_ends (data : List Byte) (ra : RetAddr) : Ends (writeCells pl a data ra) s
    (fun _ s' => s' = s.withCells (WrapMemory.store s.mem.cells a data) ∧
      ∀ j < data.length, s.mem.readable pl (a + BitVec.ofNat 32 j) = true) PageFault := by
  unfold Ends writeCells
  cases access : denied a (s.mem.writable pl) data.length with
  | some p => exact ⟨p, rfl⟩
  | none =>
    exact ⟨rfl, fun j inside => s.mem.reads_written _ _ (denied_none.mp access j inside)⟩

end Access

section Stack
variable {s : Sys} {sa : StackAccess} {size : Nat} {frames : List (List Byte)}

/-- What a push leaves: one frame more, in memory that is otherwise the machine's. -/
structure Pushed (size : Nat) (s : Sys) (sa : StackAccess) (frames : List (List Byte)) (s' : Sys)
    (sa' : StackAccess) : Prop where
  access : sa' = { sa with sp := sa'.sp }
  framed : Framed size s' sa' frames
  rest : ∃ cells, s' = s.withCells cells

theorem push_ends {m : Nat} (keeps : Keeps sa.spMask m) (framed : Framed size s sa frames) (v : Word)
    (room : (frames.length + 1) * size ≤ 2 ^ m) : Ends (sa.push size v) s
    (fun sa' s' => sa'.sp = sa.sp - BitVec.ofNat 32 size ∧
      Pushed size s sa (LsbBits.bytes size v.toNat :: frames) s' sa') PageFault := by
  have length := LsbBits.bytes_length size v.toNat
  refine (writeCells_ends (LsbBits.bytes size v.toNat) sa.ra).bind fun _ s' stored => ?_
  obtain ⟨rfl, readable⟩ := stored
  refine ⟨rfl, rfl, ⟨framed.holds.push keeps length room, ?_⟩, _, rfl⟩
  rw [length] at readable
  intro i below j inside
  cases i with
  | zero =>
    simp only [Nat.zero_mul, BitVec.add_zero]
    exact readable j inside
  | succ i =>
    have next : sa.sp - BitVec.ofNat 32 size + BitVec.ofNat 32 ((i + 1) * size) =
        sa.sp + BitVec.ofNat 32 (i * size) := by
      rw [Nat.succ_mul, BitVec.ofNat_add]
      ring
    have above := framed.readable i (Nat.lt_of_succ_lt_succ below) j inside
    simp only [next]
    exact above

/-- What remains of a word in a frame of `size` bytes. -/
def truncated (size : Nat) (v : Word) : Word := BitVec.ofNat 32 (v.toNat % 2 ^ (8 * size))

theorem operand_le (shift : Nat) : operand shift ≤ 4 := by
  unfold operand
  split <;> decide

/-- The segment of a stack has room for an interrupt frame. -/
theorem frame_room (flags : Word) (shift : Nat) :
    ∃ m, Keeps (getSpMask flags) m ∧ 4 * operand shift ≤ 2 ^ m := by
  obtain ⟨m, wide, keeps⟩ := getSpMask_keeps flags
  have room := Nat.pow_le_pow_right (show 0 < 2 by decide) wide
  have small := operand_le shift
  exact ⟨m, keeps, by omega⟩

theorem truncated_operand (shift : Nat) (v : Word) :
    truncated (operand shift) v = v ∨ truncated (operand shift) v = v &&& 0xFFFF := by
  unfold operand truncated
  split
  · left
    rw [Nat.mod_eq_of_lt v.isLt, BitVec.ofNat_toNat, BitVec.setWidth_eq]
  · right
    apply BitVec.eq_of_toNat_eq
    rw [BitVec.toNat_and, BitVec.toNat_ofNat]
    have low := Nat.and_two_pow_sub_one_eq_mod v.toNat 16
    have small := Nat.mod_lt v.toNat (show 0 < 2 ^ 16 by decide)
    rw [Nat.mod_eq_of_lt (by omega)]
    exact low.symm

theorem truncated_selector (shift : Nat) {selector : Word} (narrow : selector &&& 0xFFFF = selector) :
    truncated (operand shift) selector &&& 0xFFFF = selector := by
  rcases truncated_operand shift selector with same | low
  · rw [same, narrow]
  · rw [low, narrow, narrow]

theorem truncated_bit (shift : Nat) (v : Word) {i : Nat} (h : i < 16) :
    (truncated (operand shift) v).getLsbD i = v.getLsbD i := by
  rcases truncated_operand shift v with same | low
  · rw [same]
  · have ones : (0xFFFF : Word).getLsbD i = true :=
      (Nat.testBit_two_pow_sub_one 16 i).trans (decide_eq_true h)
    rw [low, BitVec.getLsbD_and, ones, Bool.and_true]

theorem pop_framed {v : Word} (framed : Framed size s sa (LsbBits.bytes size v.toNat :: frames)) :
    let sa' := { sa with sp := sa.sp + BitVec.ofNat 32 size }
    sa.pop size s = .ok (truncated size v, sa') s ∧ Framed size s sa' frames := by
  have top := framed.readable 0 (Nat.succ_pos _)
  simp only [Nat.zero_mul, BitVec.add_zero] at top
  refine ⟨?_, framed.holds.2, fun i below j inside => ?_⟩
  · have read := readCells_ok top sa.ra
    rw [framed.holds.1] at read
    rw [StackAccess.pop, bind_ok read, LsbBits.value_bytes_mod]
    rfl
  · have next := framed.readable (i + 1) (Nat.succ_lt_succ below) j inside
    have same : sa.sp + BitVec.ofNat 32 ((i + 1) * size) =
        sa.sp + BitVec.ofNat 32 size + BitVec.ofNat 32 (i * size) := by
      rw [Nat.succ_mul, BitVec.ofNat_add]
      ring
    rw [same] at next
    exact next

theorem popAt_zero (size : Nat) (s : Sys) : StackAccess.of s.env .getpc = popAt size s 0 := by
  simp [popAt, StackAccess.of]

theorem popAt_next (size : Nat) (s : Sys) (i : Nat) :
    { popAt size s i with sp := (popAt size s i).sp + BitVec.ofNat 32 size } = popAt size s (i + 1) := by
  simp only [popAt, BitVec.add_assoc, ← BitVec.ofNat_add, Nat.succ_mul]

theorem pop_word {i : Nat} (readable : WordReadable size s i) :
    (popAt size s i).pop size s = .ok (poppedWord size s i, popAt size s (i + 1)) s := by
  rw [StackAccess.pop, ← popAt_next]
  exact bind_ok (readCells_ok readable _)

theorem pop_denied {i : Nat} (denied : ¬ WordReadable size s i) :
    ∃ p, (popAt size s i).pop size s = .error (.page p) s.unwound := by
  obtain ⟨p, fault⟩ := readCells_fault denied .getpc
  exact ⟨p, bind_error fault⟩

theorem Pushed.refl (size : Nat) (s : Sys) (sa : StackAccess) (framed : Framed size s sa frames) :
    Pushed size s sa frames s sa :=
  ⟨rfl, framed, _, rfl⟩

theorem Pushed.push {m : Nat} {s' : Sys} {sa' : StackAccess} (pushed : Pushed size s sa frames s' sa')
    (keeps : Keeps sa.spMask m) (v : Word) (room : (frames.length + 1) * size ≤ 2 ^ m) :
    Ends (sa'.push size v) s'
      (fun sa'' s'' => sa''.sp = sa'.sp - BitVec.ofNat 32 size ∧
        Pushed size s sa (LsbBits.bytes size v.toNat :: frames) s'' sa'') PageFault := by
  have mask : sa'.spMask = sa.spMask := by rw [pushed.access]
  have ends := push_ends (mask ▸ keeps) pushed.framed v room
  refine ends.mono (fun sa'' s'' ⟨sp, next⟩ => ⟨sp, ?_, next.framed, ?_⟩) fun _ _ fault => fault
  · rw [next.access, pushed.access]
  · obtain ⟨cells, rfl⟩ := pushed.rest
    obtain ⟨cells', rfl⟩ := next.rest
    exact ⟨cells', rfl⟩

def Frame.words (frame : Frame) : List Word := frame.errorCode.toList ++ [frame.eip, frame.cs, frame.eflags]

def Frame.bytes (size : Nat) (frame : Frame) : List (List Byte) :=
  frame.words.map fun v => LsbBits.bytes size v.toNat

/-- An interrupt frame on a stack, pushed whole or stopped by a page fault. -/
theorem frame_push_ends (s : Sys) (sa : StackAccess) {m : Nat} (keeps : Keeps sa.spMask m) (frame : Frame)
    (room : 4 * size ≤ 2 ^ m) :
    Ends (frame.push size sa) s (fun sa' s' => Pushed size s sa (frame.bytes size) s' sa' ∧
      sa'.sp = sa.sp - BitVec.ofNat 32 (frame.words.length * size)) PageFault := by
  have start := Pushed.refl size s sa (.empty size s sa)
  have down (n : Nat) (sp : Word) : sp - BitVec.ofNat 32 (n * size) - BitVec.ofNat 32 size =
      sp - BitVec.ofNat 32 ((n + 1) * size) := by
    rw [Nat.succ_mul, BitVec.ofNat_add]
    ring
  refine (start.push keeps frame.eflags (by simp; omega)).bind fun sa₁ s₁ ⟨sp₁, pushed₁⟩ => ?_
  refine (pushed₁.push keeps frame.cs (by simp; omega)).bind fun sa₂ s₂ ⟨sp₂, pushed₂⟩ => ?_
  refine (pushed₂.push keeps frame.eip (by simp; omega)).bind fun sa₃ s₃ ⟨sp₃, pushed₃⟩ => ?_
  have below : sa₃.sp = sa.sp - BitVec.ofNat 32 (3 * size) := by
    rw [sp₃, sp₂, sp₁, ← down 2, ← down 1, Nat.one_mul]
  cases code : frame.errorCode with
  | none =>
    refine ⟨?_, ?_⟩
    · simpa [Frame.bytes, Frame.words, code] using pushed₃
    · simpa [Frame.words, code] using below
  | some code' =>
    refine (pushed₃.push keeps code' (by simp; omega)).mono (fun sa₄ s₄ ⟨sp₄, pushed₄⟩ => ?_)
      fun _ _ fault => fault
    refine ⟨?_, ?_⟩
    · simpa [Frame.bytes, Frame.words, code] using pushed₄
    · rw [sp₄, below, down]
      simp [Frame.words, code]

end Stack

end Pc110.SegHelper
