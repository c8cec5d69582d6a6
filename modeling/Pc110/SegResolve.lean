import Pc110.SegHelper

/-! Looking up selectors. Every lookup only reads; the resolver falls back for a null or
out-of-limit selector, and gives the same segment as long as the tables are unmodified. -/
namespace Pc110.SegHelper

open Faulting (bind_ok bind_error)

section Reads
variable {α β : Type} {s : Sys} {ra : RetAddr}

/-- A program that only reads: it ends in its own state, if need be with a page fault, behind
which the return address given to its reads decides what is restored. -/
def Reads (x : Helper α) (s : Sys) (ra : RetAddr := .zero) : Prop :=
  (∃ a, x s = .ok a s) ∨ ∃ p, x s = .error (.page p) (s.exitRestore ra)

theorem Reads.bind {x : Helper α} {f : α → Helper β} (first : Reads x s ra) (rest : ∀ a, Reads (f a) s ra) :
    Reads (x >>= f) s ra := by
  rcases first with ⟨a, ran⟩ | ⟨p, fault⟩
  · unfold Reads
    rw [bind_ok ran]
    exact rest a
  · exact .inr ⟨p, bind_error fault⟩

theorem Reads.same {x : Helper α} {a : α} {s' : Sys} (reads : Reads x s ra) (ran : x s = .ok a s') : s' = s := by
  rcases reads with ⟨b, result⟩ | ⟨p, fault⟩
  · rw [result] at ran
    cases ran
    rfl
  · rw [fault] at ran
    cases ran

theorem Reads.pure (a : α) : Reads (pure a) s ra := .inl ⟨a, rfl⟩

theorem reads_cells (pl : BitVec 2) (a : Word) (count : Nat) (ra : RetAddr) (s : Sys) :
    Reads (readCells pl a count ra) s ra := by
  unfold Reads readCells
  split
  · exact .inr ⟨_, rfl⟩
  · exact .inl ⟨_, rfl⟩

theorem reads_ldlKernel (a : Word) (ra : RetAddr) (s : Sys) : Reads (ldlKernel a ra) s ra :=
  (reads_cells 0 a 4 ra s).bind fun _ => .pure _

theorem reads_descriptor (env : Env) (selector : Word) (ra : RetAddr) (s : Sys) :
    Reads (descriptorAt env selector ra) s ra :=
  (reads_ldlKernel _ ra s).bind fun _ => (reads_ldlKernel _ ra s).bind fun _ => .pure _

/-- A program whose faults restore what the return address has them restore. -/
def restoring (ra : RetAddr) (x : Helper α) : Helper α := fun s =>
  match x s with
  | .ok a s' => .ok a s'
  | .error e s' => .error e (s'.exitRestore ra)

theorem restoring_ok {x : Helper α} {a : α} {s' : Sys} (ran : x s = .ok a s') : restoring ra x s = .ok a s' := by
  rw [restoring, ran]

theorem restoring_error {x : Helper α} {e : Fault} {s' : Sys} (fault : x s = .error e s') :
    restoring ra x s = .error e (s'.exitRestore ra) := by
  rw [restoring, fault]

theorem restoring_bind (x : Helper α) (f : α → Helper β) :
    restoring ra (x >>= f) = restoring ra x >>= fun a => restoring ra (f a) := by
  funext s
  cases ran : x s with
  | ok a s' => rw [bind_ok (restoring_ok ran), restoring, restoring, bind_ok ran]
  | error e s' => rw [bind_error (restoring_error ran), restoring_error (bind_error ran)]

theorem ldlKernel_restoring (a : Word) (ra : RetAddr) : ldlKernel a ra = restoring ra (ldlKernel a .zero) := by
  have cells : readCells 0 a 4 ra = restoring ra (readCells 0 a 4 .zero) := by
    funext s
    unfold restoring readCells
    cases denied a (s.mem.readable 0) 4 <;> rfl
  rw [ldlKernel, cells, ldlKernel, restoring_bind]
  rfl

/-- The return address of a read shows in its faults only. -/
theorem descriptorAt_restoring (env : Env) (selector : Word) (ra : RetAddr) :
    descriptorAt env selector ra = restoring ra (descriptorAt env selector .zero) := by
  simp only [descriptorAt, ldlKernel_restoring _ ra, restoring_bind]
  rfl

end Reads

section Resolve
variable {selector : Word} {s : Sys}

def looseFlags (isCode : Bool) : Word :=
  descP ||| descS ||| descA ||| (if isCode then descCs ||| descR else descW)

def looseSegment (selector : Word) (isCode : Bool) : Resolved :=
  ⟨pc110LooseBase selector, 0xFFFF, looseFlags isCode⟩

/-- The selector's index lies within its table. -/
def InLimit (selector : Word) (s : Sys) : Prop := index selector + 7 ≤ (table s.env selector).limit

theorem loadSegment_out (out : ¬ InLimit selector s) : loadSegment selector s = .ok none s := by
  have beyond : (table s.env selector).limit < index selector + 7 := BitVec.not_le.mp out
  simp only [loadSegment, Faulting.get_bind, if_pos beyond]
  rfl

theorem loadSegment_in (inside : InLimit selector s) :
    loadSegment selector s = (descriptorAt s.env selector .zero >>= fun d => pure (some d)) s := by
  have within : ¬ (table s.env selector).limit < index selector + 7 := BitVec.not_lt.mpr inside
  simp only [loadSegment, Faulting.get_bind, if_neg within]

/-- Null or beyond the table, the resolver falls back. -/
theorem resolve_out (isCode : Bool) (out : ¬ (selector &&& 0xFFFC ≠ 0 ∧ InLimit selector s)) :
    pc110ResolveSeg selector isCode s = .ok (looseSegment selector isCode) s := by
  simp only [pc110ResolveSeg, Faulting.get_bind]
  rw [if_neg (show ¬ (_ ∧ index selector + 7 ≤ (table s.env selector).limit) from out)]
  rfl

/-- Within it the resolver takes the descriptor if its access byte is not empty. -/
theorem resolve_in {d : Word × Word} (isCode : Bool) (notNull : selector &&& 0xFFFC ≠ 0)
    (inside : InLimit selector s) (read : descriptorAt s.env selector .zero s = .ok d s) :
    pc110ResolveSeg selector isCode s =
      .ok (if accessByte d.2 ≠ 0 then ⟨getSegBase d.1 d.2, getSegLimit d.1 d.2, d.2 ||| descP⟩
        else looseSegment selector isCode) s := by
  simp only [pc110ResolveSeg, Faulting.get_bind]
  rw [if_pos ⟨notNull, inside⟩, bind_ok read]
  split <;> rfl

theorem resolve_fault {p : Word} (isCode : Bool) (notNull : selector &&& 0xFFFC ≠ 0)
    (inside : InLimit selector s) (fault : descriptorAt s.env selector .zero s = .error (.page p) s) :
    pc110ResolveSeg selector isCode s = .error (.page p) s := by
  simp only [pc110ResolveSeg, Faulting.get_bind]
  rw [if_pos (show _ ∧ index selector + 7 ≤ (table s.env selector).limit from ⟨notNull, inside⟩)]
  exact bind_error fault

theorem loadSegment_cases (selector : Word) (s : Sys) :
    (¬ InLimit selector s ∧ loadSegment selector s = .ok none s) ∨
    (∃ d, InLimit selector s ∧ descriptorAt s.env selector .zero s = .ok d s ∧
      loadSegment selector s = .ok (some d) s) ∨
    ∃ p, loadSegment selector s = .error (.page p) s := by
  by_cases inside : InLimit selector s
  · right
    rw [loadSegment_in inside]
    rcases reads_descriptor s.env selector .zero s with ⟨d, read⟩ | ⟨p, fault⟩
    · exact .inl ⟨d, inside, read, bind_ok read⟩
    · exact .inr ⟨p, bind_error fault⟩
  · exact .inl ⟨inside, loadSegment_out inside⟩

end Resolve

/-- The cells of the GDT and the LDT are the same in both states. -/
def TablesUnmodified (s s' : Sys) : Prop :=
  ∀ selector : Word, ∀ i ≤ (table s.env selector).limit.toNat,
    s'.mem.cells ((table s.env selector).base + BitVec.ofNat 32 i) =
      s.mem.cells ((table s.env selector).base + BitVec.ofNat 32 i)

section Tables
variable {s s' : Sys} {selector : Word}

theorem ldlKernel_unmodified {a v : Word} (access : s'.mem.readable = s.mem.readable)
    (cells : ∀ i < 4, s'.mem.cells (a + BitVec.ofNat 32 i) = s.mem.cells (a + BitVec.ofNat 32 i))
    (ran : ldlKernel a .zero s = .ok v s) : ldlKernel a .zero s' = .ok v s' := by
  obtain ⟨data, t, read, done⟩ := Faulting.of_bind_ok ran
  have again : readCells 0 a 4 .zero s' = .ok data s' := by
    unfold readCells at read ⊢
    rw [access]
    split at read
    · cases read
    · cases read
      rw [WrapMemory.load_congr cells]
  cases done
  exact bind_ok again

/-- The bytes of a descriptor within the limit lie in its table. -/
theorem descriptor_byte (env : Env) (narrow : selector &&& 0xFFFF = selector)
    (inside : index selector + 7 ≤ (table env selector).limit) {k : Nat} (byte : k < 8) :
    (index selector).toNat + k ≤ (table env selector).limit.toNat ∧
      (table env selector).base + index selector + BitVec.ofNat 32 k =
        (table env selector).base + BitVec.ofNat 32 ((index selector).toNat + k) := by
  have small : selector.toNat ≤ 0xFFFF := by
    rw [← narrow, BitVec.toNat_and]
    exact Nat.and_le_right
  have below : (index selector).toNat ≤ selector.toNat := by
    rw [index, BitVec.toNat_and]
    exact Nat.and_le_left
  constructor
  · have last := BitVec.le_def.mp inside
    rw [BitVec.toNat_add, Nat.mod_eq_of_lt (show _ + (7 : Word).toNat < 2 ^ 32 by simp; omega)] at last
    have seven : (7 : Word).toNat = 7 := rfl
    omega
  · rw [BitVec.ofNat_add, BitVec.ofNat_toNat, BitVec.setWidth_eq, BitVec.add_assoc]

/-- A descriptor is read again from the same eight cells. -/
theorem descriptorAt_congr {env : Env} {d : Word × Word} (access : s'.mem.readable = s.mem.readable)
    (cells : ∀ k < 8, s'.mem.cells ((table env selector).base + index selector + BitVec.ofNat 32 k) =
      s.mem.cells ((table env selector).base + index selector + BitVec.ofNat 32 k))
    (read : descriptorAt env selector .zero s = .ok d s) : descriptorAt env selector .zero s' = .ok d s' := by
  obtain ⟨e1, t, first, rest⟩ := Faulting.of_bind_ok read
  obtain rfl := (reads_ldlKernel _ .zero s).same first
  obtain ⟨e2, t', second, done⟩ := Faulting.of_bind_ok rest
  obtain rfl := (reads_ldlKernel _ .zero t).same second
  cases done
  refine (bind_ok (ldlKernel_unmodified access (fun i h => cells i (by omega)) first)).trans ?_
  refine bind_ok (ldlKernel_unmodified access (fun i h => ?_) second)
  have next := cells (4 + i) (by omega)
  rwa [BitVec.ofNat_add, ← BitVec.add_assoc] at next

theorem descriptorAt_unmodified {d : Word × Word} (narrow : selector &&& 0xFFFF = selector)
    (inside : InLimit selector s) (access : s'.mem.readable = s.mem.readable)
    (tables : TablesUnmodified s s') (read : descriptorAt s.env selector .zero s = .ok d s) :
    descriptorAt s.env selector .zero s' = .ok d s' := by
  refine descriptorAt_congr access (fun k byte => ?_) read
  obtain ⟨within, place⟩ := descriptor_byte s.env narrow inside byte
  rw [place]
  exact tables selector _ within

/-- A selector keeps its segment while the tables are unmodified. -/
theorem resolve_unmodified {cs : Resolved} (narrow : selector &&& 0xFFFF = selector)
    (gdt : s'.env.gdt = s.env.gdt) (ldt : s'.env.ldt = s.env.ldt) (access : s'.mem.readable = s.mem.readable)
    (tables : TablesUnmodified s s') (resolves : pc110ResolveSeg selector true s = .ok cs s) :
    pc110ResolveSeg selector true s' = .ok cs s' := by
  have same : table s'.env selector = table s.env selector := by
    rw [table, table, gdt, ldt]
  have limit : InLimit selector s' ↔ InLimit selector s := by
    rw [InLimit, InLimit, same]
  by_cases inside : selector &&& 0xFFFC ≠ 0 ∧ InLimit selector s
  · rcases reads_descriptor s.env selector .zero s with ⟨d, read⟩ | ⟨p, fault⟩
    · have read' := descriptorAt_unmodified narrow inside.2 access tables read
      have env : descriptorAt s.env selector .zero = descriptorAt s'.env selector .zero := by
        rw [descriptorAt, descriptorAt, same]
      rw [resolve_in true inside.1 inside.2 read] at resolves
      rw [resolve_in true inside.1 (limit.mpr inside.2) (env ▸ read')]
      cases resolves
      rfl
    · rw [resolve_fault true inside.1 inside.2 fault] at resolves
      cases resolves
  · rw [resolve_out true inside] at resolves
    rw [resolve_out true fun both => inside ⟨both.1, limit.mp both.2⟩]
    cases resolves
    rfl

end Tables

end Pc110.SegHelper
