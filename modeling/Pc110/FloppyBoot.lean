import Pc110.FloppyPasses

/-! The Easy-Setup floppy from its boot sector to Easy-Setup. Whatever interrupts do in between,
the loader enters Easy-Setup behind the last sector, with the exit stub to return to, or it stops
at its error message; it never enters a part of it. -/
namespace Pc110.Floppy

open LsbBits (Byte)
open ByteMemory (Memory Within)
open RealMode (State Instr Agree Fetches Glides Bios Spared Turn straight load16 bytes16 low_address low_pc)
open Inevitability (Inevitable)

/-! ## Before the loop -/

structure Hooked (disk : List Byte) (ip : BitVec 16) (s : State) : Prop where
  flat : Flat s
  sp : s.regs .sp = 0x7C00
  ip : s.ip = ip
  standing : Standing disk 0 s.mem

section Start
variable {disk : List Byte} {depth : Nat} {fails : Prop} {bios : Bios} {s : State}

section Glides
variable {C : State → Prop} (all : ∀ t, t.segs .ss = ⟨0, 0⟩ → t.regs .sp = 0x7C00 → C t)

include all

end Glides

theorem Hooked.pushed (hooked : Hooked disk 0x7C2B s) : Flat ((s.advance 1).push (s.segs .ds).selector) ∧
    ((s.advance 1).push (s.segs .ds).selector).regs .sp = 0x7BFE ∧
    ((s.advance 1).push (s.segs .ds).selector).ip = 0x7C2C ∧
    Standing disk 0 ((s.advance 1).push (s.segs .ds).selector).mem := by
  obtain ⟨flat, sp, ip, standing⟩ := hooked
  have place : s.address .ss (s.regs .sp - 2) = 0x7BFE := by
    rw [low_address flat.ss, sp]
    rfl
  have mem : ((s.advance 1).push (s.segs .ds).selector).mem =
      ByteMemory.write s.mem 0x7BFE (bytes16 (s.segs .ds).selector) :=
    congrArg (ByteMemory.write s.mem · (bytes16 (s.segs .ds).selector)) place
  refine ⟨⟨⟨flat.cs, flat.ds, flat.ss⟩, flat.forward⟩, ?_, ?_, standing.congr (Nat.zero_le _) fun a cell _ _ => ?_⟩
  · change s.regs .sp - 2 = 0x7BFE
    rw [sp]
    rfl
  · change s.ip + 1 = 0x7C2C
    rw [ip]
    rfl
  · rw [mem]
    refine ByteMemory.write_outside _ _ _ _ fun inside => ?_
    have size : (bytes16 (s.segs .ds).selector).length = 2 := rfl
    obtain ⟨low, high⟩ := inside
    rcases cell with ⟨_, _⟩ | ⟨_, _⟩ | ⟨_, _⟩ | ⟨_, _⟩ <;> omega

end Start

/-! ## Behind the loop -/

/-- Easy-Setup at its entry, with the whole of its sectors, and the exit stub behind its return and INT 19h. -/
structure EasySetupEntered (disk : List Byte) (s : State) : Prop where
  cs : s.segs .cs = ⟨0x5000, 0x50000⟩
  ip : s.ip = 0x0000
  ds : s.segs .ds = ⟨0, 0⟩
  es : s.segs .es = ⟨0, 0⟩
  ss : s.segs .ss = ⟨0x9000, 0x90000⟩
  sp : s.regs .sp = 0xFFFA
  enabled : s.flags &&& RealMode.interruptFlag ≠ 0
  back : ByteMemory.read s.mem 0x9FFFA 4 = bytes16 0x0600 ++ bytes16 0x0000
  standing : Standing disk sectors s.mem

/-- The registers of Easy-Setup, with the stack at `sp` and the program at `ip`. -/
structure Entering (disk : List Byte) (sp ip : BitVec 16) (s : State) : Prop where
  cs : s.segs .cs = ⟨0, 0⟩
  ds : s.segs .ds = ⟨0, 0⟩
  es : s.segs .es = ⟨0, 0⟩
  ss : s.segs .ss = ⟨0x9000, 0x90000⟩
  sp : s.regs .sp = sp
  ip : s.ip = ip
  standing : Standing disk sectors s.mem

section Finish
variable {disk : List Byte} {depth : Nat} {fails : Prop} {bios : Bios} {s : State}

section Glides
variable {C : State → Prop} (all : ∀ t, t.flags &&& RealMode.interruptFlag = 0 → C t)

include all

theorem Entering.pushed {sp ip : BitVec 16} {bytes : List Byte} {v : BitVec 16} {j : Nat} (entering : Entering disk sp ip s)
    (masked : s.flags &&& RealMode.interruptFlag = 0) (stands : Stands j bytes (.pushImm v))
    (here : ip = BitVec.ofNat 16 (0x7C00 + j)) (room : 0xFFF0 ≤ sp.toNat) :
    Glides (fun _ => True) C s ((s.advance bytes.length).push v) ∧
      Entering disk (sp - 2) (ip + BitVec.ofNat 16 bytes.length) ((s.advance bytes.length).push v) ∧
      ((s.advance bytes.length).push v).mem = ByteMemory.write s.mem (0x90000 + (sp.toNat - 2)) (bytes16 v) := by
  obtain ⟨cs, ds, es, ss, stack, at', standing⟩ := entering
  have place : s.address .ss (s.regs .sp - 2) = 0x90000 + (sp.toNat - 2) := by
    rw [State.address, ss, stack]
    bv_omega
  have mem : ((s.advance bytes.length).push v).mem = ByteMemory.write s.mem (0x90000 + (sp.toNat - 2)) (bytes16 v) :=
    congrArg (ByteMemory.write s.mem · (bytes16 v)) place
  refine ⟨step_text cs standing.text stands (at'.trans here) (fun _ _ => trivial) (all s masked) (fun _ _ => trivial) rfl,
    ⟨cs, ds, es, ss, congrArg (· - 2) stack, congrArg (· + BitVec.ofNat 16 bytes.length) at', ?_⟩, mem⟩
  refine standing.congr le_rfl fun a cell _ _ => ?_
  rw [mem]
  refine ByteMemory.write_outside _ _ _ _ fun inside => ?_
  have size : (bytes16 v).length = 2 := rfl
  obtain ⟨low, high⟩ := inside
  have image : 512 * sectors = 232448 := rfl
  rcases cell with ⟨_, _⟩ | ⟨_, _⟩ | ⟨_, _⟩ | ⟨_, _⟩ <;> omega

end Glides

end Finish

section Boot
variable {img disk : List Byte} {depth : Nat} {fails : Prop} {bios : Bios} {s : State}

/-- What of the image fits the sectors is at 5000:0000. -/
theorem EasySetupEntered.loaded (entered : EasySetupEntered disk s) (layout : Layout disk img) :
    ByteMemory.read s.mem 0x50000 (img.take (512 * sectors)).length = img.take (512 * sectors) := by
  have size : (img.take (512 * sectors)).length ≤ 512 * sectors := List.length_take_le _ _
  have front := ByteMemory.read_slice s.mem entered.standing.image 0 _ (Nat.zero_add (img.take (512 * sectors)).length ▸ size)
  rw [List.drop_zero] at front
  exact front.trans (List.prefix_iff_eq_take.mp (layout.image.take (512 * sectors))).symm

end Boot

end Pc110.Floppy
