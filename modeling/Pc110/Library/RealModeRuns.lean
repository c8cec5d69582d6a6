import Mathlib.Tactic.IntervalCases
import Pc110.Library.RealMode

/-! Runs of real-mode code that others interrupt. A reader of encodings looks at no byte behind
its instruction, and an instruction at no memory beside what it reads; so a run goes through
whatever happens elsewhere in memory between its instructions. -/
namespace RealMode

open LsbBits (Byte)
open ByteMemory (Memory Within)

/-! ## Encodings -/

section Readers
variable {α β : Type}

/-- What is read does not depend on the bytes behind it. -/
def Local (p : Reader α) : Prop :=
  ∀ front back a rest, p front = some (a, rest) → p (front ++ back) = some (a, rest ++ back)

theorem Local.pure (a : α) : Local (pure a) := by
  intro front back b rest read
  obtain ⟨rfl, rfl⟩ := Prod.mk.inj (Option.some.inj read)
  rfl

theorem Local.failure : Local (failure : Reader α) := by
  intro front back b rest read
  exact absurd read (by rintro ⟨⟩)

theorem Local.bind {p : Reader α} {f : α → Reader β} (first : Local p) (next : ∀ a, Local (f a)) :
    Local (p >>= f) := by
  intro front back b rest read
  change (p front).bind (fun r => f r.1 r.2) = _ at read
  change (p (front ++ back)).bind (fun r => f r.1 r.2) = _
  obtain ⟨⟨a, behind⟩, found, read⟩ := Option.bind_eq_some_iff.mp read
  rw [first front back a behind found]
  exact next a behind back b rest read

theorem Local.ite {c : Prop} [Decidable c] {p p' : Reader α} (first : Local p) (second : Local p') :
    Local (if c then p else p') := by
  split
  · exact first
  · exact second

theorem byte_local : Local byte := by
  rintro (_ | ⟨b, front⟩) back a rest read
  · exact absurd read (by rintro ⟨⟩)
  · obtain ⟨rfl, rfl⟩ := Prod.mk.inj (Option.some.inj read)
    rfl

theorem word_local : Local word := byte_local.bind fun _ => byte_local.bind fun _ => .pure _

theorem signedByte_local : Local signedByte := byte_local.bind fun _ => .pure _

theorem modRm_local {ρ : Type} (numbered : Nat → ρ) (seg : Seg) : Local (modRm numbered seg) :=
  byte_local.bind fun _ => .ite (.pure _) (.ite (word_local.bind fun _ => .pure _) .failure)

theorem group_local {ρ : Type} (numbered : Nat → ρ) (seg : Seg) (n : Nat) : Local (group numbered seg n) :=
  (modRm_local numbered seg).bind fun _ => .ite (.pure _) .failure

theorem immediate_local {read : Reader α} (f : α → β) (first : Local read) : Local (immediate read f) :=
  first.bind fun _ => .pure _

theorem immediateTo_local {place : Reader (Place Reg)} {read : Reader (BitVec 16)}
    (f : Place Reg → BitVec 16 → Instr) (first : Local place) (next : Local read) :
    Local (immediateTo place read f) :=
  first.bind fun _ => next.bind fun _ => .pure _

theorem movSeg_local (seg : Seg) : Local (movSeg seg) := by
  refine (modRm_local _ seg).bind fun operand => ?_
  cases segNumbered operand.1 with
  | some dst => exact .pure _
  | none => exact .failure

theorem farPointer_local : Local farPointer := word_local.bind fun _ => word_local.bind fun _ => .pure _

theorem rep_local (seg : Seg) : Local (rep seg) := byte_local.bind fun _ => .ite (.pure _) (.ite (.pure _) .failure)

theorem opcode_local (seg : Seg) (op : Byte) : Local (opcode seg op) := by
  have bytes (f : Byte → Instr) := immediate_local f byte_local
  have words (f : BitVec 16 → Instr) := immediate_local f word_local
  have signed (f : BitVec 16 → Instr) := immediate_local f signedByte_local
  have halves (f : Nat × Place Half → Instr) := immediate_local f (modRm_local Half.numbered seg)
  have regs (f : Nat × Place Reg → Instr) := immediate_local f (modRm_local Reg.numbered seg)
  have groups (n : Nat) (f : Place Reg → Instr) := immediate_local f (group_local Reg.numbered seg n)
  have group₀ := group_local Reg.numbered seg 0
  unfold opcode
  refine .ite (.pure _) (.ite (.pure _) (.ite (.pure _) (.ite (bytes _) (.ite (words _) (.ite (.pure _)
    (.ite (halves _) (.ite (.pure _) (.ite (halves _) (.ite (regs _) (.ite (regs _) (.ite (words _)
    (.ite (signed _) (.ite (signed _) (.ite (signed _) (.ite ?_ (.ite (halves _) (.ite (regs _) (.ite (halves _)
    (.ite (movSeg_local seg) (.ite (words _) (.ite (words _) (.ite (words _) (.ite (.pure _) (.ite ?_
    (.ite (bytes _) (.ite (signed _) (.ite farPointer_local (.ite (signed _) (.ite (rep_local seg) (.ite (.pure _)
    (.ite (groups _ _) (.ite (.pure _) (.ite (.pure _) (.ite (.pure _) (.ite (groups _ _)
    .failure)))))))))))))))))))))))))))))))))))
  · exact immediateTo_local _ group₀ signedByte_local
  · exact immediateTo_local _ group₀ word_local

theorem decode_local : Local decode :=
  byte_local.bind fun _ => .ite (byte_local.bind fun _ => opcode_local _ _) (opcode_local _ _)

end Readers

def State.advance (s : State) (size : Nat) : State := { s with ip := s.ip + BitVec.ofNat 16 size }

/-- The bytes of one instruction stand at CS:IP. -/
structure Fetches (s : State) (bytes : List Byte) (i : Instr) : Prop where
  encoded : decode bytes = some (i, [])
  size : bytes.length ≤ 15
  here : ByteMemory.read s.mem s.pc bytes.length = bytes

/-- The bytes behind it do not matter. -/
theorem Fetches.decodes {s : State} {bytes : List Byte} {i : Instr} (fetches : Fetches s bytes i) :
    fetched s = bytes ++ ByteMemory.read s.mem (s.pc + bytes.length) (15 - bytes.length) ∧
      decode (fetched s) = some (i, ByteMemory.read s.mem (s.pc + bytes.length) (15 - bytes.length)) := by
  obtain ⟨encoded, size, here⟩ := fetches
  have split : fetched s = bytes ++ ByteMemory.read s.mem (s.pc + bytes.length) (15 - bytes.length) := by
    have whole := ByteMemory.read_add s.mem s.pc bytes.length (15 - bytes.length)
    rw [here, Nat.add_sub_cancel' size] at whole
    exact whole
  refine ⟨split, ?_⟩
  rw [split]
  exact decode_local bytes _ i [] encoded

theorem Fetches.step {s : State} {bytes : List Byte} {i : Instr} (fetches : Fetches s bytes i) :
    s.step = some (exec i s.ip (s.advance bytes.length)) := by
  rw [State.step, fetches.decodes.2]
  simp only [ByteMemory.read_length, Nat.sub_sub_self fetches.size]
  rfl

theorem Fetches.of_code {s : State} {code bytes : List Byte} {i : Instr} {start k size : Nat}
    (here : ByteMemory.read s.mem start size = code) (pc : s.pc = start + k) (encoded : decode bytes = some (i, []))
    (slice : (code.drop k).take bytes.length = bytes) (short : bytes.length ≤ 15) (inside : k + bytes.length ≤ size) :
    Fetches s bytes i := by
  refine ⟨encoded, short, ?_⟩
  rw [pc, ByteMemory.read_slice s.mem here k _ inside, slice]

theorem Fetches.unique {s : State} {bytes bytes' : List Byte} {i i' : Instr} (fetches : Fetches s bytes i)
    (fetches' : Fetches s bytes' i') : bytes' = bytes ∧ i' = i := by
  obtain ⟨split, decoded⟩ := fetches.decodes
  obtain ⟨split', decoded'⟩ := fetches'.decodes
  obtain ⟨rfl, behind⟩ := Prod.mk.inj (Option.some.inj (decoded'.symm.trans decoded))
  rw [behind] at split'
  exact ⟨List.append_cancel_right (split'.symm.trans split), rfl⟩

/-! ## Segments at zero -/

section Low
variable {s : State}

theorem low_address {seg : Seg} (low : s.segs seg = ⟨0, 0⟩) (off : BitVec 16) : s.address seg off = off.toNat := by
  rw [State.address, low]
  bv_omega

theorem low_pc (low : s.segs .cs = ⟨0, 0⟩) : s.pc = s.ip.toNat := low_address low s.ip

end Low

/-! ## Memory an instruction looks at -/

/-- The same processor over memories that agree on `P`. -/
def Agree (P : Nat → Prop) (s s' : State) : Prop :=
  ∃ mem, (∀ a, P a → mem a = s.mem a) ∧ s' = { s with mem := mem }

inductive Outcome.Agree (P : Nat → Prop) : Outcome → Outcome → Prop where
  | next {s s'} : RealMode.Agree P s s' → Agree P (.next s) (.next s')
  | raised {s s'} : RealMode.Agree P s s' → Agree P (.raised s) (.raised s')
  | halted {s s'} : RealMode.Agree P s s' → Agree P (.halted s) (.halted s')

def Place.Cells {ρ : Type} (s : State) (size : Nat) : Place ρ → Nat → Prop
  | .reg _, _ => False
  | .mem seg off, a => Within (s.address seg off) size a

def Instr.Reads (s : State) : Instr → Nat → Prop
  | .mov _ src, a | .movSeg _ src, a => src.Cells s 2 a
  | .movByte _ src, a => src.Cells s 1 a
  | .alu _ dst src, a => dst.Cells s 2 a ∨ src.Cells s 2 a
  | .aluByte _ dst src, a => dst.Cells s 1 a ∨ src.Cells s 1 a
  | .addImm dst _, a | .inc dst, a => dst.Cells s 2 a
  | .div src, a => src.Cells s 2 a ∨ quotient s (s.get src) = none ∧ Within 0 4 a
  | .pop _, a | .popSeg _, a => Within (s.address .ss (s.regs .sp)) 2 a
  | .repMovs src wide, a => s.regs .cx ≠ 0 ∧ Within (s.address src (s.regs .si)) (elementSize wide) a
  | .lods src, a => Within (s.address src (s.regs .si)) 1 a
  | .int n, a => Within (4 * n.toNat) 4 a
  | _, _ => False

section Agreement
variable {P : Nat → Prop} {s s' t : State}

theorem Agree.refl (s : State) : Agree P s s := ⟨s.mem, fun _ _ => rfl, rfl⟩

theorem Agree.trans (first : Agree P s s') (second : Agree P s' t) : Agree P s t := by
  obtain ⟨mem, same, rfl⟩ := first
  obtain ⟨mem', same', rfl⟩ := second
  exact ⟨mem', fun a inside => (same' a inside).trans (same a inside), rfl⟩

theorem Agree.segs (agree : Agree P s s') : s'.segs = s.segs := by
  obtain ⟨mem, -, rfl⟩ := agree
  rfl

/-- A change to the processor that looks at no memory. -/
theorem Agree.map {f : State → State} (agree : Agree P s s')
    (aside : ∀ s mem, f { s with mem := mem } = { f s with mem := mem }) (mem : ∀ s, (f s).mem = s.mem) :
    Agree P (f s) (f s') := by
  obtain ⟨cells, same, rfl⟩ := agree
  refine ⟨cells, fun a inside => ?_, aside s cells⟩
  rw [mem]
  exact same a inside

theorem Agree.setReg (agree : Agree P s s') (r : Reg) (v : BitVec 16) : Agree P (s.setReg r v) (s'.setReg r v) :=
  agree.map (f := (State.setReg · r v)) (fun _ _ => rfl) fun _ => rfl

theorem Agree.setHalf (agree : Agree P s s') (h : Half) (v : Byte) : Agree P (s.setHalf h v) (s'.setHalf h v) :=
  agree.map (f := (State.setHalf · h v)) (fun _ _ => rfl) fun _ => rfl

theorem Agree.setSeg (agree : Agree P s s') (seg : Seg) (v : BitVec 16) :
    Agree P (s.setSeg seg v) (s'.setSeg seg v) :=
  agree.map (f := (State.setSeg · seg v)) (fun _ _ => rfl) fun _ => rfl

theorem Agree.setFlags (agree : Agree P s s') (mask new : BitVec 16) :
    Agree P (s.setFlags mask new) (s'.setFlags mask new) :=
  agree.map (f := (State.setFlags · mask new)) (fun _ _ => rfl) fun _ => rfl

theorem Agree.setIp (agree : Agree P s s') (ip : BitVec 16) : Agree P { s with ip } { s' with ip } :=
  agree.map (f := fun s => { s with ip }) (fun _ _ => rfl) fun _ => rfl

theorem Agree.write (agree : Agree P s s') (address : Nat) (data : List Byte) :
    Agree P { s with mem := ByteMemory.write s.mem address data }
      { s' with mem := ByteMemory.write s'.mem address data } := by
  obtain ⟨mem, same, rfl⟩ := agree
  refine ⟨_, fun a inside => ?_, rfl⟩
  simp only [ByteMemory.write, same a inside]

theorem Agree.push (agree : Agree P s s') (v : BitVec 16) : Agree P (s.push v) (s'.push v) := by
  have lowered := agree.setReg .sp (s.regs .sp - 2)
  have stored := lowered.write ((s.setReg .sp (s.regs .sp - 2)).address .ss (s.regs .sp - 2)) (bytes16 v)
  obtain ⟨mem, same, rfl⟩ := agree
  exact stored

theorem Agree.pushed (agree : Agree P s s') (v : BitVec 16) :
    Agree (fun a => P a ∨ Within (s.address .ss (s.regs .sp - 2)) 2 a) (s.push v) (s'.push v) := by
  obtain ⟨mem, same, rfl⟩ := agree
  refine ⟨ByteMemory.write mem (s.address .ss (s.regs .sp - 2)) (bytes16 v), fun a cell => ?_, rfl⟩
  change _ = ByteMemory.write s.mem (s.address .ss (s.regs .sp - 2)) (bytes16 v) a
  by_cases word : Within (s.address .ss (s.regs .sp - 2)) 2 a
  · obtain ⟨i, rfl⟩ := Nat.exists_eq_add_of_le word.1
    have inside : i < (bytes16 v).length := Nat.lt_of_add_lt_add_left word.2
    rw [ByteMemory.write_inside _ _ _ _ inside, ByteMemory.write_inside _ _ _ _ inside]
  · rw [ByteMemory.write_outside _ _ _ _ word, ByteMemory.write_outside _ _ _ _ word]
    exact same a (cell.resolve_right word)

theorem Agree.set (agree : Agree P s s') (v : BitVec 16) (place : Place Reg) :
    Agree P (s.set v place) (s'.set v place) := by
  cases place with
  | reg r => exact agree.setReg r v
  | mem seg off =>
    have stored := agree.write (s.address seg off) (bytes16 v)
    obtain ⟨mem, same, rfl⟩ := agree
    exact stored

theorem Agree.setByte (agree : Agree P s s') (v : Byte) (place : Place Half) :
    Agree P (s.setByte v place) (s'.setByte v place) := by
  cases place with
  | reg h => exact agree.setHalf h v
  | mem seg off =>
    have stored := agree.write (s.address seg off) [v]
    obtain ⟨mem, same, rfl⟩ := agree
    exact stored

theorem Agree.jumpBy (agree : Agree P s s') (rel : BitVec 16) : Agree P (s.jumpBy rel) (s'.jumpBy rel) :=
  agree.map (f := (State.jumpBy · rel)) (fun _ _ => rfl) fun _ => rfl

theorem load16_same {mem mem' : Memory Byte} {address : Nat} (same : ∀ a, Within address 2 a → mem' a = mem a) :
    load16 mem' address = load16 mem address := by
  simp only [load16]
  rw [same address ⟨le_rfl, by omega⟩, same (address + 1) ⟨by omega, by omega⟩]

theorem Agree.load16 (agree : Agree P s s') {address : Nat} (inside : ∀ a, Within address 2 a → P a) :
    RealMode.load16 s'.mem address = RealMode.load16 s.mem address := by
  obtain ⟨mem, same, rfl⟩ := agree
  exact load16_same fun a within => same a (inside a within)

theorem Agree.read (agree : Agree P s s') {address count : Nat} (inside : ∀ a, Within address count a → P a) :
    ByteMemory.read s'.mem address count = ByteMemory.read s.mem address count := by
  obtain ⟨mem, same, rfl⟩ := agree
  exact ByteMemory.read_congr fun a within => same a (inside a within)

theorem Agree.address (agree : Agree P s s') (seg : Seg) (off : BitVec 16) : s'.address seg off = s.address seg off := by
  rw [State.address, State.address, agree.segs]

theorem Agree.get (agree : Agree P s s') {place : Place Reg} (inside : ∀ a, place.Cells s 2 a → P a) :
    s'.get place = s.get place := by
  cases place with
  | reg r =>
    obtain ⟨mem, -, rfl⟩ := agree
    rfl
  | mem seg off =>
    rw [State.get, State.get, agree.address]
    exact agree.load16 inside

theorem Agree.getByte (agree : Agree P s s') {place : Place Half} (inside : ∀ a, place.Cells s 1 a → P a) :
    s'.getByte place = s.getByte place := by
  obtain ⟨mem, same, rfl⟩ := agree
  cases place with
  | reg h => rfl
  | mem seg off => exact same _ (inside _ ⟨le_rfl, Nat.lt_succ_self _⟩)

theorem Agree.top (agree : Agree P s s') (inside : ∀ a, Within (s.address .ss (s.regs .sp)) 2 a → P a) :
    s'.top = s.top := by
  have same := agree.load16 inside
  obtain ⟨mem, -, rfl⟩ := agree
  exact same

theorem Agree.raise (agree : Agree P s s') (n : Byte) (inside : ∀ a, Within (4 * n.toNat) 4 a → P a) :
    Agree P (s.raise n) (s'.raise n) := by
  have off : RealMode.load16 s'.mem (4 * n.toNat) = RealMode.load16 s.mem (4 * n.toNat) :=
    agree.load16 fun a within => inside a ⟨within.1, by have := within.2; omega⟩
  have selector : RealMode.load16 s'.mem (4 * n.toNat + 2) = RealMode.load16 s.mem (4 * n.toNat + 2) :=
    agree.load16 fun a within => inside a ⟨by have := within.1; omega, by have := within.2; omega⟩
  have pushed := ((agree.push s.flags).push (s.segs .cs).selector).push s.ip
  obtain ⟨mem, same, rfl⟩ := agree
  simp only [State.raise, off, selector]
  exact ((pushed.setFlags _ _).setSeg .cs _).setIp _

theorem Agree.moveString (agree : Agree P s s') (src : Seg) (wide : Bool)
    (inside : ∀ a, Within (s.address src (s.regs .si)) (elementSize wide) a → P a) :
    Agree P (s.moveString src wide) (s'.moveString src wide) := by
  have data : ByteMemory.read s'.mem (s'.address src (s'.regs .si)) (elementSize wide) =
      ByteMemory.read s.mem (s.address src (s.regs .si)) (elementSize wide) := by
    have same := agree.read inside
    obtain ⟨mem, -, rfl⟩ := agree
    exact same
  have stored := agree.write (s.address .es (s.regs .di))
    (ByteMemory.read s.mem (s.address src (s.regs .si)) (elementSize wide))
  simp only [State.moveString, data]
  obtain ⟨mem, same, rfl⟩ := agree
  exact (stored.setReg .si _).setReg .di _

theorem exec_agree (i : Instr) (start : BitVec 16) (agree : Agree P s s') (inside : ∀ a, i.Reads s a → P a) :
    (exec i start s).Agree P (exec i start s') := by
  have regs : s'.regs = s.regs := by
    obtain ⟨mem, -, rfl⟩ := agree
    rfl
  have flags : s'.flags = s.flags := by
    obtain ⟨mem, -, rfl⟩ := agree
    rfl
  have stride (size : BitVec 16) : s'.stride size = s.stride size := by rw [State.stride, State.stride, flags]
  cases i with
  | cli | sti | cld => exact .next (agree.setFlags _ _)
  | mov dst src =>
    simp only [exec, agree.get inside]
    exact .next (agree.set _ _)
  | movImm dst v => exact .next (agree.set _ _)
  | movByte dst src =>
    simp only [exec, agree.getByte inside]
    exact .next (agree.setByte _ _)
  | movByteImm dst v => exact .next (agree.setHalf _ _)
  | movSeg dst src =>
    simp only [exec, agree.get inside]
    exact .next (agree.setSeg _ _)
  | alu op dst src =>
    simp only [exec, agree.get fun a cell => inside a (.inl cell), agree.get fun a cell => inside a (.inr cell)]
    exact .next ((agree.set _ _).setFlags _ _)
  | aluByte op dst src =>
    simp only [exec, agree.getByte fun a cell => inside a (.inl cell), agree.getByte fun a cell => inside a (.inr cell)]
    exact .next ((agree.setByte _ _).setFlags _ _)
  | addImm dst v | inc dst =>
    simp only [exec, agree.get inside]
    exact .next ((agree.set _ _).setFlags _ _)
  | div src =>
    have operand := agree.get fun a cell => inside a (.inl cell)
    have same : quotient s' (s'.get src) = quotient s (s.get src) := by
      rw [quotient, quotient, operand, regs]
    simp only [exec, same]
    cases found : quotient s (s.get src) with
    | some r => exact .next ((agree.setReg _ _).setReg _ _)
    | none => exact .raised ((agree.setIp start).raise 0 fun a within => inside a (.inr ⟨found, within⟩))
  | push r =>
    simp only [exec, regs]
    exact .next (agree.push _)
  | pushSeg seg =>
    simp only [exec, agree.segs]
    exact .next (agree.push _)
  | pushImm v => exact .next (agree.push _)
  | pop r =>
    simp only [exec, regs, agree.top inside]
    exact .next ((agree.setReg _ _).setReg _ _)
  | popSeg seg =>
    simp only [exec, regs, agree.top inside]
    exact .next ((agree.setReg _ _).setSeg _ _)
  | repMovs src wide =>
    simp only [exec, regs]
    split
    case isTrue => exact .next agree
    case isFalse counts =>
      have moved := agree.moveString src wide fun a within => inside a ⟨counts, within⟩
      exact .next ((moved.setReg _ _).setIp _)
  | lods src =>
    have cell : s'.mem (s'.address src (s.regs .si)) = s.mem (s.address src (s.regs .si)) := by
      obtain ⟨mem, same, rfl⟩ := agree
      exact same _ (inside _ ⟨le_rfl, Nat.lt_succ_self _⟩)
    simp only [exec, regs, cell, stride]
    exact .next ((agree.setHalf _ _).setReg _ _)
  | jump rel => exact .next (agree.jumpBy _)
  | jumpIf c rel =>
    simp only [exec, flags]
    split
    · exact .next (agree.jumpBy _)
    · exact .next agree
  | loop rel =>
    have counted := agree.setReg .cx (s.regs .cx - 1)
    have cx : (s'.setReg .cx (s.regs .cx - 1)).regs .cx = (s.setReg .cx (s.regs .cx - 1)).regs .cx := by
      simp only [State.setReg, regs]
    simp only [exec, regs, cx]
    split
    · exact .next counted
    · exact .next (counted.jumpBy _)
  | jumpFar selector off => exact .next ((agree.setSeg .cs selector).setIp off)
  | int n => exact .raised (agree.raise n inside)
  | hlt => exact .halted agree

end Agreement

/-! ## Runs -/

theorem Fetches.agree {P : Nat → Prop} {s s' : State} {bytes : List Byte} {i : Instr} (fetches : Fetches s bytes i)
    (agree : Agree P s s') (inside : ∀ a, Within s.pc bytes.length a → P a) : Fetches s' bytes i := by
  have same := agree.read inside
  obtain ⟨mem, -, rfl⟩ := agree
  exact ⟨fetches.encoded, fetches.size, same.trans fetches.here⟩

/-- One instruction after another, each standing in cells of `P` and looking at cells of `P` alone,
with `C` before each of them. -/
inductive Glides (P : Nat → Prop) (C : State → Prop) : State → State → Prop where
  | refl (s : State) : Glides P C s s
  | step {s t v : State} {bytes : List Byte} {i : Instr} : C s → Fetches s bytes i →
      (∀ a, Within s.pc bytes.length a → P a) → (∀ a, i.Reads (s.advance bytes.length) a → P a) →
      exec i s.ip (s.advance bytes.length) = .next t → Glides P C t v → Glides P C s v

/-- The cells an instruction stores to when the next one follows. -/
def Instr.Writes (s : State) : Instr → Nat → Prop
  | .mov dst _, a | .movImm dst _, a | .alu _ dst _, a | .addImm dst _, a | .inc dst, a => dst.Cells s 2 a
  | .movByte dst _, a | .aluByte _ dst _, a => dst.Cells s 1 a
  | .push _, a | .pushSeg _, a | .pushImm _, a => Within (s.address .ss (s.regs .sp - 2)) 2 a
  | _, _ => False

/-- An instruction that the next one follows in any state. -/
def Instr.plain : Instr → Bool
  | .cli | .sti | .cld | .mov _ _ | .movImm _ _ | .movByte _ _ | .movByteImm _ _ | .alu _ _ _ | .aluByte _ _ _ => true
  | .addImm _ _ | .inc _ | .push _ | .pushSeg _ | .pushImm _ | .pop _ | .lods _ => true
  | .movSeg seg _ | .popSeg seg => seg ≠ .cs
  | _ => false

def Instr.quiet : Instr → Bool
  | .cli | .sti | .cld | .movImm (.reg _) _ | .movByteImm _ _ | .addImm (.reg _) _ | .inc (.reg _) => true
  | .mov (.reg _) (.reg _) | .movByte (.reg _) (.reg _) | .alu _ (.reg _) (.reg _)
  | .aluByte _ (.reg _) (.reg _) => true
  | .movSeg seg (.reg _) => seg ≠ .cs
  | _ => false

def effect (i : Instr) (s : State) : State :=
  match exec i s.ip s with
  | .next t => t
  | _ => s

/-- Instructions with their bytes, executed one behind the other. -/
def straight (code : List (List Byte × Instr)) (s : State) : State :=
  code.foldl (fun s e => effect e.2 (s.advance e.1.length)) s

/-- Encodings of instructions of a kind. -/
def Encoded (kind : Instr → Bool) (code : List (List Byte × Instr)) : Prop :=
  ∀ e ∈ code, decode e.1 = some (e.2, []) ∧ e.1.length ≤ 15 ∧ kind e.2 = true

instance (kind : Instr → Bool) (code : List (List Byte × Instr)) : Decidable (Encoded kind code) :=
  inferInstanceAs (Decidable (∀ e ∈ code, _))

/-- Instructions that look at cells of `P` alone and leave `size` cells from `start` on as they
are, with `C` before each of them. -/
def Clear (P : Nat → Prop) (C : State → Prop) (start size : Nat) : List (List Byte × Instr) → State → Prop
  | [], _ => True
  | e :: code, s => C s ∧ (∀ a, e.2.Reads (s.advance e.1.length) a → P a) ∧
    (∀ a, Within start size a → ¬ e.2.Writes (s.advance e.1.length) a) ∧
    Clear P C start size code (effect e.2 (s.advance e.1.length))

def Instr.pushes (s : State) : Instr → Option (BitVec 16)
  | .push r => some (s.regs r)
  | .pushSeg seg => some (s.segs seg).selector
  | .pushImm v => some v
  | _ => none

section Runs
variable {P : Nat → Prop} {C : State → Prop} {s t v : State}

theorem Glides.trans (first : Glides P C s t) (second : Glides P C t v) : Glides P C s v := by
  induction first with
  | refl => exact second
  | step here fetches inside reads next _ ih => exact .step here fetches inside reads next (ih second)

/-- What an instruction leaves alone that the next one follows. -/
structure Follows (i : Instr) (s t : State) : Prop where
  cs : t.segs .cs = s.segs .cs
  ip : t.ip = s.ip
  mem : ∀ a, ¬ i.Writes s a → t.mem a = s.mem a

theorem set_frame (s : State) (v : BitVec 16) (dst : Place Reg) : (s.set v dst).segs = s.segs ∧
    (s.set v dst).ip = s.ip ∧ ∀ a, ¬ dst.Cells s 2 a → (s.set v dst).mem a = s.mem a := by
  cases dst with
  | reg r => exact ⟨rfl, rfl, fun _ _ => rfl⟩
  | mem seg off => exact ⟨rfl, rfl, fun a out => ByteMemory.write_outside _ _ _ _ out⟩

theorem setByte_frame (s : State) (v : Byte) (dst : Place Half) : (s.setByte v dst).segs = s.segs ∧
    (s.setByte v dst).ip = s.ip ∧ ∀ a, ¬ dst.Cells s 1 a → (s.setByte v dst).mem a = s.mem a := by
  cases dst with
  | reg h => exact ⟨rfl, rfl, fun _ _ => rfl⟩
  | mem seg off => exact ⟨rfl, rfl, fun a out => ByteMemory.write_outside _ _ _ _ out⟩

theorem plain_follows {i : Instr} (plain : i.plain = true) (start : BitVec 16) (s : State) :
    ∃ t, exec i start s = .next t ∧ Follows i s t := by
  cases i with
  | cli | sti | cld | movByteImm | pop | lods => exact ⟨_, rfl, rfl, rfl, fun _ _ => rfl⟩
  | mov dst | movImm dst | alu op dst | addImm dst | inc dst =>
    obtain ⟨segs, ip, mem⟩ := set_frame s _ dst
    exact ⟨_, rfl, congrFun segs .cs, ip, mem⟩
  | movByte dst | aluByte op dst =>
    obtain ⟨segs, ip, mem⟩ := setByte_frame s _ dst
    exact ⟨_, rfl, congrFun segs .cs, ip, mem⟩
  | push | pushSeg | pushImm =>
    exact ⟨_, rfl, rfl, rfl, fun a out => ByteMemory.write_outside _ _ _ _ out⟩
  | movSeg seg | popSeg seg =>
    have other : seg ≠ .cs := of_decide_eq_true plain
    exact ⟨_, rfl, Function.update_of_ne other.symm _ _, rfl, fun _ _ => rfl⟩
  | div | repMovs | jump | jumpIf | loop | jumpFar | int | hlt => exact absurd plain Bool.false_ne_true

theorem quiet_plain {i : Instr} (quiet : i.quiet = true) : i.plain = true := by
  unfold Instr.quiet at quiet
  split at quiet
  all_goals first
    | contradiction
    | rfl
    | exact quiet

/-- A quiet instruction looks at no memory and stores to none. -/
theorem quiet_alone {i : Instr} (quiet : i.quiet = true) (s : State) (a : Nat) :
    ¬ i.Reads s a ∧ ¬ i.Writes s a := by
  unfold Instr.quiet at quiet
  split at quiet
  all_goals first
    | contradiction
    | exact ⟨id, id⟩
    | exact ⟨fun reads => reads.elim id id, id⟩

theorem effect_follows {i : Instr} (plain : i.plain = true) (start : BitVec 16) (s : State) :
    exec i start s = .next (effect i s) ∧ Follows i s (effect i s) := by
  obtain ⟨t, next, follows⟩ := plain_follows plain s.ip s
  have same : exec i start s = exec i s.ip s := by
    cases i with
    | div | repMovs => exact absurd plain Bool.false_ne_true
    | _ => rfl
  rw [same, effect, next]
  exact ⟨rfl, follows⟩

theorem advance_pc (s : State) {size : Nat} (low : (s.segs .cs).base.toNat + 65536 ≤ 2 ^ 32)
    (room : s.ip.toNat + size < 65536) : (s.advance size).pc = s.pc + size := by
  simp only [State.pc, State.address, State.advance]
  bv_omega

/-- A stretch of plain instructions that leaves its own code alone. -/
theorem glides_plain {start size : Nat} (code : List (List Byte × Instr)) (plain : Encoded Instr.plain code)
    (here : ByteMemory.read s.mem s.pc (code.flatMap Prod.fst).length = code.flatMap Prod.fst)
    (low : (s.segs .cs).base.toNat + 65536 ≤ 2 ^ 32)
    (room : s.ip.toNat + (code.flatMap Prod.fst).length < 65536)
    (within : ∀ a, Within s.pc (code.flatMap Prod.fst).length a → Within start size a)
    (inside : ∀ a, Within start size a → P a) (clear : Clear P C start size code s) :
    Glides P C s (straight code s) := by
  induction code generalizing s with
  | nil => exact .refl s
  | cons e code ih =>
    obtain ⟨⟨encoded, short, falls⟩, others⟩ := List.forall_mem_cons.mp plain
    obtain ⟨before, reads, writes, clear⟩ := clear
    rw [List.flatMap_cons, List.length_append] at here room within
    have whole := ByteMemory.read_add s.mem s.pc e.1.length (code.flatMap Prod.fst).length
    rw [here] at whole
    obtain ⟨first, rest⟩ := List.append_inj whole (ByteMemory.read_length _ _ _).symm
    have behind : (s.advance e.1.length).pc = s.pc + e.1.length := advance_pc s low (by omega)
    obtain ⟨next, follows⟩ := effect_follows falls s.ip (s.advance e.1.length)
    have pc : (effect e.2 (s.advance e.1.length)).pc = s.pc + e.1.length := by
      rw [← behind, State.pc, State.pc, State.address, State.address, follows.cs, follows.ip]
    have ip : (effect e.2 (s.advance e.1.length)).ip.toNat = s.ip.toNat + e.1.length := by
      rw [follows.ip]
      simp only [State.advance]
      bv_omega
    have ahead (a : Nat) (cell : Within (s.pc + e.1.length) (code.flatMap Prod.fst).length a) : Within start size a :=
      within a ⟨by have := cell.1; omega, by have := cell.2; omega⟩
    refine .step before ⟨encoded, short, first.symm⟩ (fun a cell => inside a (within a ⟨cell.1, ?_⟩)) reads next
      (ih others ?_ ?_ ?_ ?_ clear)
    · have := cell.2
      omega
    · rw [pc]
      exact (ByteMemory.read_congr fun a cell => follows.mem a (writes a (ahead a cell))).trans rest.symm
    · rw [follows.cs]
      exact low
    · rw [ip]
      omega
    · rw [pc]
      exact ahead

theorem straight_follows (code : List (List Byte × Instr)) (plain : Encoded Instr.plain code) (s : State) :
    (straight code s).segs .cs = s.segs .cs ∧
      (straight code s).ip = s.ip + BitVec.ofNat 16 (code.flatMap Prod.fst).length := by
  induction code generalizing s with
  | nil => exact ⟨rfl, (BitVec.add_zero s.ip).symm⟩
  | cons e code ih =>
    obtain ⟨⟨-, -, falls⟩, others⟩ := List.forall_mem_cons.mp plain
    obtain ⟨-, follows⟩ := effect_follows falls s.ip (s.advance e.1.length)
    obtain ⟨cs, ip⟩ := ih others (effect e.2 (s.advance e.1.length))
    refine ⟨cs.trans follows.cs, ip.trans ?_⟩
    rw [follows.ip, List.flatMap_cons, List.length_append, BitVec.ofNat_add, ← BitVec.add_assoc]
    rfl

theorem Encoded.mono {kind kind' : Instr → Bool} {code : List (List Byte × Instr)} (encoded : Encoded kind code)
    (more : ∀ i, kind i = true → kind' i = true) : Encoded kind' code :=
  fun e member => ⟨(encoded e member).1, (encoded e member).2.1, more e.2 (encoded e member).2.2⟩

theorem quiet_encoded {code : List (List Byte × Instr)} (quiet : Encoded Instr.quiet code) :
    Encoded Instr.plain code := quiet.mono fun _ => quiet_plain

/-- What quiet instructions preserve holds before each of them. -/
theorem quiet_clear {I : State → Prop} (code : List (List Byte × Instr)) (quiet : Encoded Instr.quiet code)
    (start size : Nat) (s : State) (before : I s)
    (stays : ∀ e ∈ code, ∀ t, I t → I (effect e.2 (t.advance e.1.length))) (all : ∀ t, I t → C t) :
    Clear P C start size code s := by
  induction code generalizing s with
  | nil => trivial
  | cons e code ih =>
    obtain ⟨⟨-, -, silent⟩, others⟩ := List.forall_mem_cons.mp quiet
    obtain ⟨first, rest⟩ := List.forall_mem_cons.mp stays
    exact ⟨all s before, fun a reads => absurd reads (quiet_alone silent _ a).1,
      fun a _ => (quiet_alone silent _ a).2, ih others _ (first s before) rest⟩

theorem quiet_mem (code : List (List Byte × Instr)) (quiet : Encoded Instr.quiet code) (s : State) :
    (straight code s).mem = s.mem := by
  induction code generalizing s with
  | nil => rfl
  | cons e code ih =>
    obtain ⟨⟨-, -, silent⟩, others⟩ := List.forall_mem_cons.mp quiet
    obtain ⟨-, follows⟩ := effect_follows (quiet_plain silent) s.ip (s.advance e.1.length)
    exact (ih others _).trans (funext fun a => follows.mem a (quiet_alone silent _ a).2)

def copied (s : State) (size n behind : Nat) : State :=
  let s := s.advance behind
  let data := ByteMemory.read s.mem (s.address .ds (s.regs .si)) (n * size)
  let s := { s with mem := ByteMemory.write s.mem (s.address .es (s.regs .di)) data }
  let s := s.setReg .si (s.regs .si + BitVec.ofNat 16 (n * size))
  let s := s.setReg .di (s.regs .di + BitVec.ofNat 16 (n * size))
  s.setReg .cx 0

/-- Source, destination and the instruction itself, none of which wraps or meets another. -/
structure CopyRoom (s : State) (size n behind : Nat) : Prop where
  bases : ∀ seg, (s.segs seg).base.toNat + 65536 ≤ 2 ^ 32
  source : (s.regs .si).toNat + n * size < 65536
  target : (s.regs .di).toNat + n * size < 65536
  apart : s.address .ds (s.regs .si) + n * size ≤ s.address .es (s.regs .di) ∨
    s.address .es (s.regs .di) + n * size ≤ s.address .ds (s.regs .si)
  code : s.pc + behind ≤ s.address .es (s.regs .di) ∨ s.address .es (s.regs .di) + n * size ≤ s.pc

theorem address_add (s : State) (seg : Seg) (off : BitVec 16) (k : Nat)
    (low : (s.segs seg).base.toNat + 65536 ≤ 2 ^ 32) (room : off.toNat + k < 65536) :
    s.address seg (off + BitVec.ofNat 16 k) = s.address seg off + k := by
  simp only [State.address]
  bv_omega

/-- A repeated MOVS copies as a whole, however its elements are interrupted. -/
theorem glides_repMovs {bytes : List Byte} (wide : Bool) (n : Nat) (fetches : Fetches s bytes (.repMovs .ds wide))
    (count : (s.regs .cx).toNat = n) (forward : s.flags &&& directionFlag = 0)
    (room : CopyRoom s (elementSize wide) n bytes.length) (inside : ∀ a, Within s.pc bytes.length a → P a)
    (reads : ∀ a, Within (s.address .ds (s.regs .si)) (n * elementSize wide) a → P a)
    (all : ∀ t, t.segs = s.segs → t.regs .sp = s.regs .sp → C t) : Glides P C s (copied s (elementSize wide) n bytes.length) := by
  induction n generalizing s with
  | zero =>
    have none : s.regs .cx = 0 := BitVec.eq_of_toNat_eq count
    have next : exec (.repMovs .ds wide) s.ip (s.advance bytes.length) = .next (s.advance bytes.length) := if_pos none
    have same : copied s (elementSize wide) 0 bytes.length = s.advance bytes.length := by
      simp [copied, State.setReg, State.advance, ByteMemory.read, ← none]
    rw [same]
    exact .step (all s rfl rfl) fetches inside (fun a reads => absurd none reads.1) next (.refl _)
  | succ n ih =>
    have turn : (n + 1) * elementSize wide = elementSize wide + n * elementSize wide := by rw [Nat.succ_mul, Nat.add_comm]
    obtain ⟨bases, source, target, apart, code⟩ := room
    rw [turn] at source target apart code reads
    generalize size : elementSize wide = width at *
    let t : State := { ((s.advance bytes.length).moveString .ds wide).setReg .cx (s.regs .cx - 1) with ip := s.ip }
    have some : s.regs .cx ≠ 0 := fun none => by rw [none] at count; exact absurd count (by simp)
    have next : exec (.repMovs .ds wide) s.ip (s.advance bytes.length) = .next t := if_neg some
    have strides (m : Memory Byte) (size : BitVec 16) : State.stride { s.advance bytes.length with mem := m } size = size :=
      if_pos forward
    have mem : t.mem = ByteMemory.write s.mem (s.address .es (s.regs .di))
        (ByteMemory.read s.mem (s.address .ds (s.regs .si)) width) := by rw [← size]; rfl
    have si : t.regs .si = s.regs .si + BitVec.ofNat 16 width := by
      rw [← strides s.mem (BitVec.ofNat 16 width), ← size]
      rfl
    have di : t.regs .di = s.regs .di + BitVec.ofNat 16 width := by
      rw [← strides s.mem (BitVec.ofNat 16 width), ← size]
      rfl
    have cx : (t.regs .cx).toNat = n := by
      change (s.regs .cx - 1).toNat = n
      bv_omega
    have source' : t.address .ds (t.regs .si) = s.address .ds (s.regs .si) + width := by
      rw [si]
      exact address_add s .ds _ _ (bases .ds) (by omega)
    have target' : t.address .es (t.regs .di) = s.address .es (s.regs .di) + width := by
      rw [di]
      exact address_add s .es _ _ (bases .es) (by omega)
    have pc : t.pc = s.pc := rfl
    have same : copied s width (n + 1) bytes.length = copied t width n bytes.length := by
      have moved : (copied s width (n + 1) bytes.length).mem = (copied t width n bytes.length).mem := by
        change ByteMemory.write s.mem (s.address .es (s.regs .di))
            (ByteMemory.read s.mem (s.address .ds (s.regs .si)) ((n + 1) * width)) =
          ByteMemory.write t.mem (t.address .es (t.regs .di))
            (ByteMemory.read t.mem (t.address .ds (t.regs .si)) (n * width))
        rw [source', target', mem, turn]
        exact (ByteMemory.copy_append s.mem _ _ _ _ apart).symm
      have further (off : BitVec 16) : off + BitVec.ofNat 16 ((n + 1) * width) =
          off + BitVec.ofNat 16 width + BitVec.ofNat 16 (n * width) := by
        rw [turn, BitVec.ofNat_add, BitVec.add_assoc]
      refine State.ext ?_ rfl rfl rfl moved
      funext r
      cases r with
      | si => exact (further (s.regs .si)).trans (congrArg (· + BitVec.ofNat 16 (n * width)) si.symm)
      | di => exact (further (s.regs .di)).trans (congrArg (· + BitVec.ofNat 16 (n * width)) di.symm)
      | cx | ax | dx | bx | sp | bp => rfl
    rw [same]
    refine .step (all s rfl rfl) fetches inside (fun a cells => reads a ?_) next (ih ?_ cx forward ?_ ?_ ?_ ?_)
    · have low := cells.2.1
      have high := cells.2.2
      rw [size] at high
      exact ⟨low, Nat.lt_of_lt_of_le high (Nat.add_le_add_left (Nat.le_add_right _ _) _)⟩
    · refine ⟨fetches.encoded, fetches.size, ?_⟩
      rw [pc, mem, ByteMemory.read_write_apart]
      · exact fetches.here
      · rw [ByteMemory.read_length]
        omega
    · refine ⟨bases, ?_, ?_, ?_, ?_⟩
      · rw [si]
        bv_omega
      · rw [di]
        bv_omega
      · rw [source', target']
        omega
      · rw [pc, target']
        omega
    · exact inside
    · intro a within
      rw [source'] at within
      exact reads a ⟨by have := within.1; omega, by have := within.2; omega⟩
    · exact all

end Runs

/-! ## Halves of registers -/

theorem half_setHalf (s : State) (h : Half) (v : Byte) : (s.setHalf h v).half h = v := by
  obtain ⟨r, high⟩ := h
  cases high with
  | true =>
    simp only [State.half, State.setHalf, State.setReg, Function.update_self, if_true]
    ext i hi
    simp
    interval_cases i <;> simp
  | false =>
    simp only [State.half, State.setHalf, State.setReg, Function.update_self, Bool.false_eq_true, if_false]
    ext i hi
    simp

theorem half_setHalf_other (s : State) {h h' : Half} (v : Byte) (other : h' ≠ h) : (s.setHalf h v).half h' = s.half h' := by
  obtain ⟨r, high⟩ := h
  obtain ⟨r', high'⟩ := h'
  by_cases same : r' = r
  · subst same
    simp only [State.half, State.setHalf, State.setReg, Function.update_self]
    ext i hi
    cases high <;> cases high' <;> simp at other ⊢ <;> interval_cases i <;> simp
  · simp only [State.half, State.setHalf, State.setReg, Function.update_of_ne same]

/-! ## Interrupts -/

/-- The bytes that an interrupt pushes, lowest address first. -/
def interruptFrame (s : State) : List Byte :=
  bytes16 s.ip ++ bytes16 (s.segs .cs).selector ++ bytes16 s.flags

theorem word_bytes16 (v : BitVec 16) :
    (v.setWidth 8).setWidth 16 ||| ((v >>> 8).setWidth 8).setWidth 16 <<< 8 = v := by
  ext i hi
  simp only [BitVec.getElem_or, BitVec.getElem_setWidth, BitVec.getElem_shiftLeft, BitVec.getLsbD_setWidth,
    BitVec.getLsbD_ushiftRight]
  by_cases low : i < 8
  · simp [low, hi]
  · have up : 8 + (i - 8) = i := by omega
    simp [low, hi, up]
    omega

theorem load16_of_read {mem : Memory Byte} {address : Nat} {v : BitVec 16}
    (here : ByteMemory.read mem address 2 = bytes16 v) : load16 mem address = v := by
  have lo : mem address = v.setWidth 8 := congrArg (List.getD · 0 0) here
  have hi : mem (address + 1) = (v >>> 8).setWidth 8 := congrArg (List.getD · 1 0) here
  rw [load16, lo, hi, word_bytes16]

theorem load16_write (mem : Memory Byte) (address : Nat) (v : BitVec 16) :
    load16 (ByteMemory.write mem address (bytes16 v)) address = v :=
  load16_of_read (ByteMemory.read_write mem address (bytes16 v))

theorem load16_write_apart (mem : Memory Byte) {address place : Nat} (v : BitVec 16)
    (apart : place + 2 ≤ address ∨ address + 2 ≤ place) :
    load16 (ByteMemory.write mem address (bytes16 v)) place = load16 mem place := by
  refine load16_same fun a cell => ByteMemory.write_outside _ _ _ _ fun inside => ?_
  have size : (bytes16 v).length = 2 := rfl
  obtain ⟨low, high⟩ := cell
  obtain ⟨low', high'⟩ := inside
  omega

theorem push_frame (s : State) (a b c : BitVec 16) (base : (s.segs .ss).base.toNat + 65536 ≤ 2 ^ 32)
    (deep : 6 ≤ (s.regs .sp).toNat) :
    ((s.push a).push b).push c = { s.setReg .sp (s.regs .sp - 6) with
      mem := ByteMemory.write s.mem (s.address .ss (s.regs .sp) - 6) (bytes16 c ++ bytes16 b ++ bytes16 a) } := by
  have first : s.address .ss (s.regs .sp - 2) = s.address .ss (s.regs .sp) - 6 + 4 := by
    simp only [State.address]
    bv_omega
  have second : s.address .ss (s.regs .sp - 2 - 2) = s.address .ss (s.regs .sp) - 6 + 2 := by
    simp only [State.address]
    bv_omega
  have third : s.address .ss (s.regs .sp - 2 - 2 - 2) = s.address .ss (s.regs .sp) - 6 := by
    simp only [State.address]
    bv_omega
  have mem : (((s.push a).push b).push c).mem = ByteMemory.write (ByteMemory.write (ByteMemory.write s.mem
      (s.address .ss (s.regs .sp - 2)) (bytes16 a)) (s.address .ss (s.regs .sp - 2 - 2)) (bytes16 b))
      (s.address .ss (s.regs .sp - 2 - 2 - 2)) (bytes16 c) := rfl
  refine State.ext ?_ rfl rfl rfl ?_
  · funext r
    cases r with
    | sp =>
      change s.regs .sp - 2 - 2 - 2 = s.regs .sp - 6
      bv_omega
    | ax | cx | dx | bx | bp | si | di => rfl
  · rw [mem, first, second, third]
    generalize s.address .ss (s.regs .sp) - 6 = top
    have size (v : BitVec 16) : (bytes16 v).length = 2 := rfl
    rw [ByteMemory.write_comm _ (top + 4) (top + 2) _ _ (.inr (by rw [size])),
      ByteMemory.write_comm _ (top + 4) top _ _ (.inr (by rw [size]; omega)),
      ByteMemory.write_comm _ (top + 2) top _ _ (.inr (by rw [size]))]
    exact (congrArg (ByteMemory.write · (top + 4) (bytes16 a)) (ByteMemory.write_append s.mem top _ _)).trans
      (ByteMemory.write_append s.mem top (bytes16 c ++ bytes16 b) (bytes16 a))

theorem raise_eq (s : State) (n : Byte) (off selector : BitVec 16)
    (vector : ByteMemory.read s.mem (4 * n.toNat) 4 = bytes16 off ++ bytes16 selector)
    (base : (s.segs .ss).base.toNat + 65536 ≤ 2 ^ 32) (deep : 6 ≤ (s.regs .sp).toNat) :
    s.raise n =
      { regs := Function.update s.regs .sp (s.regs .sp - 6)
        segs := Function.update s.segs .cs ⟨selector, selector.setWidth 32 <<< 4⟩
        ip := off
        flags := s.flags &&& ~~~(interruptFlag ||| trapFlag)
        mem := ByteMemory.write s.mem (s.address .ss (s.regs .sp) - 6) (interruptFrame s) } := by
  have low : load16 s.mem (4 * n.toNat) = off := load16_of_read (ByteMemory.read_slice s.mem vector 0 2 (by decide))
  have high : load16 s.mem (4 * n.toNat + 2) = selector :=
    load16_of_read (ByteMemory.read_slice s.mem vector 2 2 (by decide))
  have pushed := push_frame s s.flags (s.segs .cs).selector s.ip base deep
  have frame : s.raise n = { ((((s.push s.flags).push (s.segs .cs).selector).push s.ip).setFlags
      (interruptFlag ||| trapFlag) 0).setSeg .cs selector with ip := off } := by
    rw [← low, ← high]
    rfl
  rw [frame, pushed]
  refine State.ext rfl rfl rfl ?_ rfl
  change (s.flags &&& _) ||| (0#16 &&& _) = s.flags &&& _
  rw [BitVec.zero_and, BitVec.or_zero]

end RealMode
