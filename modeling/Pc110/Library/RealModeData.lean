import Pc110.Library.RealModeRuns

/-! Code that keeps to a stretch of one segment. A listing whose operands are registers and
cells between two offsets leaves the stack, that segment and every other cell alone, so it runs
through interrupts that spare its code and that stretch. -/
namespace RealMode

open LsbBits (Byte)
open ByteMemory (Memory Within)

def Reg.free (r : Reg) : Bool := r ≠ .sp

def Half.free (h : Half) : Bool := h.reg.free

/-- A register other than SP, or `size` bytes of `seg` between two offsets. -/
def Place.between {ρ : Type} (free : ρ → Bool) (seg : Seg) (lo hi size : Nat) : Place ρ → Bool
  | .reg r => free r
  | .mem seg' off => seg' = seg ∧ lo ≤ off.toNat ∧ off.toNat + size ≤ hi

/-- An instruction on such operands. It loads none of CS, SS and `seg`. -/
def Instr.between (seg : Seg) (lo hi : Nat) : Instr → Bool
  | .cld => true
  | .mov dst src | .alu _ dst src =>
    dst.between Reg.free seg lo hi 2 && src.between Reg.free seg lo hi 2
  | .movImm dst _ | .addImm dst _ | .inc dst => dst.between Reg.free seg lo hi 2
  | .movByte dst src | .aluByte _ dst src =>
    dst.between Half.free seg lo hi 1 && src.between Half.free seg lo hi 1
  | .movByteImm dst _ => dst.free
  | .movSeg dst src => dst ≠ .cs && dst ≠ .ss && dst ≠ seg && src.between Reg.free seg lo hi 2
  | _ => false

/-- One that turns no flag on but those of results. -/
def Instr.calm (i : Instr) : Bool := i.plain && i ≠ .sti

def Instr.silent (i : Instr) : Bool := i.quiet && i ≠ .sti

/-- What an instruction between offsets leaves alone, beside the cells elsewhere. -/
structure Kept (seg : Seg) (s t : State) : Prop where
  data : t.segs seg = s.segs seg
  stack : t.segs .ss = s.segs .ss
  sp : t.regs .sp = s.regs .sp

/-! ## Fields behind an update -/

namespace State
variable (s : State) (n : Nat) (r r' : Reg) (seg seg' : Seg) (h : Half) (v off mask new : BitVec 16) (b : Byte)

@[simp] theorem advance_regs : (s.advance n).regs = s.regs := rfl
@[simp] theorem advance_segs : (s.advance n).segs = s.segs := rfl
@[simp] theorem advance_mem : (s.advance n).mem = s.mem := rfl
@[simp] theorem advance_flags : (s.advance n).flags = s.flags := rfl
@[simp] theorem jumpBy_flags : (s.jumpBy off).flags = s.flags := rfl
@[simp] theorem advance_half : (s.advance n).half h = s.half h := rfl
@[simp] theorem advance_address : (s.advance n).address seg off = s.address seg off := rfl

@[simp] theorem setFlags_regs : (s.setFlags mask new).regs = s.regs := rfl
@[simp] theorem setFlags_segs : (s.setFlags mask new).segs = s.segs := rfl
@[simp] theorem setFlags_mem : (s.setFlags mask new).mem = s.mem := rfl
@[simp] theorem setFlags_half : (s.setFlags mask new).half h = s.half h := rfl
@[simp] theorem setFlags_address : (s.setFlags mask new).address seg off = s.address seg off := rfl

@[simp] theorem setReg_segs : (s.setReg r v).segs = s.segs := rfl
@[simp] theorem setReg_mem : (s.setReg r v).mem = s.mem := rfl
@[simp] theorem setReg_address : (s.setReg r v).address seg off = s.address seg off := rfl
@[simp] theorem setReg_other (other : r' ≠ r) : (s.setReg r v).regs r' = s.regs r' := by
  simp only [setReg, Function.update_of_ne other]

@[simp] theorem setReg_half_other (other : h.reg ≠ r) : (s.setReg r v).half h = s.half h := by
  rw [half, half, setReg_other s r h.reg v other]

@[simp] theorem setHalf_segs : (s.setHalf h b).segs = s.segs := rfl
@[simp] theorem setHalf_mem : (s.setHalf h b).mem = s.mem := rfl
@[simp] theorem setHalf_address : (s.setHalf h b).address seg off = s.address seg off := rfl
@[simp] theorem setHalf_regs_other (other : r ≠ h.reg) : (s.setHalf h b).regs r = s.regs r :=
  setReg_other s h.reg r _ other

@[simp] theorem setSeg_regs : (s.setSeg seg v).regs = s.regs := rfl
@[simp] theorem setSeg_mem : (s.setSeg seg v).mem = s.mem := rfl
@[simp] theorem setSeg_half : (s.setSeg seg v).half h = s.half h := rfl
@[simp] theorem setSeg_self : (s.setSeg seg v).segs seg = ⟨v, v.setWidth 32 <<< 4⟩ := by
  simp only [setSeg, Function.update_self]
@[simp] theorem setSeg_other (other : seg' ≠ seg) : (s.setSeg seg v).segs seg' = s.segs seg' := by
  simp only [setSeg, Function.update_of_ne other]
@[simp] theorem setSeg_address (other : seg' ≠ seg) :
    (s.setSeg seg v).address seg' off = s.address seg' off := by
  rw [address, address, setSeg_other s seg seg' v other]

@[simp] theorem address_mk (regs : Reg → BitVec 16) (segs : Seg → Segment) (ip flags : BitVec 16) (mem : Memory Byte) :
    State.address ⟨regs, segs, ip, flags, mem⟩ seg off = ((segs seg).base + off.setWidth 32).toNat := rfl

end State

section Flags
variable {f mask new : BitVec 16} {s : State}

theorem setFlags_cleared (s : State) (mask : BitVec 16) : (s.setFlags mask 0).flags &&& mask = 0 := by
  change ((s.flags &&& ~~~mask) ||| (0#16 &&& mask)) &&& mask = 0
  rw [BitVec.zero_and, BitVec.or_zero, BitVec.and_assoc, BitVec.not_and_self]
  exact BitVec.and_zero

theorem setFlags_other (apart : f &&& mask = 0) : (s.setFlags mask new).flags &&& f = s.flags &&& f := by
  apply BitVec.eq_of_getLsbD_eq
  intro i hi
  have none := congrArg (BitVec.getLsbD · i) apart
  simp only [BitVec.ofNat_eq_ofNat, BitVec.getLsbD_and, BitVec.getLsbD_zero] at none
  simp only [State.setFlags, BitVec.getLsbD_and, BitVec.getLsbD_or, BitVec.getLsbD_not, hi, decide_true, Bool.true_and]
  generalize s.flags.getLsbD i = a, f.getLsbD i = b, mask.getLsbD i = c, new.getLsbD i = d at none ⊢
  revert a b c d
  decide

/-- Flags that are clear stay clear under a change of others, and under a change to zero. -/
theorem setFlags_clear (clear : s.flags &&& f = 0) (others : f &&& mask = 0 ∨ new = 0) :
    (s.setFlags mask new).flags &&& f = 0 := by
  rcases others with apart | rfl
  · exact (setFlags_other apart).trans clear
  · have zero : (s.setFlags mask 0).flags = s.flags &&& ~~~mask := by
      change (s.flags &&& ~~~mask) ||| (0#16 &&& mask) = _
      rw [BitVec.zero_and, BitVec.or_zero]
    rw [zero, BitVec.and_assoc, BitVec.and_comm (~~~mask), ← BitVec.and_assoc, clear]
    exact BitVec.zero_and

/-- Only STI sets a flag that no result sets. -/
theorem effect_flags {i : Instr} (calm : i.calm = true) (apart : f &&& arithmeticFlags = 0)
    (clear : s.flags &&& f = 0) : (effect i s).flags &&& f = 0 := by
  have set (v : BitVec 16) (dst : Place Reg) : (s.set v dst).flags = s.flags := by cases dst <;> rfl
  have setByte (v : Byte) (dst : Place Half) : (s.setByte v dst).flags = s.flags := by cases dst <;> rfl
  have carried : f &&& (arithmeticFlags &&& ~~~carryFlag) = 0 := by
    rw [← BitVec.and_assoc, apart]
    exact BitVec.zero_and
  obtain ⟨plain, other⟩ := Bool.and_eq_true_iff.mp calm
  cases i with
  | sti => exact absurd rfl (of_decide_eq_true other)
  | cli | cld => exact setFlags_clear clear (.inr rfl)
  | mov dst | movImm dst => exact (congrArg (· &&& f) (set _ dst)).trans clear
  | movByte dst => exact (congrArg (· &&& f) (setByte _ dst)).trans clear
  | alu op dst | addImm dst => exact setFlags_clear ((congrArg (· &&& f) (set _ dst)).trans clear) (.inl apart)
  | inc dst => exact setFlags_clear ((congrArg (· &&& f) (set _ dst)).trans clear) (.inl carried)
  | aluByte op dst => exact setFlags_clear ((congrArg (· &&& f) (setByte _ dst)).trans clear) (.inl apart)
  | movByteImm | movSeg | push | pushSeg | pushImm | pop | popSeg | lods => exact clear
  | div | repMovs | jump | jumpIf | loop | jumpFar | int | hlt => exact absurd plain Bool.false_ne_true

end Flags

theorem straight_flags (code : List (List Byte × Instr)) (calm : Encoded Instr.calm code) {f : BitVec 16} {s : State}
    (apart : f &&& arithmeticFlags = 0) (clear : s.flags &&& f = 0) : (straight code s).flags &&& f = 0 := by
  induction code generalizing s with
  | nil => exact clear
  | cons e code ih =>
    obtain ⟨⟨-, -, kind⟩, others⟩ := List.forall_mem_cons.mp calm
    exact ih others (effect_flags kind apart clear)

theorem silent_quiet (i : Instr) (silent : i.silent = true) : i.quiet = true := (Bool.and_eq_true_iff.mp silent).1

theorem silent_calm (i : Instr) (silent : i.silent = true) : i.calm = true := by
  obtain ⟨quiet, other⟩ := Bool.and_eq_true_iff.mp silent
  exact Bool.and_eq_true_iff.mpr ⟨quiet_plain quiet, other⟩

section Between
variable {P : Nat → Prop} {C : State → Prop} {s : State} {seg : Seg} {lo hi : Nat}

theorem cells_between {ρ : Type} {free : ρ → Bool} {p : Place ρ} {size : Nat}
    (between : p.between free seg lo hi size = true) (low : (s.segs seg).base.toNat + 65536 ≤ 2 ^ 32) (a : Nat)
    (cell : p.Cells s size a) : Within ((s.segs seg).base.toNat + lo) (hi - lo) a := by
  cases p with
  | reg r => exact cell.elim
  | mem seg' off =>
    obtain ⟨rfl, above, below⟩ := of_decide_eq_true between
    obtain ⟨first, last⟩ := cell
    have address : s.address seg' off = (s.segs seg').base.toNat + off.toNat := by
      simp only [State.address]
      bv_omega
    exact ⟨by omega, by omega⟩

theorem set_kept {dst : Place Reg} {size : Nat} (between : dst.between Reg.free seg lo hi size = true) (v : BitVec 16) :
    Kept seg s (s.set v dst) := by
  cases dst with
  | reg r =>
    have other : r ≠ .sp := of_decide_eq_true between
    exact ⟨rfl, rfl, Function.update_of_ne other.symm _ _⟩
  | mem => exact ⟨rfl, rfl, rfl⟩

theorem setHalf_kept {h : Half} (free : h.free = true) (v : Byte) : Kept seg s (s.setHalf h v) := by
  have other : h.reg ≠ .sp := of_decide_eq_true free
  exact ⟨rfl, rfl, Function.update_of_ne other.symm _ _⟩

theorem setByte_kept {dst : Place Half} {size : Nat} (between : dst.between Half.free seg lo hi size = true) (v : Byte) :
    Kept seg s (s.setByte v dst) := by
  cases dst with
  | reg h => exact setHalf_kept between v
  | mem => exact ⟨rfl, rfl, rfl⟩

theorem between_plain {i : Instr} (between : i.between seg lo hi = true) : i.plain = true := by
  cases i with
  | movSeg dst src =>
    simp only [Instr.between, Bool.and_eq_true] at between
    exact between.1.1.1
  | cld | mov | alu | movImm | addImm | inc | movByte | aluByte | movByteImm => rfl
  | _ => cases between

theorem between_calm {i : Instr} (between : i.between seg lo hi = true) : i.calm = true := by
  refine Bool.and_eq_true_iff.mpr ⟨between_plain between, decide_eq_true fun same => ?_⟩
  rw [same] at between
  cases between

theorem between_kept {i : Instr} (between : i.between seg lo hi = true) (s : State) : Kept seg s (effect i s) := by
  cases i with
  | cld => exact ⟨rfl, rfl, rfl⟩
  | mov dst src | alu op dst src =>
    obtain ⟨data, stack, sp⟩ := set_kept (s := s) (Bool.and_eq_true_iff.mp between).1 _
    exact ⟨data, stack, sp⟩
  | movImm dst | addImm dst | inc dst =>
    have kept (v : BitVec 16) : Kept seg s (s.set v dst) := set_kept between v
    exact ⟨(kept _).data, (kept _).stack, (kept _).sp⟩
  | movByte dst src | aluByte op dst src =>
    obtain ⟨data, stack, sp⟩ := setByte_kept (s := s) (Bool.and_eq_true_iff.mp between).1 _
    exact ⟨data, stack, sp⟩
  | movByteImm dst v => exact setHalf_kept between v
  | movSeg dst src =>
    simp only [Instr.between, Bool.and_eq_true] at between
    obtain ⟨⟨⟨-, stack⟩, data⟩, -⟩ := between
    exact ⟨Function.update_of_ne (of_decide_eq_true data).symm _ _,
      Function.update_of_ne (of_decide_eq_true stack).symm _ _, rfl⟩
  | _ => cases between

theorem between_cells {i : Instr} (between : i.between seg lo hi = true)
    (low : (s.segs seg).base.toNat + 65536 ≤ 2 ^ 32) (a : Nat) (touches : i.Reads s a ∨ i.Writes s a) :
    Within ((s.segs seg).base.toNat + lo) (hi - lo) a := by
  cases i with
  | cld | movByteImm => exact (touches.elim id id).elim
  | mov dst src | movByte dst src =>
    obtain ⟨first, second⟩ := Bool.and_eq_true_iff.mp between
    exact touches.elim (cells_between second low a) (cells_between first low a)
  | alu op dst src | aluByte op dst src =>
    obtain ⟨first, second⟩ := Bool.and_eq_true_iff.mp between
    exact touches.elim (fun reads => reads.elim (cells_between first low a) (cells_between second low a))
      (cells_between first low a)
  | movImm dst => exact touches.elim False.elim (cells_between (p := dst) between low a)
  | addImm dst | inc dst =>
    exact touches.elim (cells_between (p := dst) between low a) (cells_between (p := dst) between low a)
  | movSeg dst src =>
    simp only [Instr.between, Bool.and_eq_true] at between
    exact touches.elim (cells_between between.2 low a) False.elim
  | _ => cases between

theorem between_straight (code : List (List Byte × Instr)) (between : Encoded (Instr.between seg lo hi) code) (s : State)
    (low : (s.segs seg).base.toNat + 65536 ≤ 2 ^ 32) : Kept seg s (straight code s) ∧
      ∀ a, ¬ Within ((s.segs seg).base.toNat + lo) (hi - lo) a → (straight code s).mem a = s.mem a := by
  induction code generalizing s with
  | nil => exact ⟨⟨rfl, rfl, rfl⟩, fun _ _ => rfl⟩
  | cons e code ih =>
    obtain ⟨⟨-, -, inside⟩, others⟩ := List.forall_mem_cons.mp between
    obtain ⟨-, follows⟩ := effect_follows (between_plain inside) s.ip (s.advance e.1.length)
    have kept := between_kept inside (s.advance e.1.length)
    have same : (effect e.2 (s.advance e.1.length)).segs seg = s.segs seg := kept.data
    obtain ⟨after, aside⟩ := ih others _ (by rw [same]; exact low)
    rw [same] at aside
    refine ⟨⟨after.data.trans kept.data, after.stack.trans kept.stack, after.sp.trans kept.sp⟩, fun a out => ?_⟩
    refine (aside a out).trans (follows.mem a fun writes => out ?_)
    exact between_cells (s := s.advance e.1.length) inside low a (.inr writes)

/-- A listing beside its code runs through. -/
theorem glides_between (code : List (List Byte × Instr)) (between : Encoded (Instr.between seg lo hi) code)
    (here : ByteMemory.read s.mem s.pc (code.flatMap Prod.fst).length = code.flatMap Prod.fst)
    (codeLow : (s.segs .cs).base.toNat + 65536 ≤ 2 ^ 32) (dataLow : (s.segs seg).base.toNat + 65536 ≤ 2 ^ 32)
    (room : s.ip.toNat + (code.flatMap Prod.fst).length < 65536)
    (inside : ∀ a, Within s.pc (code.flatMap Prod.fst).length a → P a)
    (data : ∀ a, Within ((s.segs seg).base.toNat + lo) (hi - lo) a → P a)
    (apart : s.pc + (code.flatMap Prod.fst).length ≤ (s.segs seg).base.toNat + lo ∨
      (s.segs seg).base.toNat + hi ≤ s.pc)
    (all : ∀ t, t.segs .cs = s.segs .cs → t.segs .ss = s.segs .ss → t.regs .sp = s.regs .sp → C t) :
    Glides P C s (straight code s) := by
  refine glides_plain code (between.mono fun _ => between_plain) here codeLow room (fun _ cell => cell) inside ?_
  generalize (code.flatMap Prod.fst).length = size at apart ⊢
  generalize s.pc = start at apart ⊢
  clear here inside room codeLow
  induction code generalizing s with
  | nil => trivial
  | cons e code ih =>
    obtain ⟨⟨-, -, kind⟩, others⟩ := List.forall_mem_cons.mp between
    have kept := between_kept kind (s.advance e.1.length)
    obtain ⟨-, follows⟩ := effect_follows (between_plain kind) s.ip (s.advance e.1.length)
    have same : (effect e.2 (s.advance e.1.length)).segs seg = s.segs seg := kept.data
    have cells := between_cells (s := s.advance e.1.length) kind dataLow
    refine ⟨all s rfl rfl rfl, fun a reads => data a (cells a (.inl reads)), fun a within writes => ?_, ?_⟩
    · obtain ⟨above, below⟩ : Within ((s.segs seg).base.toNat + lo) (hi - lo) a := cells a (.inr writes)
      obtain ⟨first, last⟩ := within
      omega
    · refine ih others ?_ ?_
        (fun t code stack sp => all t (code.trans follows.cs) (stack.trans kept.stack) (sp.trans kept.sp)) ?_
      · rw [same]
        exact dataLow
      · rw [same]
        exact data
      · rw [same]
        exact apart

/-- Registers set up while interrupts are off. -/
theorem glides_silent (code : List (List Byte × Instr)) (silent : Encoded Instr.silent code)
    (here : ByteMemory.read s.mem s.pc (code.flatMap Prod.fst).length = code.flatMap Prod.fst)
    (low : (s.segs .cs).base.toNat + 65536 ≤ 2 ^ 32)
    (room : s.ip.toNat + (code.flatMap Prod.fst).length < 65536)
    (inside : ∀ a, Within s.pc (code.flatMap Prod.fst).length a → P a) (masked : s.flags &&& interruptFlag = 0)
    (all : ∀ t, t.segs .cs = s.segs .cs → t.flags &&& interruptFlag = 0 → C t) : Glides P C s (straight code s) := by
  have quiet := silent.mono silent_quiet
  refine glides_plain code (quiet_encoded quiet) here low room (fun _ cell => cell) inside ?_
  refine quiet_clear (I := fun t => t.segs .cs = s.segs .cs ∧ t.flags &&& interruptFlag = 0) code quiet s.pc _ s
    ⟨rfl, masked⟩ (fun e member t before => ?_) fun t before => all t before.1 before.2
  obtain ⟨-, follows⟩ := effect_follows (quiet_plain (quiet e member).2.2) t.ip (t.advance e.1.length)
  exact ⟨follows.cs.trans before.1,
    effect_flags (s := t.advance e.1.length) (silent_calm _ (silent e member).2.2) (by decide) before.2⟩

end Between

/-! ## Programs in the first 64 KiB -/

def Listed (text : List Byte) (j : Nat) (code : List (List Byte × Instr)) : Prop :=
  0 < (code.flatMap Prod.fst).length ∧
    (text.drop j).take (code.flatMap Prod.fst).length = code.flatMap Prod.fst

instance (text : List Byte) (j : Nat) (code : List (List Byte × Instr)) : Decidable (Listed text j code) :=
  inferInstanceAs (Decidable (_ ∧ _))

def Stands (text : List Byte) (j : Nat) (bytes : List Byte) (i : Instr) : Prop :=
  decode bytes = some (i, []) ∧ bytes.length ≤ 15 ∧ 0 < bytes.length ∧ (text.drop j).take bytes.length = bytes

instance (text : List Byte) (j : Nat) (bytes : List Byte) (i : Instr) : Decidable (Stands text j bytes i) :=
  inferInstanceAs (Decidable (_ ∧ _))

/-- The program is what CS runs, at `start` on cells of `P`. -/
structure Placed (P : Nat → Prop) (text : List Byte) (start : Nat) (s : State) : Prop where
  cs : s.segs .cs = ⟨0, 0⟩
  here : ByteMemory.read s.mem start text.length = text
  low : start + text.length < 65536
  inside : ∀ a, Within start text.length a → P a

section Programs

theorem slice_inside {α : Type} {text part : List α} {j : Nat} (some : 0 < part.length)
    (slice : (text.drop j).take part.length = part) : j + part.length ≤ text.length := by
  have size := congrArg List.length slice
  rw [List.length_take, List.length_drop] at size
  omega

variable {P : Nat → Prop} {C : State → Prop} {text bytes : List Byte} {start j : Nat} {s t : State} {i : Instr}
  {code : List (List Byte × Instr)} (placed : Placed P text start s) (ip : s.ip = BitVec.ofNat 16 (start + j))

include placed

theorem Placed.cells (k size : Nat) (fits : k + size ≤ text.length) (a : Nat) (cell : Within (start + k) size a) :
    P a := by
  obtain ⟨low, high⟩ := cell
  exact placed.inside a ⟨by omega, by omega⟩

include ip

theorem Placed.pc (within : j ≤ text.length) : s.pc = start + j := by
  have low := placed.low
  rw [low_pc placed.cs, ip, BitVec.toNat_ofNat, Nat.mod_eq_of_lt (by omega)]

theorem Placed.fetches (stands : Stands text j bytes i) : Fetches s bytes i := by
  obtain ⟨encoded, short, some, slice⟩ := stands
  have within := slice_inside some slice
  exact .of_code placed.here (placed.pc ip (by omega)) encoded slice short within

theorem Placed.instruction (stands : Stands text j bytes i) (a : Nat) (cell : Within s.pc bytes.length a) : P a := by
  have within := slice_inside stands.2.2.1 stands.2.2.2
  rw [placed.pc ip (by omega)] at cell
  exact placed.cells j _ within a cell

theorem Placed.step (stands : Stands text j bytes i) (before : C s)
    (reads : ∀ a, i.Reads (s.advance bytes.length) a → P a)
    (next : exec i s.ip (s.advance bytes.length) = .next t) : Glides P C s t :=
  .step before (placed.fetches ip stands) (placed.instruction ip stands) reads next (.refl t)

theorem Placed.listing (listed : Listed text j code) :
    ByteMemory.read s.mem s.pc (code.flatMap Prod.fst).length = code.flatMap Prod.fst ∧
      (s.segs .cs).base.toNat + 65536 ≤ 2 ^ 32 ∧ s.ip.toNat + (code.flatMap Prod.fst).length < 65536 ∧
      ∀ a, Within s.pc (code.flatMap Prod.fst).length a → P a := by
  obtain ⟨some, slice⟩ := listed
  have within := slice_inside some slice
  have low := placed.low
  have pc := placed.pc ip (by omega)
  refine ⟨?_, ?_, ?_, ?_⟩
  · rw [pc]
    exact (ByteMemory.read_slice s.mem placed.here j _ within).trans slice
  · rw [placed.cs]
    decide
  · rw [← low_pc placed.cs, pc]
    omega
  · rw [pc]
    exact placed.cells j _ within

theorem Placed.silent (listed : Listed text j code) (silent : Encoded Instr.silent code)
    (masked : s.flags &&& interruptFlag = 0)
    (all : ∀ t, t.segs .cs = s.segs .cs → t.flags &&& interruptFlag = 0 → C t) : Glides P C s (straight code s) := by
  obtain ⟨here, low, room, inside⟩ := placed.listing ip listed
  exact glides_silent code silent here low room inside masked all

/-- A listing beside the cells it stores to, which are cells of `P`. -/
theorem Placed.between {seg : Seg} {lo hi : Nat} (listed : Listed text j code)
    (between : Encoded (Instr.between seg lo hi) code) (flat : s.segs seg = ⟨0, 0⟩) (data : ∀ a, Within lo (hi - lo) a → P a)
    (apart : start + j + (code.flatMap Prod.fst).length ≤ lo ∨ hi ≤ start + j)
    (all : ∀ t, t.segs .cs = s.segs .cs → t.segs .ss = s.segs .ss → t.regs .sp = s.regs .sp → C t) :
    Glides P C s (straight code s) := by
  obtain ⟨here, low, room, inside⟩ := placed.listing ip listed
  have base : (s.segs seg).base.toNat = 0 := by
    rw [flat]
    rfl
  have within := slice_inside listed.1 listed.2
  refine glides_between code between here low ?_ room inside ?_ ?_ all
  · rw [base]
    decide
  · rw [base, Nat.zero_add]
    exact data
  · rw [base, Nat.zero_add, Nat.zero_add, placed.pc ip (by omega)]
    exact apart

/-- A repeated MOVS of a program, from one stretch of the first 64 KiB to another. -/
theorem Placed.copies {wide : Bool} {n src dst : Nat} (stands : Stands text j bytes (.repMovs .ds wide))
    (flat : ∀ seg, s.segs seg = ⟨0, 0⟩) (count : (s.regs .cx).toNat = n) (si : (s.regs .si).toNat = src)
    (di : (s.regs .di).toNat = dst) (forward : s.flags &&& directionFlag = 0)
    (source : src + n * elementSize wide < 65536) (target : dst + n * elementSize wide < 65536)
    (apart : src + n * elementSize wide ≤ dst ∨ dst + n * elementSize wide ≤ src)
    (aside : start + j + bytes.length ≤ dst ∨ dst + n * elementSize wide ≤ start + j)
    (reads : ∀ a, Within src (n * elementSize wide) a → P a)
    (all : ∀ t, t.segs = s.segs → t.regs .sp = s.regs .sp → C t) :
    Glides P C s (copied s (elementSize wide) n bytes.length) ∧ (copied s (elementSize wide) n bytes.length).mem =
      ByteMemory.write s.mem dst (ByteMemory.read s.mem src (n * elementSize wide)) := by
  have within := slice_inside stands.2.2.1 stands.2.2.2
  have pc := placed.pc ip (by omega)
  have src' : s.address .ds (s.regs .si) = src := (low_address (flat .ds) _).trans si
  have dst' : s.address .es (s.regs .di) = dst := (low_address (flat .es) _).trans di
  have room : CopyRoom s (elementSize wide) n bytes.length := by
    refine ⟨fun seg => ?_, si.symm ▸ source, di.symm ▸ target, ?_, ?_⟩
    · rw [flat]
      decide
    · rw [src', dst']
      exact apart
    · rw [dst', pc]
      exact aside
  refine ⟨glides_repMovs wide n (placed.fetches ip stands) count forward room (placed.instruction ip stands)
    (by rw [src']; exact reads) all, ?_⟩
  rw [← src', ← dst']
  rfl

end Programs

end RealMode
