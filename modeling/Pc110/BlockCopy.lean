import Pc110.Completers

/-! The block copy at 3C34 completed with any count left. A block is a paragraph address, so the
completer's loop is a chain of copies between paragraphs; where it neither wraps nor meets
itself, the chain is one copy. -/
namespace Pc110

open LsbBits (Byte)
open ByteMemory (Memory Within)

section Paragraphs

def paragraph (p : BitVec 16) : Nat := 16 * p.toNat

theorem paragraph_eq (p : BitVec 16) : (p.setWidth 32 <<< 4 : Word).toNat = paragraph p := by
  have := p.isLt
  have wide : (p.setWidth 32).toNat = p.toNat := BitVec.toNat_setWidth_of_le (by decide)
  rw [BitVec.toNat_shiftLeft, wide, Nat.shiftLeft_eq, Nat.mod_eq_of_lt (by omega), paragraph, Nat.mul_comm]

theorem toNat_next {p : BitVec 16} (inside : p.toNat + 0x20 < 0x10000) : (p + 0x20).toNat = p.toNat + 0x20 :=
  BitVec.toNat_add_of_lt inside

/-- The next block is right behind, unless the segment arithmetic wraps. -/
theorem paragraph_next {p : BitVec 16} (inside : p.toNat + 0x20 < 0x10000) :
    paragraph (p + 0x20) = paragraph p + 0x200 := by
  rw [paragraph, toNat_next inside, Nat.mul_add, paragraph]

def copyBlock (src dst : BitVec 16) (mem : Memory Byte) : Memory Byte :=
  ByteMemory.write mem (paragraph dst) (ByteMemory.read mem (paragraph src) 0x200)

theorem copyLoop_succ (count : Nat) (src dst : BitVec 16) (mem : Memory Byte) :
    copyLoop (count + 1) src dst mem = copyLoop count (src + 0x20) (dst + 0x20) (copyBlock src dst mem) := by
  rw [copyLoop, paragraph_eq, paragraph_eq]
  rfl

/-- A chain whose ranges stay below the wrap and apart is one copy. -/
theorem copyLoop_whole (count : Nat) (src dst : BitVec 16) (mem : Memory Byte)
    (srcFits : src.toNat + 0x20 * count ≤ 0x10000) (dstFits : dst.toNat + 0x20 * count ≤ 0x10000)
    (apart : paragraph src + 0x200 * count ≤ paragraph dst ∨ paragraph dst + 0x200 * count ≤ paragraph src) :
    copyLoop count src dst mem =
      ByteMemory.write mem (paragraph dst) (ByteMemory.read mem (paragraph src) (0x200 * count)) := by
  induction count generalizing src dst mem with
  | zero => exact (ByteMemory.write_nil mem _).symm
  | succ count ih =>
    rw [copyLoop_succ]
    cases count with
    | zero => rfl
    | succ count =>
      have srcNext := paragraph_next (p := src) (by omega)
      have dstNext := paragraph_next (p := dst) (by omega)
      have srcMoved := toNat_next (p := src) (by omega)
      have dstMoved := toNat_next (p := dst) (by omega)
      have split : 0x200 * (count + 1 + 1) = 0x200 + 0x200 * (count + 1) := by rw [Nat.mul_succ, Nat.add_comm]
      have later := ih (src + 0x20) (dst + 0x20) (copyBlock src dst mem) (by omega) (by omega)
      rw [split] at apart ⊢
      rw [srcNext, dstNext] at later
      generalize 0x200 * (count + 1) = rest at apart later ⊢
      rw [later (by omega)]
      exact ByteMemory.copy_append mem (paragraph dst) (paragraph src) 0x200 rest apart

/-- Ranges that share no place are one behind the other. -/
theorem ranges_apart {a b count : Nat} (nonempty : 0 < count)
    (disjoint : ∀ place, Within a count place → ¬ Within b count place) : a + count ≤ b ∨ b + count ≤ a := by
  have low := disjoint a
  have high := disjoint b
  unfold Within at low high
  omega

end Paragraphs

section Completion
variable {q : Stock} {m : Machine} {n : Nat}

/-- What the completer leaves of the CPU, whatever it copies: CX, ZF and EIP change. -/
structure CopyLeaves (q : Stock) (m m' : Machine) : Prop where
  cx : lo16 (m'.env.regs .ecx) = 0
  ecx : m'.env.regs .ecx &&& ~~~0xFFFF = m.env.regs .ecx &&& ~~~0xFFFF
  regs : ∀ r, r ≠ .ecx → m'.env.regs r = m.env.regs r
  eip : m'.env.eip = 0x3C4E
  flags : cpuComputeEflags q m'.env = cpuComputeEflags q m.env &&& ~~~ccZ
  rest : ∃ regs eip mem ccSrc ccOp df eflags,
    m' = { m with mem, env := { m.env with regs, eip, ccSrc, ccOp, df, eflags } }

theorem completeCopy_leaves (q : Stock) (m : Machine) (off : BitVec 16) : CopyLeaves q m (completeCopy q m off) := by
  have ecx : (completeCopy q m off).env.regs .ecx = set16 (m.env.regs .ecx) 0 := by
    rw [← cleared16]
    simp [completeCopy, setZf, pcStoreEflags, Env.setReg]
  constructor
  case cx => rw [ecx, lo16_set16]
  case ecx => rw [ecx, set16_rest]
  case regs =>
    intro r notEcx
    simp [completeCopy, setZf, pcStoreEflags, Env.setReg, notEcx]
  case eip => rfl
  case flags => exact cpuComputeEflags_pcStoreEflags _ _ _
  case rest => exact ⟨_, _, _, _, _, _, _, rfl⟩

/-- The loop body has run once: a block is copied, AX and BX are advanced, CX is counted down. -/
def blockDone (m : Machine) : Machine :=
  let ax := lo16 (m.env.regs .eax)
  let bx := lo16 (m.env.regs .ebx)
  let cx := lo16 (m.env.regs .ecx)
  let env := m.env.setReg .eax (set16 (m.env.regs .eax) (ax + 0x20))
  let env := env.setReg .ebx (set16 (m.env.regs .ebx) (bx + 0x20))
  let env := env.setReg .ecx (set16 (m.env.regs .ecx) (cx - 1))
  { m with mem := copyBlock ax bx m.mem, env }

/-- At the head of the loop the completer makes the chain of copies that CX counts. -/
theorem completeCopy_mem (some : 1 ≤ n) (bounded : n ≤ 0x8000) (counts : (lo16 (m.env.regs .ecx)).toNat = n) :
    (completeCopy q m 0x3C34).mem = copyLoop n (lo16 (m.env.regs .eax)) (lo16 (m.env.regs .ebx)) m.mem := by
  have nonzero : lo16 (m.env.regs .ecx) ≠ 0 := by
    intro none
    rw [none] at counts
    exact absurd counts (by simp; omega)
  have early : ¬ (0x3C38 : BitVec 16) ≤ 0x3C34 := by decide
  simp only [completeCopy, if_neg early, if_pos nonzero, counts, if_neg (Nat.not_lt.mpr bounded)]

theorem blockDone_regs (m : Machine) :
    lo16 ((blockDone m).env.regs .eax) = lo16 (m.env.regs .eax) + 0x20 ∧
    lo16 ((blockDone m).env.regs .ebx) = lo16 (m.env.regs .ebx) + 0x20 ∧
    lo16 ((blockDone m).env.regs .ecx) = lo16 (m.env.regs .ecx) - 1 := by
  simp [blockDone, Env.setReg]

theorem completeCopy_step (some : 1 ≤ n) (bounded : n ≤ 0x8000) (counts : (lo16 (m.env.regs .ecx)).toNat = n) :
    (completeCopy q m 0x3C34).mem =
      if n = 1 then copyBlock (lo16 (m.env.regs .eax)) (lo16 (m.env.regs .ebx)) m.mem
      else (completeCopy q (blockDone m) 0x3C34).mem := by
  obtain ⟨left, rfl⟩ := Nat.exists_eq_add_of_le' some
  rw [completeCopy_mem some bounded counts, copyLoop_succ]
  by_cases last : left + 1 = 1
  · obtain rfl := Nat.succ.inj last
    rfl
  · obtain ⟨ax, bx, cx⟩ := blockDone_regs m
    have counts' : (lo16 ((blockDone m).env.regs .ecx)).toNat = left := by
      rw [cx]
      exact toNat_pred counts
    rw [if_neg last, completeCopy_mem (by omega) (by omega) counts', ax, bx]
    rfl

end Completion

/-- The completer copies whole blocks and nothing else. -/
theorem completeCopy_blocks (q : Stock) (m : Machine) (n : Nat) (some : 1 ≤ n) (bounded : n ≤ 0x8000)
    (counts : (lo16 (m.env.regs .ecx)).toNat = n) :
    let ax := lo16 (m.env.regs .eax)
    let bx := lo16 (m.env.regs .ebx)
    let m' := completeCopy q m 0x3C34
    (m'.mem = if n = 1 then copyBlock ax bx m.mem else (completeCopy q (blockDone m) 0x3C34).mem) ∧
      (ax.toNat + 0x20 * n ≤ 0x10000 → bx.toNat + 0x20 * n ≤ 0x10000 →
        (∀ a, Within (paragraph ax) (0x200 * n) a → ¬ Within (paragraph bx) (0x200 * n) a) →
        (∀ i < 0x200 * n, m'.mem (paragraph bx + i) = m.mem (paragraph ax + i)) ∧
          ∀ a, ¬ Within (paragraph bx) (0x200 * n) a → m'.mem a = m.mem a) ∧
      CopyLeaves q m m' := by
  intro ax bx m'
  refine ⟨completeCopy_step some bounded counts, ?_, completeCopy_leaves q m 0x3C34⟩
  intro srcFits dstFits disjoint
  have apart := ranges_apart (Nat.mul_pos (by decide) some) disjoint
  have whole : m'.mem =
      ByteMemory.write m.mem (paragraph bx) (ByteMemory.read m.mem (paragraph ax) (0x200 * n)) := by
    rw [← copyLoop_whole n ax bx m.mem srcFits dstFits apart]
    exact completeCopy_mem some bounded counts
  constructor
  · intro i inside
    rw [whole, ByteMemory.copy_inside m.mem m.mem _ _ inside]
  · intro a outside
    rw [whole, ByteMemory.write_outside]
    rw [ByteMemory.read_length]
    exact outside

/-- Two blocks from 0100:0000 to 0200:0000. -/
theorem completeCopy_blocks_two :
    let env := { (default : Env) with regs := fun | .eax => 0x100 | .ebx => 0x200 | .ecx => 2 | _ => 0 }
    let m := Machine.start env (fun a => BitVec.ofNat 8 (a / 16)) (fun _ => 0) (fun _ => none) fun _ => none
    ∀ i < 0x400, (completeCopy default m 0x3C34).mem (0x2000 + i) = BitVec.ofNat 8 ((0x1000 + i) / 16) := by
  intro env m
  obtain ⟨_, copies, _⟩ := completeCopy_blocks default m 2 (by decide) (by decide) rfl
  refine (copies (by decide) (by decide) ?_).1
  have source : paragraph (lo16 (m.env.regs .eax)) = 0x1000 := rfl
  have target : paragraph (lo16 (m.env.regs .ebx)) = 0x2000 := rfl
  intro a low high
  rw [source] at low
  rw [target] at high
  unfold Within at low high
  omega

end Pc110
