import Mathlib.Algebra.BigOperators.Group.Finset.Basic
import Pc110.Completers

/-! The checksum loop at 3CC1 completed at any of its iterations. What is summed is told by BH,
SI and CX, so an iteration that the CPU has made itself is one the completer leaves out, and
a word that is loaded but not yet added is added by it. -/
namespace Pc110

open LsbBits (Byte)

section Sums
variable (m : Machine)

def wordSum (si : BitVec 16) : Nat :=
  let place := (physDs m.env si).toNat
  (m.mem place).toNat + (m.mem (place + 1)).toNat

def wordsSum (n : Nat) (si : BitVec 16) : Nat :=
  ∑ k ∈ Finset.range n, wordSum m (si + BitVec.ofNat 16 (2 * k))

/-- SI and BH behind the words that CX counts. -/
def summed : BitVec 16 × Byte :=
  checksumLoop m.mem m.env (lo16 (m.env.regs .ecx)).toNat (lo16 (m.env.regs .esi)) (hi8 (m.env.regs .ebx))

variable {m}

theorem word_next (si : BitVec 16) (k : Nat) :
    si + 2 + BitVec.ofNat 16 (2 * k) = si + BitVec.ofNat 16 (2 * (k + 1)) := by
  rw [Nat.mul_succ, Nat.add_comm, BitVec.ofNat_add, BitVec.add_assoc]
  rfl

theorem wordsSum_succ (n : Nat) (si : BitVec 16) : wordsSum m (n + 1) si = wordSum m si + wordsSum m n (si + 2) := by
  simp only [wordsSum, word_next]
  rw [Finset.sum_range_succ', Nat.add_comm]
  simp

theorem checksumLoop_sum (n : Nat) (si : BitVec 16) (bl : Byte) :
    (checksumLoop m.mem m.env n si bl).1 = si + BitVec.ofNat 16 (2 * n) ∧
      (checksumLoop m.mem m.env n si bl).2.toNat = (bl.toNat + wordsSum m n si) % 256 := by
  induction n generalizing si bl with
  | zero => simp [checksumLoop, wordsSum, Nat.mod_eq_of_lt bl.isLt]
  | succ n ih =>
    obtain ⟨index, sum⟩ := ih (si + 2) (bl + m.mem (physDs m.env si).toNat + m.mem ((physDs m.env si).toNat + 1))
    rw [checksumLoop, index, sum, wordsSum_succ]
    constructor
    · exact word_next si n
    · rw [BitVec.toNat_add, BitVec.toNat_add, wordSum]
      omega

/-- Of the CPU the loop looks at DS alone. -/
theorem checksumLoop_congr {env env' : Env} (ds : (env'.segs .ds).base = (env.segs .ds).base)
    (mem : ByteMemory.Memory Byte) (n : Nat) (si : BitVec 16) (bl : Byte) :
    checksumLoop mem env' n si bl = checksumLoop mem env n si bl := by
  induction n generalizing si bl with
  | zero => rfl
  | succ n ih =>
    have place : physDs env' si = physDs env si := by rw [physDs, physDs, ds]
    rw [checksumLoop, checksumLoop, place, ih]

end Sums

section Completion

/-- A completion that leaves this SI and BH, and that changes nothing but BH, SI, CX and EIP. -/
structure SumCompleted (m m' : Machine) (si : BitVec 16) (bh : Byte) : Prop where
  bh : hi8 (m'.env.regs .ebx) = bh
  si : lo16 (m'.env.regs .esi) = si
  cx : lo16 (m'.env.regs .ecx) = 0
  eip : m'.env.eip = 0x3CC8
  ebx : m'.env.regs .ebx &&& ~~~0xFF00 = m.env.regs .ebx &&& ~~~0xFF00
  esi : m'.env.regs .esi &&& ~~~0xFFFF = m.env.regs .esi &&& ~~~0xFFFF
  ecx : m'.env.regs .ecx &&& ~~~0xFFFF = m.env.regs .ecx &&& ~~~0xFFFF
  regs : ∀ r, r ≠ .ebx → r ≠ .esi → r ≠ .ecx → m'.env.regs r = m.env.regs r
  rest : m' = { m with env := { m.env with regs := m'.env.regs, eip := m'.env.eip } }

/-- What the completer leaves is the loop's result, from wherever the loop is entered. -/
theorem sumCompleted (m : Machine) (si : BitVec 16) (bh : Byte) :
    let env := m.env.setReg .esi (set16 (m.env.regs .esi) si)
    let env := env.setReg .ecx (env.regs .ecx &&& ~~~0xFFFF)
    let env := env.setReg .ebx (setHi8 (env.regs .ebx) bh)
    SumCompleted m { m with env := { env with eip := 0x3CC8 } } si bh := by
  intro env₁ env₂ env₃
  have esi : env₃.regs .esi = set16 (m.env.regs .esi) si := by simp [env₃, env₂, env₁, Env.setReg]
  have ecx : env₃.regs .ecx = set16 (m.env.regs .ecx) 0 := by
    rw [← cleared16]
    simp [env₃, env₂, env₁, Env.setReg]
  have ebx : env₃.regs .ebx = setHi8 (m.env.regs .ebx) bh := by simp [env₃, env₂, env₁, Env.setReg]
  constructor
  case bh => exact (congrArg hi8 ebx).trans (hi8_setHi8 _ _)
  case si => exact (congrArg lo16 esi).trans (lo16_set16 _ _)
  case cx => exact (congrArg lo16 ecx).trans (lo16_set16 _ _)
  case eip => rfl
  case ebx => exact (congrArg (· &&& _) ebx).trans (setHi8_rest _ _)
  case esi => exact (congrArg (· &&& _) esi).trans (set16_rest _ _)
  case ecx => exact (congrArg (· &&& _) ecx).trans (set16_rest _ _)
  case regs =>
    intro r notEbx notEsi notEcx
    simp [env₃, env₂, env₁, Env.setReg, notEbx, notEsi, notEcx]
  case rest => rfl

variable {m : Machine}

theorem completed_head (m : Machine) : SumCompleted m (completeChecksum m 0x3CC1) (summed m).1 (summed m).2 :=
  sumCompleted m (summed m).1 (summed m).2

/-- With a word loaded, its bytes are in AX and CX still counts it. -/
theorem completed_loaded (m : Machine) (counts : lo16 (m.env.regs .ecx) ≠ 0) :
    let ax := lo16 (m.env.regs .eax)
    let r := checksumLoop m.mem m.env (lo16 (m.env.regs .ecx) - 1).toNat (lo16 (m.env.regs .esi))
      (hi8 (m.env.regs .ebx) + ax.setWidth 8 + (ax >>> 8).setWidth 8)
    SumCompleted m (completeChecksum m 0x3CC2) r.1 r.2 := by
  intro ax r
  have pending : (0x3CC2 : BitVec 16) ≤ 0x3CC2 ∧ (0x3CC2 : BitVec 16) ≤ 0x3CC6 := by decide
  have completed := sumCompleted m r.1 r.2
  simp only [completeChecksum, if_pos pending, if_pos (And.intro pending counts)]
  exact completed

end Completion

section Split

structure Iterates (m m' : Machine) : Prop where
  mem : m'.mem = m.mem
  ds : (m'.env.segs .ds).base = (m.env.segs .ds).base
  bh : hi8 (m'.env.regs .ebx) = hi8 (m.env.regs .ebx) +
    m.mem (physDs m.env (lo16 (m.env.regs .esi))).toNat + m.mem ((physDs m.env (lo16 (m.env.regs .esi))).toNat + 1)
  si : lo16 (m'.env.regs .esi) = lo16 (m.env.regs .esi) + 2
  cx : lo16 (m'.env.regs .ecx) = lo16 (m.env.regs .ecx) - 1

inductive Iterations : Nat → Machine → Machine → Prop where
  | none (m : Machine) : Iterations 0 m m
  | more {j : Nat} {m m₁ m₂ : Machine} : Iterations j m m₁ → Iterates m₁ m₂ → Iterations (j + 1) m m₂

structure Loaded (m m' : Machine) : Prop where
  mem : m'.mem = m.mem
  ds : (m'.env.segs .ds).base = (m.env.segs .ds).base
  bh : hi8 (m'.env.regs .ebx) = hi8 (m.env.regs .ebx)
  al : (lo16 (m'.env.regs .eax)).setWidth 8 = m.mem (physDs m.env (lo16 (m.env.regs .esi))).toNat
  ah : (lo16 (m'.env.regs .eax) >>> 8).setWidth 8 = m.mem ((physDs m.env (lo16 (m.env.regs .esi))).toNat + 1)
  si : lo16 (m'.env.regs .esi) = lo16 (m.env.regs .esi) + 2
  cx : lo16 (m'.env.regs .ecx) = lo16 (m.env.regs .ecx)

structure SameSum (m m' : Machine) : Prop where
  bh : hi8 (m'.env.regs .ebx) = hi8 (m.env.regs .ebx)
  si : lo16 (m'.env.regs .esi) = lo16 (m.env.regs .esi)
  cx : lo16 (m'.env.regs .ecx) = lo16 (m.env.regs .ecx)
  eip : m'.env.eip = m.env.eip

variable {m m₁ m₂ m' m'' : Machine}

theorem SumCompleted.same {si : BitVec 16} {bh : Byte} (done : SumCompleted m m' si bh)
    (done' : SumCompleted m₁ m'' si bh) : SameSum m' m'' :=
  ⟨done'.bh.trans done.bh.symm, done'.si.trans done.si.symm, done'.cx.trans done.cx.symm,
    done'.eip.trans done.eip.symm⟩

/-- What is left to sum behind an iteration is what the loop would have gone on with. -/
theorem Iterates.summed {n : Nat} (iterates : Iterates m m₁) (counts : (lo16 (m.env.regs .ecx)).toNat = n + 1) :
    (lo16 (m₁.env.regs .ecx)).toNat = n ∧ summed m₁ = summed m := by
  have left : (lo16 (m₁.env.regs .ecx)).toNat = n := by
    rw [iterates.cx]
    exact toNat_pred counts
  refine ⟨left, ?_⟩
  rw [Pc110.summed, left, iterates.mem, iterates.si, iterates.bh, checksumLoop_congr iterates.ds, Pc110.summed,
    counts, checksumLoop]

theorem Iterations.summed {j n : Nat} (iterations : Iterations j m m₁)
    (counts : (lo16 (m.env.regs .ecx)).toNat = j + n) :
    (lo16 (m₁.env.regs .ecx)).toNat = n ∧ summed m₁ = summed m := by
  induction iterations generalizing n with
  | none m => exact ⟨by rw [counts, Nat.zero_add], rfl⟩
  | more _ iterates ih =>
    obtain ⟨counts', same⟩ := ih (n := n + 1) (by rw [counts]; omega)
    obtain ⟨left, same'⟩ := iterates.summed counts'
    exact ⟨left, same'.trans same⟩

theorem Loaded.completed {n : Nat} (loaded : Loaded m₁ m₂) (counts : (lo16 (m₁.env.regs .ecx)).toNat = n + 1) :
    SumCompleted m₂ (completeChecksum m₂ 0x3CC2) (summed m₁).1 (summed m₁).2 := by
  have nonzero : lo16 (m₂.env.regs .ecx) ≠ 0 := by
    rw [loaded.cx]
    intro zero
    rw [zero] at counts
    cases counts
  have left : (lo16 (m₂.env.regs .ecx) - 1).toNat = n := toNat_pred (loaded.cx ▸ counts)
  have completed := completed_loaded m₂ nonzero
  simp only [left, loaded.mem, loaded.si, loaded.bh, loaded.al, loaded.ah, checksumLoop_congr loaded.ds] at completed
  rw [summed, counts, checksumLoop]
  exact completed

end Split

/-- What the completion at the loop's head leaves for `n` words. -/
structure ChecksumOf (n : Nat) (m m' : Machine) : Prop where
  bh : (hi8 (m'.env.regs .ebx)).toNat =
    ((hi8 (m.env.regs .ebx)).toNat + wordsSum m n (lo16 (m.env.regs .esi))) % 256
  si : (lo16 (m'.env.regs .esi)).toNat = ((lo16 (m.env.regs .esi)).toNat + 2 * n) % 65536
  completed : SumCompleted m m' (lo16 (m'.env.regs .esi)) (hi8 (m'.env.regs .ebx))

/-- The checksum is that of all words wherever in the loop it is completed. -/
theorem completeChecksum_split (m : Machine) (n : Nat) (counts : (lo16 (m.env.regs .ecx)).toNat = n) :
    ChecksumOf n m (completeChecksum m 0x3CC1) ∧
      ∀ j < n, ∀ m₁, Iterations j m m₁ →
        SameSum (completeChecksum m 0x3CC1) (completeChecksum m₁ 0x3CC1) ∧
        ∀ m₂, Loaded m₁ m₂ → SameSum (completeChecksum m 0x3CC1) (completeChecksum m₂ 0x3CC2) := by
  have head := completed_head m
  obtain ⟨index, sum⟩ := checksumLoop_sum (m := m) n (lo16 (m.env.regs .esi)) (hi8 (m.env.regs .ebx))
  have result : summed m = checksumLoop m.mem m.env n (lo16 (m.env.regs .esi)) (hi8 (m.env.regs .ebx)) := by
    rw [summed, counts]
  refine ⟨⟨?_, ?_, ?_⟩, fun j earlier m₁ iterations => ?_⟩
  · rw [head.bh, result]
    exact sum
  · rw [head.si, result, index, BitVec.toNat_add, BitVec.toNat_ofNat, Nat.add_mod_mod]
  · rw [head.si, head.bh]
    exact head
  · obtain ⟨counts', same⟩ := iterations.summed (n := n - j) (by omega)
    have head' := completed_head m₁
    rw [same] at head'
    refine ⟨head.same head', fun m₂ loaded => ?_⟩
    have loaded' := loaded.completed (n := n - j - 1) (by omega)
    rw [same] at loaded'
    exact head.same loaded'

/-- Two words of FFh at FFFEh, so that SI wraps between them, the first of them added by the CPU. -/
theorem completeChecksum_split_wrap :
    let env : Env := { (default : Env) with regs := fun | .ecx => 2 | .esi => 0xFFFE | _ => 0 }
    let m := Machine.start env (fun _ => 0xFF) (fun _ => 0) (fun _ => none) fun _ => none
    let m₁ := { m with env := { env with regs := fun | .ecx => 1 | .ebx => 0xFE00 | _ => 0 } }
    ChecksumOf 2 m (completeChecksum m 0x3CC1) ∧
      SameSum (completeChecksum m 0x3CC1) (completeChecksum m₁ 0x3CC1) := by
  intro env m m₁
  obtain ⟨whole, split⟩ := completeChecksum_split m 2 rfl
  have iterates : Iterates m m₁ := ⟨rfl, rfl, by decide, by decide, by decide⟩
  exact ⟨whole, (split 1 (by decide) m₁ (.more (.none m) iterates)).1⟩

end Pc110
