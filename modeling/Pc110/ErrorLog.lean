import Pc110.PostInterceptCases
import Pc110.Library.Masks

/-! The forced empty POST error log. The answer clears CF in `eflags`, where QEMU does not
keep it: the carry of the condition codes passes through, and Easy-Setup sees success
exactly when there was none. -/
namespace Pc110

/-- Easy-Setup at its service dispatcher, asking for the POST error log. -/
structure LogQuery (pc : Word) (m : Machine) : Prop where
  on : m.enabled = true
  linear : pc = esDispatcher
  cs : (m.env.segs .cs).selector = 0x5F23 ∧ (m.env.segs .cs).base = 0x5F230
  eip : m.env.eip = 0x0002
  asked : m.has .pc110Setup ∨ m.has .pc110PostUi
  function : hi8 (m.env.regs .eax) = 0x21 ∧ lo8 (m.env.regs .eax) = 0x00

/-- The answer for an empty log: success, no entry, on to the RETF, and nothing else. -/
structure EmptyLog (q : Stock) (m : Machine) (answer : Bool × Machine) : Prop where
  taken : answer.1 = true
  flags : cpuComputeEflags q answer.2.env = cpuComputeEflags q m.env &&& ~~~ccC
  ah : answer.2.env.regs .eax = setHi8 (m.env.regs .eax) 0
  bx : answer.2.env.regs .ebx = set16 (m.env.regs .ebx) 0
  retf : (answer.2.env.segs .cs).base + answer.2.env.eip = 0x5F239
  others : ∀ r, r ≠ .eax → r ≠ .ebx → answer.2.env.regs r = m.env.regs r
  segs : answer.2.env.segs = m.env.segs
  mem : answer.2.mem = m.mem

/-- The arithmetic flags as the condition codes hold them. -/
def Env.conditionCodes (q : Stock) (env : Env) : Word :=
  match env.ccOp with
  | .eflags => env.ccSrc
  | .lazy op => q.ccComputeAll op env.ccDst env.ccSrc env.ccSrc2

theorem cpuComputeEflags_split (q : Stock) (env : Env) :
    cpuComputeEflags q env = env.eflags ||| env.conditionCodes q ||| (env.df &&& dfMask) := rfl

/-- Clearing CF in one part clears it in the whole when the other parts have none. -/
theorem clearCarry_iff (eflags cc df : Word) :
    (eflags &&& ~~~ccC) ||| cc ||| (df &&& dfMask) = (eflags ||| cc ||| (df &&& dfMask)) &&& ~~~ccC ↔
      cc &&& ccC = 0 := by
  have bit : cc &&& ccC = 0 ↔ cc[0] = false := Masks.masked_bit_iff cc 0 (by decide)
  rw [bit]
  constructor
  · intro same
    have first := congrArg (fun w : Word => w[0]) same
    simpa [ccC, dfMask] using first
  · intro clear
    ext i hi
    by_cases zero : i = 0
    · subst zero
      simp [ccC, dfMask, clear]
    · have other : ccC[i] = false := by simp [ccC, zero]
      simp [BitVec.getElem_or, BitVec.getElem_and, BitVec.getElem_not, -BitVec.reduceNot, other]

theorem forceEmptyLog_regs (m : Machine) : (forceEmptyLog m).env.regs =
    Function.update (Function.update m.env.regs .eax (setHi8 (m.env.regs .eax) 0)) .ebx
      (set16 (m.env.regs .ebx) 0) := by
  simp [forceEmptyLog, Machine.setReg, Env.setReg, setHi8, set16]

theorem forceEmptyLog_flags (q : Stock) (m : Machine) : cpuComputeEflags q (forceEmptyLog m).env =
    (m.env.eflags &&& ~~~ccC) ||| m.env.conditionCodes q ||| (m.env.df &&& dfMask) := rfl

theorem forcedLog_iff (q : Stock) (pc : Word) (m : Machine) (query : LogQuery pc m) :
    EmptyLog q m (postIntercept q pc m) ↔ m.env.conditionCodes q &&& ccC = 0 := by
  obtain ⟨on, linear, ⟨-, base⟩, -, asked, ah, al⟩ := query
  have service : readsErrorLog pc m = true := decide_eq_true ⟨linear, asked, ah, al⟩
  obtain ⟨d, answer⟩ := postIntercept_emptyLog (q := q) on service
  have regs := forceEmptyLog_regs (m.seen d)
  have flags := forceEmptyLog_flags q (m.seen d)
  change _ = Function.update (Function.update m.env.regs _ _) _ _ at regs
  change _ = (m.env.eflags &&& ~~~ccC) ||| m.env.conditionCodes q ||| (m.env.df &&& dfMask) at flags
  rw [answer, ← clearCarry_iff m.env.eflags _ m.env.df, ← flags, ← cpuComputeEflags_split]
  constructor
  · exact fun empty => empty.flags
  · intro same
    refine ⟨rfl, same, ?_, ?_, ?_, ?_, rfl, rfl⟩
    · rw [regs]; rfl
    · rw [regs, Function.update_self]; rfl
    · change (m.env.segs .cs).base + 0x9 = 0x5F239
      rw [base]
      rfl
    · intro r notEax notEbx
      rw [regs, Function.update_of_ne notEbx, Function.update_of_ne notEax]

/-- The query with the carry `carry` left by the last arithmetic instruction. -/
def logQuery (carry : Word) : Machine :=
  .start { (default : Env) with
      regs := fun | .eax => 0x2100 | _ => 0
      segs := fun | .cs => ⟨0x5F23, 0x5F230, 0xFFFF, 0⟩ | _ => default
      eip := 0x0002
      ccOp := .eflags
      ccSrc := carry }
    (fun _ => 0) (fun _ => 0) (fun _ => some "1") (fun _ => none)

theorem logQuery_asked (carry : Word) : LogQuery 0x5F232 (logQuery carry) :=
  ⟨rfl, rfl, ⟨rfl, rfl⟩, rfl, .inl rfl, by change hi8 0x2100 = 0x21 ∧ lo8 0x2100 = 0x00; decide⟩

theorem forcedLog_iff_clear :
    EmptyLog default (logQuery 0) (postIntercept default 0x5F232 (logQuery 0)) ↔
      (logQuery 0).env.conditionCodes default &&& ccC = 0 :=
  forcedLog_iff default 0x5F232 (logQuery 0) (logQuery_asked 0)

/-- After an instruction that carried, the empty log comes back as an error. -/
theorem forcedLog_carries : ¬ ∀ (q : Stock) (pc : Word) (m : Machine), LogQuery pc m →
    EmptyLog q m (postIntercept q pc m) := by
  intro forced
  have cleared := (forced default 0x5F232 (logQuery 1) (logQuery_asked 1)).flags
  obtain ⟨d, answer⟩ := @postIntercept_emptyLog default (logQuery 1) 0x5F232 rfl rfl
  rw [answer, forceEmptyLog_flags] at cleared
  change (0 &&& ~~~ccC ||| 1 ||| (0 &&& dfMask) : Word) = (0 ||| 1 ||| (0 &&& dfMask)) &&& ~~~ccC at cleared
  exact absurd cleared (by decide)

end Pc110
