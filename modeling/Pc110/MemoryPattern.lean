import Mathlib.Logic.Function.Iterate
import Pc110.Completers
import Pc110.Library.Masks

/-! The address-pattern loops at 61DB and 61E9 in closed form. DI and the carry make one 17-bit
value; each iteration shifts it or rotates it. Only the carry goes through the lazy flags,
and all that a completion looks at survives an iteration of the CPU. -/
namespace Pc110

open LsbBits (Byte)
open ByteMemory (Memory)

section Pattern

/-- CF and DI. -/
abbrev Carried := Bool × BitVec 16

/-- One SHL, or one RCL in the second loop. -/
def patternStep (second : Bool) (p : Carried) : Carried :=
  (p.2.getLsbD 15, if second then p.2 <<< 1 ||| (if p.1 then 1 else 0) else p.2 <<< 1)

/-- CF and `d_n`. -/
def pattern (second : Bool) (n : Nat) (p : Carried) : Carried := (patternStep second)^[n] p

def Carried.value (p : Carried) : BitVec 17 := BitVec.cons p.1 p.2

@[simp] theorem pattern_zero (second : Bool) (p : Carried) : pattern second 0 p = p := rfl

theorem pattern_succ (second : Bool) (n : Nat) (p : Carried) :
    pattern second (n + 1) p = pattern second n (patternStep second p) := rfl

theorem pattern_succ' (second : Bool) (n : Nat) (p : Carried) :
    pattern second (n + 1) p = patternStep second (pattern second n p) :=
  Function.iterate_succ_apply' _ _ _

theorem rotateLeft_bit (x : BitVec 17) (n : Nat) {i : Nat} (h : i < 17) :
    (x.rotateLeft n).getLsbD i = x.getLsbD ((i + 17 - n % 17) % 17) := by
  rw [BitVec.getLsbD_rotateLeft]
  by_cases wraps : i < n % 17
  · rw [decide_eq_true wraps, cond_true]
    congr 1
    omega
  · rw [decide_eq_false wraps, decide_eq_true h, Bool.true_and, cond_false]
    congr 1
    omega

theorem rotateLeft_succ (x : BitVec 17) (n : Nat) : (x.rotateLeft n).rotateLeft 1 = x.rotateLeft (n + 1) := by
  apply BitVec.eq_of_getLsbD_eq
  intro i h
  rw [rotateLeft_bit _ _ h, rotateLeft_bit _ _ (Nat.mod_lt _ (by decide)), rotateLeft_bit _ _ h]
  congr 1
  omega

theorem value_bit (p : Carried) (i : Nat) :
    p.value.getLsbD i = if i = 16 then p.1 else p.2.getLsbD i := by
  rw [Carried.value, BitVec.getLsbD_cons]

theorem rcl_value (p : Carried) : (patternStep true p).value = p.value.rotateLeft 1 := by
  apply BitVec.eq_of_getLsbD_eq
  intro i h
  rw [rotateLeft_bit _ _ h, value_bit, value_bit]
  obtain ⟨cf, di⟩ := p
  simp only [patternStep, if_true]
  interval_cases i <;> cases cf <;> simp

theorem rcl_closed (n : Nat) (p : Carried) : (pattern true n p).value = p.value.rotateLeft n := by
  induction n with
  | zero =>
    apply BitVec.eq_of_getLsbD_eq
    intro i h
    rw [rotateLeft_bit _ _ h, pattern_zero]
    congr 1
    omega
  | succ n ih => rw [pattern_succ', rcl_value, ih, rotateLeft_succ]

theorem shl_closed (n : Nat) (p : Carried) : (pattern false n p).2 = p.2 <<< n := by
  induction n with
  | zero => simp
  | succ n ih => rw [pattern_succ', patternStep, ih, BitVec.shiftLeft_add]; rfl

/-- The carry is the bit above DI. -/
theorem shl_carry (n : Nat) (p : Carried) (some : 1 ≤ n) :
    (pattern false n p).1 = (p.2.toNat <<< n).testBit 16 := by
  obtain ⟨n, rfl⟩ := Nat.exists_eq_add_of_le' some
  rw [pattern_succ', patternStep, shl_closed, BitVec.getLsbD_shiftLeft, Nat.testBit_shiftLeft]
  change (true && !decide (15 < n) && p.2.toNat.testBit (15 - n)) = _
  by_cases inside : n ≤ 15
  · rw [decide_eq_false (by omega), decide_eq_true (by omega), show 16 - (n + 1) = 15 - n by omega]
    rfl
  · rw [decide_eq_true (by omega : 15 < n), decide_eq_false (by omega)]
    rfl

end Pattern

section Flags

def carry (q : Stock) (env : Env) : Bool := (cpuComputeEflags q env).getLsbD 0

def withCf (f : Word) (cf : Bool) : Word := if cf then f ||| ccC else f &&& ~~~ccC

theorem withCf_bit (f : Word) (cf : Bool) {i : Nat} (h : i < 32) :
    (withCf f cf).getLsbD i = if i = 0 then cf else f.getLsbD i := by
  have mask : ccC.getLsbD i = decide (i = 0) := by
    rw [show ccC = 1#32 from rfl, BitVec.getLsbD_one]
    simp
  unfold withCf
  cases cf with
  | false =>
    rw [if_neg Bool.false_ne_true, BitVec.getLsbD_and, BitVec.getLsbD_not, mask, decide_eq_true h]
    by_cases low : i = 0 <;> simp [low]
  | true =>
    rw [if_pos rfl, BitVec.getLsbD_or, mask]
    by_cases low : i = 0 <;> simp [low]

theorem withCf_own (f : Word) : withCf f (f.getLsbD 0) = f := by
  apply BitVec.eq_of_getLsbD_eq
  intro i h
  rw [withCf_bit _ _ h]
  split
  · rename_i low
    rw [low]
  · rfl

theorem withCf_withCf (f : Word) (a b : Bool) : withCf (withCf f a) b = withCf f b := by
  apply BitVec.eq_of_getLsbD_eq
  intro i h
  rw [withCf_bit _ _ h, withCf_bit _ _ h, withCf_bit _ _ h]
  split <;> rfl

theorem carry_iff (q : Stock) (env : Env) : cpuComputeEflags q env &&& ccC ≠ 0 ↔ carry q env = true := by
  have bit := Masks.masked_bit_iff (cpuComputeEflags q env) 0 (by decide)
  rw [carry, BitVec.getLsbD_eq_getElem (by decide), ne_eq, ← Bool.not_eq_false]
  exact not_congr bit

theorem cpuComputeEflags_setCf (q : Stock) (env : Env) (cf : Bool) :
    cpuComputeEflags q (setCf q env cf) = withCf (cpuComputeEflags q env) cf :=
  cpuComputeEflags_pcStoreEflags _ _ _

end Flags

section Stores

def patternStores (al : Byte) (base : Word) (second : Bool) : Nat → Carried → Memory Byte → Memory Byte
  | 0, _, mem => mem
  | n + 1, p, mem =>
    patternStores al base second n (patternStep second p)
      (ByteMemory.write mem (base + p.2.setWidth 32).toNat [al])

/-- They reach `d_0` to `d_(n-1)` and nothing else. -/
theorem patternStores_at (al : Byte) (base : Word) (second : Bool) (n : Nat) (p : Carried) (mem : Memory Byte)
    (a : Nat) : patternStores al base second n p mem a =
      if ∃ k < n, a = (base + (pattern second k p).2.setWidth 32).toNat then al else mem a := by
  induction n generalizing p mem with
  | zero => simp [patternStores]
  | succ n ih =>
    rw [patternStores, ih]
    by_cases later : ∃ k < n, a = (base + (pattern second k (patternStep second p)).2.setWidth 32).toNat
    · obtain ⟨k, below, place⟩ := later
      rw [if_pos ⟨k, below, place⟩, if_pos ⟨k + 1, by omega, place⟩]
    · rw [if_neg later, ByteMemory.write_singleton]
      by_cases first : a = (base + p.2.setWidth 32).toNat
      · rw [if_pos ⟨0, by omega, first⟩, first, Function.update_self]
      · rw [Function.update_of_ne first, if_neg]
        rintro ⟨k, below, place⟩
        cases k with
        | zero => exact first place
        | succ k => exact later ⟨k, by omega, place⟩

end Stores

section Loop
variable {q : Stock} {m m' m'' m₁ : Machine} {second : Bool} {touched : Word}

def carriedAt (q : Stock) (m : Machine) (di : BitVec 16) : Carried := (carry q m.env, di)

/-- The loop of the completer: the pattern's stores and its flags, and nothing else. -/
structure LoopLeaves (q : Stock) (second : Bool) (n : Nat) (m : Machine) (di : BitVec 16)
    (r : Machine × BitVec 16) : Prop where
  index : r.2 = (pattern second n (carriedAt q m di)).2
  flags : cpuComputeEflags q r.1.env =
    withCf (cpuComputeEflags q m.env) (pattern second n (carriedAt q m di)).1
  mem : r.1.mem = patternStores (lo8 (m.env.regs .eax)) (m.env.segs .es).base second n (carriedAt q m di) m.mem
  rest : ∃ mem ccSrc ccOp df eflags, r.1 = { m with mem, env := { m.env with ccSrc, ccOp, df, eflags } }

/-- One iteration moves CF and DI by one step, through the lazy flags. -/
theorem mempatStep_leaves (q : Stock) (second : Bool) (m : Machine) (di : BitVec 16) :
    carriedAt q (mempatStep q second m di).1 (mempatStep q second m di).2 =
      patternStep second (carriedAt q m di) ∧
    cpuComputeEflags q (mempatStep q second m di).1.env =
      withCf (cpuComputeEflags q m.env) (di.getLsbD 15) := by
  have flags : cpuComputeEflags q (mempatStep q second m di).1.env =
      withCf (cpuComputeEflags q m.env) (di.getLsbD 15) := by
    cases second <;> exact cpuComputeEflags_setCf q m.env _
  refine ⟨Prod.ext ?_ ?_, flags⟩
  · rw [carriedAt, carry, flags, withCf_bit _ _ (by decide), if_pos rfl, carriedAt, patternStep]
  · cases second with
    | false => rfl
    | true => exact congrArg (di <<< 1 ||| ·) (if_congr (carry_iff q m.env) rfl rfl)

theorem mempatLoop_leaves (q : Stock) (second : Bool) (n : Nat) (m : Machine) (di : BitVec 16) :
    LoopLeaves q second n m di (mempatLoop q second n m di) := by
  induction n generalizing m di with
  | zero =>
    refine ⟨rfl, ?_, rfl, _, _, _, _, _, rfl⟩
    exact (withCf_own _).symm
  | succ n ih =>
    obtain ⟨carried, flags⟩ := mempatStep_leaves q second m di
    obtain ⟨di', flags', mem', mem, ccSrc, ccOp, df, eflags, rest⟩ :=
      ih (mempatStep q second m di).1 (mempatStep q second m di).2
    rw [carried] at di' flags' mem'
    refine ⟨di', ?_, ?_, mem, ccSrc, ccOp, df, eflags, ?_⟩
    · refine flags'.trans ?_
      rw [flags, withCf_withCf]
      rfl
    · refine mem'.trans ?_
      cases second <;> rfl
    · refine rest.trans ?_
      cases second <;> rfl

structure MempatLeaves (q : Stock) (second : Bool) (m m' : Machine) : Prop where
  mem : m'.mem = patternStores (lo8 (m.env.regs .eax)) (m.env.segs .es).base second
    (lo16 (m.env.regs .ecx)).toNat (carriedAt q m (lo16 (m.env.regs .edi))) m.mem
  edi : m'.env.regs .edi = set16 (m.env.regs .edi)
    (pattern second (lo16 (m.env.regs .ecx)).toNat (carriedAt q m (lo16 (m.env.regs .edi)))).2
  ecx : m'.env.regs .ecx = m.env.regs .ecx &&& ~~~0xFFFF
  regs : ∀ r, r ≠ .edi → r ≠ .ecx → m'.env.regs r = m.env.regs r
  flags : cpuComputeEflags q m'.env = withCf (cpuComputeEflags q m.env)
    (pattern second (lo16 (m.env.regs .ecx)).toNat (carriedAt q m (lo16 (m.env.regs .edi)))).1
  eip : m'.env.eip = if second then 0x61EF else 0x61E1
  rest : ∃ regs eip mem ccSrc ccOp df eflags,
    m' = { m with mem, env := { m.env with regs, eip, ccSrc, ccOp, df, eflags } }

theorem completeMempat_leaves (q : Stock) (m : Machine) (off : BitVec 16) :
    MempatLeaves q (0x61E9 ≤ off) m (completeMempat q m off) := by
  obtain ⟨di, flags, mem, mem', ccSrc, ccOp, df, eflags, rest⟩ :=
    mempatLoop_leaves q (0x61E9 ≤ off) (lo16 (m.env.regs .ecx)).toNat m (lo16 (m.env.regs .edi))
  unfold completeMempat
  simp only
  generalize mempatLoop q (0x61E9 ≤ off) (lo16 (m.env.regs .ecx)).toNat m (lo16 (m.env.regs .edi)) = r at *
  obtain ⟨m₁, di₁⟩ := r
  subst di rest
  constructor
  case mem => exact mem
  case edi => simp [Env.setReg]
  case ecx => simp [Env.setReg]
  case regs =>
    intro r notEdi notEcx
    simp [Env.setReg, notEdi, notEcx]
  case flags => exact flags
  case eip => rfl
  case rest => exact ⟨_, _, _, _, _, _, _, rfl⟩

end Loop

section Split
variable {q : Stock} {m m' m₁ m₂ : Machine} {second : Bool} {touched : Word}

/-- Kept but for DI, CX, memory and the flags in `touched` and CF. -/
structure LoopKept (q : Stock) (touched : Word) (m m' : Machine) : Prop where
  edi : m'.env.regs .edi &&& ~~~0xFFFF = m.env.regs .edi &&& ~~~0xFFFF
  ecx : m'.env.regs .ecx &&& ~~~0xFFFF = m.env.regs .ecx &&& ~~~0xFFFF
  regs : ∀ r, r ≠ .edi → r ≠ .ecx → m'.env.regs r = m.env.regs r
  flags : ∀ i, i ≠ 0 → touched.getLsbD i = false →
    (cpuComputeEflags q m'.env).getLsbD i = (cpuComputeEflags q m.env).getLsbD i
  segs : m'.env.segs = m.env.segs
  control : m'.env.cr0 = m.env.cr0 ∧ m'.env.cpl = m.env.cpl
  tables : m'.env.gdt = m.env.gdt ∧ m'.env.ldt = m.env.ldt ∧ m'.env.idt = m.env.idt

/-- The CPU has made one iteration. With `touched` 0 it is the plain one, which sets no flag but
CF. A real SHL or RCL may set other arithmetic flags besides, and these are in `touched`. -/
structure PatternIterates (q : Stock) (second : Bool) (touched : Word) (m m' : Machine) : Prop where
  mem : m'.mem = ByteMemory.write m.mem (physEs m.env (lo16 (m.env.regs .edi))).toNat [lo8 (m.env.regs .eax)]
  carried : carriedAt q m' (lo16 (m'.env.regs .edi)) =
    patternStep second (carriedAt q m (lo16 (m.env.regs .edi)))
  cx : lo16 (m'.env.regs .ecx) = lo16 (m.env.regs .ecx) - 1
  kept : LoopKept q touched m m'

inductive PatternIterations (q : Stock) (second : Bool) (touched : Word) : Nat → Machine → Machine → Prop where
  | none (m : Machine) : PatternIterations q second touched 0 m m
  | more {j : Nat} {m m₁ m₂ : Machine} : PatternIterations q second touched j m m₁ →
      PatternIterates q second touched m₁ m₂ → PatternIterations q second touched (j + 1) m m₂

/-- The same for the guest, but for flags in `touched` other than CF. -/
structure SameEnd (q : Stock) (touched : Word) (m m' : Machine) : Prop where
  mem : m'.mem = m.mem
  regs : m'.env.regs = m.env.regs
  eip : m'.env.eip = m.env.eip
  flags : ∀ i < 32, i = 0 ∨ touched.getLsbD i = false →
    (cpuComputeEflags q m'.env).getLsbD i = (cpuComputeEflags q m.env).getLsbD i
  segs : m'.env.segs = m.env.segs
  control : m'.env.cr0 = m.env.cr0 ∧ m'.env.cpl = m.env.cpl
  tables : m'.env.gdt = m.env.gdt ∧ m'.env.ldt = m.env.ldt ∧ m'.env.idt = m.env.idt

theorem LoopKept.trans (kept : LoopKept q touched m m₁) (kept' : LoopKept q touched m₁ m₂) :
    LoopKept q touched m m₂ where
  edi := kept'.edi.trans kept.edi
  ecx := kept'.ecx.trans kept.ecx
  regs r notEdi notEcx := (kept'.regs r notEdi notEcx).trans (kept.regs r notEdi notEcx)
  flags i notCf free := (kept'.flags i notCf free).trans (kept.flags i notCf free)
  segs := kept'.segs.trans kept.segs
  control := ⟨kept'.control.1.trans kept.control.1, kept'.control.2.trans kept.control.2⟩
  tables := ⟨kept'.tables.1.trans kept.tables.1, kept'.tables.2.1.trans kept.tables.2.1,
    kept'.tables.2.2.trans kept.tables.2.2⟩

theorem LoopKept.refl (q : Stock) (touched : Word) (m : Machine) : LoopKept q touched m m :=
  ⟨rfl, rfl, fun _ _ _ => rfl, fun _ _ _ => rfl, rfl, ⟨rfl, rfl⟩, rfl, rfl, rfl⟩

/-- What the rest of the loop makes of CF, DI and memory. -/
structure SameRest (q : Stock) (second : Bool) (n n₁ : Nat) (m m₁ : Machine) : Prop where
  carried : pattern second n₁ (carriedAt q m₁ (lo16 (m₁.env.regs .edi))) =
    pattern second n (carriedAt q m (lo16 (m.env.regs .edi)))
  stores : patternStores (lo8 (m₁.env.regs .eax)) (m₁.env.segs .es).base second n₁
      (carriedAt q m₁ (lo16 (m₁.env.regs .edi))) m₁.mem =
    patternStores (lo8 (m.env.regs .eax)) (m.env.segs .es).base second n
      (carriedAt q m (lo16 (m.env.regs .edi))) m.mem

theorem PatternIterates.rest {n : Nat} (iterates : PatternIterates q second touched m m₁)
    (counts : (lo16 (m.env.regs .ecx)).toNat = n + 1) :
    (lo16 (m₁.env.regs .ecx)).toNat = n ∧ SameRest q second (n + 1) n m m₁ := by
  refine ⟨?_, ?_, ?_⟩
  · rw [iterates.cx]
    exact toNat_pred counts
  · rw [iterates.carried, pattern_succ]
  · rw [iterates.carried, iterates.mem, iterates.kept.segs, iterates.kept.regs .eax (by decide) (by decide)]
    rfl

theorem PatternIterations.rest {j n : Nat} (iterations : PatternIterations q second touched j m m₁)
    (counts : (lo16 (m.env.regs .ecx)).toNat = j + n) :
    (lo16 (m₁.env.regs .ecx)).toNat = n ∧ SameRest q second (j + n) n m m₁ ∧ LoopKept q touched m m₁ := by
  induction iterations generalizing n with
  | none m =>
    rw [Nat.zero_add] at counts ⊢
    exact ⟨counts, ⟨rfl, rfl⟩, .refl q touched m⟩
  | @more j m m₁ m₂ _ iterates ih =>
    have split : j + 1 + n = j + (n + 1) := by omega
    rw [split] at counts ⊢
    obtain ⟨counts', rest, kept⟩ := ih counts
    obtain ⟨left, rest'⟩ := iterates.rest counts'
    exact ⟨left, ⟨rest'.carried.trans rest.carried, rest'.stores.trans rest.stores⟩, kept.trans iterates.kept⟩

end Split

/-- The completion in closed form, for `n` iterations. -/
structure PatternOf (q : Stock) (second : Bool) (n : Nat) (m m' : Machine) : Prop where
  stores : ∀ a, m'.mem a =
    if ∃ k < n, a = (physEs m.env (pattern second k (carriedAt q m (lo16 (m.env.regs .edi)))).2).toNat then
      lo8 (m.env.regs .eax)
    else m.mem a
  cx : lo16 (m'.env.regs .ecx) = 0
  rotates : second = true → BitVec.cons (carry q m'.env) (lo16 (m'.env.regs .edi)) =
    (BitVec.cons (carry q m.env) (lo16 (m.env.regs .edi))).rotateLeft (n % 17)
  shifts : second = false →
    (lo16 (m'.env.regs .edi)).toNat = ((lo16 (m.env.regs .edi)).toNat <<< n) % 65536 ∧
      (1 ≤ n → carry q m'.env = ((lo16 (m.env.regs .edi)).toNat <<< n).testBit 16)
  idle : n = 0 → cpuComputeEflags q m'.env = cpuComputeEflags q m.env
  kept : LoopKept q 0 m m'
  eip : m'.env.eip = if second then 0x61EF else 0x61E1

section Closed
variable {q : Stock} {m m' m₁ m₁' : Machine} {second : Bool} {touched : Word}

theorem MempatLeaves.kept (leaves : MempatLeaves q second m m') : LoopKept q 0 m m' := by
  obtain ⟨regs, eip, mem, ccSrc, ccOp, df, eflags, rest⟩ := leaves.rest
  constructor
  case edi => rw [leaves.edi, set16_rest]
  case ecx => rw [leaves.ecx, BitVec.and_assoc, BitVec.and_self]
  case regs => exact leaves.regs
  case flags =>
    intro i notCf _
    rw [leaves.flags]
    by_cases h : i < 32
    · rw [withCf_bit _ _ h, if_neg notCf]
    · rw [BitVec.getLsbD_of_ge _ _ (by omega), BitVec.getLsbD_of_ge _ _ (by omega)]
  all_goals rw [rest]
  case control => exact ⟨rfl, rfl⟩
  case tables => exact ⟨rfl, rfl, rfl⟩

theorem MempatLeaves.carried (leaves : MempatLeaves q second m m') :
    carriedAt q m' (lo16 (m'.env.regs .edi)) =
      pattern second (lo16 (m.env.regs .ecx)).toNat (carriedAt q m (lo16 (m.env.regs .edi))) := by
  refine Prod.ext ?_ ?_
  · rw [carriedAt, carry, leaves.flags, withCf_bit _ _ (by decide), if_pos rfl]
  · rw [carriedAt, leaves.edi, lo16_set16]

theorem MempatLeaves.patternOf (leaves : MempatLeaves q second m m') :
    PatternOf q second (lo16 (m.env.regs .ecx)).toNat m m' := by
  have carried := leaves.carried
  generalize counts : (lo16 (m.env.regs .ecx)).toNat = n at *
  have cf : carry q m'.env = _ := congrArg Prod.fst carried
  have di : lo16 (m'.env.regs .edi) = _ := congrArg Prod.snd carried
  constructor
  case stores =>
    intro a
    rw [leaves.mem, patternStores_at, counts]
    rfl
  case cx => rw [leaves.ecx, cleared16, lo16_set16]
  case rotates =>
    rintro rfl
    rw [BitVec.rotateLeft_mod_eq_rotateLeft]
    exact (congrArg Carried.value carried).trans (rcl_closed n _)
  case shifts =>
    rintro rfl
    refine ⟨?_, fun some => ?_⟩
    · rw [di, shl_closed]
      exact BitVec.toNat_shiftLeft
    · rw [cf, shl_carry n _ some]
      rfl
  case idle =>
    rintro rfl
    rw [leaves.flags, counts, pattern_zero]
    exact withCf_own _
  case kept => exact leaves.kept
  case eip => exact leaves.eip

/-- Completed later in the loop, the rest of it ends the same. -/
theorem MempatLeaves.same (leaves : MempatLeaves q second m m') (leaves₁ : MempatLeaves q second m₁ m₁')
    (rest : SameRest q second (lo16 (m.env.regs .ecx)).toNat (lo16 (m₁.env.regs .ecx)).toNat m m₁)
    (kept : LoopKept q touched m m₁) : SameEnd q touched m' m₁' := by
  have fixed := leaves.kept
  have fixed₁ := leaves₁.kept
  constructor
  case mem => rw [leaves₁.mem, rest.stores, leaves.mem]
  case regs =>
    funext r
    by_cases isEdi : r = .edi
    · rw [isEdi, leaves₁.edi, leaves.edi, rest.carried, set16, kept.edi, set16]
    · by_cases isEcx : r = .ecx
      · rw [isEcx, leaves₁.ecx, leaves.ecx, kept.ecx]
      · rw [leaves₁.regs r isEdi isEcx, leaves.regs r isEdi isEcx, kept.regs r isEdi isEcx]
  case eip => rw [leaves₁.eip, leaves.eip]
  case flags =>
    intro i h free
    rw [leaves₁.flags, leaves.flags, rest.carried, withCf_bit _ _ h, withCf_bit _ _ h]
    split
    · rfl
    · rename_i notCf
      exact kept.flags i notCf (free.resolve_left notCf)
  case segs => rw [fixed₁.segs, kept.segs, fixed.segs]
  case control => exact ⟨by rw [fixed₁.control.1, kept.control.1, fixed.control.1],
    by rw [fixed₁.control.2, kept.control.2, fixed.control.2]⟩
  case tables => exact ⟨by rw [fixed₁.tables.1, kept.tables.1, fixed.tables.1],
    by rw [fixed₁.tables.2.1, kept.tables.2.1, fixed.tables.2.1],
    by rw [fixed₁.tables.2.2, kept.tables.2.2, fixed.tables.2.2]⟩

end Closed

/-- The pattern loop is completed in closed form, the same behind any iterations of the CPU, plain
ones (`touched` 0) or such as a real SHL or RCL makes. -/
theorem completeMempat_closed (q : Stock) (m : Machine) (off : BitVec 16) (n : Nat)
    (counts : (lo16 (m.env.regs .ecx)).toNat = n) :
    PatternOf q (0x61E9 ≤ off) n m (completeMempat q m off) ∧
      ∀ j ≤ n, ∀ touched m₁, PatternIterations q (0x61E9 ≤ off) touched j m m₁ →
        SameEnd q touched (completeMempat q m off) (completeMempat q m₁ off) := by
  have leaves := completeMempat_leaves q m off
  subst counts
  refine ⟨leaves.patternOf, fun j within touched m₁ iterations => ?_⟩
  obtain ⟨n, split⟩ := Nat.exists_eq_add_of_le within
  obtain ⟨counts, rest, kept⟩ := iterations.rest split
  rw [← split, ← counts] at rest
  exact leaves.same (completeMempat_leaves q m₁ off) rest kept

/-- 18 iterations of the RCL loop: one full turn of CF:DI and one step more. -/
def turning : Machine :=
  .start { (default : Env) with regs := fun | .ecx => 18 | .edi => 0x8001 | _ => 0 } (fun _ => 0xFF) (fun _ => 0)
    (fun _ => none) fun _ => none

/-- The CPU has made the first of them, which shifts a bit into CF. -/
def turned : Machine :=
  { turning with
    mem := ByteMemory.write turning.mem 0x8001 [0]
    env := { turning.env with
      regs := fun | .ecx => 17 | .edi => 0x0002 | _ => 0
      ccSrc := 1
      ccOp := .eflags } }

theorem completeMempat_closed_turn :
    PatternOf default true 18 turning (completeMempat default turning 0x61E9) ∧
      SameEnd default 0 (completeMempat default turning 0x61E9) (completeMempat default turned 0x61E9) := by
  obtain ⟨closed, split⟩ := completeMempat_closed default turning 0x61E9 18 rfl
  have first : PatternIterates default true 0 turning turned := by
    refine ⟨rfl, by decide, by decide, rfl, rfl, ?_, ?_, rfl, ⟨rfl, rfl⟩, rfl, rfl, rfl⟩
    · intro r notEdi notEcx
      cases r <;> first | rfl | contradiction
    · intro i notCf _
      have carry : cpuComputeEflags default turned.env = 1 := by decide
      have clear : cpuComputeEflags default turning.env = 0 := by decide
      rw [carry, clear]
      simp [notCf]
  exact ⟨closed, split 1 (by decide) 0 turned (.more (.none turning) first)⟩

end Pc110
