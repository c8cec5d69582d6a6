import Pc110.LooseCall

/-! Faults in loose far transfers. A stack access that faults gives back the beginning of the
instruction, and a push that is made again leaves the same stack, so these restart. The resolver
reads the target's descriptor without a return address: behind a fault there EIP and the condition
codes are as the block last stored them, and a far call has moved ESP besides. -/
namespace Pc110.SegHelper

open LsbBits (Byte)
open Faulting (bind_ok bind_error)
open WrapMemory (place)

/-- The far jump of stock QEMU, outside loose PM. -/
structure StockJump where
  ljmpProtected : (newCs newEip nextEip : Word) → Helper Unit
  deriving Inhabited

def helperLjmpProtected (q : StockJump) (newCs newEip nextEip : Word) : Helper Unit := do
  let s ← get
  if pc110LoosePm s then
    let cs ← pc110ResolveSeg newCs true
    modify fun s =>
      let env := loadSegCache s.env .cs
        { selector := newCs, base := cs.base, limit := cs.limit, flags := cs.flags }
      { s with env := { env with eip := newEip } }
  else q.ljmpProtected newCs newEip nextEip

structure StockTransfers where
  jump : StockJump
  call : StockCall
  seg : StockSeg
  deriving Inhabited

/-- A far transfer as an instruction gives it to its helper. -/
inductive Transfer where
  | jmp (newCs newEip nextEip : Word)
  | call (newCs newEip : Word) (shift : Nat) (nextEip : Word)
  | ret (shift : Nat) (addend : Word)
  | iret (shift : Nat)

def Transfer.run (q : StockTransfers) : Transfer → Helper Unit
  | .jmp newCs newEip nextEip => helperLjmpProtected q.jump newCs newEip nextEip
  | .call newCs newEip shift nextEip => helperLcallProtected q.call newCs newEip shift nextEip
  | .ret shift addend => helperRetProtected q.seg shift false addend
  | .iret shift => helperRetProtected q.seg shift true 0

/-- The transfer is made loosely. An IRET to V86 is not. -/
def Transfer.Loose (t : Transfer) (s : Sys) : Prop :=
  pc110LoosePm s = true ∧
    match t with
    | .iret shift => poppedWord (operand shift) s 2 &&& vmMask = 0
    | _ => True

def Transfer.IsCall : Transfer → Prop
  | .call _ _ _ _ => True
  | _ => False

/-- The selector that goes into CS. -/
def Transfer.target : Transfer → Sys → Word
  | .jmp newCs _ _, _ | .call newCs _ _ _, _ => newCs
  | .ret shift _, s | .iret shift, s => poppedWord (operand shift) s 1 &&& 0xFFFF

structure Rights where
  readable : BitVec 2 → Word → Bool
  writable : BitVec 2 → Word → Bool
  reads_written : ∀ pl a, writable pl a = true → readable pl a = true

/-- The faulting pages have been serviced. -/
def Sys.serviced (s : Sys) (rights : Rights) : Sys :=
  { s with mem :=
    { cells := s.mem.cells
      readable := rights.readable
      writable := rights.writable
      reads_written := rights.reads_written } }

structure AtStart (q : Stock) (s s₁ : Sys) : Prop where
  esp : s₁.env.regs .esp = s.env.regs .esp
  eip : s₁.env.eip = s.env.eip
  cs : s₁.env.segs .cs = s.env.segs .cs
  eflags : cpuComputeEflags q s₁.env = cpuComputeEflags q s.env

/-- The same CPU, whose condition codes another operation may keep. -/
structure SameCpu (q : Stock) (env env' : Env) : Prop where
  rest : env' = { env with ccOp := env'.ccOp }
  eflags : cpuComputeEflags q env' = cpuComputeEflags q env

def Sys.withOp (s : Sys) (ccOp : CcOp) : Sys := { s with env := { s.env with ccOp } }

def SameMachine (q : Stock) (s s' : Sys) : Prop := s' = { s with env := s'.env } ∧ SameCpu q s.env s'.env

/-- A fault leaves the transfer at its beginning, and once serviced it ends as without the fault. -/
def Restartable (q : StockTransfers) (t : Transfer) (s : Sys) : Prop :=
  ∀ e s₁, t.run q s = .error e s₁ → AtStart q.seg.cc s.unwound s₁ ∧
    ∀ rights s₂, t.run q (s.unwound.serviced rights) = .ok () s₂ →
      ∃ s₃, t.run q (s₁.serviced rights) = .ok () s₃ ∧ SameMachine q.seg.cc s₂ s₃

/-- Both pushes of a far call are allowed. -/
def FrameWritable (size : Nat) (s : Sys) : Prop :=
  let sa := StackAccess.of s.env .getpc
  let up := BitVec.ofNat 32 size
  ∀ j < size, s.mem.writable sa.pl (place sa.ssBase sa.spMask (sa.sp - up) + BitVec.ofNat 32 j) = true ∧
    s.mem.writable sa.pl (place sa.ssBase sa.spMask (sa.sp - up - up) + BitVec.ofNat 32 j) = true

/-- The selector has a descriptor within its table, and a byte of it may not be read. -/
def DescriptorFaults (selector : Word) (s : Sys) : Prop :=
  selector &&& 0xFFFC ≠ 0 ∧ InLimit selector s ∧
    ¬ ∀ k < 8, s.mem.readable 0 ((table s.env selector).base + index selector + BitVec.ofNat 32 k) = true

def Transfer.StackAllowed : Transfer → Sys → Prop
  | .jmp _ _ _, _ => True
  | .call _ _ shift _, s => FrameWritable (callOperand shift) s
  | .ret shift _, s => ∀ i < 2, WordReadable (operand shift) s i
  | .iret shift, s => ∀ i < 3, WordReadable (operand shift) s i

structure Stored (q : Stock) (s : Sys) : Prop where
  eip : s.env.eip = s.insn.eip
  eflags : cpuComputeEflags q s.env = cpuComputeEflags q s.unwound.env

section Push
variable {s : Sys} {sa : StackAccess} {size : Nat}

theorem push_ok (v : Word) (writable : ∀ j < size, s.mem.writable sa.pl
      (place sa.ssBase sa.spMask (sa.sp - BitVec.ofNat 32 size) + BitVec.ofNat 32 j) = true) :
    sa.push size v s = .ok { sa with sp := sa.sp - BitVec.ofNat 32 size } (s.withCells (WrapMemory.store s.mem.cells
      (place sa.ssBase sa.spMask (sa.sp - BitVec.ofNat 32 size)) (LsbBits.bytes size v.toNat))) := by
  refine bind_ok (a := ()) ?_
  unfold writeCells
  rw [LsbBits.bytes_length, denied_none.mpr writable]
  rfl

theorem push_fault (v : Word) (denied : ¬ ∀ j < size, s.mem.writable sa.pl
      (place sa.ssBase sa.spMask (sa.sp - BitVec.ofNat 32 size) + BitVec.ofNat 32 j) = true) :
    ∃ p, sa.push size v s = .error (.page p) (s.exitRestore sa.ra) := by
  obtain ⟨p, found⟩ := Option.ne_none_iff_exists'.mp (mt denied_none.mp denied)
  refine ⟨p, bind_error ?_⟩
  unfold writeCells
  rw [LsbBits.bytes_length, found]

end Push

section Descriptor
variable {s : Sys} {selector : Word}

theorem ldlKernel_ok {a : Word} (readable : ∀ j < 4, s.mem.readable 0 (a + BitVec.ofNat 32 j) = true) :
    ∃ v, ldlKernel a .zero s = .ok v s :=
  ⟨_, bind_ok (readCells_ok readable .zero)⟩

theorem ldlKernel_fault {a : Word} (denied : ¬ ∀ j < 4, s.mem.readable 0 (a + BitVec.ofNat 32 j) = true) :
    ∃ p, ldlKernel a .zero s = .error (.page p) s := by
  obtain ⟨p, fault⟩ := readCells_fault denied .zero
  exact ⟨p, bind_error fault⟩

theorem descriptorAt_ok (env : Env) (readable : ∀ k < 8,
      s.mem.readable 0 ((table env selector).base + index selector + BitVec.ofNat 32 k) = true) :
    ∃ d, descriptorAt env selector .zero s = .ok d s := by
  obtain ⟨e1, first⟩ := ldlKernel_ok (s := s) fun j h => readable j (by omega)
  have above (j : Nat) (h : j < 4) : s.mem.readable 0
      ((table env selector).base + index selector + 4 + BitVec.ofNat 32 j) = true := by
    have byte := readable (4 + j) (by omega)
    rwa [BitVec.ofNat_add, ← BitVec.add_assoc] at byte
  obtain ⟨e2, second⟩ := ldlKernel_ok above
  exact ⟨(e1, e2), (bind_ok first).trans (bind_ok second)⟩

theorem descriptorAt_fault (env : Env) (denied : ¬ ∀ k < 8,
      s.mem.readable 0 ((table env selector).base + index selector + BitVec.ofNat 32 k) = true) :
    ∃ p, descriptorAt env selector .zero s = .error (.page p) s := by
  by_cases below : ∀ j < 4,
      s.mem.readable 0 ((table env selector).base + index selector + BitVec.ofNat 32 j) = true
  · obtain ⟨e1, first⟩ := ldlKernel_ok below
    have above : ¬ ∀ j < 4, s.mem.readable 0
        ((table env selector).base + index selector + 4 + BitVec.ofNat 32 j) = true := by
      intro readable
      refine denied fun k h => ?_
      by_cases low : k < 4
      · exact below k low
      · obtain ⟨j, rfl⟩ := Nat.exists_eq_add_of_le (Nat.le_of_not_lt low)
        rw [BitVec.ofNat_add, ← BitVec.add_assoc]
        exact readable j (by omega)
    obtain ⟨p, second⟩ := ldlKernel_fault above
    exact ⟨p, (bind_ok first).trans (bind_error second)⟩
  · obtain ⟨p, first⟩ := ldlKernel_fault below
    exact ⟨p, bind_error first⟩

theorem resolve_faults (faults : DescriptorFaults selector s) :
    ∃ p, pc110ResolveSeg selector true s = .error (.page p) s := by
  obtain ⟨notNull, inside, denied⟩ := faults
  obtain ⟨p, fault⟩ := descriptorAt_fault s.env denied
  exact ⟨p, resolve_fault true notNull inside fault⟩

theorem resolve_completes (readable : ¬ DescriptorFaults selector s) :
    ∃ cs, pc110ResolveSeg selector true s = .ok cs s := by
  by_cases inside : selector &&& 0xFFFC ≠ 0 ∧ InLimit selector s
  · have all := not_not.mp fun denied => readable ⟨inside.1, inside.2, denied⟩
    obtain ⟨d, read⟩ := descriptorAt_ok s.env all
    exact ⟨_, resolve_in true inside.1 inside.2 read⟩
  · exact ⟨_, resolve_out true inside⟩

end Descriptor

section Call
variable {q : StockCall} {s : Sys}

/-- The far call behind its pushes. -/
def enterCall (newCs newEip : Word) (sa : StackAccess) : Helper Unit := do
  modify fun s => { s with env := setEsp s.env sa.sp sa.spMask }
  let cs ← pc110ResolveSeg newCs true
  modify fun s =>
    let env := loadSegCache s.env .cs
      { selector := newCs, base := cs.base, limit := cs.limit, flags := cs.flags }
    { s with env := { env with eip := newEip } }

theorem lcall_pushes (loose : pc110LoosePm s = true) (newCs newEip : Word) (shift : Nat) (nextEip : Word) :
    helperLcallProtected q newCs newEip shift nextEip s =
      ((StackAccess.of s.env .getpc).push (callOperand shift) (s.env.segs .cs).selector >>= fun sa =>
        sa.push (callOperand shift) nextEip >>= enterCall newCs newEip) s := by
  rw [helperLcallProtected, Faulting.get_bind, if_pos loose]
  rfl

theorem enterCall_moved (newCs newEip : Word) (sa : StackAccess) (s : Sys) : enterCall newCs newEip sa s =
    (pc110ResolveSeg newCs true >>= fun cs => modify fun s =>
      { s with env := { loadSegCache s.env .cs ⟨newCs, cs.base, cs.limit, cs.flags⟩ with eip := newEip } })
      { s with env := setEsp s.env sa.sp sa.spMask } := rfl

/-- Pushes leave tables and rights alone. -/
theorem enterCall_faults (cells : WrapMemory.Cells 32 Byte) {newCs : Word} (faults : DescriptorFaults newCs s)
    (newEip : Word) (sa : StackAccess) : ∃ p, enterCall newCs newEip sa (s.withCells cells) =
      .error (.page p) { s.withCells cells with env := setEsp s.env sa.sp sa.spMask } := by
  obtain ⟨p, fault⟩ := resolve_faults (s := { s.withCells cells with env := setEsp s.env sa.sp sa.spMask }) faults
  rw [enterCall_moved]
  exact ⟨p, bind_error fault⟩

theorem enterCall_completes (cells : WrapMemory.Cells 32 Byte) {newCs : Word}
    (readable : ¬ DescriptorFaults newCs s) (newEip : Word) (sa : StackAccess) :
    ∃ s', enterCall newCs newEip sa (s.withCells cells) = .ok () s' := by
  obtain ⟨cs, ran⟩ := resolve_completes (s := { s.withCells cells with env := setEsp s.env sa.sp sa.spMask }) readable
  rw [enterCall_moved]
  exact ⟨_, bind_ok ran⟩

def pushedOnce (size : Nat) (s : Sys) : StackAccess :=
  { StackAccess.of s.env .getpc with sp := s.env.regs .esp - BitVec.ofNat 32 size }

def pushedCs (size : Nat) (s : Sys) : WrapMemory.Cells 32 Byte :=
  WrapMemory.store s.mem.cells (place (StackAccess.of s.env).ssBase (StackAccess.of s.env).spMask
    (s.env.regs .esp - BitVec.ofNat 32 size)) (LsbBits.bytes size (s.env.segs .cs).selector.toNat)

def CsWritable (size : Nat) (s : Sys) : Prop :=
  let sa := StackAccess.of s.env .getpc
  ∀ j < size, s.mem.writable sa.pl
    (place sa.ssBase sa.spMask (sa.sp - BitVec.ofNat 32 size) + BitVec.ofNat 32 j) = true

theorem lcall_first (loose : pc110LoosePm s = true) {shift : Nat} (writable : CsWritable (callOperand shift) s)
    (newCs newEip nextEip : Word) : helperLcallProtected q newCs newEip shift nextEip s =
      ((pushedOnce (callOperand shift) s).push (callOperand shift) nextEip >>= enterCall newCs newEip)
        (s.withCells (pushedCs (callOperand shift) s)) := by
  rw [lcall_pushes loose, bind_ok (push_ok (s.env.segs .cs).selector writable)]
  rfl

theorem lcall_denied (loose : pc110LoosePm s = true) {shift : Nat} (denied : ¬ CsWritable (callOperand shift) s)
    (newCs newEip nextEip : Word) :
    ∃ p, helperLcallProtected q newCs newEip shift nextEip s = .error (.page p) s.unwound := by
  obtain ⟨p, fault⟩ := push_fault (s.env.segs .cs).selector denied
  rw [lcall_pushes loose]
  exact ⟨p, bind_error fault⟩

/-- With both pushes allowed, whether the call faults is up to the descriptor. -/
theorem lcall_framed (loose : pc110LoosePm s = true) {shift : Nat} (writable : FrameWritable (callOperand shift) s)
    (newCs newEip nextEip : Word) : ∃ cells, helperLcallProtected q newCs newEip shift nextEip s =
      enterCall newCs newEip { pushedOnce (callOperand shift) s with
        sp := s.env.regs .esp - BitVec.ofNat 32 (callOperand shift) - BitVec.ofNat 32 (callOperand shift) }
        (s.withCells cells) := by
  rw [lcall_first loose fun j h => (writable j h).1]
  exact ⟨_, bind_ok (push_ok nextEip fun j h => (writable j h).2)⟩

/-- A pushed frame always shows in ESP. -/
theorem setEsp_moves (env : Env) (shift : Nat) :
    (setEsp env (env.regs .esp - BitVec.ofNat 32 (callOperand shift) - BitVec.ofNat 32 (callOperand shift))
      (getSpMask (env.segs .ss).flags)).regs .esp ≠ env.regs .esp := by
  intro same
  obtain ⟨m, wide, keeps⟩ := getSpMask_keeps (env.segs .ss).flags
  have room := Nat.pow_le_pow_right (show 0 < 2 by decide) wide
  have size : callOperand shift = 2 ∨ callOperand shift = 4 := by
    unfold callOperand
    split
    · exact .inr rfl
    · exact .inl rfl
  have masked := (setEsp_masked env (env.regs .esp - BitVec.ofNat 32 (callOperand shift) -
    BitVec.ofNat 32 (callOperand shift)) (getSpMask (env.segs .ss).flags)).1
  rw [same, BitVec.sub_sub, ← BitVec.ofNat_add] at masked
  have down := WrapMemory.masked_sub keeps (env.regs .esp) (callOperand shift + callOperand shift) (by omega)
  simp only at down
  rw [← masked] at down
  split at down <;> omega

/-- Where the pushes are allowed and the descriptor's read is not, ESP has moved. -/
theorem lcall_late (loose : pc110LoosePm s = true) {newCs : Word} {shift : Nat}
    (writable : FrameWritable (callOperand shift) s) (faults : DescriptorFaults newCs s) (newEip nextEip : Word) :
    ∃ p s₁, helperLcallProtected q newCs newEip shift nextEip s = .error (.page p) s₁ ∧
      s₁.env.regs .esp ≠ s.env.regs .esp := by
  obtain ⟨cells, run⟩ := lcall_framed (q := q) loose writable newCs newEip nextEip
  obtain ⟨p, fault⟩ := enterCall_faults cells faults newEip _
  exact ⟨p, _, run.trans fault, setEsp_moves s.env shift⟩

end Call

section Same
variable {q : Stock} {s s' : Sys}

theorem SameMachine.refl (q : Stock) (s : Sys) : SameMachine q s s := ⟨rfl, rfl, rfl⟩

theorem SameMachine.op (same : SameMachine q s s') : ∃ op, s' = s.withOp op := by
  refine ⟨s'.env.ccOp, same.1.trans ?_⟩
  rw [Sys.withOp, ← same.2.rest]

/-- The resolver does not look at the condition codes. -/
theorem resolve_same (same : SameMachine q s s') {selector : Word} {cs : Resolved}
    (resolves : pc110ResolveSeg selector true s = .ok cs s) : pc110ResolveSeg selector true s' = .ok cs s' := by
  obtain ⟨op, rfl⟩ := same.op
  by_cases inside : selector &&& 0xFFFC ≠ 0 ∧ InLimit selector s
  · rcases reads_descriptor s.env selector .zero s with ⟨d, read⟩ | ⟨p, fault⟩
    · have again : descriptorAt (s.withOp op).env selector .zero (s.withOp op) = .ok d (s.withOp op) := by
        change descriptorAt s.env selector .zero _ = _
        exact descriptorAt_congr (s := s) rfl (fun _ _ => rfl) read
      rw [resolve_in true inside.1 inside.2 read] at resolves
      rw [resolve_in (s := s.withOp op) true inside.1 inside.2 again]
      cases resolves
      rfl
    · rw [resolve_fault true inside.1 inside.2 fault] at resolves
      cases resolves
  · rw [resolve_out true inside] at resolves
    rw [resolve_out (s := s.withOp op) true inside]
    cases resolves
    rfl

def jumped (s : Sys) (newCs newEip : Word) (cs : Resolved) : Sys :=
  { s with env := { loadSegCache s.env .cs ⟨newCs, cs.base, cs.limit, cs.flags⟩ with eip := newEip } }

theorem jumped_same (same : SameMachine q s s') (newCs newEip : Word) (cs : Resolved) :
    SameMachine q (jumped s newCs newEip cs) (jumped s' newCs newEip cs) := by
  obtain ⟨-, -, eflags⟩ := id same
  obtain ⟨op, rfl⟩ := same.op
  exact ⟨rfl, rfl, eflags⟩

theorem returned_same (same : SameMachine q s s') (shift : Nat) (isIret : Bool) (addend : Word) (cs : Resolved) :
    SameMachine q (returned s shift isIret addend cs) (returned s' shift isIret addend cs) := by
  obtain ⟨-, -, eflags⟩ := id same
  obtain ⟨op, rfl⟩ := same.op
  cases isIret with
  | true => exact ⟨rfl, rfl, rfl⟩
  | false => exact ⟨rfl, rfl, eflags⟩

theorem resolving_same (same : SameMachine q s s') {selector : Word} {behind : Sys → Resolved → Sys}
    (keeps : ∀ cs, SameMachine q (behind s cs) (behind s' cs)) {s₂ : Sys}
    (ran : (pc110ResolveSeg selector true >>= fun cs => set (behind s cs)) s = .ok () s₂) :
    ∃ s₃, (pc110ResolveSeg selector true >>= fun cs => set (behind s' cs)) s' = .ok () s₃ ∧ SameMachine q s₂ s₃ := by
  obtain ⟨cs, t, resolves, done⟩ := Faulting.of_bind_ok ran
  obtain rfl := (resolve_reads selector true s).same resolves
  cases done
  exact ⟨_, bind_ok (resolve_same same resolves), keeps cs⟩

/-- What was stored is the machine at the beginning of the instruction. -/
theorem Stored.same (stored : Stored q s) (rights : Rights) :
    SameMachine q (s.unwound.serviced rights) (s.serviced rights) := by
  refine ⟨rfl, ?_, stored.eflags⟩
  change s.env = { s.env with eip := s.insn.eip, ccOp := s.env.ccOp }
  rw [← stored.eip]

end Same

section Restart
variable {q : StockTransfers} {t : Transfer} {s : Sys}

theorem AtStart.refl (q : Stock) (s : Sys) : AtStart q s s := ⟨rfl, rfl, rfl, rfl⟩

theorem restartable_ok {s' : Sys} (completes : t.run q s = .ok () s') : Restartable q t s := by
  intro e s₁ fault
  rw [completes] at fault
  cases fault

theorem restartable_unwound {p : Word} (stops : t.run q s = .error (.page p) s.unwound) : Restartable q t s := by
  intro e s₁ fault
  rw [stops] at fault
  cases fault
  exact ⟨.refl _ _, fun rights s₂ ran => ⟨s₂, ran, .refl _ _⟩⟩

theorem Transfer.Loose.serviced {s' : Sys} (loose : t.Loose s) (rights : Rights)
    (same : s' = s ∨ s' = s.unwound) : t.Loose (s'.serviced rights) := by
  rcases same with rfl | rfl <;> cases t <;> exact loose

/-- A transfer that reads its frame, then resolves its target, then goes. -/
structure Resolving (q : StockTransfers) (t : Transfer) (behind : Sys → Resolved → Sys) : Prop where
  allowed : ∀ {s}, t.Loose s → t.StackAllowed s →
    t.run q s = (pc110ResolveSeg (t.target s) true >>= fun cs => set (behind s cs)) s
  denied : ∀ {s}, t.Loose s → ¬ t.StackAllowed s → ∃ p, t.run q s = .error (.page p) s.unwound
  same : ∀ {s s'}, SameMachine q.seg.cc s s' → ∀ cs, SameMachine q.seg.cc (behind s cs) (behind s' cs)

theorem resolving_jmp (q : StockTransfers) (newCs newEip nextEip : Word) :
    Resolving q (.jmp newCs newEip nextEip) fun s => jumped s newCs newEip where
  allowed {s} loose _ := by
    rw [Transfer.run, helperLjmpProtected, Faulting.get_bind, if_pos loose.1]
    rcases resolve_reads newCs true s with ⟨cs, resolves⟩ | ⟨p, fault⟩
    · rw [bind_ok resolves, Transfer.target, bind_ok resolves]
      rfl
    · rw [bind_error fault, Transfer.target, bind_error fault]
  denied _ denied := absurd trivial denied
  same same cs := jumped_same same newCs newEip cs

theorem resolving_ret (q : StockTransfers) (shift : Nat) (addend : Word) :
    Resolving q (.ret shift addend) fun s => returned s shift false addend where
  allowed loose readable := helperRetProtected_words loose.1 shift false addend readable fun iret => nomatch iret
  denied _ denied := helperRetProtected_denied shift false addend denied
  same same cs := returned_same same shift false addend cs

theorem resolving_iret (q : StockTransfers) (shift : Nat) :
    Resolving q (.iret shift) fun s => returned s shift true 0 where
  allowed loose readable := helperRetProtected_words loose.1 shift true 0 readable fun _ => loose.2
  denied _ denied := helperRetProtected_denied shift true 0 denied
  same same cs := returned_same same shift true 0 cs

/-- Once serviced it ends alike from the stored state and from the beginning of the instruction. -/
theorem Resolving.again {behind : Sys → Resolved → Sys} (resolving : Resolving q t behind) (loose : t.Loose s)
    (stored : Stored q.seg.cc s) (rights : Rights) {s₂ : Sys}
    (ran : t.run q (s.unwound.serviced rights) = .ok () s₂) :
    ∃ s₃, t.run q (s.serviced rights) = .ok () s₃ ∧ SameMachine q.seg.cc s₂ s₃ := by
  have loose' := loose.serviced rights (.inr rfl)
  have allowed : t.StackAllowed (s.unwound.serviced rights) := by
    by_contra denied
    obtain ⟨p, fault⟩ := resolving.denied loose' denied
    rw [fault] at ran
    cases ran
  have allowed' : t.StackAllowed (s.serviced rights) := by cases t <;> exact allowed
  have target : t.target (s.unwound.serviced rights) = t.target (s.serviced rights) := by cases t <;> rfl
  have same := stored.same rights
  rw [resolving.allowed loose' allowed, target] at ran
  rw [resolving.allowed (loose.serviced rights (.inl rfl)) allowed']
  exact resolving_same same (resolving.same same) ran

/-- Such a transfer restarts unless the resolver faults where the block has not stored its state. -/
theorem Resolving.restarts_iff {behind : Sys → Resolved → Sys} (resolving : Resolving q t behind)
    (loose : t.Loose s) : Restartable q t s ↔
      (t.StackAllowed s → DescriptorFaults (t.target s) s → Stored q.seg.cc s) := by
  by_cases allowed : t.StackAllowed s
  · have run := resolving.allowed loose allowed
    by_cases faults : DescriptorFaults (t.target s) s
    · obtain ⟨p, fault⟩ := resolve_faults faults
      have stops := run.trans (bind_error fault)
      constructor
      · intro restarts _ _
        obtain ⟨⟨-, eip, -, eflags⟩, -⟩ := restarts _ _ stops
        exact ⟨eip, eflags⟩
      · intro stored e s₁ stopped
        rw [stops] at stopped
        cases stopped
        have stored := stored allowed faults
        exact ⟨⟨rfl, stored.eip, rfl, stored.eflags⟩, fun rights _ => resolving.again loose stored rights⟩
    · obtain ⟨cs, resolves⟩ := resolve_completes faults
      exact iff_of_true (restartable_ok (run.trans (bind_ok resolves))) fun _ fault => absurd fault faults
  · obtain ⟨p, stops⟩ := resolving.denied loose allowed
    exact iff_of_true (restartable_unwound stops) fun access => absurd access allowed

/-- A call restarts where its pushes fault: what it has pushed it pushes again. -/
theorem restartable_pushes (loose : pc110LoosePm s = true) {newCs newEip nextEip : Word} {shift : Nat}
    (denied : ¬ FrameWritable (callOperand shift) s) : Restartable q (.call newCs newEip shift nextEip) s := by
  by_cases writable : CsWritable (callOperand shift) s
  · let size := callOperand shift
    let u := s.unwound
    have second : ¬ ∀ j < size, (s.withCells (pushedCs size s)).mem.writable (pushedOnce size s).pl
        (place (pushedOnce size s).ssBase (pushedOnce size s).spMask
          ((pushedOnce size s).sp - BitVec.ofNat 32 size) + BitVec.ofNat 32 j) = true :=
      fun second => denied fun j h => ⟨writable j h, second j h⟩
    obtain ⟨p, stopped⟩ := push_fault nextEip second
    intro e s₁ fault
    rw [Transfer.run, lcall_first loose writable, bind_error stopped] at fault
    cases fault
    refine ⟨⟨rfl, rfl, rfl, rfl⟩, fun rights s₂ ran => ⟨s₂, ?_, .refl _ _⟩⟩
    change Transfer.run q _ ((u.withCells (pushedCs size u)).serviced rights) = _
    by_cases again : CsWritable size (u.serviced rights)
    · have again' : CsWritable size ((u.withCells (pushedCs size u)).serviced rights) := again
      rw [Transfer.run, lcall_first (s := u.serviced rights) loose again] at ran
      rw [Transfer.run, lcall_first (s := (u.withCells (pushedCs size u)).serviced rights) loose again', ← ran]
      have twice : pushedCs size ((u.withCells (pushedCs size u)).serviced rights) =
          pushedCs size (u.serviced rights) := WrapMemory.store_store _ _ _
      rw [twice]
      rfl
    · obtain ⟨p, denied⟩ := lcall_denied (q := q.call) (s := u.serviced rights) loose again newCs newEip nextEip
      rw [Transfer.run, denied] at ran
      cases ran
  · obtain ⟨p, stops⟩ := lcall_denied (q := q.call) loose writable newCs newEip nextEip
    exact restartable_unwound stops

/-- Behind its pushes it restarts only if nothing is left to fault. -/
theorem restartable_framed (loose : pc110LoosePm s = true) {newCs newEip nextEip : Word} {shift : Nat}
    (writable : FrameWritable (callOperand shift) s) :
    Restartable q (.call newCs newEip shift nextEip) s ↔ ¬ DescriptorFaults newCs s := by
  constructor
  · intro restarts faults
    obtain ⟨p, s₁, fault, moved⟩ := lcall_late (q := q.call) loose writable faults newEip nextEip
    exact moved (restarts (.page p) s₁ fault).1.esp
  · intro readable
    obtain ⟨cells, run⟩ := lcall_framed (q := q.call) loose writable newCs newEip nextEip
    obtain ⟨s', completes⟩ := enterCall_completes cells readable newEip _
    exact restartable_ok (run.trans completes)

end Restart

/-- A loose far transfer is restartable unless the resolver faults on its target: then a call is
not, and another transfer only where the block has stored EIP and the condition codes. -/
theorem restartable_iff (q : StockTransfers) (t : Transfer) (s : Sys) (loose : t.Loose s) :
    Restartable q t s ↔
      (t.StackAllowed s → DescriptorFaults (t.target s) s → ¬ t.IsCall ∧ Stored q.seg.cc s) := by
  have simple : ¬ t.IsCall → ((t.StackAllowed s → DescriptorFaults (t.target s) s → Stored q.seg.cc s) ↔
      (t.StackAllowed s → DescriptorFaults (t.target s) s → ¬ t.IsCall ∧ Stored q.seg.cc s)) := by
    intro notCall
    simp only [notCall, not_false_eq_true, true_and]
  cases t with
  | jmp newCs newEip nextEip => exact ((resolving_jmp q newCs newEip nextEip).restarts_iff loose).trans (simple id)
  | ret shift addend => exact ((resolving_ret q shift addend).restarts_iff loose).trans (simple id)
  | iret shift => exact ((resolving_iret q shift).restarts_iff loose).trans (simple id)
  | call newCs newEip shift nextEip =>
    by_cases writable : FrameWritable (callOperand shift) s
    · refine (restartable_framed loose.1 writable).trans ⟨fun readable _ faults => absurd faults readable, ?_⟩
      exact fun never faults => (never writable faults).1 trivial
    · exact iff_of_true (restartable_pushes loose.1 writable) fun access => absurd access writable

/-- The driver of the fallback with 70h inside a table whose page is not mapped. -/
def unmappedTable : Sys :=
  { interruptedAt 0 with
    env := { (interruptedAt 0).env with gdt := ⟨0, 0x2000, 0xFF, 0⟩ }
    mem :=
      { cells := fun _ => 0
        readable := fun _ a => !decide (0x2000 ≤ a ∧ a < 0x3000)
        writable := fun _ a => !decide (0x2000 ≤ a ∧ a < 0x3000)
        reads_written := fun _ _ allowed => allowed } }

/-- The driver calls 70h with all of its memory mapped. A jump there restarts without the table,
as the first instruction of its block. -/
theorem restartable_driver : Restartable default (.call 0x70 0x100 0 0x1234) (interruptedAt 0) ∧
    Restartable default (.jmp 0x70 0x100 0x7) unmappedTable := by
  constructor
  · refine (restartable_iff default (.call 0x70 0x100 0 0x1234) (interruptedAt 0) ⟨rfl, trivial⟩).mpr
      fun _ faults => ?_
    exact absurd (fun _ _ => rfl) faults.2.2
  · refine (restartable_iff default (.jmp 0x70 0x100 0x7) unmappedTable ⟨rfl, trivial⟩).mpr fun _ _ => ?_
    exact ⟨id, rfl, rfl⟩

/-- In the middle of a block, which has not stored EIP since its first instruction. -/
def midBlock : Sys := { unmappedTable with insn := ⟨0x120, .eflags⟩ }

def allMapped : Rights := ⟨fun _ _ => true, fun _ _ => true, fun _ _ allowed => allowed⟩

/-- The call faults on the table with its frame pushed, and made again it pushes a second one. A
jump faults there with the EIP of an earlier instruction. -/
theorem not_restartable_unmappedTable :
    (¬ ∀ (q : StockTransfers) (t : Transfer) (s : Sys), t.Loose s → Restartable q t s) ∧
    (∃ e s₁ s₂ s₃, Transfer.run default (.call 0x70 0x100 0 0x1234) unmappedTable = .error e s₁ ∧
      Transfer.run default (.call 0x70 0x100 0 0x1234) (unmappedTable.serviced allMapped) = .ok () s₂ ∧
      Transfer.run default (.call 0x70 0x100 0 0x1234) (s₁.serviced allMapped) = .ok () s₃ ∧
      s₂.env.regs .esp = 0x7FFC ∧ s₃.env.regs .esp = 0x7FF8) ∧
    ∃ e s₁, Transfer.run default (.jmp 0x70 0x100 0x127) midBlock = .error e s₁ ∧
      midBlock.unwound.env.eip = 0x120 ∧ s₁.env.eip = 0 := by
  have writable : FrameWritable (callOperand 0) unmappedTable := by
    unfold FrameWritable
    decide
  have faults : DescriptorFaults 0x70 unmappedTable := by
    refine ⟨by decide, by unfold InLimit; decide, by decide⟩
  refine ⟨fun every => ?_, ?_, ?_⟩
  · obtain ⟨p, s₁, fault, moved⟩ := lcall_late (q := default) rfl writable faults 0x100 0x1234
    exact moved (every default (.call 0x70 0x100 0 0x1234) unmappedTable ⟨rfl, trivial⟩ (.page p) s₁ fault).1.esp
  · exact ⟨.page 0x2070, _, _, _, rfl, rfl, rfl, rfl, rfl⟩
  · exact ⟨.page 0x2070, _, rfl, rfl, rfl⟩

end Pc110.SegHelper
