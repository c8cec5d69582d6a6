import Pc110.SegStack
import Pc110.SegResolve
import Pc110.Library.Masks

/-! Interrupt delivery in loose PM against the resolver every other loose transfer uses.
Out of the table's limit both fall back alike; a descriptor the table does have is still
held to the stock type and presence checks. -/
namespace Pc110.SegHelper

open Faulting (Ends bind_ok bind_error)

/-- Loose protected mode: PC110POST, booted, PE set, not V86. -/
structure LoosePm (s : Sys) : Prop where
  post : s.post = true
  booted : s.booted = true
  pe : s.env.cr0 &&& 1 = 1
  notV86 : s.env.eflags &&& vmMask = 0

/-- The interrupt finds a present interrupt or trap gate with a non-null selector. -/
structure FindsGate (s : Sys) (intno : Nat) (isInt : Bool) (gate : Word × Word) : Prop where
  read : readGate intno isInt s = .ok gate s
  kind : gateType gate.2 ≠ 5
  present : gate.2 &&& descP ≠ 0
  selector : (gate.1 >>> 16) &&& 0xFFFC ≠ 0

/-- The interrupt completes with the base in CS that the resolver gives its selector, unless
memory itself page-faults. -/
def DeliversAsResolved (q : StockSeg) (intno : Nat) (isInt : Bool) (errorCode nextEip : Word)
    (isHw : Bool) (selector : Word) (s : Sys) : Prop :=
  Ends (doInterruptProtected q intno isInt errorCode nextEip isHw) s
    (fun _ s' => ∃ r, pc110ResolveSeg selector true s = .ok r s ∧ (s'.env.segs .cs).base = r.base)
    PageFault

/-- A descriptor found for the selector, if any, is a present code segment. -/
def FoundIsCode (selector : Word) (s : Sys) : Prop :=
  ∀ e1 e2 s', loadSegment selector s = .ok (some (e1, e2)) s' →
    e2 &&& descS ≠ 0 ∧ e2 &&& descCs ≠ 0 ∧ e2 &&& descP ≠ 0

section Synthesised

/-- A descriptor's base comes back from its pieces, whatever the bits between them say. -/
theorem getSegBase_pieces (base limit rest : Word) (between : rest &&& 0xFF0000FF = 0)
    (low : limit &&& 0xFFFF0000 = 0) :
    getSegBase (((base &&& 0xFFFF) <<< 16) ||| limit)
      (((base >>> 16) &&& 0xFF) ||| (base &&& 0xFF000000) ||| rest) = base := by
  have restBit (j : Nat) (inside : j < 32) (outer : j < 8 ∨ 24 ≤ j) : rest[j] = false := by
    have bit := congrArg (·.getLsbD j) between
    rcases outer with h | h <;> interval_cases j <;> simpa using bit
  have limitBit (j : Nat) (inside : j < 32) (high : 16 ≤ j) : limit[j] = false := by
    have bit := congrArg (·.getLsbD j) low
    interval_cases j <;> simpa using bit
  apply BitVec.eq_of_getLsbD_eq
  intro i hi
  simp only [getSegBase]
  interval_cases i <;> simp [restBit, limitBit]

/-- The bits of a synthesised descriptor besides its base. -/
def synthAccess (selector : Word) : Word :=
  descP ||| descS ||| descA ||| ((selector &&& 3) <<< 13) ||| (descCs ||| descR)

def synthDesc (selector : Word) : Word × Word :=
  let base := pc110LooseBase selector
  (((base &&& 0xFFFF) <<< 16) ||| 0xFFFF,
    ((base >>> 16) &&& 0xFF) ||| (base &&& 0xFF000000) ||| synthAccess selector)

theorem pc110SynthDesc_loose {s : Sys} (loose : LoosePm s) (selector : Word) :
    pc110SynthDesc s selector true = some (synthDesc selector) := by
  have on : pc110LoosePm s = true := by simp [pc110LoosePm, loose.post, loose.booted]
  simp [pc110SynthDesc, on, synthDesc, synthAccess, BitVec.or_assoc]

theorem synthAccess_between (selector : Word) : synthAccess selector &&& 0xFF0000FF = 0 := by
  apply BitVec.eq_of_getLsbD_eq
  intro i hi
  simp only [synthAccess, descP, descS, descA, descCs, descR]
  interval_cases i <;> simp

theorem getSegBase_synthDesc (selector : Word) :
    getSegBase (synthDesc selector).1 (synthDesc selector).2 = pc110LooseBase selector :=
  getSegBase_pieces _ _ _ (synthAccess_between selector) (by decide)

theorem synthDesc_code (selector : Word) : (synthDesc selector).2 &&& descS ≠ 0 ∧
    (synthDesc selector).2 &&& descCs ≠ 0 ∧ (synthDesc selector).2 &&& descP ≠ 0 := by
  have isS : (synthDesc selector).2[12] = true := by simp [synthDesc, synthAccess, descP, descS, descCs]
  have isCs : (synthDesc selector).2[11] = true := by simp [synthDesc, synthAccess, descP, descS, descCs]
  have isP : (synthDesc selector).2[15] = true := by simp [synthDesc, synthAccess, descP, descS, descCs]
  have bit (j : Nat) (h : j < 32) (set : (synthDesc selector).2[j] = true) :
      (synthDesc selector).2 &&& BitVec.twoPow 32 j ≠ 0 := by
    intro zero
    rw [(Masks.masked_bit_iff _ j h).mp zero] at set
    cases set
  exact ⟨bit 12 _ isS, bit 11 _ isCs, bit 15 _ isP⟩

end Synthesised

/-- A code or data descriptor has an access byte. -/
theorem accessByte_code {e2 : Word} (isS : e2 &&& descS ≠ 0) : accessByte e2 ≠ 0 := by
  intro empty
  have bit12 : e2[12] = false := by simpa [accessByte] using congrArg (·.getLsbD 4) empty
  exact isS ((Masks.masked_bit_iff e2 12 (by decide)).mpr bit12)

section Delivery
variable {q : StockSeg} {s : Sys}

theorem loose_on (loose : LoosePm s) : pc110LoosePm s = true := by
  simp [pc110LoosePm, loose.post, loose.booted]

/-- A descriptor, found or synthesised, still has to be a present code segment. -/
theorem codeDescriptor_loose (loose : LoosePm s) {selector : Word} {found : Option (Word × Word)}
    {d : Word × Word} (load : loadSegment selector s = .ok found s)
    (which : found.getD (synthDesc selector) = d) :
    codeDescriptor selector s =
      if d.2 &&& descS = 0 ∨ d.2 &&& descCs = 0 then .error (.gpf (selector &&& 0xFFFC)) s
      else if d.2 &&& descP = 0 then .error (.noSeg (selector &&& 0xFFFC)) s
      else .ok d s := by
  have level : (if pc110LoosePm s = true ∧ ¬ (s.env.eflags &&& vmMask ≠ 0) then s.env.cpl
      else descDpl d.2) = s.env.cpl :=
    if_pos ⟨loose_on loose, fun vm => vm loose.notV86⟩
  have some : found.or (pc110SynthDesc s selector true) = some d := by
    rw [pc110SynthDesc_loose loose, ← which]
    cases found <;> rfl
  simp only [codeDescriptor, Faulting.get_bind]
  rw [bind_ok load, some]
  simp only [level, BitVec.lt_irrefl, if_false]
  split
  · rfl
  · split <;> rfl

theorem codeDescriptor_fault {selector p : Word} (fault : loadSegment selector s = .error (.page p) s) :
    codeDescriptor selector s = .error (.page p) s := by
  simp only [codeDescriptor, Faulting.get_bind]
  exact bind_error fault

/-- In loose PM an interrupt is always delivered at the current level. -/
theorem doInterruptProtected_loose (loose : LoosePm s) {intno : Nat} {isInt : Bool} {gate : Word × Word}
    (finds : FindsGate s intno isInt gate) (errorCode nextEip : Word) (isHw : Bool) :
    doInterruptProtected q intno isInt errorCode nextEip isHw s =
      (codeDescriptor (gate.1 >>> 16) >>= fun descriptor =>
        deliverSame gate descriptor (interruptFrame q s.env intno isInt errorCode nextEip isHw)) s := by
  have vm86 : ¬ (s.env.eflags &&& vmMask ≠ 0) := fun vm => vm loose.notV86
  have level (e2 : Word) : (if pc110LoosePm s = true ∧ ¬ (s.env.eflags &&& vmMask ≠ 0) ∨ e2 &&& descC ≠ 0
      then s.env.cpl else descDpl e2) = s.env.cpl := if_pos (.inl ⟨loose_on loose, vm86⟩)
  simp only [doInterruptProtected, Faulting.get_bind]
  rw [bind_ok finds.read, if_neg finds.kind, if_neg finds.present, if_neg finds.selector]
  simp only [level, BitVec.lt_irrefl, if_false, if_neg vm86]

/-- Delivery installs the descriptor's base, unless a push page-faults. -/
theorem deliverSame_base (gate descriptor : Word × Word) (frame : Frame) :
    Ends (deliverSame gate descriptor frame) s
      (fun _ s' => (s'.env.segs .cs).base = getSegBase descriptor.1 descriptor.2) PageFault := by
  obtain ⟨m, keeps, room⟩ := frame_room (s.env.segs .ss).flags (gateType gate.2 >>> 3).toNat
  exact (frame_push_ends s (.of s.env) keeps frame room).bind fun _ _ _ => rfl

section Outcomes
variable {intno : Nat} {isInt : Bool} {errorCode nextEip : Word} {isHw : Bool} {gate : Word × Word}

/-- With a descriptor that the resolver agrees on, delivery is as resolved. -/
theorem delivers_of_descriptor (loose : LoosePm s) (finds : FindsGate s intno isInt gate) {d : Word × Word}
    {r : Resolved} (code : codeDescriptor (gate.1 >>> 16) s = .ok d s)
    (resolves : pc110ResolveSeg (gate.1 >>> 16) true s = .ok r s) (base : getSegBase d.1 d.2 = r.base) :
    DeliversAsResolved q intno isInt errorCode nextEip isHw (gate.1 >>> 16) s := by
  unfold DeliversAsResolved Ends
  rw [doInterruptProtected_loose loose finds errorCode nextEip isHw, bind_ok code]
  refine (deliverSame_base gate d _).mono (fun _ s' installed => ?_) fun _ _ fault => fault
  exact ⟨r, resolves, installed.trans base⟩

/-- Without one it is so only where memory page-faults. -/
theorem delivers_of_fault (loose : LoosePm s) (finds : FindsGate s intno isInt gate) {e : Fault}
    (code : codeDescriptor (gate.1 >>> 16) s = .error e s) :
    DeliversAsResolved q intno isInt errorCode nextEip isHw (gate.1 >>> 16) s ↔ ∃ p, e = .page p := by
  unfold DeliversAsResolved Ends
  rw [doInterruptProtected_loose loose finds errorCode nextEip isHw, bind_error code]
  rfl

theorem foundIsCode_some {selector : Word} {d : Word × Word} (load : loadSegment selector s = .ok (some d) s) :
    FoundIsCode selector s ↔ d.2 &&& descS ≠ 0 ∧ d.2 &&& descCs ≠ 0 ∧ d.2 &&& descP ≠ 0 := by
  constructor
  · intro isCode
    exact isCode d.1 d.2 s load
  · intro isCode e1 e2 s' found
    rw [load] at found
    cases found
    exact isCode

end Outcomes

end Delivery

/-- In loose PM delivery resolves its selector like every other transfer exactly when the
descriptor found for it, if any, is a present code segment. -/
theorem deliversAsResolved_iff (q : StockSeg) (s : Sys) (loose : LoosePm s) (intno : Nat) (isInt : Bool)
    (errorCode nextEip : Word) (isHw : Bool) (gate : Word × Word) (finds : FindsGate s intno isInt gate) :
    DeliversAsResolved q intno isInt errorCode nextEip isHw (gate.1 >>> 16) s ↔
      FoundIsCode (gate.1 >>> 16) s := by
  rcases loadSegment_cases (gate.1 >>> 16) s with ⟨out, load⟩ | ⟨d, inside, read, load⟩ | ⟨p, fault⟩
  · -- no descriptor: both sides fall back to the selector's own base
    have code := codeDescriptor_loose loose load Option.getD_none
    obtain ⟨isS, isCs, isP⟩ := synthDesc_code (gate.1 >>> 16)
    rw [if_neg (not_or.mpr ⟨isS, isCs⟩), if_neg isP] at code
    refine iff_of_true ?_ fun e1 e2 s' found => ?_
    · exact delivers_of_descriptor loose finds code (resolve_out true fun both => out both.2)
        (getSegBase_synthDesc _)
    · rw [load] at found
      cases found
  · have code := codeDescriptor_loose loose load Option.getD_some
    rw [foundIsCode_some load]
    by_cases kind : d.2 &&& descS = 0 ∨ d.2 &&& descCs = 0
    · rw [if_pos kind] at code
      rw [delivers_of_fault loose finds code]
      refine iff_of_false (fun ⟨p, page⟩ => Fault.noConfusion page) fun isCode => ?_
      exact kind.elim isCode.1 isCode.2.1
    · rw [if_neg kind] at code
      by_cases absent : d.2 &&& descP = 0
      · rw [if_pos absent] at code
        rw [delivers_of_fault loose finds code]
        exact iff_of_false (fun ⟨p, page⟩ => Fault.noConfusion page) fun isCode => isCode.2.2 absent
      · rw [if_neg absent] at code
        obtain ⟨isS, isCs⟩ := not_or.mp kind
        have resolves := resolve_in true finds.selector inside read
        rw [if_pos (accessByte_code isS)] at resolves
        exact iff_of_true (delivers_of_descriptor loose finds code resolves rfl) ⟨isS, isCs, absent⟩
  · have code := codeDescriptor_fault fault
    refine iff_of_true ((delivers_of_fault loose finds code).mpr ⟨p, rfl⟩) fun e1 e2 s' found => ?_
    rw [fault] at found
    cases found

/-- A driver in loose PM that takes interrupt 8 through a 386 interrupt gate with selector
70h, in a GDT of zeros up to `limit`. -/
def unrealDriver (limit : Word) : Sys where
  env := { (default : Env) with
    cr0 := 1
    idt := ⟨0, 0x1000, 0x7FF, 0⟩
    gdt := ⟨0, 0x2000, limit, 0⟩ }
  mem :=
    { cells := WrapMemory.store (fun _ => 0) 0x1040 [0x00, 0x01, 0x70, 0x00, 0x00, 0x8E, 0x00, 0x00]
      readable := fun _ _ => true
      writable := fun _ _ => true
      reads_written := fun _ _ _ => rfl }
  post := true
  booted := true

def gate70 : Word × Word := (0x00700100, 0x00008E00)

theorem deliversAsResolved_unrealDriver :
    DeliversAsResolved default 8 false 0 0 true 0x70 (unrealDriver 0x2F) :=
  (deliversAsResolved_iff default (unrealDriver 0x2F) ⟨rfl, rfl, rfl, rfl⟩ 8 false 0 0 true gate70
    ⟨rfl, by decide, by decide, by decide⟩).mpr fun _ _ _ found => nomatch found

/-- With selector 70h inside the table, its empty descriptor faults. -/
theorem not_deliversAsResolved_unrealDriver : ¬ ∀ (q : StockSeg) (s : Sys), LoosePm s →
    ∀ (intno : Nat) (isInt : Bool) (errorCode nextEip : Word) (isHw : Bool) (gate : Word × Word),
    FindsGate s intno isInt gate →
    DeliversAsResolved q intno isInt errorCode nextEip isHw (gate.1 >>> 16) s := by
  intro every
  have delivers := every default (unrealDriver 0xFF) ⟨rfl, rfl, rfl, rfl⟩ 8 false 0 0 true gate70
    ⟨rfl, by decide, by decide, by decide⟩
  have fault : doInterruptProtected default 8 false 0 0 true (unrealDriver 0xFF) =
      .error (.gpf 0x70) (unrealDriver 0xFF) := rfl
  obtain ⟨p, page⟩ := delivers.of_error fault
  cases page

end Pc110.SegHelper
