import Pc110.GuestRuns
import Pc110.Int13Read
import Pc110.ModeSetDetour
import Pc110.RealIret

/-! INT 13h as a real-mode program under the loop calls it: the interrupt through the vector of
the ROM, the call at F000:D2D7, the sectors, and the return behind the interrupt. Of what the
program can see there is the read, and nothing else. -/
namespace Pc110

open LsbBits (Byte)
open ByteMemory (Within)
open RealMode (State Agree Fetches bytes16 interruptFrame)
open Inevitability (Inevitable)

def diskVector : List Byte := bytes16 0xD2D7 ++ bytes16 0xF000

def diskRequest (s : State) : Int13.Request where
  cylinder := (s.half ⟨.cx, true⟩).toNat + 256 * ((s.half ⟨.cx, false⟩).toNat / 64)
  head := (s.half ⟨.dx, true⟩).toNat
  sector := (s.half ⟨.cx, false⟩).toNat % 64
  count := (s.half ⟨.ax, false⟩).toNat

def diskData (image : List Byte) (s : State) : List Byte :=
  (image.drop ((diskRequest s).lba * 512)).take ((diskRequest s).count * 512)

/-- A read of sectors that the image has, to a buffer that does not wrap. -/
structure AsksFor (s : State) (image : List Byte) : Prop where
  function : s.half ⟨.ax, true⟩ = 0x02
  drive : 0x80 ≤ s.half ⟨.dx, false⟩
  sector : (diskRequest s).sector ≠ 0
  some : 0 < (diskRequest s).count
  whole : (diskRequest s).lba + (diskRequest s).count ≤ image.length / 512
  room : s.address .es (s.regs .bx) + (diskRequest s).count * 512 ≤ 2 ^ 32

def diskRead (image : List Byte) (s : State) : State :=
  let s := { s with mem := ByteMemory.write s.mem (s.address .es (s.regs .bx)) (diskData image s) }
  (s.setHalf ⟨.ax, true⟩ 0).setFlags RealMode.carryFlag 0

/-- The stack has room for the frame of an interrupt, beside the cells of `kept`. -/
structure FrameRoom (kept : Nat → Prop) (s : State) : Prop where
  base : (s.segs .ss).base.toNat + 65536 ≤ 2 ^ 32
  deep : 6 ≤ (s.regs .sp).toNat
  aside : ∀ a, kept a → ¬ Within (s.address .ss (s.regs .sp) - 6) 6 a

section Halves

theorem hi8_lo16 (v : Word) : (lo16 v >>> 8).setWidth 8 = hi8 v := by
  ext i hi
  simp [lo16, hi8]
  omega

theorem lo8_lo16 (v : Word) : (lo16 v).setWidth 8 = lo8 v := by
  ext i hi
  simp [lo16, lo8]

theorem half_view (q : Stock) (m : Machine) (r : RealMode.Reg) (high : Bool) :
    (m.view q).half ⟨r, high⟩ = if high then hi8 (m.env.regs (.named r)) else lo8 (m.env.regs (.named r)) := by
  cases high with
  | true => exact hi8_lo16 _
  | false => exact lo8_lo16 _

theorem request_view (q : Stock) (m : Machine) : Int13.request m = diskRequest (m.view q) := by
  simp only [diskRequest, half_view]
  rfl

theorem lo16_of_halves {v w : Word} (same : lo8 v = lo8 w) (high : Byte) (status : hi8 v = high) :
    lo16 v = (lo16 w &&& 0x00FF) ||| high.setWidth 16 <<< 8 := by
  subst status
  ext i hi
  have bit := congrArg (BitVec.getLsbD · i) same
  simp only [lo8, BitVec.getLsbD_setWidth] at bit
  simp only [lo16, hi8]
  interval_cases i <;> simp_all

end Halves

section Service
variable {q : Stock} {m : Machine} {image : List Byte} {v : State}

theorem word_frame (v : State) : Int13.word (interruptFrame v) 0 = v.ip ∧
    Int13.word (interruptFrame v) 2 = (v.segs .cs).selector ∧ Int13.word (interruptFrame v) 4 = v.flags :=
  ⟨RealMode.word_bytes16 _, RealMode.word_bytes16 _, RealMode.word_bytes16 _⟩

/-- The service routine has the registers of the caller, SP and CS aside. -/
structure CalledFrom (q : Stock) (v : State) (m : Machine) : Prop where
  regs : ∀ r, r ≠ .sp → (m.view q).regs r = v.regs r
  sp : (m.view q).regs .sp = v.regs .sp - 6
  segs : ∀ s, s ≠ .cs → (m.view q).segs s = v.segs s
  frame : Int13.frame m = interruptFrame v

theorem CalledFrom.half (called : CalledFrom q v m) (r : RealMode.Reg) (other : r ≠ .sp) (high : Bool) :
    v.half ⟨r, high⟩ = if high then hi8 (m.env.regs (.named r)) else lo8 (m.env.regs (.named r)) := by
  rw [← half_view q, State.half, State.half, called.regs r other]

theorem CalledFrom.request (called : CalledFrom q v m) : Int13.request m = diskRequest v := by
  simp only [request_view q, diskRequest, State.half, called.regs .ax (by decide), called.regs .cx (by decide),
    called.regs .dx (by decide)]

theorem CalledFrom.buffer (called : CalledFrom q v m) : (Int13.buffer m).toNat = v.address .es (v.regs .bx) := by
  have base : (m.env.segs .es).base = (v.segs .es).base := congrArg RealMode.Segment.base (called.segs .es (by decide))
  rw [Int13.buffer, State.address, base, ← called.regs .bx (by decide)]
  rfl

theorem CalledFrom.complete (called : CalledFrom q v m) (opens : Int13.bootImage m = some image)
    (asks : AsksFor v image) : Int13.found m = (diskRequest v).count ∧ Int13.Complete m := by
  have whole := asks.whole
  have found : Int13.found m = (diskRequest v).count := by
    rw [Int13.found, called.request, if_neg asks.sector, opens]
    simp only [Int13.available]
    omega
  refine ⟨found, ?_, ?_⟩
  · rw [found, called.request]
  · rw [called.request]
    exact asks.some

theorem CalledFrom.view_int13 (called : CalledFrom q v m) (low : v.segs .cs = ⟨0, 0⟩)
    (opens : Int13.bootImage m = some image) (asks : AsksFor v image) : (Int13.int13 m).view q =
      { diskRead image v with mem := ByteMemory.write m.mem (v.address .es (v.regs .bx)) (diskData image v) } := by
  obtain ⟨found, complete⟩ := called.complete opens asks
  have function : hi8 (m.env.regs .eax) = 0x02 := (called.half .ax (by decide) true).symm.trans asks.function
  have drive : lo8 (m.env.regs .edx) = v.half ⟨.dx, false⟩ := (called.half .dx (by decide) false).symm
  have reads := Int13.int13_reads q m (by rw [drive]; exact asks.drive) function
  have status : (Int13.serve m).cf = false := by
    rw [Int13.serve_read m (by rw [drive]; simpa using asks.drive) function, Int13.readSectors_eq]
    simp [complete]
  obtain ⟨ip, cs, flags⟩ := word_frame v
  rw [← called.frame] at ip cs flags
  refine State.ext ?_ ?_ ?_ ?_ ?_
  · funext r
    cases r with
    | ax =>
      have count : lo8 ((Int13.int13 m).env.regs .eax) = lo8 (m.env.regs .eax) := by
        apply BitVec.eq_of_toNat_eq
        rw [reads.count, found, ← called.request]
        rfl
      have high : hi8 ((Int13.int13 m).env.regs .eax) = 0 := by rw [reads.status, if_pos complete]
      have low : lo16 (m.env.regs .eax) = v.regs .ax := called.regs .ax (by decide)
      have halves := lo16_of_halves count 0 high
      rw [low] at halves
      exact halves
    | sp =>
      change lo16 ((Int13.int13 m).env.regs .esp) = v.regs .sp
      have entry : lo16 (m.env.regs .esp) = v.regs .sp - 6 := called.sp
      rw [reads.sp, lo16_set16, entry, BitVec.sub_add_cancel]
    | cx | dx | bx | bp | si | di =>
      exact (congrArg lo16 (reads.others_kept _ (by decide) (by decide))).trans (called.regs _ (by decide))
  · funext s
    have kept (s' : Seg) (other : s' ≠ .cs) : (Int13.int13 m).env.segs s' = m.env.segs s' := by
      simp [Int13.int13, Int13.iret, Machine.setReg, Env.setReg, Env.setSeg, pcStoreEflags, other,
        (Int13.serve_env m).1]
    cases s with
    | cs =>
      change (⟨lo16 ((Int13.int13 m).env.segs .cs).selector, ((Int13.int13 m).env.segs .cs).base⟩ :
        RealMode.Segment) = v.segs .cs
      rw [reads.cs.1, reads.cs.2, cs, low]
      rfl
    | es | ss | ds =>
      refine Eq.trans ?_ (called.segs _ (by decide))
      exact congrArg (fun s : SegmentCache => (⟨lo16 s.selector, s.base⟩ : RealMode.Segment)) (kept _ (by decide))
  · exact (congrArg lo16 reads.eip).trans ((Int13.lo16_setWidth _).trans ip)
  · change lo16 (cpuComputeEflags q (Int13.int13 m).env) = (v.flags &&& ~~~RealMode.carryFlag) ||| (0 &&& _)
    rw [Int13.int13_flags, Int13.lo16_setWidth, flags, status]
    exact (BitVec.or_zero).symm
  · have room : (Int13.buffer m).toNat + Int13.found m * 512 ≤ 2 ^ 32 := by
      rw [called.buffer, found]
      exact asks.room
    have stored := reads.contiguous image opens room
    rw [called.buffer, found, called.request] at stored
    exact stored

theorem serve_control (m : Machine) : (Int13.serve m).machine.env.cr0 = m.env.cr0 ∧
    (Int13.serve m).machine.env.idt = m.env.idt := by
  simp only [Int13.serve]
  split_ifs <;> exact ⟨rfl, rfl⟩

theorem Steady.int13 (steady : Steady image m) (d : Diag) : Steady image (Int13.int13 (m.inBios d)) := by
  obtain ⟨statics, getenv, files, -⟩ := int13_guestOnly (m.inBios d)
  obtain ⟨cr0, idt⟩ := serve_control (m.inBios d)
  have segs := (Int13.serve_env (m.inBios d)).1
  have real := steady.real
  refine ⟨?_, ?_, ⟨cr0 ▸ real.pe, ?_, ?_, ?_, ?_⟩, getenv ▸ steady.named, ?_⟩
  · rw [Machine.enabled, statics, inBios_enabled]
    rfl
  · rw [statics, Machine.inBios_kbcResetPending]
    exact steady.idle
  · have flags : ((Int13.int13 (m.inBios d)).env.segs .cs).flags = (m.env.segs .cs).flags := by
      simp [Int13.int13, Int13.iret, Machine.setReg, Env.setReg, Env.setSeg, pcStoreEflags, segs]
      rfl
    rw [flags]
    exact real.code
  · have flags : ((Int13.int13 (m.inBios d)).env.segs .ss).flags = (m.env.segs .ss).flags := by
      simp [Int13.int13, Int13.iret, Machine.setReg, Env.setReg, Env.setSeg, pcStoreEflags, segs]
      rfl
    rw [flags]
    exact real.stack
  · exact (congrArg SegmentCache.base idt).trans real.vectors
  · change (Int13.word _ 0).setWidth 32 = (lo16 ((Int13.word _ 0).setWidth 32)).setWidth 32
    rw [Int13.lo16_setWidth]
  · rw [getenv, files]
    exact steady.disk

end Service

section Calls
variable {q : Stock} {kept : Nat → Prop} {image : List Byte} {s : State}

/-- The machine behind the interrupt, with the program's state `v`. -/
theorem calledFrom_raise {m : Machine} {v : State} (view : m.view q = v.raise 0x13)
    (vector : ByteMemory.read v.mem 0x4C 4 = diskVector) (base : (v.segs .ss).base.toNat + 65536 ≤ 2 ^ 32)
    (deep : 6 ≤ (v.regs .sp).toNat) : CalledFrom q v m ∧ (m.view q).segs .cs = ⟨0xF000, 0xF0000⟩ ∧
      (m.view q).ip = 0xD2D7 ∧ (m.view q).flags &&& (RealMode.interruptFlag ||| RealMode.trapFlag) = 0 ∧
      m.mem = ByteMemory.write v.mem (v.address .ss (v.regs .sp) - 6) (interruptFrame v) := by
  rw [RealMode.raise_eq v 0x13 0xD2D7 0xF000 vector base deep] at view
  have mem : m.mem = ByteMemory.write v.mem (v.address .ss (v.regs .sp) - 6) (interruptFrame v) :=
    congrArg State.mem view
  have sp : (m.view q).regs .sp = v.regs .sp - 6 := congrArg (State.regs · .sp) view
  have segs (s : RealMode.Seg) (other : s ≠ .cs) : (m.view q).segs s = v.segs s := by
    rw [view]
    exact Function.update_of_ne other _ _
  refine ⟨⟨fun r other => ?_, sp, segs, ?_⟩, congrArg (State.segs · .cs) view, congrArg State.ip view, ?_, mem⟩
  · rw [view]
    exact Function.update_of_ne other _ _
  · have place : ((m.env.segs .ss).base + (lo16 (m.env.regs .esp)).setWidth 32).toNat =
        v.address .ss (v.regs .sp) - 6 := by
      have top : lo16 (m.env.regs .esp) = v.regs .sp - 6 := sp
      have bottom : (m.env.segs .ss).base = (v.segs .ss).base := congrArg RealMode.Segment.base (segs .ss (by decide))
      rw [top, bottom, State.address]
      bv_omega
    rw [Int13.frame, Machine.read, place, mem]
    exact ByteMemory.read_write _ _ (interruptFrame v)
  · rw [view]
    change (v.flags &&& ~~~_) &&& _ = 0
    rw [BitVec.and_assoc, BitVec.not_and_self]
    exact BitVec.and_zero

/-- A read of the disk by a program in low memory, under the loop. -/
theorem disk_inevitable (low : s.segs .cs = ⟨0, 0⟩) (fetches : Fetches s [0xCD, 0x13] (.int 0x13))
    (inside : ∀ a, Within s.pc 2 a → kept a) (vector : ByteMemory.read s.mem 0x4C 4 = diskVector)
    (vectorKept : ∀ a, Within 0x4C 4 a → kept a) (room : FrameRoom kept s) (asks : AsksFor s image) {c : CpuLoop}
    (holds : Holds q kept image s c) :
    Inevitable (LoopStep q kept) (Holds q kept image (diskRead image (s.advance 2))) c := by
  refine int_inevitable (congrArg RealMode.Segment.base low) fetches inside (fun m m' agree steady view => ?_) holds
  have vector' : ByteMemory.read (m.view q).mem 0x4C 4 = diskVector := (agree.read vectorKept).trans vector
  obtain ⟨mem, same, eq⟩ := agree
  rw [eq] at view vector'
  obtain ⟨called, cs, ip, masked, stored⟩ := calledFrom_raise view vector' room.base room.deep
  have base : (m'.env.segs .cs).base = 0xF0000 := congrArg RealMode.Segment.base cs
  have eip : m'.env.eip = 0xD2D7 := by
    have offset : lo16 m'.env.eip = 0xD2D7 := ip
    rw [steady.real.eip, offset]
    rfl
  have pc : m'.pc = 0xFD2D7 := by
    rw [Machine.pc, base, eip]
    rfl
  have here : At 0xD2D7 m' := by
    refine ⟨⟨steady.on, decide_eq_false fun query => absurd (query.1.symm.trans pc) (by decide), steady.idle,
      .inl base⟩, base, ?_⟩
    rw [Site.of, base, pc]
    rfl
  obtain ⟨d, eq⟩ := Int13.postIntercept_int13 q here (Option.isSome_iff_ne_none.mpr steady.named)
  refine call_inevitable masked (.now ?_)
  rw [eq]
  have called' : CalledFrom q _ (m'.inBios d) := ⟨called.regs, called.sp, called.segs, called.frame⟩
  refine ⟨steady.int13 d, _, ?_, called'.view_int13 low steady.disk
    ⟨asks.function, asks.drive, asks.sector, asks.some, asks.whole, asks.room⟩⟩
  intro a inside
  have aside : m'.mem a = s.mem a := by
    rw [stored, ByteMemory.write_outside _ _ _ _ (room.aside a inside)]
    exact same a inside
  change ByteMemory.write m'.mem _ _ a = ByteMemory.write s.mem _ _ a
  simp only [ByteMemory.write, aside]
  rfl

end Calls

end Pc110
