import Pc110.Library.Cascade
import Pc110.Completers
import Pc110.Int13

/-! The branches of `pc110_post_intercept`, in source order: what each one does once its
test holds. A branch that only prints is a function to the diagnostics. -/
namespace Pc110

open LsbBits (Byte)
open Cascade (guarded)

abbrev Stage := Cascade.Stage Machine Bool

/-- The locals of a call. -/
structure Site where
  pc : Word
  csbase : Word
  off : BitVec 16
  prevOff : BitVec 16

def Site.of (m : Machine) (pc : Word) : Site where
  pc := pc
  csbase := (m.env.segs .cs).base
  off := lo16 (pc - (m.env.segs .cs).base)
  prevOff := m.diag.prevOff

/-- The test of a handler that belongs to one address of the F-segment. -/
abbrev Site.rom (site : Site) (off : BitVec 16) : Prop := site.csbase = 0xF0000 ∧ site.off = off

/-- Diagnostics on the way. -/
def note (f : Machine → Diag) : Stage := fun m => .next { m with diag := f m }

/-- `return taken` behind a change. -/
def leave (taken : Bool) (f : Machine → Machine) : Stage := fun m => .done taken (f m)

/-- Diagnostics that end the call without effect. -/
def reportOnly (f : Machine → Diag) : Stage := leave false fun m => { m with diag := f m }

/-- Whether the intercept is enabled, asked once of the environment. -/
def Machine.enabled (m : Machine) : Bool := m.statics.enabled.getD (m.has .pc110Post)

def checkEnabled : Stage := fun m =>
  let on := m.enabled
  let m := { m with statics := { m.statics with enabled := some on } }
  if on then .next m else .done false m

def trackPc (pc : Word) (m : Machine) : Diag :=
  let d := { m.diag with
    prevLin := pc
    linRing := Function.update m.diag.linRing (m.diag.linRingPos &&& 255).toNat pc
    linRingPos := m.diag.linRingPos + 1 }
  if pc < 0xA0000 then
    let d := { d with
      dosRing := Function.update d.dosRing (d.dosRingPos &&& 15).toNat pc
      dosRingPos := d.dosRingPos + 1 }
    if m.has .pc110RstLog ∧ 0x38A30 ≤ pc ∧ pc ≤ 0x38A62 then
      d.reportUpTo .cr0n 4 (.driverCr0 pc m.env.cr0 (m.env.segs .cs).selector)
    else d
  else d

/-- Easy-Setup's service dispatcher, 5F23:0002. -/
def esDispatcher : Word := 0x5F232

def esLog (m : Machine) : Diag :=
  m.diag.reportUpTo .esn 120 (.esSvc (hi8 (m.env.regs .eax)) (lo8 (m.env.regs .eax))
    (lo16 (m.env.regs .ebx)) (lo16 (m.env.regs .ecx)))

/-- The query of the POST error log, INT 15h AH=21h AL=00h. -/
def readsErrorLog (pc : Word) (m : Machine) : Bool :=
  pc = esDispatcher ∧ (m.has .pc110Setup ∨ m.has .pc110PostUi) ∧
    hi8 (m.env.regs .eax) = 0x21 ∧ lo8 (m.env.regs .eax) = 0x00

def forceEmptyLog (m : Machine) : Machine :=
  let m := m.setReg .eax (m.env.regs .eax &&& 0xFFFF00FF)
  let m := m.setReg .ebx (m.env.regs .ebx &&& 0xFFFF0000)
  { m with env := { m.env with
    eflags := m.env.eflags &&& ~~~0x1
    eip := 0x5F239 - 0x5F230 } }

def traceRing (pc : Word) (m : Machine) : Diag :=
  let bb := m.read pc.toNat 24
  if 0xF4 ∈ bb ∧ m.diag.trDumps < 8 then
    { m.diag.report (.trace m.diag.trDumps pc m.env.eflags m.diag.ringLines) with
      trDumps := m.diag.trDumps + 1 }
  else m.diag

def warmSig : List Byte := [0x34, 0x12]

/-- The reset consumed from `pc110_kbc_reset_pending`. -/
def portReset (q : Stock) (m : Machine) : Machine :=
  let m := { m with statics := { m.statics with kbcResetPending := false } }
  let m := m.poke 0x472 warmSig
  let m := if m.has .pc110RstLog then
      let d := m.diag.count .drn
      { m with diag := d.report (.portReset (d.shown .drn) (m.env.segs .cs).selector
        (m.env.segs .cs).base (lo16 m.env.eip)) }
    else m
  m.cpuReset q

def outsideBios (pc : Word) (m : Machine) : Diag :=
  let d := { m.diag with lastNonfseg := pc }
  if m.has .pc110Heartbeat then
    let d := d.count .hb
    if d.shown .hb &&& 0x3FFFFF = 0 then
      d.report (.heartbeat pc (d.shown .hb >>> 20) m.statics.booted)
    else d
  else d

/-- The `rb_*` state belongs to one POST. -/
def freshPost : Stage := fun m =>
  .next (if m.statics.rbGen ≠ m.statics.resetCount then
    { m with statics := { m.statics with
      rbGen := m.statics.resetCount, rbModeset := false, rbTicks := 0 } }
    else m)

def push (m : Machine) (ssb : Word) (sp : BitVec 16) (v : BitVec 16) : Machine :=
  m.poke (ssb + sp.setWidth 32).toNat [v.setWidth 8, (v >>> 8).setWidth 8]

/-- The injected INT 10h AX=0003, returning to the sentinel F000:FF00. -/
def injectModeSet (q : Stock) (m : Machine) : Machine :=
  let m := { m with statics := { m.statics with
    rbModeset := true, rbSavedEax := m.env.regs .eax } }
  let ssb := (m.env.segs .ss).base
  let sp := lo16 (m.env.regs .esp)
  let m := push m ssb (sp - 2) (lo16 (cpuComputeEflags q m.env))
  let m := push m ssb (sp - 4) (lo16 (m.env.segs .cs).selector)
  let m := push m ssb (sp - 6) 0xFF00
  let m := m.setReg .esp (set16 (m.env.regs .esp) (sp - 6))
  let m := m.setReg .eax 0x0003
  let v := m.read 0x40 4
  let hcs := (Int13.word v 2).setWidth 32
  let m := m.setSeg .cs hcs (hcs <<< 4)
  m.setEip ((Int13.word v 0).setWidth 32)

/-- A teletype character; the beep ends with the twelfth. -/
def countTick (m : Machine) : Machine :=
  let m := { m with statics := { m.statics with rbTicks := m.statics.rbTicks + 1 } }
  if m.statics.rbTicks = 12 then m.modifyPort 0x61 (· &&& ~~~3) else m

/-- F000:542C, the teletype: the mode is set before the first character. -/
def teletype (q : Stock) : Stage := fun m =>
  if ¬ m.statics.rbModeset then .done true (injectModeSet q m) else .done false (countTick m)

def promptText : String := "  Press F1 for Easy-Setup"

def promptCells : List Byte :=
  promptText.toList.flatMap fun c => [BitVec.ofNat 8 c.toNat, 0x0F]

/-- F000:FF00, behind the mode set: prompt, beep on, back to the teletype. -/
def modeSetDone (m : Machine) : Machine :=
  let m := m.setReg .eax m.statics.rbSavedEax
  let m := m.poke (0xB8000 + 24 * 80 * 2) promptCells
  let m := m.outb 0x43 0xB6
  let m := m.outb 0x42 (BitVec.ofNat 8 (1331 &&& 0xFF))
  let m := m.outb 0x42 (BitVec.ofNat 8 ((1331 >>> 8) &&& 0xFF))
  let m := m.modifyPort 0x61 (· ||| 3)
  let m := m.setSeg .cs 0xF000 0xF0000
  m.setEip 0x542C

def noteOff (off : BitVec 16) (m : Machine) : Diag := { m.diag with prevOff := off }

def kbDisp (off : BitVec 16) (m : Machine) : Diag :=
  let k := (off - 0x3240).toNat
  if k < 0x160 ∧ m.diag.shown (.kbseen k) < 3 then
    (m.diag.count (.kbseen k)).report (.kbDisp off (lo8 (m.env.regs .eax)))
  else m.diag

/-- The PCs of `for (k = 32; k >= 2; k--)`. -/
def recentPcs (d : Diag) : List Word :=
  (List.range 31).map fun i => d.linRing ((d.linRingPos - BitVec.ofNat 32 (32 - i)) &&& 31).toNat

/-- The PCs of `for (k = 16; k >= 1; k--)`. -/
def dosPcs (d : Diag) : List Word :=
  (List.range 16).map fun i => d.dosRing ((d.dosRingPos - BitVec.ofNat 32 (16 - i)) &&& 15).toNat

/-- What the reset at F000:5516 prints, with the BDA word as it was. -/
def resetReport (prevOff : BitVec 16) (cur72 : List Byte) (m : Machine) : Diag :=
  let d := m.diag.report (.recentDos (dosPcs m.diag))
  let d := d.count .rn
  d.report (.kbcReset (d.shown .rn) m.statics.booted prevOff d.lastNonfseg
    (cur72.getD 1 0) (cur72.getD 0 0) (recentPcs m.diag))

/-- Its lines are printed into `dring[160]` and `ring[256]`. -/
def reportOverruns (d : Diag) : Bool := overruns 160 (dosPcs d) || overruns 256 (recentPcs d)

def logReset (prevOff : BitVec 16) (cur72 : List Byte) (m : Machine) : Machine :=
  { m with
    diag := resetReport prevOff cur72 m
    effects := m.effects ++ if reportOverruns m.diag then [.overrun] else [] }

def resetHistory (m : Machine) : Diag := m.diag.reportUpTo .dumped 1 (.history m.diag.ringLines)

/-- F000:5516, the KBC warm reset. -/
def warmReset (q : Stock) (prevOff : BitVec 16) (m : Machine) : Machine :=
  let cur72 := m.read 0x472 2
  let m := if ¬ m.statics.booted then m.poke 0x472 warmSig else m
  let m := { m with statics := { m.statics with resetCount := m.statics.resetCount + 1 } }
  let m := if m.has .pc110RstLog then logReset prevOff cur72 m else m
  let m := if m.statics.booted ∧ m.has .pc110RstLog then { m with diag := resetHistory m } else m
  m.cpuReset q

/-- The sites that jump to the reset. -/
def resetGates : List (BitVec 16) := [0x4B7B, 0x4B93, 0x4D5C, 0x4D6F, 0x5AB3]

def resetGate (off : BitVec 16) (m : Machine) : Diag :=
  let dsb := (m.env.segs .ds).base
  let w72 := m.read (dsb + 0x72).toNat 2
  let b12 := m.read (dsb + 0x12).toNat 1
  m.diag.reportUpTo .gate 32 (.resetGate off m.statics.booted (lo16 (m.env.regs .eax))
    (m.env.segs .ds).selector (w72.getD 1 0) (w72.getD 0 0) (b12.getD 0 0))

def unexpectedInt (m : Machine) : Diag :=
  m.diag.reportUpTo .unexpected 24 (.unexpectedInt (lo8 (m.env.regs .eax)) (Int13.frame m))

def shutdownSet (prevOff : BitVec 16) (m : Machine) : Diag :=
  if m.env.regs .eax &&& 0x7F = 0x0F then
    let sp := lo16 (m.env.regs .esp)
    let rc := m.read ((m.env.segs .ss).base + (sp + 6).setWidth 32).toNat 2
    m.diag.reportUpTo .shutdown 48 (.shutdownSet (hi8 (m.env.regs .eax)) (rc.getD 1 0)
      (rc.getD 0 0) prevOff m.statics.booted)
  else m.diag

def smswFork (off : BitVec 16) (m : Machine) : Diag :=
  m.diag.reportUpTo .fork 24 (.smswFork off (lo16 (m.env.regs .eax)) m.env.cr0 m.statics.booted)

def resumeDispatch (m : Machine) : Diag :=
  let code := lo8 (m.env.regs .eax)
  let hw := m.read (0xF0000 + 0x46A9 + 2 * code.toNat) 2
  m.diag.reportUpTo .dispatch 48 (.resumeDispatch code (hw.getD 1 0) (hw.getD 0 0) m.statics.booted)

/-- The report of a redirected resume, with the frame the handler will return through. -/
def resumeReport (m : Machine) : Diag :=
  let v67 := m.read 0x467 4
  let ss := Int13.word v67 2
  let sp := Int13.word v67 0
  let fr := (ss.setWidth 32 <<< 4) + sp.setWidth 32
  m.diag.reportUpTo .resume 32 (.forceResume ss sp (m.read (fr + 20 : Word).toNat 4))

def forceResume (m : Machine) : Machine :=
  let m := if m.has .pc110RstLog then { m with diag := resumeReport m } else m
  m.setEip 0xA6E4

def Machine.path (m : Machine) (v : EnvVar) : Option String := (m.getenv v).filter (· ≠ "")

def reportSetup (r : Report) (m : Machine) : Machine :=
  if m.has .pc110RstLog then { m with diag := m.diag.report r } else m

/-- The image at 0x50000, entered at 5000:0000. -/
def enterImage (forced : Bool) (sbuf : List Byte) (m : Machine) : Machine :=
  let m := m.poke 0x50000 sbuf
  let m := if m.has .pc110NoPalFix then m
    else m.poke (0x50000 + 0xBCF6) (m.read (0x50000 + 0xBCFF) 9)
  let m := m.setSeg .cs 0x5000 0x50000
  let m := m.setSeg .ds 0 0
  let m := m.setSeg .es 0 0
  let m := m.setSeg .ss 0 0
  let m := m.setReg .esp 0x7000
  let m := m.setReg .edx (if m.has .pc110SetupHd then 0x80 else 0x00)
  let m := m.setEip 0
  reportSetup (.setupLoaded forced sbuf.length) m

def enterRom (forced : Bool) (m : Machine) : Machine :=
  (reportSetup (.setupRom forced) m).setEip 0x3391

/-- `pc110_enter_easysetup`, and the copy of it taken under PC110SETUP (`forced`), which
prints other texts. -/
def enterEasySetup (forced : Bool) (m : Machine) : Machine :=
  match (m.path .pc110SetupImg).bind m.files with
  | some sf => enterImage forced (sf.take 300000) m
  | none => enterRom forced m

/-- PC110POSTUI at the boot decision: beep off, then Easy-Setup if a key was pressed. -/
def uiBootDecision : Stage := fun m =>
  let m := m.modifyPort 0x61 (· &&& ~~~3)
  if m.statics.keyPressed then .done true (enterEasySetup false m) else .next m

def int19Report (m : Machine) : Diag :=
  let d := m.diag.count .h52
  d.report (.int19 (d.shown .h52) m.statics.resetCount m.statics.booted)

def setupDecision : Stage := fun m =>
  if m.statics.entered ∧ m.statics.keyPressed then .next m
  else .done true (enterEasySetup true
    { m with statics := { m.statics with entered := true, keyPressed := false } })

def fdpt : List Byte :=
  [0x80, 0x00, 0x02, 0, 0, 0, 0, 0, 0, 0, 0, 0x80, 0x00, 0x20, 0x00, 0x00]

/-- LBA 0 at 0000:7C00, with the geometry and the base memory size POST left out. -/
def bootDisk (path : String) (sec : List Byte) (m : Machine) : Machine :=
  let m := { m with statics := { m.statics with booted := true } }
  let m := m.poke 0x7C00 sec
  let m := m.poke 0xFEA93 fdpt
  let m := m.poke 0x413 [0x80, 0x02]
  let m := m.setSeg .cs 0 0
  let m := m.setSeg .ds 0 0
  let m := m.setSeg .es 0 0
  let m := m.setReg .edx (setLo8 (m.env.regs .edx) 0x80)
  let m := m.setEip 0x7C00
  { m with diag := m.diag.report (.int19Booted path (sec.getD 510 0) (sec.getD 511 0)) }

/-- INT 19h: the boot sector of PC110BOOT, once. -/
def diskBoot : Stage := fun m =>
  match m.path .pc110Boot with
  | none => .next m
  | some bootpath =>
    if m.statics.booted then .next m
    else match m.files bootpath with
      | none => note (fun m => m.diag.report (.int19CannotOpen bootpath)) m
      | some bf =>
        let sec := bf.take 512
        if sec.length = 512 then .done true (bootDisk bootpath sec m)
        else note (fun m => m.diag.report (.int19ShortRead bootpath)) m

/-- F000:61BE, memory-test success: AX=0, ZF=1, CF=0, then the real RET. -/
def passMemoryTest (q : Stock) (m : Machine) : Machine :=
  let m := m.setReg .eax (m.env.regs .eax &&& ~~~0xFFFF)
  let m := { m with env := setZf q m.env true }
  { m with env := setCf q m.env false }

def clearCx (m : Machine) : Machine := m.setReg .ecx (m.env.regs .ecx &&& ~~~0xFFFF)

def pitReady (q : Stock) (m : Machine) : Machine :=
  let m := m.setReg .eax (m.env.regs .eax ||| 0x20)
  let m := { m with env := setZf q m.env false }
  m.setEip 0x6949

def statusReady (m : Machine) : Machine :=
  (m.poke 0x6B [m.mem 0x6B ||| 0x01]).setEip 0x6958

def skipOptionRom (m : Machine) : Machine :=
  let edx := m.env.regs .edx
  (m.setReg .edx (set16 edx (lo16 edx + 0x80))).setEip 0x6D49

def postHalt (m : Machine) : Machine :=
  ({ m with diag := m.diag.reportUpTo .halt 1 .postHalt } : Machine).setEip 0x4A53

def Machine.setHits (m : Machine) (c : Counter) (h : Nat) : Machine :=
  { m with statics := { m.statics with hits := Function.update m.statics.hits c h } }

/-- A completion that waits for `limit` hits: until then the loop's body runs. -/
def afterHits (c : Counter) (limit : Nat) (complete : Machine → Machine) : Stage := fun m =>
  if m.statics.hits c + 1 < limit then .done false (m.setHits c (m.statics.hits c + 1))
  else .done true (complete (m.setHits c 0))

end Pc110
