import Pc110.PostBranches

/-! `pc110_post_intercept`, called with the linear PC before each translation block. The
stages stand in source order. `csbase` and `off` are set up front: no stage that falls
through changes CS. -/
namespace Pc110

open Cascade (guarded)

/-- Up to the gate on the CS base: these apply to any code. -/
def entryStages (q : Stock) (site : Site) : List Stage := [
  checkEnabled,
  note (trackPc site.pc),
  guarded (fun m => site.pc = esDispatcher ∧ m.has .pc110EsLog) (note esLog),
  guarded (fun m => readsErrorLog site.pc m) (leave true forceEmptyLog),
  guarded (fun m => m.has .pc110Trace ∧ m.statics.booted ∧ 0x8000 ≤ site.pc ∧ site.pc < 0x20000)
    (note (traceRing site.pc)),
  guarded (fun m => m.statics.kbcResetPending) (leave true (portReset q)),
  guarded (fun _ => site.csbase ≠ 0xF0000 ∧ site.csbase ≠ 0x20000) (reportOnly (outsideBios site.pc))]

/-- The handlers of the F-segment proper. -/
def romStages (q : Stock) (site : Site) : List Stage := [
  guarded (fun m => m.has .pc110PostUi) freshPost,
  guarded (fun m => m.has .pc110PostUi ∧ site.rom 0x542C) (teletype q),
  guarded (fun m => m.has .pc110PostUi ∧ site.rom 0xFF00) (leave true modeSetDone),
  note (noteOff site.off),
  guarded (fun m => site.csbase = 0xF0000 ∧ 0x3240 ≤ site.off ∧ site.off ≤ 0x3398 ∧ m.has .pc110RstLog)
    (note (kbDisp site.off)),
  guarded (fun _ => site.rom 0x5516) (leave true (warmReset q site.prevOff)),
  guarded (fun m => site.csbase = 0xF0000 ∧ m.has .pc110RstLog ∧ site.off ∈ resetGates)
    (reportOnly (resetGate site.off)),
  guarded (fun m => site.rom 0x5B68 ∧ m.has .pc110RstLog) (reportOnly unexpectedInt),
  guarded (fun m => site.rom 0xE9CE ∧ m.has .pc110RstLog) (reportOnly (shutdownSet site.prevOff)),
  guarded (fun m => site.csbase = 0xF0000 ∧ m.has .pc110RstLog ∧ (site.off = 0x4B75 ∨ site.off = 0x4B81))
    (reportOnly (smswFork site.off)),
  guarded (fun m => site.rom 0x469D ∧ m.has .pc110RstLog) (reportOnly resumeDispatch),
  guarded (fun m => site.rom 0x4656 ∧ m.statics.booted ∧ m.has .pc110Resume) (leave true forceResume),
  guarded (fun m => site.rom 0xD2D7 ∧ m.has .pc110Boot) (leave true Int13.int13)]

/-- The boot decision F000:52BD. -/
def bootStages (site : Site) : List Stage := [
  guarded (fun m => m.has .pc110PostUi ∧ site.rom 0x52BD ∧ ¬ m.statics.booted) uiBootDecision,
  guarded (fun m => site.rom 0x52BD ∧ m.has .pc110RstLog) (note int19Report),
  guarded (fun m => site.rom 0x52BD ∧ ¬ m.statics.booted ∧ m.has .pc110Setup) setupDecision,
  guarded (fun _ => site.rom 0x52BD) diskBoot]

/-- The completers, at their offset under either CS base. -/
def completerStages (q : Stock) (off : BitVec 16) : List Stage := [
  guarded (fun _ => off = 0x61BE) (leave false (passMemoryTest q)),
  guarded (fun _ => off = 0x6981)
    (leave true fun m => (m.setReg .ebx (set16 (m.env.regs .ebx) 0x1700)).setEip 0x698F),
  guarded (fun _ => off = 0x6943) (afterHits .h6943 1024 (pitReady q)),
  guarded (fun _ => off = 0xC960) (afterHits .hC960 4096 fun m => (clearCx m).setEip 0xC966),
  guarded (fun _ => off = 0xEA90) (afterHits .hEA90 1024 fun m => (clearCx m).setEip 0xEA92),
  guarded (fun _ => off = 0x6961) (afterHits .h6961 1024 statusReady),
  guarded (fun _ => off = 0x53C1) (afterHits .h53C1 4096 fun m => m.setEip 0x53CE),
  guarded (fun _ => off = 0x6D3A) (leave true skipOptionRom),
  guarded (fun _ => off = 0x3D90) (leave true fun m => m.setEip 0x3D9E),
  guarded (fun _ => off = 0x6998 ∨ off = 0x6999) (leave true fun m => m.setEip 0x699A),
  guarded (fun _ => off = 0x52BE ∨ off = 0x52BF) (leave true fun m => m.setEip 0x52C0),
  guarded (fun _ => off = 0x4A51) (leave true postHalt),
  guarded (fun _ => 0x3CC1 ≤ off ∧ off < 0x3CC8)
    (afterHits .hCksum 4096 fun m => completeChecksum m off),
  guarded (fun _ => off = 0x3C34) (afterHits .hCopy 512 fun m => completeCopy q m off),
  guarded (fun _ => 0x4139 ≤ off ∧ off ≤ 0x413E) (afterHits .hDelay 256 completeDelay),
  guarded (fun _ => (0x61DB ≤ off ∧ off ≤ 0x61E0) ∨ (0x61E9 ≤ off ∧ off ≤ 0x61EE))
    (afterHits .hMempat 128 fun m => completeMempat q m off)]

def stages (q : Stock) (site : Site) : List Stage :=
  entryStages q site ++ romStages q site ++ bootStages site ++ completerStages q site.off

/-- `pc110_post_intercept(cs, pc)`. -/
def postIntercept (q : Stock) (pc : Word) (m : Machine) : Bool × Machine :=
  Cascade.run false (stages q (.of m pc)) m

end Pc110
