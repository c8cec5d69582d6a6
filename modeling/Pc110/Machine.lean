import Pc110.Cpu
import Pc110.Library.ByteMemory

/-! What `pc110post.c` works on: the guest CPU, physical memory and ports, the host
environment and files, the statics of the file, and what it prints. -/
namespace Pc110

open LsbBits (Byte)
open ByteMemory (Memory)

/-- The environment variables the code asks for. -/
inductive EnvVar where
  | pc110Post | pc110RstLog | pc110EsLog | pc110Setup | pc110PostUi | pc110Trace
  | pc110Heartbeat | pc110Resume | pc110Boot | pc110SetupImg | pc110NoPalFix | pc110SetupHd
  deriving DecidableEq, Repr

/-- `printf`'s `%0<width>X`. -/
def hex (width n : Nat) : String :=
  let digits := (Nat.toDigits 16 n).map Char.toUpper
  String.ofList (List.replicate (width - digits.length) '0' ++ digits)

/-- A line of linear PCs, each printed with `"%05X "`. -/
def ringLine (pcs : List Word) : String :=
  String.join (pcs.map fun pc => hex 5 pc.toNat ++ " ")

/-- What a buffer of `size` shows of a text that is printed into it. -/
def buffered (size : Nat) (text : String) : String := String.ofList (text.toList.take (size - 1))

/-- Whether PCs printed one by one into a buffer of `size` are printed behind it as well: what is
left of the buffer is an unsigned difference, which wraps. -/
def overruns (size : Nat) (pcs : List Word) : Bool := size < (ringLine pcs.dropLast).length

inductive Report where
  | driverCr0 (pc cr0 cs : Word)
  | esSvc (ah al : Byte) (bx cx : BitVec 16)
  | trace (dump : Nat) (pc eflags : Word) (lines : List (List Word))
  | portReset (count : Nat) (cs base : Word) (ip : BitVec 16)
  | heartbeat (pc : Word) (millions : Nat) (booted : Bool)
  | kbDisp (off : BitVec 16) (al : Byte)
  | recentDos (pcs : List Word)
  | kbcReset (count : Nat) (booted : Bool) (prevOff : BitVec 16) (lastDos : Word)
      (hi lo : Byte) (recent : List Word)
  | history (lines : List (List Word))
  | resetGate (off : BitVec 16) (booted : Bool) (ax : BitVec 16) (ds : Word) (hi lo b12 : Byte)
  | unexpectedInt (code : Byte) (frame : List Byte)
  | shutdownSet (value : Byte) (hi lo : Byte) (prevOff : BitVec 16) (booted : Bool)
  | smswFork (off ax : BitVec 16) (cr0 : Word) (booted : Bool)
  | resumeDispatch (code hi lo : Byte) (booted : Bool)
  | forceResume (ss sp : BitVec 16) (frame : List Byte)
  | int19 (hit resets : Nat) (booted : Bool)
  | setupLoaded (forced : Bool) (length : Nat)
  | setupRom (forced : Bool)
  | int19Booted (path : String) (lo hi : Byte)
  | int19ShortRead (path : String)
  | int19CannotOpen (path : String)
  | postHalt
  deriving DecidableEq, Repr

def bootPhase (booted : Bool) : String := if booted then "POST-BOOT" else "pre-boot"

def flagDigit (b : Bool) : String := if b then "1" else "0"

/-- Bytes printed with `"%02X"`, highest address first. -/
def wordDigits (frame : List Byte) (lo : Nat) : String :=
  hex 2 (frame.getD (lo + 1) 0).toNat ++ hex 2 (frame.getD lo 0).toNat

def Report.text : Report → String
  | .driverCr0 pc cr0 cs =>
    s!"[pc110post] driver@{hex 5 pc.toNat} cr0={hex 8 cr0.toNat} " ++
    s!"(PE={(cr0 &&& 1).toNat}) cs={hex 4 cs.toNat}\n"
  | .esSvc ah al bx cx =>
    s!"[pc110post] ES-SVC ah={hex 2 ah.toNat} al={hex 2 al.toNat} " ++
    s!"bx={hex 4 bx.toNat} cx={hex 4 cx.toNat}\n"
  | .trace dump pc eflags lines =>
    s!"[pc110post] === PC110TRACE ring (dump {dump}) HLT-blk pc={hex 5 pc.toNat} " ++
    s!"efl={hex 8 eflags.toNat} ===\n" ++
    String.join (lines.map fun line => s!"   {buffered 256 (ringLine line)}\n")
  | .portReset count cs base ip =>
    s!"[pc110post] KBC reset (PORT-level/driver) #{count}  " ++
    s!"CS={hex 4 cs.toNat} base={hex 5 base.toNat} IP={hex 4 ip.toNat}\n"
  | .heartbeat pc millions booted =>
    s!"[pc110post] heartbeat: non-BIOS TB @{hex 5 pc.toNat} " ++
    s!"(count={millions}M booted={flagDigit booted})\n"
  | .kbDisp off al => s!"[pc110post] KBDISP @{hex 4 off.toNat} AL={hex 2 al.toNat}\n"
  | .recentDos pcs => s!"            recent DOS(<A0000) TBs: {buffered 160 (ringLine pcs)}\n"
  | .kbcReset count booted prevOff lastDos hi lo recent =>
    s!"[pc110post] KBC-FE reset #{count} @F000:5516  {bootPhase booted}  " ++
    s!"prevTB=F000:{hex 4 prevOff.toNat}  lastDOS={hex 5 lastDos.toNat}  " ++
    s!"40:72={hex 2 hi.toNat}{hex 2 lo.toNat}\n" ++
    s!"            recentTBs(old->new): {buffered 256 (ringLine recent)}\n"
  | .history lines =>
    "[pc110post] === full 256-TB history before first post-boot reset (old->new) ===\n" ++
    String.join (lines.map fun line => s!"   {buffered 256 (ringLine line)}\n")
  | .resetGate off booted ax ds hi lo b12 =>
    s!"[pc110post] ->5516 via {hex 4 off.toNat}  {bootPhase booted}  " ++
    s!"AX={hex 4 ax.toNat} DS={hex 4 ds.toNat} " ++
    s!"[ds:72]={hex 2 hi.toNat}{hex 2 lo.toNat} [ds:12]={hex 2 b12.toNat}\n"
  | .unexpectedInt code frame =>
    s!"[pc110post] unexpected-int @5B68 code={hex 2 code.toNat}  " ++
    s!"from {wordDigits frame 2}:{wordDigits frame 0} fl={wordDigits frame 4}\n"
  | .shutdownSet value hi lo prevOff booted =>
    s!"[pc110post] SHUTDOWN-SET 0x0F<={hex 2 value.toNat}  " ++
    s!"(E9C6 caller=F000:{hex 2 hi.toNat}{hex 2 lo.toNat} " ++
    s!"prevTB=F000:{hex 4 prevOff.toNat} booted={flagDigit booted})\n"
  | .smswFork off ax cr0 booted =>
    s!"[pc110post] SMSW-FORK @{hex 4 off.toNat}  " ++
    (if off = 0x4B75 then "PE-CLEAR->shutdown08" else "PE-SET->port61") ++
    s!"  AX(msw)={hex 4 ax.toNat} CR0={hex 8 cr0.toNat} (booted={flagDigit booted})\n"
  | .resumeDispatch code hi lo booted =>
    s!"[pc110post] RESUME-DISPATCH code={hex 2 code.toNat} -> " ++
    s!"F000:{hex 2 hi.toNat}{hex 2 lo.toNat}  (booted={flagDigit booted})\n"
  | .forceResume ss sp frame =>
    s!"[pc110post] FORCE-RESUME @4656 -> A6E4  SS:SP={hex 4 ss.toNat}:{hex 4 sp.toNat} " ++
    s!"retf-> {wordDigits frame 2}:{wordDigits frame 0}\n"
  | .int19 hit resets booted =>
    s!"[pc110post] INT19 @F000:52BD hit #{hit}  after {resets} resets  " ++
    s!"(booted={flagDigit booted})\n"
  | .setupLoaded forced length =>
    if forced then
      s!"[pc110post] PC110SETUP: loaded {length}-byte Easy-Setup image, entering 5000:0000\n"
    else s!"[pc110post] Easy-Setup: loaded {length}-byte image, entering 5000:0000\n"
  | .setupRom forced =>
    if forced then
      "[pc110post] PC110SETUP: entering ROM Easy-Setup " ++
      "@F000:3391 (set PC110SETUPIMG for extracted image)\n"
    else "[pc110post] Easy-Setup: entering ROM @F000:3391\n"
  | .int19Booted path lo hi =>
    s!"[pc110post] INT19: booted {path} LBA0 -> 0000:7C00 " ++
    s!"(sig {hex 2 lo.toNat}{hex 2 hi.toNat}) DL=80\n"
  | .int19ShortRead path => s!"[pc110post] INT19: short read from {path}\n"
  | .int19CannotOpen path => s!"[pc110post] INT19: cannot open PC110BOOT={path}\n"
  | .postHalt => "[pc110post] POST 215/error halt reached at F000:4A51\n"

/-- The function-local statics that bound how often a report is printed. -/
inductive Shown where
  | cr0n | esn | drn | hb | kbseen (k : Nat) | rn | dumped | gate | unexpected | shutdown
  | fork | dispatch | resume | h52 | halt
  deriving DecidableEq, Repr

structure Diag where
  prevOff : BitVec 16
  prevLin : Word
  linRing : Nat → Word
  linRingPos : Word
  dosRing : Nat → Word
  dosRingPos : Word
  lastNonfseg : Word
  trDumps : Nat
  shown : Shown → Nat
  stderr : List Report

namespace Diag

def report (d : Diag) (r : Report) : Diag := { d with stderr := d.stderr ++ [r] }

def count (d : Diag) (s : Shown) : Diag :=
  { d with shown := Function.update d.shown s (d.shown s + 1) }

/-- `if (s++ < limit)` around a report. -/
def reportUpTo (d : Diag) (s : Shown) (limit : Nat) (r : Report) : Diag :=
  if d.shown s < limit then (d.count s).report r else d.count s

/-- The whole ring of linear PCs, oldest first, in lines of sixteen. -/
def ringLines (d : Diag) : List (List Word) :=
  (List.range 16).map fun line => (List.range 16).map fun j =>
    d.linRing ((d.linRingPos - 256 + BitVec.ofNat 32 (16 * line + j)) &&& 255).toNat

end Diag

/-- The hit counters of the loop breakers and completers. -/
inductive Counter where
  | h6943 | hC960 | hEA90 | h6961 | h53C1 | hCksum | hCopy | hDelay | hMempat
  deriving DecidableEq, Repr

structure Statics where
  /-- `pc110post_enabled`, `none` for its initial -1. -/
  enabled : Option Bool
  booted : Bool
  keyPressed : Bool
  kbcResetPending : Bool
  entered : Bool
  rbGen : Int
  rbModeset : Bool
  rbSavedEax : Word
  rbTicks : Nat
  resetCount : Nat
  hits : Counter → Nat

inductive Effect where
  | outb (port : Nat) (value : Byte)
  | inb (port : Nat) (value : Byte)
  | cpuReset
  /-- A buffer on the stack was overrun: nothing is known of what comes behind it. -/
  | overrun
  deriving DecidableEq, Repr

structure Machine where
  env : Env
  mem : Memory Byte
  /-- What the port bus answers. -/
  bus : Nat → Byte
  /-- Port accesses and CPU resets made so far, latest last. -/
  effects : List Effect
  getenv : EnvVar → Option String
  /-- What `fopen` for reading finds under a path. -/
  files : String → Option (List Byte)
  statics : Statics
  diag : Diag

def Statics.initial : Statics where
  enabled := none
  booted := false
  keyPressed := false
  kbcResetPending := false
  entered := false
  rbGen := -1
  rbModeset := false
  rbSavedEax := 0
  rbTicks := 0
  resetCount := 0
  hits := fun _ => 0

def Diag.initial : Diag where
  prevOff := 0
  prevLin := 0
  linRing := fun _ => 0
  linRingPos := 0
  dosRing := fun _ => 0
  dosRingPos := 0
  lastNonfseg := 0
  trDumps := 0
  shown := fun _ => 0
  stderr := []

namespace Machine

def start (env : Env) (mem : Memory Byte) (bus : Nat → Byte) (getenv : EnvVar → Option String)
    (files : String → Option (List Byte)) : Machine where
  env := env
  mem := mem
  bus := bus
  effects := []
  getenv := getenv
  files := files
  statics := .initial
  diag := .initial

/-- Whether a variable is set at all, which is what most tests of `getenv` ask. -/
def has (m : Machine) (v : EnvVar) : Bool := (m.getenv v).isSome

def outb (m : Machine) (port : Nat) (value : Byte) : Machine :=
  { m with effects := m.effects ++ [.outb port value] }

def inb (m : Machine) (port : Nat) : Machine :=
  { m with effects := m.effects ++ [.inb port (m.bus port)] }

/-- `cpu_outb(port, f(cpu_inb(port)))`. -/
def modifyPort (m : Machine) (port : Nat) (f : Byte → Byte) : Machine :=
  (m.inb port).outb port (f (m.bus port))

def poke (m : Machine) (address : Nat) (data : List Byte) : Machine :=
  { m with mem := ByteMemory.write m.mem address data }

def read (m : Machine) (address count : Nat) : List Byte := ByteMemory.read m.mem address count

def setReg (m : Machine) (r : Reg) (v : Word) : Machine := { m with env := m.env.setReg r v }

def setSeg (m : Machine) (s : Seg) (selector base : Word) : Machine :=
  { m with env := m.env.setSeg s selector base }

def setEip (m : Machine) (eip : Word) : Machine := { m with env := { m.env with eip } }

/-- `cpu_reset`: the CPU alone, RAM and statics persist. -/
def cpuReset (q : Stock) (m : Machine) : Machine :=
  { m with env := q.cpuReset m.env, effects := m.effects ++ [.cpuReset] }

end Machine

end Pc110
