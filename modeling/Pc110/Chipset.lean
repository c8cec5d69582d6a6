import Mathlib.Logic.Function.Basic
import Pc110.Library.Device
import Pc110.Library.LsbBits

/-! The register files of `pc110-chipset.c`: the state of the device, its port handlers
and the seeds it is realized with. The windows at 3E0 and 3F0 answer FFh and keep nothing. -/
namespace Pc110.Chipset

open LsbBits (Byte)

/-- An index register over a file of `2 ^ n` byte registers. -/
@[ext]
structure Window (n : Nat) where
  index : Byte
  regs : BitVec n → Byte

namespace Window
variable {n : Nat} (w : Window n)

/-- The register a data port reaches: bits of the index beyond the file are masked off. -/
def current : BitVec n := w.index.setWidth n

def select (v : BitVec 64) : Window n := { w with index := v.setWidth 8 }

def data : Byte := w.regs w.current

def store (v : BitVec 64) : Window n :=
  { w with regs := Function.update w.regs w.current (v.setWidth 8) }

/-- The usual pair of ports, index and data. -/
def read (a : Nat) : Byte := if a = 0 then w.index else w.data

def write (a : Nat) (v : BitVec 64) : Window n := if a = 0 then w.select v else w.store v

end Window

structure ChipsetState where
  dmaPage : BitVec 4 → Byte
  configIndex : Byte
  rtc : Window 7
  scamp : Window 7
  block2 : Window 8
  reg22 : BitVec 16
  reg302 : BitVec 16
  reg704 : BitVec 16
  mcu : Window 8
  ext35 : Window 8
  ext15 : Window 8
  status15E8 : Byte
  status15EC : Byte
  status15E8Reads : BitVec 32
  status15ECReads : BitVec 32

section Handlers
variable (s : ChipsetState) (a : Nat) (v : BitVec 64) (sz : Nat)

def dpageRead : Byte := s.dmaPage (BitVec.ofNat 4 a)

def dpageWrite : ChipsetState :=
  { s with dmaPage := Function.update s.dmaPage (BitVec.ofNat 4 a) (v.setWidth 8) }

def cfgRead : Byte := s.configIndex

def cfgWrite : ChipsetState := { s with configIndex := v.setWidth 8 }

/-- CMOS as the guest sees it: UIP clear, no pending interrupt, battery good. -/
def cmosGet (idx : BitVec 7) : Byte :=
  if idx = 0x0A then s.rtc.regs 0x0A &&& 0x7F
  else if idx = 0x0C then 0x00
  else if idx = 0x0D then 0x80
  else s.rtc.regs idx

def rtcRead : Byte := if a = 0 then s.rtc.index else cmosGet s s.rtc.current

def rtcWrite : ChipsetState := { s with rtc := s.rtc.write a v }

/-- Index at 74, data at 76, nothing between. -/
def scampRead : Byte :=
  if a = 0 then s.scamp.index else if a = 2 then s.scamp.data else 0xFF

def scampWrite : ChipsetState :=
  if a = 0 then { s with scamp := s.scamp.select (v &&& 0x7F) }
  else if a = 2 then { s with scamp := s.scamp.store v }
  else s

def mcuRead : Byte := s.mcu.read a

def mcuWrite : ChipsetState := { s with mcu := s.mcu.write a v }

/-- Status ports count their reads; the busy bit of 15EC clears behind the eighth. -/
def ext15Read : Byte × ChipsetState :=
  if a = 0 then
    let reads := s.status15E8Reads + 1
    let status := if 8 < reads then 0x00 else s.status15E8
    (status, { s with status15E8Reads := reads, status15E8 := status })
  else if a = 2 then (s.ext15.index, s)
  else if a = 3 then (s.ext15.data, s)
  else if a = 4 then
    let reads := s.status15ECReads + 1
    let status := if 8 < reads then s.status15EC &&& ~~~0x02 else s.status15EC
    (status, { s with status15ECReads := reads, status15EC := status })
  else (0xFF, s)

def ext15Write : ChipsetState :=
  if a = 2 then { s with ext15 := s.ext15.select v }
  else if a = 3 then { s with ext15 := s.ext15.store v }
  else s

def ext35Read : Byte := s.ext35.read a

def ext35Write : ChipsetState := { s with ext35 := s.ext35.write a v }

def block2Read : Byte := s.block2.read a

def block2Write : ChipsetState := { s with block2 := s.block2.write a v }

/-- A 16-bit latch, read and written in bytes or as a word. -/
def latchRead (reg : BitVec 16) : BitVec 16 := (reg >>> (a * 8)) &&& if sz = 1 then 0xFF else 0xFFFF

def latchWrite (reg : BitVec 16) : BitVec 16 :=
  if sz = 1 then
    if a ≠ 0 then (reg &&& 0x00FF) ||| ((v.setWidth 16 &&& 0xFF) <<< 8)
    else (reg &&& 0xFF00) ||| (v.setWidth 16 &&& 0xFF)
  else v.setWidth 16

def clk22Read : BitVec 16 := latchRead a sz s.reg22

def clk22Write : ChipsetState := { s with reg22 := latchWrite a v sz s.reg22 }

def clk302Read : BitVec 16 := latchRead a sz s.reg302

def clk302Write : ChipsetState := { s with reg302 := latchWrite a v sz s.reg302 }

def clk704Read : BitVec 16 := latchRead a sz s.reg704

def clk704Write : ChipsetState := { s with reg704 := latchWrite a v sz s.reg704 }

end Handlers

inductive Region where
  | io80 | io4f | io70 | io74 | ioEc | ioEe | io15e8 | io35ea | io3e0 | io3f0 | io24
  | io22 | io302 | io704
  deriving DecidableEq, Repr

namespace Region

def base : Region → Nat
  | io80 => 0x80
  | io4f => 0x4F
  | io70 => 0x70
  | io74 => 0x74
  | ioEc => 0xEC
  | ioEe => 0xEE
  | io15e8 => 0x15E8
  | io35ea => 0x35EA
  | io3e0 => 0x3E0
  | io3f0 => 0x3F0
  | io24 => 0x24
  | io22 => 0x22
  | io302 => 0x302
  | io704 => 0x704

def size : Region → Nat
  | io80 => 16
  | io4f => 1
  | io74 => 3
  | io15e8 => 5
  | io70 | ioEc | ioEe | io35ea | io3e0 | io3f0 | io24 | io22 | io302 | io704 => 2

/-- `valid.max_access_size`; wider accesses reach a handler in pieces. -/
def maxAccessSize : Region → Nat
  | io22 | io302 | io704 => 2
  | io80 | io4f | io70 | io74 | ioEc | ioEe | io15e8 | io35ea | io3e0 | io3f0 | io24 => 1

end Region

/-- A port access as a handler gets it: a read, or a write of `data`. -/
structure Access where
  region : Region
  port : Nat
  sz : Nat
  data : Option (BitVec 64)
  inside : region.base ≤ port ∧ port + sz ≤ region.base + region.size
  width : sz = 1 ∨ sz = 2 ∧ region.maxAccessSize = 2

def Access.offset (x : Access) : Nat := x.port - x.region.base

def ChipsetState.read (s : ChipsetState) (r : Region) (a sz : Nat) : BitVec 64 × ChipsetState :=
  match r with
  | .io80 => ((dpageRead s a).setWidth 64, s)
  | .io4f => ((cfgRead s).setWidth 64, s)
  | .io70 => ((rtcRead s a).setWidth 64, s)
  | .io74 => ((scampRead s a).setWidth 64, s)
  | .ioEc => ((mcuRead s a).setWidth 64, s)
  | .io15e8 => ((ext15Read s a).1.setWidth 64, (ext15Read s a).2)
  | .io35ea => ((ext35Read s a).setWidth 64, s)
  | .io24 => ((block2Read s a).setWidth 64, s)
  | .io22 => ((clk22Read s a sz).setWidth 64, s)
  | .io302 => ((clk302Read s a sz).setWidth 64, s)
  | .io704 => ((clk704Read s a sz).setWidth 64, s)
  | .ioEe | .io3e0 | .io3f0 => (0xFF, s)

def ChipsetState.write (s : ChipsetState) (r : Region) (a sz : Nat) (v : BitVec 64) : ChipsetState :=
  match r with
  | .io80 => dpageWrite s a v
  | .io4f => cfgWrite s v
  | .io70 => rtcWrite s a v
  | .io74 => scampWrite s a v
  | .ioEc => mcuWrite s a v
  | .io15e8 => ext15Write s a v
  | .io35ea => ext35Write s a v
  | .io24 => block2Write s a v
  | .io22 => clk22Write s a v sz
  | .io302 => clk302Write s a v sz
  | .io704 => clk704Write s a v sz
  | .ioEe | .io3e0 | .io3f0 => s

/-- One port access: the value read, if any, and the state behind it. -/
def step (s : ChipsetState) (x : Access) : Option (BitVec 64) × ChipsetState :=
  match x.data with
  | none =>
    let (value, s) := s.read x.region x.offset x.sz
    (some value, s)
  | some v => (none, s.write x.region x.offset x.sz v)

section Seeds

def scampSeed : List Byte := [
  0x00, 0xBB, 0x80, 0x00, 0xFF, 0xFF, 0xFF, 0xFF, 0xFF, 0xFF, 0xFF, 0xFF, 0xFF, 0x93, 0xE5, 0x50,
  0x80, 0x00, 0x00, 0x90, 0xF0, 0xE0, 0xA1, 0x00, 0x00, 0x00, 0x00, 0x00, 0x00, 0x00, 0x00, 0x00,
  0x8E, 0x02, 0x00, 0x00, 0x00, 0x00, 0x00, 0x00, 0x00, 0x00, 0x00, 0x00, 0x00, 0x00, 0x98, 0x8A,
  0x10, 0x14, 0x10, 0x20, 0x08, 0xBA, 0x9E, 0xF1, 0x5A, 0x50, 0xF1, 0x3C, 0x0A, 0x1E, 0x2C, 0x01,
  0x02, 0x05, 0x01, 0x88, 0x03, 0x00, 0x00, 0x00, 0x00, 0x0A, 0x03, 0x88, 0x05, 0x00, 0x00, 0x00,
  0x08, 0x1E, 0x11, 0x88, 0x11, 0x00, 0x00, 0x00, 0x0C, 0x00, 0x00, 0x88, 0x00, 0x00, 0x00, 0x00,
  0x00, 0x00, 0x00, 0x00, 0x00, 0x00, 0x00, 0x00, 0x00, 0x00, 0x00, 0x00, 0x00, 0x00, 0x00, 0x00,
  0x00, 0x00, 0x00, 0x00, 0x00, 0x00, 0x10, 0x4F, 0x0F, 0x10, 0x53, 0x4C, 0x00, 0x10, 0x15, 0xEE]

def mcuSeed : List Byte := [
  0x42, 0xD5, 0x0B, 0x00, 0x06, 0xA8, 0x1A, 0xEC, 0x38, 0x00, 0x03, 0x00, 0x29, 0x00, 0x00, 0x2A,
  0x00, 0x00, 0xAA, 0x55, 0x55, 0x6A, 0x55, 0x55, 0xAA, 0x1A, 0x04, 0x08, 0x74, 0x00, 0x00, 0x00]

def cmosSeed : List Byte := [
  0x08, 0x02, 0x55, 0x00, 0x22, 0x00, 0x06, 0x14, 0x01, 0x94, 0x26, 0x02, 0x50, 0x80, 0x00, 0x00,
  0x40, 0x00, 0xFF, 0x00, 0x25, 0x80, 0x02, 0x00, 0x0C, 0x7F, 0x7F, 0x00, 0x00, 0x98, 0x77, 0x00,
  0x00, 0x00, 0x00, 0x00, 0x00, 0x00, 0x00, 0x00, 0x00, 0x00, 0x00, 0x00, 0x00, 0x00, 0x03, 0xFF,
  0x00, 0x0C, 0x19, 0xFF, 0x10, 0xFF, 0xFF, 0xFF, 0x00, 0x00, 0x00, 0x00, 0x00, 0x00, 0x00, 0x00,
  0xE6, 0x87, 0x1F, 0x01, 0x50, 0x00, 0x00, 0x00, 0x00, 0x00, 0x00, 0x00, 0x00, 0x0F, 0x07, 0x32,
  0x17, 0x1F, 0x3A, 0x2F, 0x37, 0x3F, 0x47, 0x2A, 0x56, 0x5E, 0x6E, 0x65, 0x6F, 0x6D, 0x67, 0x64,
  0x00, 0x00, 0xC7, 0x0C, 0x1F, 0xFF, 0xFF, 0xFF, 0x00, 0x00, 0x00, 0x00, 0x00, 0x00, 0x00, 0x00,
  0x00, 0x00, 0x10, 0x48, 0xA6, 0x00, 0x00, 0x00, 0x00, 0x00, 0x32, 0x02, 0x04, 0x2B, 0x15, 0xEE]

def ext35Seed : List Byte := [
  0x00, 0xFF, 0xF5, 0xFF, 0x87, 0xF3, 0x6C, 0xFD, 0xFF, 0xF7, 0xFF, 0xFC, 0xFF, 0xFF, 0xFF, 0xFF,
  0xFF, 0xFF, 0xFF, 0xE8, 0x35, 0x04, 0xFF, 0xFF, 0xFF, 0xFF, 0xFF, 0xFF, 0xFF, 0xFF, 0xFF, 0xFF]

def block2Seed : List Byte := [
  0xAA, 0xAA, 0xAA, 0xAA, 0xAA, 0xAA, 0xAA, 0xAA, 0x40, 0x41, 0x42, 0x43, 0xFF, 0xFF, 0x00, 0x0F,
  0x00, 0x00, 0x00, 0x00, 0x00, 0x00, 0xFF, 0xFF, 0xFF, 0xFF, 0xFF, 0xFF, 0xFF, 0xFF, 0xFF, 0xFF,
  0xFF, 0xFF, 0x11, 0x08, 0x04, 0x01, 0x00, 0x20, 0x0B, 0x0C, 0x00, 0x08, 0xFF, 0xFF, 0x80, 0xFF,
  0xFF, 0xFF, 0xFF, 0xFF, 0xFF, 0xFF, 0xFF, 0xFF, 0xFF, 0xFF, 0xFF, 0xFF, 0xFF, 0xFF, 0xFF, 0xFF,
  0x00, 0x00, 0x12, 0x00, 0x50, 0x05, 0xFF, 0xFF, 0xFF, 0xFF, 0xFF, 0xFF, 0xFF, 0xFF, 0x00, 0xFF,
  0xFF, 0xFF, 0xFF, 0xFF, 0xFF, 0xFF, 0xFF, 0xFF, 0xFF, 0xFF, 0xFF, 0xFF, 0xFF, 0xFF, 0xFF, 0xFF,
  0x00, 0x01, 0x00, 0xFF, 0xFF, 0x00, 0x00, 0xFF, 0xFF, 0xFF, 0xFF, 0xFF, 0xFF, 0xFF, 0xFF, 0xFF,
  0x02, 0xFF, 0xFF, 0xFF, 0xFF, 0xFF, 0xFF, 0xFF, 0xFF, 0xFF, 0xFF, 0xFF, 0xFF, 0xFF, 0xFF, 0xFF,
  0xFF, 0xFF, 0xFF, 0xFF, 0xEE, 0x15, 0xFF, 0xFF, 0xFF, 0xFF, 0xFF, 0xFF, 0xFF, 0xFF, 0xFF, 0xFF,
  0xAA, 0xAA, 0xAA, 0xAA, 0xAA, 0xAA, 0xAA, 0xAA, 0xC0, 0x41, 0x42, 0x43, 0xAA, 0xAA, 0x00, 0x0E,
  0xFF, 0xFF, 0x11, 0x70, 0x02, 0x01, 0x00, 0x20, 0x0B, 0xFF, 0xFF, 0xFF, 0xFF, 0xFF, 0xFF, 0xFF,
  0xBA, 0x9E, 0xF0, 0x5A, 0x50, 0xF5, 0xDA, 0x00, 0x00, 0x40, 0x00, 0x00, 0x02, 0xFF, 0x10, 0x14,
  0x00, 0x00, 0x00, 0xFF, 0xFF, 0xFF, 0xFF, 0xFF, 0xF2, 0x03, 0xA1, 0x02, 0xFF, 0xFF, 0xFF, 0xFF,
  0x60, 0x00, 0x24, 0x00, 0xFF, 0xFF, 0xFF, 0xFF, 0x00, 0x00, 0x20, 0x00, 0xFF, 0xFF, 0xFF, 0xFF,
  0x00, 0x00, 0x00, 0xFF, 0xFF, 0xFF, 0xFF, 0xFF, 0xF4, 0x03, 0xA1, 0x02, 0xFF, 0xFF, 0xFF, 0xFF,
  0x80, 0x00, 0x00, 0x00, 0x10, 0x20, 0x08, 0x07, 0x0E, 0xFF, 0xFF, 0x18, 0xE0, 0xFF, 0x3F, 0x00]

/-- A register file holding a seed, and zeros behind it. -/
def seeded (n : Nat) (seed : List Byte) : Window n := ⟨0, fun i => seed.getD i.toNat 0⟩

end Seeds

/-- The state behind `pc110_chipset_realizefn`. -/
def realized : ChipsetState where
  dmaPage := fun _ => 0
  configIndex := 0
  rtc := seeded 7 cmosSeed
  scamp := seeded 7 scampSeed
  block2 := seeded 8 block2Seed
  reg22 := 0x0100
  reg302 := 0x0000
  reg704 := 0x0000
  mcu := seeded 8 mcuSeed
  ext35 := seeded 8 ext35Seed
  ext15 := seeded 8 []
  status15E8 := 0
  status15EC := 0x02
  status15E8Reads := 0
  status15ECReads := 0

def reached (accesses : List Access) : ChipsetState := Device.after step accesses realized

end Pc110.Chipset
