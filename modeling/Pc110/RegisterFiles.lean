import Pc110.ChipsetSnapshot
import Pc110.Library.History

/-! The chipset as independent register files. Each file is told by the history of its own
ports alone: the newest byte in a latch, the newest byte behind the index that selects it in a
window. The device of `pc110-chipset.c` answers every access as these files do. -/
namespace Pc110.Chipset

open LsbBits (Byte)

/-- The byte an access puts into a port, least significant byte first. -/
def Access.puts (x : Access) (port : Nat) : Option Byte :=
  if x.port ≤ port ∧ port < x.port + x.sz then
    x.data.map fun v => v.extractLsb' (8 * (port - x.port)) 8
  else none

def Access.polls (x : Access) (port : Nat) : Bool := x.port == port && x.data.isNone

/-- How often a history read the port with the busy bit. -/
def busyReads (past : List Access) : Nat := past.countP (Access.polls · 0x15EC)

section Model

/-- The newest byte put into a port. Histories are newest first. -/
def lastAt (port : Nat) (initial : Byte) (past : List Access) : Byte :=
  History.last (fun _ x => x.puts port) initial past

/-- An indexed window: its two ports, the index bits it keeps, and what it holds at first. -/
structure IndexedFile (n : Nat) where
  indexPort : Nat
  dataPort : Nat
  keeps : Byte
  seed : List Byte

namespace IndexedFile
variable {n : Nat} (f : IndexedFile n) (past : List Access)

def index : Byte := f.keeps &&& lastAt f.indexPort 0 past

def selected : BitVec n := (f.index past).setWidth n

/-- The newest byte put into the data port while the index selected this register. -/
def register (r : BitVec n) : Byte :=
  History.last (fun older x => if f.selected older = r then x.puts f.dataPort else none)
    (f.seed.getD r.toNat 0) past

def shown : Byte := f.register past (f.selected past)

end IndexedFile

def cmosFile : IndexedFile 7 := ⟨0x70, 0x71, 0xFF, cmosSeed⟩

def scampFile : IndexedFile 7 := ⟨0x74, 0x76, 0x7F, scampSeed⟩

def mcuFile : IndexedFile 8 := ⟨0xEC, 0xED, 0xFF, mcuSeed⟩

def block2File : IndexedFile 8 := ⟨0x24, 0x25, 0xFF, block2Seed⟩

def ext15File : IndexedFile 8 := ⟨0x15EA, 0x15EB, 0xFF, []⟩

def ext35File : IndexedFile 8 := ⟨0x35EA, 0x35EB, 0xFF, ext35Seed⟩

def shows (past : List Access) (port : Nat) : Byte :=
  match port with
  | 0x4F => lastAt 0x4F 0 past
  | 0x70 => cmosFile.index past
  | 0x71 => cmosShown (cmosFile.selected past) (cmosFile.shown past)
  | 0x74 => scampFile.index past
  | 0x76 => scampFile.shown past
  | 0xEC => mcuFile.index past
  | 0xED => mcuFile.shown past
  | 0x24 => block2File.index past
  | 0x25 => block2File.shown past
  | 0x15EA => ext15File.index past
  | 0x15EB => ext15File.shown past
  | 0x35EA => ext35File.index past
  | 0x35EB => ext35File.shown past
  | 0x22 => lastAt 0x22 0x00 past
  | 0x23 => lastAt 0x23 0x01 past
  | 0x302 => lastAt 0x302 0 past
  | 0x303 => lastAt 0x303 0 past
  | 0x704 => lastAt 0x704 0 past
  | 0x705 => lastAt 0x705 0 past
  | 0x15E8 => 0x00
  | 0x15EC => if busyReads past < 8 then 0x02 else 0x00
  | _ => if 0x80 ≤ port ∧ port < 0x90 then lastAt port 0 past else 0xFF

/-- What an access is answered with: the bytes its ports show, the first one lowest. -/
def answer (past : List Access) (x : Access) : Option (BitVec 64) :=
  match x.data with
  | some _ => none
  | none =>
    some (if x.sz = 1 then (shows past x.port).setWidth 64
      else (shows past (x.port + 1) ++ shows past x.port).setWidth 64)

def fileOf (port : Nat) : Nat :=
  match port with
  | 0x71 => 0x70
  | 0x76 => 0x74
  | 0xED => 0xEC
  | 0x25 => 0x24
  | 0x15EB => 0x15EA
  | 0x35EB => 0x35EA
  | 0x23 => 0x22
  | 0x303 => 0x302
  | 0x705 => 0x704
  | _ => port

end Model

section Puts
variable {x : Access} {port : Nat}

theorem puts_read (reads : x.data = none) (port : Nat) : x.puts port = none := by
  simp only [Access.puts, reads, Option.map_none, ite_self]

theorem fileOf_second (wide : x.sz = 2) : fileOf (x.port + 1) = fileOf x.port := by
  have inside := x.inside
  have word : x.region.maxAccessSize = 2 := by have := x.width; omega
  cases region : x.region <;>
    simp only [region, Region.maxAccessSize, Region.base, Region.size] at word inside
  case io22 =>
    rw [show x.port = 0x22 by omega]
    rfl
  case io302 =>
    rw [show x.port = 0x302 by omega]
    rfl
  case io704 =>
    rw [show x.port = 0x704 by omega]
    rfl
  all_goals omega

/-- An access puts nothing into the ports of another file. -/
theorem puts_other (other : fileOf x.port ≠ fileOf port) : x.puts port = none := by
  rw [Access.puts, if_neg]
  rintro ⟨low, high⟩
  have width := x.width
  by_cases first : port = x.port
  · exact other (congrArg fileOf first.symm)
  · have second : port = x.port + 1 := by omega
    exact other (second ▸ (fileOf_second (by omega)).symm)

theorem puts_elsewhere {x : Access} {port : Nat}
    (elsewhere : port < x.region.base ∨ x.region.base + x.region.size ≤ port) : x.puts port = none := by
  have inside := x.inside
  rw [Access.puts, if_neg (by omega)]

theorem pages_elsewhere {x : Access} (elsewhere : x.region ≠ .io80) (i : BitVec 4) :
    x.puts (0x80 + i.toNat) = none := by
  apply puts_elsewhere
  have := i.isLt
  cases region : x.region <;> simp only [Region.base, Region.size]
  case io80 => exact absurd region elsewhere
  all_goals omega

theorem puts_narrow {x : Access} {v : BitVec 64} (writes : x.data = some v) (narrow : x.sz = 1) (port : Nat) :
    x.puts port = if port = x.port then some (v.setWidth 8) else none := by
  by_cases here : port = x.port
  · subst here
    rw [Access.puts, if_pos ⟨Nat.le_refl _, by omega⟩, if_pos rfl, writes, Nat.sub_self]
    simp [BitVec.setWidth_eq_extractLsb']
  · rw [Access.puts, if_neg (by omega), if_neg here]

theorem puts_wide {x : Access} {v : BitVec 64} (writes : x.data = some v) (wide : x.sz = 2) (port : Nat) :
    x.puts port = if port = x.port then some (v.extractLsb' 0 8)
      else if port = x.port + 1 then some (v.extractLsb' 8 8) else none := by
  by_cases low : port = x.port
  · subst low
    rw [Access.puts, if_pos ⟨Nat.le_refl _, by omega⟩, if_pos rfl, writes, Nat.sub_self]
    rfl
  · by_cases high : port = x.port + 1
    · subst high
      rw [Access.puts, if_pos ⟨by omega, by omega⟩, if_neg low, if_pos rfl, writes,
        Nat.add_sub_cancel_left]
      rfl
    · rw [Access.puts, if_neg (by omega), if_neg low, if_neg high]

end Puts

section Latches

theorem pair_getLsbD (high low : Byte) (i : Nat) :
    (high ++ low : BitVec 16).getLsbD i = if i < 8 then low.getLsbD i else high.getLsbD (i - 8) :=
  BitVec.getLsbD_append

theorem latchWrite_low (v : BitVec 64) (reg : BitVec 16) :
    latchWrite 0 v 1 reg = reg.extractLsb' 8 8 ++ v.extractLsb' 0 8 := by
  apply BitVec.eq_of_getLsbD_eq
  intro i hi
  rw [pair_getLsbD]
  interval_cases i <;> simp [latchWrite]

theorem latchWrite_high (v : BitVec 64) (reg : BitVec 16) :
    latchWrite 1 v 1 reg = v.extractLsb' 0 8 ++ reg.extractLsb' 0 8 := by
  apply BitVec.eq_of_getLsbD_eq
  intro i hi
  rw [pair_getLsbD]
  interval_cases i <;> simp [latchWrite]

theorem latchWrite_word (a : Nat) (v : BitVec 64) (reg : BitVec 16) :
    latchWrite a v 2 reg = v.extractLsb' 8 8 ++ v.extractLsb' 0 8 := by
  apply BitVec.eq_of_getLsbD_eq
  intro i hi
  rw [pair_getLsbD]
  interval_cases i <;> simp [latchWrite]

end Latches

section Product

def IndexedFile.next {n : Nat} (f : IndexedFile n) (w : Window n) (x : Access) : Window n where
  index := ((x.puts f.indexPort).map (f.keeps &&& ·)).getD w.index
  regs := (x.puts f.dataPort).elim w.regs (Function.update w.regs w.current)

/-- A 16-bit latch takes its two bytes from two ports. -/
def latchNext (port : Nat) (reg : BitVec 16) (x : Access) : BitVec 16 :=
  (x.puts (port + 1)).getD (reg.extractLsb' 8 8) ++ (x.puts port).getD (reg.extractLsb' 0 8)

def pagesNext (pages : BitVec 4 → Byte) (x : Access) : BitVec 4 → Byte :=
  fun i => (x.puts (0x80 + i.toNat)).getD (pages i)

/-- The device behind one access, file by file. -/
def next (s : ChipsetState) (x : Access) : ChipsetState where
  dmaPage := pagesNext s.dmaPage x
  configIndex := (x.puts 0x4F).getD s.configIndex
  rtc := cmosFile.next s.rtc x
  scamp := scampFile.next s.scamp x
  block2 := block2File.next s.block2 x
  reg22 := latchNext 0x22 s.reg22 x
  reg302 := latchNext 0x302 s.reg302 x
  reg704 := latchNext 0x704 s.reg704 x
  mcu := mcuFile.next s.mcu x
  ext35 := ext35File.next s.ext35 x
  ext15 := ext15File.next s.ext15 x
  status15E8 := if x.polls 0x15E8 ∧ 8 < s.status15E8Reads + 1 then 0x00 else s.status15E8
  status15EC :=
    if x.polls 0x15EC ∧ 8 < s.status15ECReads + 1 then s.status15EC &&& ~~~0x02 else s.status15EC
  status15E8Reads := if x.polls 0x15E8 then s.status15E8Reads + 1 else s.status15E8Reads
  status15ECReads := if x.polls 0x15EC then s.status15ECReads + 1 else s.status15ECReads

theorem IndexedFile.next_idle {n : Nat} {f : IndexedFile n} {w : Window n} {x : Access}
    (index : x.puts f.indexPort = none) (data : x.puts f.dataPort = none) : f.next w x = w := by
  simp [IndexedFile.next, index, data]

theorem IndexedFile.next_select {n : Nat} {f : IndexedFile n} {w : Window n} {x : Access} {v : Byte}
    (index : x.puts f.indexPort = some v) (data : x.puts f.dataPort = none) :
    f.next w x = { w with index := f.keeps &&& v } := by
  simp [IndexedFile.next, index, data]

theorem IndexedFile.next_store {n : Nat} {f : IndexedFile n} {w : Window n} {x : Access} {v : Byte}
    (index : x.puts f.indexPort = none) (data : x.puts f.dataPort = some v) :
    f.next w x = { w with regs := Function.update w.regs w.current v } := by
  simp [IndexedFile.next, index, data]

theorem latchNext_idle {port : Nat} {reg : BitVec 16} {x : Access} (low : x.puts port = none)
    (high : x.puts (port + 1) = none) : latchNext port reg x = reg := by
  rw [latchNext, low, high]
  exact BitVec.extractLsb'_append_extractLsb'

theorem pagesNext_idle {pages : BitVec 4 → Byte} {x : Access}
    (idle : ∀ i : BitVec 4, x.puts (0x80 + i.toNat) = none) : pagesNext pages x = pages := by
  funext i
  rw [pagesNext, idle, Option.getD_none]

/-- The usual pair of ports moves a window as `Window.write` does. -/
theorem IndexedFile.next_write {n p : Nat} (f : IndexedFile n) (w : Window n) {x : Access} {v : BitVec 64}
    (writes : x.data = some v) (narrow : x.sz = 1) (keeps : f.keeps = 0xFF) (index : f.indexPort = p)
    (data : f.dataPort = p + 1) (low : p ≤ x.port) (high : x.port ≤ p + 1) :
    f.next w x = w.write (x.port - p) v := by
  have puts := puts_narrow writes narrow
  by_cases first : x.port = p
  · rw [IndexedFile.next_select (v := v.setWidth 8) (by rw [puts, if_pos (by omega)])
      (by rw [puts, if_neg (by omega)]), keeps, first, Nat.sub_self]
    exact congrArg (Window.mk · w.regs) BitVec.allOnes_and
  · rw [IndexedFile.next_store (v := v.setWidth 8) (by rw [puts, if_neg (by omega)])
      (by rw [puts, if_pos (by omega)]), Window.write, if_neg (by omega)]
    rfl

/-- Between its index and its data the SCAMP window has a port that takes nothing. -/
theorem scampFile_next (w : Window 7) {x : Access} {v : BitVec 64} (writes : x.data = some v)
    (narrow : x.sz = 1) (low : 0x74 ≤ x.port) (high : x.port ≤ 0x76) :
    scampFile.next w x = if x.port - 0x74 = 0 then w.select (v &&& 0x7F)
      else if x.port - 0x74 = 2 then w.store v else w := by
  have puts := puts_narrow writes narrow
  have place : x.port = 0x74 ∨ x.port = 0x75 ∨ x.port = 0x76 := by omega
  rcases place with first | second | third
  · rw [IndexedFile.next_select (f := scampFile) (v := v.setWidth 8) (by rw [puts, first]; rfl)
      (by rw [puts, first]; rfl), first]
    refine congrArg (Window.mk · w.regs) ?_
    rw [BitVec.setWidth_and, BitVec.and_comm]
    rfl
  · rw [IndexedFile.next_idle (f := scampFile) (by rw [puts, second]; rfl) (by rw [puts, second]; rfl),
      second]
    rfl
  · rw [IndexedFile.next_store (f := scampFile) (v := v.setWidth 8) (by rw [puts, third]; rfl)
      (by rw [puts, third]; rfl), third]
    rfl

theorem latchNext_write {p : Nat} (reg : BitVec 16) {x : Access} {v : BitVec 64} (writes : x.data = some v)
    (width : x.sz = 1 ∨ x.sz = 2) (low : p ≤ x.port) (high : x.port + x.sz ≤ p + 2) :
    latchNext p reg x = latchWrite (x.port - p) v x.sz reg := by
  rcases width with narrow | wide
  · have puts := puts_narrow writes narrow
    by_cases first : x.port = p
    · rw [latchNext, puts, puts, if_neg (by omega), if_pos (by omega), first, Nat.sub_self, narrow,
        latchWrite_low]
      rfl
    · rw [latchNext, puts, puts, if_pos (by omega), if_neg (by omega), show x.port - p = 1 by omega, narrow,
        latchWrite_high]
      rfl
  · have puts := puts_wide writes wide
    rw [latchNext, puts, puts, if_neg (by omega), if_pos (by omega), if_pos (by omega), wide, latchWrite_word]
    rfl

theorem pagesNext_write (pages : BitVec 4 → Byte) {x : Access} {v : BitVec 64} (writes : x.data = some v)
    (narrow : x.sz = 1) (low : 0x80 ≤ x.port) (high : x.port < 0x90) :
    pagesNext pages x = Function.update pages (BitVec.ofNat 4 (x.port - 0x80)) (v.setWidth 8) := by
  funext i
  have fits : (BitVec.ofNat 4 (x.port - 0x80)).toNat = x.port - 0x80 := by
    rw [BitVec.toNat_ofNat, Nat.mod_eq_of_lt (by omega)]
  rw [pagesNext, puts_narrow writes narrow]
  by_cases here : i = BitVec.ofNat 4 (x.port - 0x80)
  · rw [here, Function.update_self, if_pos (by omega), Option.getD_some]
  · have apart : i.toNat ≠ x.port - 0x80 := fun same => here (BitVec.eq_of_toNat_eq (same.trans fits.symm))
    rw [Function.update_of_ne here, if_neg (by omega), Option.getD_none]

theorem read_next (s : ChipsetState) (x : Access) (reads : x.data = none) :
    (s.read x.region x.offset x.sz).2 = next s x := by
  have inside := x.inside
  have idle := puts_read reads
  simp only [next, pagesNext_idle fun _ => idle _, IndexedFile.next_idle (idle _) (idle _),
    latchNext_idle (idle _) (idle _), idle, Option.getD_none, Access.polls, reads, Access.offset]
  cases region : x.region <;> simp only [region, Region.base, Region.size] at inside ⊢
  case io15e8 =>
    obtain ⟨k, place⟩ : ∃ k, x.port = 0x15E8 + k := ⟨x.port - 0x15E8, by omega⟩
    have positive : 0 < x.sz := by have := x.width; omega
    have small : k < 5 := by omega
    simp only [place, Nat.add_sub_cancel_left]
    interval_cases k <;> simp [ChipsetState.read, ext15Read]
  all_goals
    have apart : x.port ≠ 0x15E8 ∧ x.port ≠ 0x15EC := by omega
    simp [ChipsetState.read, apart]

theorem write_next (s : ChipsetState) (x : Access) {v : BitVec 64} (writes : x.data = some v) :
    s.write x.region x.offset x.sz v = next s x := by
  have inside := x.inside
  have width := x.width
  have idle := fun port => @puts_elsewhere x port
  have pages := fun elsewhere => @pagesNext_idle s.dmaPage x (pages_elsewhere elsewhere)
  have silent (port : Nat) : x.polls port = false := by simp [Access.polls, writes]
  simp only [next, Access.offset, silent, Bool.false_eq_true, false_and, if_false]
  cases region : x.region <;>
    simp only [region, Region.base, Region.size, Region.maxAccessSize] at inside width idle pages ⊢ <;>
    simp (disch := first | decide | (refine idle _ ?_; decide)) only
      [IndexedFile.next_idle, latchNext_idle, pages, idle, Option.getD_none]
  case io80 =>
    rw [pagesNext_write s.dmaPage writes (by omega) inside.1 (by omega)]
    rfl
  case io4f =>
    rw [puts_narrow writes (by omega), if_pos (by omega)]
    rfl
  case io70 =>
    rw [cmosFile.next_write (p := 0x70) s.rtc writes (by omega) rfl rfl rfl inside.1 (by omega)]
    rfl
  case ioEc =>
    rw [mcuFile.next_write (p := 0xEC) s.mcu writes (by omega) rfl rfl rfl inside.1 (by omega)]
    rfl
  case io35ea =>
    rw [ext35File.next_write (p := 0x35EA) s.ext35 writes (by omega) rfl rfl rfl inside.1 (by omega)]
    rfl
  case io24 =>
    rw [block2File.next_write (p := 0x24) s.block2 writes (by omega) rfl rfl rfl inside.1 (by omega)]
    rfl
  case io22 =>
    rw [latchNext_write s.reg22 writes (by omega) inside.1 inside.2]
    rfl
  case io302 =>
    rw [latchNext_write s.reg302 writes (by omega) inside.1 inside.2]
    rfl
  case io704 =>
    rw [latchNext_write s.reg704 writes (by omega) inside.1 inside.2]
    rfl
  case io74 =>
    rw [scampFile_next s.scamp writes (by omega) inside.1 (by omega)]
    simp only [ChipsetState.write, scampWrite]
    split_ifs <;> rfl
  case io15e8 =>
    simp only [ChipsetState.write, ext15Write]
    by_cases window : 0x15EA ≤ x.port ∧ x.port ≤ 0x15EB
    · rw [ext15File.next_write (p := 0x15EA) s.ext15 writes (by omega) rfl rfl rfl window.1 window.2,
        Window.write]
      have place : x.port = 0x15EA ∨ x.port = 0x15EB := by omega
      rcases place with first | second
      · rw [first]; rfl
      · rw [second]; rfl
    · have puts := puts_narrow writes (by omega)
      rw [if_neg (by omega), if_neg (by omega),
        IndexedFile.next_idle (f := ext15File) (by rw [puts, if_neg (by unfold ext15File; grind)])
          (by rw [puts, if_neg (by unfold ext15File; grind)])]
  case ioEe | io3e0 | io3f0 => rfl

/-- Every access moves each register file by what it puts into that file's own ports. -/
theorem step_next (s : ChipsetState) (x : Access) : (step s x).2 = next s x := by
  cases access : x.data with
  | none =>
    simp only [step, access]
    exact read_next s x access
  | some v =>
    simp only [step, access]
    exact write_next s x access

end Product

end Pc110.Chipset
