import Mathlib.Data.List.GetD
import Pc110.Library.LsbBits
import Pc110.Library.Runs

/-! The banked kanji font ROM of `pc110-fontrom.c`: four I/O ports and an 8 KiB window onto a
1 MiB ROM. Everything a window read sees of the past is the last byte in the bank port. -/
namespace Pc110.FontRom

open LsbBits (Byte)

def fontromSize : Nat := 0x100000
def fontromBankSz : Nat := 0x2000
def fontromBanks : Nat := fontromSize / fontromBankSz
def fontromIobase : Nat := 0x1160
def fontromWindow : Nat := 0xDE000

/-- A realized `PC110FontRomState`: the ROM has been checked for its size. -/
structure Pc110FontRomState where
  rom : List Byte
  sized : rom.length = fontromSize
  bank : Byte
  scratch : Byte
  enable : Byte

/-- `fontrom_realizefn`, by what `g_file_get_contents` returns for a file. -/
def fontromRealizefn (romfile : Option String) (getContents : String → Except String (List Byte)) :
    Except String Pc110FontRomState :=
  match romfile with
  | none => .error "pc110-fontrom: romfile property must be set"
  | some romfile =>
    match getContents romfile with
    | .error message => .error ("pc110-fontrom: cannot read romfile " ++ romfile ++ ": " ++ message)
    | .ok contents =>
      if sized : contents.length = fontromSize then
        .ok { rom := contents, sized, bank := 0, scratch := 0, enable := 0 }
      else .error ("pc110-fontrom: romfile " ++ romfile ++ " is " ++ toString contents.length ++
        " bytes, expected " ++ toString fontromSize)

section Ports
variable (s : Pc110FontRomState) (addr : Nat)

def fontromIoRead : BitVec 64 :=
  match addr with
  | 0 => s.bank.setWidth 64
  | 1 => s.scratch.setWidth 64
  | 2 => BitVec.ofNat 64 (fontromWindow >>> 12)
  | 3 => s.enable.setWidth 64
  | _ => 0xFF

def fontromIoWrite (val : BitVec 64) : Pc110FontRomState :=
  match addr with
  | 0 => { s with bank := val.setWidth 8 }
  | 1 => { s with scratch := val.setWidth 8 }
  | 3 => { s with enable := (val &&& 1).setWidth 8 }
  | _ => s

end Ports

section Window

/-- Where byte `i` of a window access lies in the ROM, in the widths of the source. -/
def windowIndex (bank : Byte) (addr : BitVec 64) (i : Nat) : BitVec 64 :=
  let base : BitVec 32 := BitVec.ofNat 32 (bank.toNat % fontromBanks * fontromBankSz)
  base.setWidth 64 + ((addr + BitVec.ofNat 64 i) &&& BitVec.ofNat 64 (fontromBankSz - 1))

/-- The loop from byte `i` on; `none` for an index outside the ROM. -/
def windowReadLoop (rom : List Byte) (bank : Byte) (addr : BitVec 64) : Nat → Nat → BitVec 64 → Option (BitVec 64)
  | 0, _, val => some val
  | left + 1, i, val =>
    match rom[(windowIndex bank addr i).toNat]? with
    | none => none
    | some byte => windowReadLoop rom bank addr left (i + 1) (val ||| byte.setWidth 64 <<< (8 * i))

def fontromWindowRead (s : Pc110FontRomState) (addr : BitVec 64) (size : Nat) : Option (BitVec 64) :=
  windowReadLoop s.rom s.bank addr size 0 0

/-- Ignored: it is ROM. -/
def fontromWindowWrite (s : Pc110FontRomState) (_addr _val : BitVec 64) (_size : Nat) : Pc110FontRomState := s

end Window

/-- What the guest does to the device. An I/O access wider than a byte arrives as bytes. -/
inductive Event where
  | portRead (port : Nat)
  | portWrite (port : Nat) (val : Byte)
  | windowRead (addr : BitVec 64) (size : Nat)
  | windowWrite (addr val : BitVec 64) (size : Nat)

/-- Ports outside its region do not reach the device. -/
def step (e : Event) (s : Pc110FontRomState) : Pc110FontRomState :=
  match e with
  | .portWrite port val =>
    if fontromIobase ≤ port ∧ port < fontromIobase + 4 then
      fontromIoWrite s (port - fontromIobase) (val.setWidth 64)
    else s
  | .windowWrite addr val size => fontromWindowWrite s addr val size
  | .portRead _ | .windowRead _ _ => s

def run : List Event → Pc110FontRomState → Pc110FontRomState := Runs.run step

section History

def Event.toBank : Event → Option Byte
  | .portWrite port val => if port = 0x1160 then some val else none
  | _ => none

def lastBank (initial : Byte) (events : List Event) : Byte :=
  ((events.filterMap Event.toBank).getLast?).getD initial

variable {s : Pc110FontRomState}

@[simp] theorem step_rom (e : Event) (s : Pc110FontRomState) : (step e s).rom = s.rom := by
  cases e with
  | portWrite port val =>
    simp only [step]
    split
    · unfold fontromIoWrite
      split <;> rfl
    · rfl
  | _ => rfl

theorem step_bank (e : Event) (s : Pc110FontRomState) : (step e s).bank = e.toBank.getD s.bank := by
  cases e with
  | portWrite port val =>
    simp only [step, Event.toBank]
    by_cases bankPort : port = 0x1160
    · subst bankPort
      simp [fontromIobase, fontromIoWrite]
    · rw [if_neg bankPort]
      split
      · rename_i inside
        unfold fontromIobase at *
        obtain ⟨offset, rfl⟩ := Nat.exists_eq_add_of_le inside.1
        rw [Nat.add_sub_cancel_left]
        unfold fontromIoWrite
        split <;> first | rfl | omega
      · rfl
  | _ => rfl

@[simp] theorem run_rom (events : List Event) (s : Pc110FontRomState) : (run events s).rom = s.rom :=
  Runs.run_keeps step step_rom events s

theorem run_bank (events : List Event) (s : Pc110FontRomState) : (run events s).bank = lastBank s.bank events :=
  Runs.run_last step step_bank events s

/-- A device differs from another only in ROM and bank as far as its window goes. -/
theorem windowRead_congr {s t : Pc110FontRomState} (rom : s.rom = t.rom) (bank : s.bank = t.bank) (addr : BitVec 64)
    (size : Nat) : fontromWindowRead s addr size = fontromWindowRead t addr size := by
  rw [fontromWindowRead, fontromWindowRead, rom, bank]

end History

section Reading

def shownAt (bank : Byte) (addr : BitVec 64) (i : Nat) : Nat :=
  bank.toNat % 128 * 0x2000 + (addr.toNat + i) % 0x2000

def shown (rom : List Byte) (bank : Byte) (addr : BitVec 64) (size : Nat) : List Byte :=
  (List.range size).map fun i => rom.getD (shownAt bank addr i) 0

variable {rom : List Byte} (bank : Byte) (addr : BitVec 64)

/-- The bank is the high part of the index and the place in it the low one. -/
theorem shownAt_lt (i : Nat) : shownAt bank addr i < 0x100000 := by
  have low := Nat.mod_lt bank.toNat (show 0 < 128 by decide)
  have place := Nat.mod_lt (addr.toNat + i) (show 0 < 0x2000 by decide)
  unfold shownAt
  omega

theorem windowIndex_toNat (i : Nat) : (windowIndex bank addr i).toNat = shownAt bank addr i := by
  have bound := shownAt_lt bank addr i
  have place : ((addr + BitVec.ofNat 64 i) &&& BitVec.ofNat 64 (fontromBankSz - 1)).toNat =
      (addr.toNat + i) % 0x2000 := by
    have low := Nat.and_two_pow_sub_one_eq_mod (addr + BitVec.ofNat 64 i).toNat 13
    rw [BitVec.toNat_and]
    refine low.trans ?_
    rw [BitVec.toNat_add, BitVec.toNat_ofNat, Nat.mod_mod_of_dvd _ (show 2 ^ 13 ∣ 2 ^ 64 by decide)]
    omega
  have base : (BitVec.ofNat 32 (bank.toNat % fontromBanks * fontromBankSz)).toNat = bank.toNat % 128 * 0x2000 := by
    rw [BitVec.toNat_ofNat]
    exact Nat.mod_eq_of_lt (by unfold fontromBanks fontromSize fontromBankSz; omega)
  unfold shownAt at *
  rw [windowIndex, BitVec.toNat_add, place, BitVec.toNat_setWidth, base]
  omega

theorem shown_length (rom : List Byte) (size : Nat) : (shown rom bank addr size).length = size := by
  simp [shown]

theorem shown_succ (rom : List Byte) (size : Nat) :
    shown rom bank addr (size + 1) = shown rom bank addr size ++ [rom.getD (shownAt bank addr size) 0] := by
  simp [shown, List.range_succ]

/-- The loop goes on from the value of the bytes before, and no index leaves the ROM. -/
theorem windowReadLoop_value (sized : rom.length = fontromSize) (left i : Nat) (val : BitVec 64)
    (room : i + left ≤ 8) (before : val.toNat = LsbBits.value (shown rom bank addr i)) :
    (windowReadLoop rom bank addr left i val).map BitVec.toNat =
      some (LsbBits.value (shown rom bank addr (i + left))) := by
  induction left generalizing i val with
  | zero => rw [windowReadLoop, Option.map_some, before, Nat.add_zero]
  | succ left ih =>
    have inside : shownAt bank addr i < rom.length := by
      rw [sized]
      exact shownAt_lt bank addr i
    have byte : rom[(windowIndex bank addr i).toNat]? = some (rom.getD (shownAt bank addr i) 0) := by
      rw [windowIndex_toNat, List.getElem?_eq_getElem inside, List.getD_eq_getElem _ _ inside]
    have small : val.toNat < 2 ^ (8 * i) := by
      have bound := LsbBits.value_lt (shown rom bank addr i)
      rwa [shown_length, ← before] at bound
    rw [windowReadLoop, byte]
    refine (ih (i + 1) _ (by omega) ?_).trans (by rw [Nat.add_right_comm, Nat.add_assoc])
    rw [LsbBits.or_byte small (by omega), shown_succ, LsbBits.value_append, shown_length, before]
    simp [LsbBits.value]

/-- A read combines the bytes shown, the first one lowest. -/
theorem windowRead_value (s : Pc110FontRomState) {size : Nat} (atMost : size ≤ 8) :
    (fontromWindowRead s addr size).map BitVec.toNat = some (LsbBits.value (shown s.rom s.bank addr size)) := by
  have value := windowReadLoop_value s.bank addr s.sized size 0 0 (by omega) rfl
  rwa [Nat.zero_add] at value

/-- A byte read shows one byte, wherever in the window its offset wraps to. -/
theorem windowRead_byte (s : Pc110FontRomState) (i : Nat) :
    (fontromWindowRead s (BitVec.ofNat 64 ((addr.toNat + i) % 0x2000)) 1).map BitVec.toNat =
      some (s.rom.getD (shownAt s.bank addr i) 0).toNat := by
  have place : shownAt s.bank (BitVec.ofNat 64 ((addr.toNat + i) % 0x2000)) 0 = shownAt s.bank addr i := by
    have small := Nat.mod_lt (addr.toNat + i) (show 0 < 0x2000 by decide)
    rw [shownAt, shownAt, BitVec.toNat_ofNat]
    omega
  rw [windowRead_value _ s (by decide)]
  simp [shown, place, LsbBits.value]

end Reading

/-- A window read behind some events, from a device that has just been realized. -/
structure WindowServed (contents : List Byte) (start : Pc110FontRomState) (events : List Event)
    (addr : BitVec 64) (size : Nat) : Prop where
  inside : ∀ i < size, (windowIndex (run events start).bank addr i).toNat < 0x100000
  served : (fontromWindowRead (run events start) addr size).map BitVec.toNat =
    some (LsbBits.value (shown contents (lastBank 0 events) addr size))
  bytewise : ∃ bytes : List Byte, bytes.length = size ∧
    (∀ i < size, (fontromWindowRead (run events start) (BitVec.ofNat 64 ((addr.toNat + i) % 0x2000)) 1).map
      BitVec.toNat = some (bytes.getD i 0).toNat) ∧
    (fontromWindowRead (run events start) addr size).map BitVec.toNat = some (LsbBits.value bytes)
  otherPorts : fontromWindowRead (run events start) addr size =
    fontromWindowRead (run (events.filter (·.toBank.isSome)) start) addr size
  windowWrites : ∀ front back a v sz, events = front ++ .windowWrite a v sz :: back →
    fontromWindowRead (run events start) addr size = fontromWindowRead (run (front ++ back) start) addr size

theorem lastBank_filter (initial : Byte) (events : List Event) :
    lastBank initial (events.filter (·.toBank.isSome)) = lastBank initial events := by
  have same : (events.filter (·.toBank.isSome)).filterMap Event.toBank = events.filterMap Event.toBank := by
    induction events with
    | nil => rfl
    | cons e events ih =>
      cases put : e.toBank <;> simp [put, ih]
  rw [lastBank, same, lastBank]

/-- The window shows the bank last selected, whatever else was written. -/
theorem windowServed (romfile : String) (getContents : String → Except String (List Byte)) (contents : List Byte)
    (file : getContents romfile = .ok contents) (sized : contents.length = 0x100000) :
    ∃ start, fontromRealizefn (some romfile) getContents = .ok start ∧
      ∀ events addr size, size ≤ 8 → WindowServed contents start events addr size := by
  refine ⟨⟨contents, sized, 0, 0, 0⟩, ?_, fun events addr size atMost => ?_⟩
  · simp only [fontromRealizefn, file]
    exact dif_pos sized
  · generalize start_eq : (⟨contents, sized, 0, 0, 0⟩ : Pc110FontRomState) = start
    have rom : start.rom = contents := by rw [← start_eq]
    have bank (events : List Event) : (run events start).bank = lastBank 0 events := by
      rw [run_bank, ← start_eq]
    have served := windowRead_value addr (run events start) atMost
    rw [run_rom, rom, bank] at served
    constructor
    case inside =>
      intro i _
      rw [windowIndex_toNat]
      exact shownAt_lt _ addr i
    case served => exact served
    case bytewise =>
      refine ⟨_, shown_length _ addr contents size, fun i below => ?_, served⟩
      have byte := windowRead_byte addr (run events start) i
      rw [run_rom, rom, bank] at byte
      rw [byte]
      simp [shown, below]
    case otherPorts =>
      refine windowRead_congr ?_ ?_ addr size
      · rw [run_rom, run_rom]
      · rw [bank, bank, lastBank_filter]
    case windowWrites =>
      rintro front back a v sz rfl
      refine windowRead_congr ?_ ?_ addr size
      · rw [run_rom, run_rom]
      · rw [bank, bank]
        simp [lastBank, Event.toBank]

/-- A ROM of FFh behind a write to the bank port and one to the window. -/
theorem windowServed_blank : ∃ start,
    fontromRealizefn (some "font.rom") (fun _ => .ok (List.replicate 0x100000 0xFF)) = .ok start ∧
      WindowServed (List.replicate 0x100000 0xFF) start
        [.portWrite 0x1160 0x85, .windowWrite 0 0 4] 0x1FFE 4 := by
  obtain ⟨start, realized, served⟩ := windowServed "font.rom" (fun _ => .ok (List.replicate 0x100000 0xFF)) _
    rfl List.length_replicate
  exact ⟨start, realized, served _ 0x1FFE 4 (by decide)⟩

end Pc110.FontRom
