import Pc110.BiosWindow
import Pc110.Int13Read
import Pc110.SetupRestart

/-! The E-segment over runs. Writes of the guest and stores of the intercept reach it only behind the
boot of the disk, which happens once and for good, so what a run leaves there is the image under the
writes behind its boot. -/
namespace Pc110

open LsbBits (Byte)
open ByteMemory (Memory)
open Chipset (eramWrite eramRead)

/-- The machine, and host memory from the start of the E-segment on. -/
structure Platform where
  machine : Machine
  eram : Memory Byte

/-- A byte and its offset in the E-segment. -/
abbrev WindowWrite := BitVec 16 × Byte

inductive BusEvent where
  /-- An event, and the bytes that the intercept stores in the E-segment meanwhile. -/
  | machine (e : Event) (stores : List WindowWrite)
  /-- A guest byte write to E000:`a`. -/
  | write (a : BitVec 16) (v : BitVec 64)

def Platform.step (q : Stock) : BusEvent → Platform → Platform
  | .machine e stores, p =>
    let machine := p.machine.step q e
    -- the boot sets the latch before it stores anything
    { machine
      eram := stores.foldl (fun ram w => eramWrite machine.statics.booted ram w.1.toNat (w.2.setWidth 64) 1) p.eram }
  | .write a v, p => { p with eram := eramWrite p.machine.statics.booted p.eram a.toNat v 1 }

section Model

def writes : List BusEvent → List WindowWrite
  | [] => []
  | .write a v :: events => (a, v.setWidth 8) :: writes events
  | .machine _ stores :: events => stores ++ writes events

def writesBehindBoot (q : Stock) : Machine → List BusEvent → List WindowWrite
  | _, [] => []
  | m, .write _ _ :: events => writesBehindBoot q m events
  | m, .machine e stores :: events =>
    if boots q e m then stores ++ writes events else writesBehindBoot q (m.step q e) events

def overlay (image : Memory Byte) : List WindowWrite → Memory Byte
  | [] => image
  | (a, v) :: later => overlay (Function.update image a.toNat v) later

end Model

section Boot
variable {q : Stock} {m : Machine}

theorem enterEasySetup_booted {s : Machine} (forced : Bool) (base : (s.env.segs .cs).base = 0xF0000)
    (fresh : s.statics.booted = false) :
    let r := (true, enterEasySetup forced s)
    r.2.statics.booted = false ∧ ¬ BootsDisk r := by
  intro r
  refine ⟨?_, (enterEasySetup_enters forced base).not_bootsDisk⟩
  simp only [r, (enterEasySetup_guestOnly s forced).statics, fresh]

/-- A call boots the disk exactly where it sets the latch. -/
theorem booted_call (fresh : m.statics.booted = false) :
    (postIntercept q m.pc m).2.statics.booted = boots q .call m := by
  by_cases there : Reaches m.pc m ∧ (Site.of m m.pc).rom 0x52BD
  · obtain ⟨reaches, here⟩ := there
    have base (d : Diag) : ((m.atBoot d).env.segs .cs).base = 0xF0000 := by rw [atBoot_eip]; exact here.1
    have latch (d : Diag) : (m.atBoot d).statics.booted = false := by
      rw [atBoot_statics, Machine.inBios_booted]
      exact fresh
    have skips (out : ¬ BootsDisk (postIntercept q m.pc m)) : boots q .call m = false :=
      decide_eq_false fun booted => out booted.2
    rcases reaches.boot_takes (q := q) here with ⟨-, -, -, d, eq⟩ | ⟨-, -, -, -, d, eq⟩ |
      ⟨-, -, -, d, path, bf, -, -, -, eq⟩ | ⟨-, d, eq⟩
    · obtain ⟨still, out⟩ := enterEasySetup_booted false (base d) (latch d)
      rw [skips (eq ▸ out), eq]
      exact still
    · obtain ⟨still, out⟩ := enterEasySetup_booted true (s := { m.atBoot d with
        statics := { (m.atBoot d).statics with entered := true, keyPressed := false } }) (base d) (latch d)
      rw [skips (eq ▸ out), eq]
      exact still
    · have booted : boots q .call m = true :=
        decide_eq_true ⟨⟨reaches, here, fresh⟩, eq ▸ ⟨rfl, rfl, rfl, rfl⟩⟩
      rw [booted, eq]
      rfl
    · rw [skips (eq ▸ fun booted => Bool.noConfusion booted.1), eq]
      exact latch d
  · have none : boots q .call m = false :=
      decide_eq_false fun booted => there ⟨booted.1.reaches, booted.1.here⟩
    rw [none]
    obtain ⟨⟨resets, moves, -⟩, -, -⟩ := postIntercept_frame q m.pc m
    cases moves with
    | stays kept | portReset _ _ _ kept | warmReset _ _ kept | counts _ _ _ _ _ kept =>
      exact kept.booted.trans fresh
    | setup reaches here | boot reaches here => exact absurd ⟨reaches, here⟩ there

/-- The latch is set by a boot of the disk, and by nothing else, for good. -/
theorem booted_iff (q : Stock) (m : Machine) (e : Event) :
    (m.step q e).statics.booted = (m.statics.booted || boots q e m) := by
  cases booted : m.statics.booted with
  | true => exact booted_step e booted
  | false =>
    rw [Bool.false_or]
    cases e with
    | call => exact booted_call booted
    | kbcReset =>
      refine Eq.trans ?_ booted
      simp only [Machine.step]
      split <;> rfl
    | key | guest | host | systemReset => exact booted

end Boot

section Overlay
variable {image image' : Memory Byte} {place : Nat}

theorem overlay_append (image : Memory Byte) (first later : List WindowWrite) :
    overlay image (first ++ later) = overlay (overlay image first) later := by
  induction first generalizing image with
  | nil => rfl
  | cons w first ih => exact ih (Function.update image w.1.toNat w.2)

theorem overlay_congr (same : image place = image' place) (later : List WindowWrite) :
    overlay image later place = overlay image' later place := by
  induction later generalizing image image' with
  | nil => exact same
  | cons w later ih =>
    obtain ⟨a, v⟩ := w
    apply ih
    by_cases here : place = a.toNat
    · rw [here, Function.update_self, Function.update_self]
    · rw [Function.update_of_ne here, Function.update_of_ne here, same]

end Overlay

section Intercept

/-- The part of a store that falls into the E-segment. -/
def windowStores (address : Nat) : List Byte → List WindowWrite
  | [] => []
  | v :: data =>
    if 0xE0000 ≤ address ∧ address < 0xF0000 then
      (BitVec.ofNat 16 (address - 0xE0000), v) :: windowStores (address + 1) data
    else windowStores (address + 1) data

def window (mem : Memory Byte) : Memory Byte := fun i => mem (0xE0000 + i)

theorem window_write (mem : Memory Byte) (address : Nat) (data : List Byte) {i : Nat} (inside : i < 0x10000) :
    window (ByteMemory.write mem address data) i = overlay (window mem) (windowStores address data) i := by
  induction data generalizing mem address with
  | nil => rw [ByteMemory.write_nil, windowStores, overlay]
  | cons v data ih =>
    have first := ByteMemory.write_append mem address [v] data
    rw [ByteMemory.write_singleton, List.length_singleton, List.singleton_append] at first
    rw [← first, ih, windowStores]
    split_ifs with here
    · apply overlay_congr
      have place : (BitVec.ofNat 16 (address - 0xE0000)).toNat = address - 0xE0000 := by
        rw [BitVec.toNat_ofNat, Nat.mod_eq_of_lt (by omega)]
      rw [place, window]
      by_cases hit : i = address - 0xE0000
      · rw [hit, Function.update_self, show 0xE0000 + (address - 0xE0000) = address by omega, Function.update_self]
      · rw [Function.update_of_ne hit, Function.update_of_ne (by omega), window]
    · apply overlay_congr
      rw [window, Function.update_of_ne (by omega), window]

theorem overlay_windowStores (image : Memory Byte) (address : Nat) (data : List Byte) {i : Nat}
    (inside : i < 0x10000) : overlay image (windowStores address data) i =
      ByteMemory.write (fun a => image (a - 0xE0000)) address data (0xE0000 + i) := by
  have whole : window (fun a => image (a - 0xE0000)) = image := by
    funext a
    rw [window, Nat.add_sub_cancel_left]
  have stored := window_write (fun a => image (a - 0xE0000)) address data inside
  rw [whole] at stored
  exact stored.symm

/-- What an INT 13h read stores in the E-segment. -/
def Int13.readStores (m : Machine) : List WindowWrite :=
  (List.range (found m)).flatMap fun k =>
    windowStores (buffer m + BitVec.ofNat 32 k * 512).toNat
      (sectorAt ((bootImage m).getD []) ((request m).lba + k))

theorem Int13.stored_window (mem : Memory Byte) (image : List Byte) (lba : Nat) (dst : Word) (n : Nat) {i : Nat}
    (inside : i < 0x10000) : window (stored mem image lba dst n) i =
      overlay (window mem) ((List.range n).flatMap fun k =>
        windowStores (dst + BitVec.ofNat 32 k * 512).toNat (sectorAt image (lba + k))) i := by
  induction n with
  | zero => rfl
  | succ n ih =>
    rw [stored, window_write _ _ _ inside, List.range_succ, List.flatMap_append, overlay_append]
    simp only [List.flatMap_singleton]
    exact overlay_congr ih _

/-- INT 13h leaves the E-segment of its memory under exactly these bytes. -/
theorem Int13.int13_window {m : Machine} (drive : 0x80 ≤ lo8 (m.env.regs .edx))
    (function : hi8 (m.env.regs .eax) = 0x02) {i : Nat} (inside : i < 0x10000) :
    window (int13 m).mem i = overlay (window m.mem) (readStores m) i := by
  have served := serve_read m (BitVec.not_lt.mpr drive) function
  rw [readSectors_eq] at served
  have mem : (int13 m).mem = delivered m := by
    rw [int13_mem, served]
    rfl
  rw [mem]
  exact stored_window m.mem _ _ _ _ inside

end Intercept

section Runs
variable {q : Stock} {p : Platform}

theorem eramWrite_booted (ram : Memory Byte) (a : BitVec 16) (v : BitVec 64) :
    eramWrite true ram a.toNat v 1 = Function.update ram a.toNat (v.setWidth 8) := by
  have inside : a.toNat + 1 ≤ 0x10000 := a.isLt
  rw [eramWrite, if_neg (by decide), if_pos inside]
  exact ByteMemory.write_singleton ram a.toNat _

/-- The stores of an event are kept all or dropped all. -/
theorem stores_eram (booted : Bool) (stores : List WindowWrite) (ram : Memory Byte) :
    stores.foldl (fun ram w => eramWrite booted ram w.1.toNat (w.2.setWidth 64) 1) ram =
      if booted then overlay ram stores else ram := by
  induction stores generalizing ram with
  | nil => cases booted <;> rfl
  | cons w stores ih =>
    rw [List.foldl_cons, ih]
    cases booted with
    | true =>
      have byte : (w.2.setWidth 64).setWidth 8 = w.2 := by
        ext i h
        simp
      rw [eramWrite_booted, byte]
      rfl
    | false => rfl

theorem run_booted (events : List BusEvent) (booted : p.machine.statics.booted = true) :
    (Runs.run (Platform.step q) events p).eram = overlay p.eram (writes events) := by
  induction events generalizing p with
  | nil => rfl
  | cons e events ih =>
    cases e with
    | machine e stores =>
      have still : (p.machine.step q e).statics.booted = true :=
        (booted_iff q p.machine e).trans (by rw [booted, Bool.true_or])
      rw [Runs.run, ih (p := p.step q (.machine e stores)) still, writes, overlay_append]
      simp only [Platform.step, stores_eram, still, if_true]
    | write a v =>
      rw [Runs.run, ih (p := p.step q (.write a v)) booted]
      simp only [Platform.step, booted, eramWrite_booted, writes, overlay]

/-- Writes before the boot leave no trace. -/
theorem run_overlay (events : List BusEvent) (fresh : p.machine.statics.booted = false) :
    (Runs.run (Platform.step q) events p).eram = overlay p.eram (writesBehindBoot q p.machine events) := by
  induction events generalizing p with
  | nil => rfl
  | cons e events ih =>
    cases e with
    | machine e stores =>
      have latch := booted_iff q p.machine e
      rw [fresh, Bool.false_or] at latch
      rw [Runs.run, writesBehindBoot]
      split_ifs with boots
      · rw [run_booted (p := p.step q (.machine e stores)) events (latch.trans boots), overlay_append]
        simp only [Platform.step, stores_eram, latch.trans boots, if_true]
      · have still := latch.trans (Bool.eq_false_iff.mpr boots)
        rw [ih (p := p.step q (.machine e stores)) still]
        simp only [Platform.step, stores_eram, still, Bool.false_eq_true, if_false]
    | write a v =>
      have dropped : (p.step q (.write a v)).eram = p.eram := by
        simp only [Platform.step, fresh, eramWrite, if_pos]
      rw [Runs.run, ih (p := p.step q (.write a v)) fresh, dropped]
      rfl

end Runs

/-- From power-on the E-segment is the patched image under the writes behind the boot, and a
boot of the disk is all that sets the latch. No access leaves the 64 KiB. -/
theorem run_eram (q : Stock) {biosfile : String} {file : List Byte}
    {biospatch vgac000 : Option Chipset.CString} {host regions : Chipset.BiosRegions}
    (loaded : Chipset.loadBios biosfile (.ok file) biospatch vgac000 host = .ok regions)
    (events : List BusEvent) (env : Env) (mem : Memory Byte) (bus : Nat → Byte)
    (getenv : EnvVar → Option String) (files : String → Option (List Byte)) :
    (∀ i < 0x10000,
      (Runs.run (Platform.step q) events ⟨.start env mem bus getenv files, regions.eram⟩).eram i =
        overlay (fun a => Chipset.patched biospatch (Chipset.fileImage file) (0x20000 + a))
          (writesBehindBoot q (.start env mem bus getenv files) events) i) ∧
    (∀ m e, (Machine.step q e m).statics.booted = (m.statics.booted || boots q e m)) ∧
    (∀ booted ram a v sz, a < 0x10000 → 1 ≤ sz → sz ≤ 8 →
      ∀ place, 0x10000 ≤ place → eramWrite booted ram a v sz place = ram place) ∧
    (∀ ram a sz, a < 0x10000 → 1 ≤ sz → sz ≤ 8 →
      (eramRead ram a sz).toNat = LsbBits.value (ByteMemory.read ram a (min sz (0x10000 - a)))) := by
  refine ⟨fun i inside => ?_, fun m e => booted_iff q m e, ?_, ?_⟩
  · rw [run_overlay events rfl]
    exact overlay_congr (Chipset.loadBios_eram loaded inside) _
  · intro booted ram a v sz _ _ _ place outside
    exact Chipset.eramWrite_outside booted ram a v sz outside
  · intro ram a sz inside _ size
    exact Chipset.eramRead_value ram inside size

def bootOnly : EnvVar → Option String
  | .pc110Post => some "1"
  | .pc110Boot => some "disk.img"
  | _ => none

def blankRom : List Byte := List.replicate Chipset.biosMapSize 0

def blankRegions : Chipset.BiosRegions :=
  Chipset.BiosRegions.copy ⟨fun _ => 0, fun _ => 0, fun _ => 0⟩
    (Chipset.vgaCopied none (Chipset.patched none (Chipset.fileImage blankRom)))

def blankStart : Machine :=
  .start (cpuAt 0) (fun _ => 0) (fun _ => 0) bootOnly fun _ => some (List.replicate 512 0x5A)

/-- INT 13h is asked for the first sector, to be read to E000:0020. -/
def readsToWindow : Env :=
  { cpuAt 0xD2D7 with
    regs := fun | .eax => 0x0201 | .ebx => 0x20 | .ecx => 0x0001 | .edx => 0x80 | _ => 0
    segs := fun | .cs => ⟨0xF000, 0xF0000, 0xFFFF, 0⟩ | .es => ⟨0xE000, 0xE0000, 0xFFFF, 0⟩ | _ => default }

def readWindow : List WindowWrite := windowStores 0xE0020 (List.replicate 512 0x5A)

/-- Writes on either side of the boot, and a sector read behind it. -/
def aroundBoot : List BusEvent := [
  .write 0xFFFF 0x55,
  .machine (.guest (cpuAt 0x52BD) (fun _ => 0) (fun _ => 0)) [],
  .machine .call [],
  .write 0x0010 0xAA,
  .machine (.guest readsToWindow (fun _ => 0) (fun _ => 0)) [],
  .machine .call readWindow]

theorem blankRom_blank (a : Nat) : Chipset.fileImage blankRom a = 0 := by
  rw [Chipset.fileImage, List.getD_eq_getElem?_getD]
  cases byte : blankRom[a]? with
  | none => rfl
  | some b => exact List.eq_of_mem_replicate (List.mem_of_getElem? byte)

theorem readWindow_outside (image : Memory Byte) {i : Nat} (inside : i < 0x10000) (outside : ¬ (0x20 ≤ i ∧ i < 0x220)) :
    overlay image readWindow i = image i := by
  have apart : ¬ ByteMemory.Within 0xE0020 (List.replicate 512 (0x5A : Byte)).length (0xE0000 + i) := by
    rw [List.length_replicate]
    rintro ⟨low, high⟩
    omega
  rw [readWindow, overlay_windowStores image _ _ inside, ByteMemory.write_outside _ _ _ _ apart, Nat.add_sub_cancel_left]

theorem readWindow_first (image : Memory Byte) : overlay image readWindow 0x20 = 0x5A := by
  have first : 0 < (List.replicate 512 (0x5A : Byte)).length := by
    rw [List.length_replicate]
    decide
  rw [readWindow, overlay_windowStores image _ _ (by decide)]
  exact (ByteMemory.write_inside _ 0xE0020 0 _ first).trans (List.getElem_replicate first)

theorem run_eram_aroundBoot :
    let eram := (Runs.run (Platform.step default) aroundBoot ⟨blankStart, blankRegions.eram⟩).eram
    eram 0xFFFF = 0 ∧ eram 0x0010 = 0xAA ∧ eram 0x0020 = 0x5A := by
  intro eram
  have loaded : Chipset.loadBios "bios.bin" (.ok blankRom) none none
      ⟨fun _ => 0, fun _ => 0, fun _ => 0⟩ = .ok blankRegions :=
    Chipset.loadBios_sized List.length_replicate _ _ _ _
  have behind : writesBehindBoot default blankStart aroundBoot = (0x0010, 0xAA) :: readWindow := by decide +kernel
  have shown := (run_eram default loaded aroundBoot (cpuAt 0) (fun _ => 0) (fun _ => 0) bootOnly fun _ =>
    some (List.replicate 512 0x5A)).1
  rw [← blankStart, behind] at shown
  refine ⟨(shown 0xFFFF (by decide)).trans ?_, (shown 0x0010 (by decide)).trans ?_,
    (shown 0x0020 (by decide)).trans ?_⟩
  · rw [overlay, readWindow_outside _ (by decide) (by decide), Function.update_of_ne (by decide)]
    exact blankRom_blank _
  · rw [overlay, readWindow_outside _ (by decide) (by decide)]
    rfl
  · rw [overlay]
    exact readWindow_first _

end Pc110
