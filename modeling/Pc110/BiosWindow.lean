import Pc110.Library.ByteMemory
import Pc110.Library.LsbBits

/-! The BIOS image behind C0000h-FFFFFh, from `pc110_chipset_realizefn`: the patches on it, the
regions it is copied into, and the handlers of the E-segment, which is ROM until the disk
boots and memory from then on. -/
namespace Pc110.Chipset

open LsbBits (Byte)
open ByteMemory (Memory read write)

/-- A C string, one character a byte. -/
abbrev CString := List Char

section Strtoul

def isSpace (c : Char) : Bool := c = ' ' ∨ (9 ≤ c.toNat ∧ c.toNat ≤ 13)

def hexDigit (c : Char) : Option Nat :=
  if '0' ≤ c ∧ c ≤ '9' then some (c.toNat - 0x30)
  else if 'A' ≤ c ∧ c ≤ 'F' then some (c.toNat - 0x41 + 10)
  else if 'a' ≤ c ∧ c ≤ 'f' then some (c.toNat - 0x61 + 10)
  else none

def hexDigits (n : Nat) : CString → Nat
  | [] => n
  | c :: rest =>
    match hexDigit c with
    | some digit => hexDigits (16 * n + digit) rest
    | none => n

/-- `strtoul(s, NULL, 16)`: blanks, a sign, a prefix, digits. -/
def strtoul (s : CString) : BitVec 64 :=
  let s := s.dropWhile isSpace
  let (negative, s) := match s with
    | '-' :: rest => (true, rest)
    | '+' :: rest => (false, rest)
    | s => (false, s)
  let digits := match s with
    | '0' :: 'x' :: rest | '0' :: 'X' :: rest => rest
    | s => s
  let n := hexDigits 0 digits
  if 2 ^ 64 ≤ n then BitVec.allOnes 64
  else if negative then -(BitVec.ofNat 64 n) else BitVec.ofNat 64 n

end Strtoul

section Image

def biosMapSize : Nat := 0x40000

/-- The bytes of a patch, two digits each; an odd one is left over. -/
def hexPairs : CString → List Byte
  | high :: low :: rest => (strtoul [high, low]).setWidth 8 :: hexPairs rest
  | _ => []

/-- One `off=hex` item; the part beyond the image is cut off, an item without `=` is skipped. -/
def patchItem (contents : Memory Byte) (item : CString) : Memory Byte :=
  match item.span (· ≠ '=') with
  | (off, _ :: h) =>
    let off := (strtoul off).toNat
    write contents off ((hexPairs h).take (biosMapSize - off))
  | (_, []) => contents

def patched (biospatch : Option CString) (contents : Memory Byte) : Memory Byte :=
  match biospatch with
  | some (c :: rest) => ((c :: rest).splitOn ',').foldl patchItem contents
  | _ => contents

/-- The VGA BIOS once more, at C0000. -/
def vgaCopied (vgac000 : Option CString) (contents : Memory Byte) : Memory Byte :=
  match vgac000 with
  | some (_ :: _) => write contents 0 (read contents 0x20000 0x10000)
  | _ => contents

/-- The file as `g_file_get_contents` returns it. -/
def fileImage (file : List Byte) : Memory Byte := fun a => file.getD a 0

/-- Host memory from the start of each region on. -/
structure BiosRegions where
  crom : Memory Byte
  eram : Memory Byte
  fram : Memory Byte

def BiosRegions.copy (host : BiosRegions) (contents : Memory Byte) : BiosRegions where
  crom := write host.crom 0 (read contents 0 0x20000)
  eram := write host.eram 0 (read contents 0x20000 0x10000)
  fram := write host.fram 0 (read contents 0x30000 0x10000)

def loadBios (biosfile : String) (file : Except String (List Byte)) (biospatch vgac000 : Option CString)
    (host : BiosRegions) : Except String BiosRegions :=
  match file with
  | .error reason => .error ("pc110-chipset: cannot read biosfile " ++ biosfile ++ ": " ++ reason)
  | .ok file =>
    if file.length ≠ biosMapSize then
      .error ("pc110-chipset: biosfile " ++ biosfile ++ " is " ++ toString file.length ++
        " bytes, expected " ++ toString biosMapSize)
    else .ok (host.copy (vgaCopied vgac000 (patched biospatch (fileImage file))))

end Image

section Handlers

/-- `eram_write`: nothing before the boot, nothing that crosses the end of the window. -/
def eramWrite (booted : Bool) (ram : Memory Byte) (a : Nat) (v : BitVec 64) (sz : Nat) : Memory Byte :=
  if booted = false then ram
  else if a + sz ≤ 0x10000 then
    write ram a ((List.range sz).map fun i => (v >>> (8 * i)).setWidth 8)
  else ram

/-- The loop of `eram_read`, from byte `i` on. -/
def eramReadLoop (ram : Memory Byte) (a : Nat) : Nat → Nat → BitVec 64 → BitVec 64
  | 0, _, r => r
  | left + 1, i, r =>
    if a + i < 0x10000 then eramReadLoop ram a left (i + 1) (r ||| ((ram (a + i)).setWidth 64 <<< (8 * i)))
    else r

def eramRead (ram : Memory Byte) (a sz : Nat) : BitVec 64 := eramReadLoop ram a sz 0 0

end Handlers

section Regions

/-- The copy of the VGA BIOS ends where the second quarter of the image starts. -/
theorem vgaCopied_above (vgac000 : Option CString) (contents : Memory Byte) {a : Nat}
    (above : 0x10000 ≤ a) : vgaCopied vgac000 contents a = contents a := by
  unfold vgaCopied
  split
  · apply ByteMemory.write_outside
    rw [ByteMemory.read_length]
    rintro ⟨-, below⟩
    omega
  · rfl

theorem copy_eram (host : BiosRegions) (contents : Memory Byte) {i : Nat} (inside : i < 0x10000) :
    (host.copy contents).eram i = contents (0x20000 + i) := by
  have byte := ByteMemory.copy_inside host.eram contents 0 0x20000 inside
  rw [Nat.zero_add] at byte
  simp only [BiosRegions.copy]
  exact byte

theorem loadBios_sized {file : List Byte} (sized : file.length = biosMapSize) (biosfile : String)
    (biospatch vgac000 : Option CString) (host : BiosRegions) :
    loadBios biosfile (.ok file) biospatch vgac000 host =
      .ok (host.copy (vgaCopied vgac000 (patched biospatch (fileImage file)))) := by
  rw [loadBios, if_neg (not_not.mpr sized)]

theorem loadBios_eram {biosfile : String} {file : List Byte} {biospatch vgac000 : Option CString}
    {host regions : BiosRegions} (loaded : loadBios biosfile (.ok file) biospatch vgac000 host = .ok regions)
    {i : Nat} (inside : i < 0x10000) :
    regions.eram i = patched biospatch (fileImage file) (0x20000 + i) := by
  by_cases sized : file.length = biosMapSize
  · rw [loadBios_sized sized] at loaded
    rw [← Except.ok.inj loaded, copy_eram _ _ inside]
    exact vgaCopied_above vgac000 _ (Nat.le_add_right_of_le (by decide))
  · rw [loadBios, if_pos sized] at loaded
    cases loaded

end Regions

section Accesses

/-- Whatever its size and place, a write stays inside the window. -/
theorem eramWrite_outside (booted : Bool) (ram : Memory Byte) (a : Nat) (v : BitVec 64) (sz : Nat)
    {place : Nat} (outside : 0x10000 ≤ place) : eramWrite booted ram a v sz place = ram place := by
  unfold eramWrite
  split_ifs with early fits
  · rfl
  · apply ByteMemory.write_outside
    rw [List.length_map, List.length_range]
    rintro ⟨-, below⟩
    omega
  · rfl

/-- The loop goes on from the value of the bytes before. -/
theorem eramReadLoop_value (ram : Memory Byte) (a left i : Nat) (r : BitVec 64) (room : i + left ≤ 8)
    (inside : a + i ≤ 0x10000) (before : r.toNat = LsbBits.value (read ram a i)) :
    (eramReadLoop ram a left i r).toNat = LsbBits.value (read ram a (min (i + left) (0x10000 - a))) := by
  induction left generalizing i r with
  | zero => rw [eramReadLoop, before, Nat.add_zero, Nat.min_eq_left (by omega)]
  | succ left ih =>
    rw [eramReadLoop]
    split_ifs with more
    · have small : r.toNat < 2 ^ (8 * i) := by
        have bound := LsbBits.value_lt (read ram a i)
        rwa [ByteMemory.read_length, ← before] at bound
      have next : (r ||| ((ram (a + i)).setWidth 64 <<< (8 * i))).toNat =
          LsbBits.value (read ram a (i + 1)) := by
        rw [LsbBits.or_byte small (by omega), ByteMemory.read_succ, LsbBits.value_append,
          ByteMemory.read_length, before]
        simp [LsbBits.value]
      rw [ih (i + 1) _ (by omega) (by omega) next, Nat.add_right_comm, Nat.add_assoc]
    · rw [before, Nat.min_eq_right (by omega), show i = 0x10000 - a by omega]

/-- A read combines the bytes inside the window, the first one lowest. -/
theorem eramRead_value (ram : Memory Byte) {a sz : Nat} (inside : a < 0x10000) (size : sz ≤ 8) :
    (eramRead ram a sz).toNat = LsbBits.value (read ram a (min sz (0x10000 - a))) := by
  have value := eramReadLoop_value ram a sz 0 0 (by omega) (by omega) rfl
  rwa [Nat.zero_add] at value

end Accesses

end Pc110.Chipset
