import Mathlib.Data.List.TakeDrop
import Pc110.BiosWindow
import Pc110.Library.Runs

/-! The BIOS image that the guest sees right after `pc110_chipset_realizefn`: the patch loop, the
copy of the VGA BIOS and the three regions put together. -/
namespace Pc110.Chipset

open LsbBits (Byte)
open ByteMemory (Memory)

section Digits

def Digits (s : CString) : Prop := ∀ c ∈ s, (hexDigit c).isSome

instance (s : CString) : Decidable (Digits s) :=
  decidable_of_iff (s.all fun c => (hexDigit c).isSome) List.all_eq_true

def digitValue (c : Char) : Nat := (hexDigit c).getD 0

def hexValue (s : CString) : Nat := s.foldl (fun n c => 16 * n + digitValue c) 0

theorem hexDigit_range {c : Char} {d : Nat} (digit : hexDigit c = some d) : d < 16 ∧ 0x30 ≤ c.toNat := by
  have bounds (low high : Char) (inside : low ≤ c ∧ c ≤ high) : low.toNat ≤ c.toNat ∧ c.toNat ≤ high.toNat := by
    exact ⟨UInt32.le_iff_toNat_le.mp (Char.le_def.mp inside.1), UInt32.le_iff_toNat_le.mp (Char.le_def.mp inside.2)⟩
  unfold hexDigit at digit
  split_ifs at digit with decimal upper lower <;> cases digit
  · obtain ⟨low, high⟩ := bounds '0' '9' decimal
    change 0x30 ≤ _ at low
    change _ ≤ 0x39 at high
    omega
  · obtain ⟨low, high⟩ := bounds 'A' 'F' upper
    change 0x41 ≤ _ at low
    change _ ≤ 0x46 at high
    omega
  · obtain ⟨low, high⟩ := bounds 'a' 'f' lower
    change 0x61 ≤ _ at low
    change _ ≤ 0x66 at high
    omega

theorem digitValue_lt {c : Char} (digit : (hexDigit c).isSome) : digitValue c < 16 := by
  obtain ⟨d, found⟩ := Option.isSome_iff_exists.mp digit
  rw [digitValue, found, Option.getD_some]
  exact (hexDigit_range found).1

theorem digit_not_space {c : Char} (digit : (hexDigit c).isSome) : isSpace c = false := by
  obtain ⟨d, found⟩ := Option.isSome_iff_exists.mp digit
  have above := (hexDigit_range found).2
  have blank : c ≠ ' ' := by
    rintro rfl
    cases digit
  simp only [isSpace, blank, false_or, decide_eq_false_iff_not]
  omega

/-- A sign, a prefix or a separator is no digit. -/
theorem digit_ne {c : Char} (digit : (hexDigit c).isSome) (other : Char) (none : hexDigit other = .none) :
    c ≠ other := by
  rintro rfl
  rw [none] at digit
  cases digit

theorem hexDigits_value (s : CString) (digits : Digits s) (n : Nat) :
    hexDigits n s = s.foldl (fun n c => 16 * n + digitValue c) n := by
  induction s generalizing n with
  | nil => rfl
  | cons c s ih =>
    obtain ⟨d, digit⟩ := Option.isSome_iff_exists.mp (digits c List.mem_cons_self)
    have value : digitValue c = d := by rw [digitValue, digit, Option.getD_some]
    rw [hexDigits, digit, List.foldl_cons, value]
    exact ih (fun c member => digits c (List.mem_cons_of_mem _ member)) _

/-- On digits `strtoul` reads the number, or saturates. -/
theorem strtoul_digits (s : CString) (digits : Digits s) : (strtoul s).toNat = min (hexValue s) (2 ^ 64 - 1) := by
  have noBlanks : s.dropWhile isSpace = s := by
    cases s with
    | nil => rfl
    | cons c rest =>
      rw [List.dropWhile_cons, digit_not_space (digits c List.mem_cons_self)]
      rfl
  have first (c : Char) (none : hexDigit c = .none) (rest : CString) : s ≠ c :: rest := by
    rintro rfl
    exact digit_ne (digits c List.mem_cons_self) c none rfl
  have second (c : Char) (none : hexDigit c = .none) (rest : CString) : s ≠ '0' :: c :: rest := by
    rintro rfl
    exact digit_ne (digits c (List.mem_cons_of_mem _ List.mem_cons_self)) c none rfl
  -- the matches on a sign and on a prefix fall through
  have minus := first '-' rfl
  have plus := first '+' rfl
  have lower := second 'x' rfl
  have upper := second 'X' rfl
  have value : hexDigits 0 s = hexValue s := hexDigits_value s digits 0
  simp only [strtoul, noBlanks, value]
  split
  · rw [Nat.min_eq_right (by omega)]
    rfl
  · rw [if_neg Bool.false_ne_true, Nat.min_eq_left (by omega)]
    exact (BitVec.toNat_ofNat _ _).trans (Nat.mod_eq_of_lt (by omega))

theorem strtoul_pair {high low : Char} (isHigh : (hexDigit high).isSome) (isLow : (hexDigit low).isSome) :
    (strtoul [high, low]).setWidth 8 = BitVec.ofNat 8 (16 * digitValue high + digitValue low) := by
  have digits : Digits [high, low] := by
    intro c member
    rcases List.mem_cons.mp member with rfl | rest
    · exact isHigh
    · rwa [List.mem_singleton.mp rest]
  have value : hexValue [high, low] = 16 * digitValue high + digitValue low := by simp [hexValue]
  have boundHigh := digitValue_lt isHigh
  have boundLow := digitValue_lt isLow
  have number := strtoul_digits _ digits
  rw [value, Nat.min_eq_left (by omega)] at number
  apply BitVec.eq_of_toNat_eq
  rw [BitVec.toNat_setWidth, number, BitVec.toNat_ofNat]

end Digits

section Loop

/-- The loop over `b`, as the stores it makes, in the widths of the source. -/
def patchLoop (off : BitVec 64) : List Byte → Nat → List (BitVec 64 × Byte)
  | [], _ => []
  | byte :: rest, b =>
    if off + BitVec.ofNat 64 b < BitVec.ofNat 64 biosMapSize then
      (off + BitVec.ofNat 64 b, byte) :: patchLoop off rest (b + 1)
    else []

def itemStores (item : CString) : List (BitVec 64 × Byte) :=
  match item.span (· ≠ '=') with
  | (off, _ :: h) => patchLoop (strtoul off) (hexPairs h) 0
  | (_, []) => []

def patchStores (biospatch : Option CString) : List (BitVec 64 × Byte) :=
  match biospatch with
  | some (c :: rest) => ((c :: rest).splitOn ',').flatMap itemStores
  | _ => []

/-- `contents[off + b] = ...` -/
def storeByte (contents : Memory Byte) (s : BitVec 64 × Byte) : Memory Byte :=
  ByteMemory.write contents s.1.toNat [s.2]

theorem patchLoop_inside (off : BitVec 64) (bytes : List Byte) (b : Nat) :
    ∀ s ∈ patchLoop off bytes b, s.1.toNat < biosMapSize := by
  induction bytes generalizing b with
  | nil => intro s none; cases none
  | cons byte rest ih =>
    intro s member
    rw [patchLoop] at member
    split at member
    · rename_i inside
      rcases List.mem_cons.mp member with rfl | later
      · exact BitVec.lt_def.mp inside
      · exact ih (b + 1) s later
    · cases member

/-- No wrap-around: where the sum would leave 64 bits the loop has ended. -/
theorem patchLoop_stores (off : BitVec 64) (bytes : List Byte) (b : Nat) (contents : Memory Byte)
    (room : off.toNat + b ≤ biosMapSize ∨ b = 0) :
    (patchLoop off bytes b).foldl storeByte contents =
      ByteMemory.write contents (off.toNat + b) (bytes.take (biosMapSize - (off.toNat + b))) := by
  induction bytes generalizing b contents with
  | nil => simp [patchLoop]
  | cons byte rest ih =>
    have size : (BitVec.ofNat 64 biosMapSize).toNat = biosMapSize := rfl
    have bound : biosMapSize = 0x40000 := rfl
    have wide := off.isLt
    have place : (off + BitVec.ofNat 64 b).toNat = off.toNat + b := by
      rw [BitVec.toNat_add, BitVec.toNat_ofNat]
      omega
    rw [patchLoop]
    by_cases inside : off.toNat + b < biosMapSize
    · rw [if_pos (BitVec.lt_def.mpr (by rw [place, size]; exact inside)), List.foldl_cons,
        ih (b + 1) _ (.inl (by omega)), storeByte, place]
      obtain ⟨left, split⟩ : ∃ left, biosMapSize - (off.toNat + b) = left + 1 :=
        ⟨biosMapSize - (off.toNat + b) - 1, by omega⟩
      have less : biosMapSize - (off.toNat + (b + 1)) = left := by omega
      rw [split, less, List.take_succ_cons]
      exact ByteMemory.write_append contents (off.toNat + b) [byte] (rest.take left)
    · rw [if_neg (fun below => inside (by rw [BitVec.lt_def, place, size] at below; exact below)),
        Nat.sub_eq_zero_of_le (Nat.le_of_not_lt inside), List.take_zero, ByteMemory.write_nil]
      rfl

theorem patchItem_stores (contents : Memory Byte) (item : CString) :
    patchItem contents item = (itemStores item).foldl storeByte contents := by
  unfold patchItem itemStores
  generalize item.span (· ≠ '=') = parts
  obtain ⟨off, _ | ⟨_, h⟩⟩ := parts
  · rfl
  · exact (patchLoop_stores _ _ 0 contents (.inr rfl)).symm

theorem patched_stores (biospatch : Option CString) (contents : Memory Byte) :
    patched biospatch contents = (patchStores biospatch).foldl storeByte contents := by
  rcases biospatch with _ | _ | ⟨c, rest⟩
  · rfl
  · rfl
  · have items : patchItem = fun contents item => (itemStores item).foldl storeByte contents := by
      funext contents item
      exact patchItem_stores contents item
    rw [patched, patchStores, List.foldl_flatMap, items]

theorem patchStores_inside (biospatch : Option CString) : ∀ s ∈ patchStores biospatch, s.1.toNat < 0x40000 := by
  intro s member
  unfold patchStores at member
  split at member
  · obtain ⟨item, -, stored⟩ := List.mem_flatMap.mp member
    unfold itemStores at stored
    split at stored
    · exact patchLoop_inside _ _ _ s stored
    · cases stored
  · cases member

end Loop

section Items

/-- An item `offset=hex` of a patch string. An odd digit would be left over. -/
structure Item where
  offset : CString
  hex : CString
  offsetDigits : Digits offset
  hexDigits : Digits hex

def pairValues : CString → List Byte
  | high :: low :: rest => BitVec.ofNat 8 (16 * digitValue high + digitValue low) :: pairValues rest
  | _ => []

namespace Item
variable (i : Item)

def text : CString := i.offset ++ '=' :: i.hex

def byteAt (a : Nat) : Option Byte :=
  if hexValue i.offset ≤ a then (pairValues i.hex)[a - hexValue i.offset]? else none

end Item

def render (items : List Item) : CString := [','].intercalate (items.map Item.text)

/-- The ROM in which the last item that covers a position tells its byte. -/
def patchedRom (items : List Item) (rom : Memory Byte) : Memory Byte := fun a =>
  ((items.filterMap (Item.byteAt · a)).getLast?).getD (rom a)

theorem hexPairs_digits (s : CString) (digits : Digits s) : hexPairs s = pairValues s := by
  induction s using pairValues.induct with
  | case1 high low rest ih =>
    rw [hexPairs, pairValues, ih fun c member => digits c (by simp [member]),
      strtoul_pair (digits high (by simp)) (digits low (by simp))]
  | case2 s short =>
    rcases s with _ | ⟨c, _ | ⟨d, rest⟩⟩
    · rfl
    · rfl
    · exact absurd rfl (short c d rest)

theorem text_span (i : Item) : i.text.span (· ≠ '=') = (i.offset, '=' :: i.hex) := by
  have plain : ∀ c ∈ i.offset, decide (c ≠ '=') = true := by
    intro c member
    exact decide_eq_true (digit_ne (i.offsetDigits c member) '=' rfl)
  rw [List.span_eq_takeWhile_dropWhile, Item.text, List.takeWhile_append_of_pos plain,
    List.dropWhile_append_of_pos plain]
  simp

theorem patchItem_text (i : Item) (contents : Memory Byte) {a : Nat} (inside : a < 0x40000) :
    patchItem contents i.text a = (i.byteAt a).getD (contents a) := by
  have offset := strtoul_digits i.offset i.offsetDigits
  have size : biosMapSize = 0x40000 := rfl
  unfold patchItem
  rw [text_span]
  simp only [hexPairs_digits i.hex i.hexDigits, ByteMemory.write, offset, Item.byteAt]
  by_cases below : hexValue i.offset ≤ a
  · rw [Nat.min_eq_left (by omega), if_pos below, if_pos below, List.getD_eq_getElem?_getD, List.getElem?_take,
      if_pos (by omega)]
  · rw [if_neg below, if_neg (by omega), Option.getD_none]

theorem text_noComma (i : Item) : ',' ∉ i.text := by
  intro member
  rcases List.mem_append.mp member with early | late
  · exact digit_ne (i.offsetDigits ',' early) ',' rfl rfl
  · rcases List.mem_cons.mp late with equals | digit
    · exact absurd equals (by decide)
    · exact digit_ne (i.hexDigits ',' digit) ',' rfl rfl

/-- A rendered string is taken apart into its items. -/
theorem patched_render (items : List Item) (contents : Memory Byte) :
    patched (some (render items)) contents = items.foldl (fun contents i => patchItem contents i.text) contents := by
  cases items with
  | nil => rfl
  | cons i rest =>
    have parts : (render (i :: rest)).splitOn ',' = (i :: rest).map Item.text := by
      apply List.splitOn_intercalate
      · intro s member
        obtain ⟨j, -, rfl⟩ := List.mem_map.mp member
        exact text_noComma j
      · exact List.cons_ne_nil _ _
    cases whole : render (i :: rest) with
    | nil =>
      rw [whole] at parts
      have empty : [] = i.text := (List.cons.inj parts).1
      exact absurd empty.symm (List.append_ne_nil_of_right_ne_nil _ (List.cons_ne_nil _ _))
    | cons c tail =>
      rw [whole] at parts
      rw [patched, parts, List.foldl_map]

/-- Each position of the image holds the byte of the last item that covers it. -/
theorem patched_items (items : List Item) (rom : Memory Byte) {a : Nat} (inside : a < 0x40000) :
    patched (some (render items)) rom a = patchedRom items rom a := by
  let put : Item → Memory Byte → Memory Byte := fun i contents => patchItem contents i.text
  have moves (i : Item) (contents : Memory Byte) : put i contents a = (i.byteAt a).getD (contents a) :=
    patchItem_text i contents inside
  rw [patched_render]
  have last := @Runs.run_last _ _ put _ (fun contents => contents a) (Item.byteAt · a) moves items rom
  rwa [← Runs.foldl_eq_run put] at last

end Items

section Guest

/-- What the guest sees at C0000 + `x`: the three regions, the E-segment in ROM mode. -/
def guestByte (regions : BiosRegions) (x : Nat) : Byte :=
  if x < 0x20000 then regions.crom x
  else if x < 0x30000 then regions.eram (x - 0x20000)
  else regions.fram (x - 0x30000)

/-- `s->vgac000 && s->vgac000[0]` -/
def vgaSet (vgac000 : Option CString) : Bool := vgac000.any (·.length ≠ 0)

theorem guestByte_copy (host : BiosRegions) (contents : Memory Byte) {x : Nat} (inside : x < 0x40000) :
    guestByte (host.copy contents) x = contents x := by
  unfold guestByte
  split_ifs with low middle
  · have byte := ByteMemory.copy_inside host.crom contents 0 0 low
    rw [Nat.zero_add] at byte
    simp only [BiosRegions.copy]
    exact byte
  · rw [copy_eram _ _ (by omega), Nat.add_sub_cancel' (by omega)]
  · have byte := ByteMemory.copy_inside host.fram contents 0 0x30000 (show x - 0x30000 < 0x10000 by omega)
    rw [Nat.zero_add, Nat.add_sub_cancel' (by omega)] at byte
    simp only [BiosRegions.copy]
    exact byte

theorem vgaCopied_at (vgac000 : Option CString) (contents : Memory Byte) (x : Nat) :
    vgaCopied vgac000 contents x =
      if vgaSet vgac000 = true ∧ x < 0x10000 then contents (x + 0x20000) else contents x := by
  by_cases low : x < 0x10000
  · rcases vgac000 with _ | _ | ⟨c, rest⟩
    · rfl
    · rfl
    · have byte := ByteMemory.copy_inside contents contents 0 0x20000 low
      rw [Nat.zero_add] at byte
      rw [if_pos ⟨rfl, low⟩, Nat.add_comm x]
      exact byte
  · rw [if_neg fun both => low both.2]
    exact vgaCopied_above vgac000 contents (by omega)

end Guest

/-- The image stays in its bounds whatever the patch string, and for a list of items the guest sees
each byte as the last item left it, with the VGA BIOS at C0000 again if that is asked for. -/
theorem bios_assembled (biosfile : String) (file : List Byte) (sized : file.length = 0x40000) :
    (∀ biospatch : Option CString,
      patched biospatch (fileImage file) = (patchStores biospatch).foldl storeByte (fileImage file) ∧
        ∀ s ∈ patchStores biospatch, s.1.toNat < 0x40000) ∧
    ∀ (items : List Item) (vgac000 : Option CString) (host : BiosRegions), ∃ regions,
      loadBios biosfile (.ok file) (some (render items)) vgac000 host = .ok regions ∧
        ∀ x < 0x40000, guestByte regions x =
          if vgaSet vgac000 = true ∧ x < 0x10000 then patchedRom items (fileImage file) (x + 0x20000)
          else patchedRom items (fileImage file) x := by
  refine ⟨fun biospatch => ⟨patched_stores biospatch _, patchStores_inside biospatch⟩, ?_⟩
  intro items vgac000 host
  refine ⟨_, loadBios_sized sized biosfile (some (render items)) vgac000 host, fun x inside => ?_⟩
  rw [guestByte_copy _ _ inside, vgaCopied_at]
  split_ifs with window
  · exact patched_items items _ (by omega)
  · exact patched_items items _ inside

/-- Two items that overlap at the second byte of the VGA BIOS. -/
def overlapping : List Item :=
  [⟨"20000".toList, "ABAB".toList, by decide, by decide⟩,
    ⟨"20001".toList, "CD".toList, by decide, by decide⟩]

theorem bios_assembled_overlapping : ∃ regions,
    loadBios "bios.bin" (.ok (List.replicate 0x40000 0)) (some (render overlapping)) (some ['1'])
      ⟨fun _ => 0, fun _ => 0, fun _ => 0⟩ = .ok regions ∧
    guestByte regions 0 = 0xAB ∧ guestByte regions 1 = 0xCD := by
  obtain ⟨regions, loaded, bytes⟩ := (bios_assembled "bios.bin" (List.replicate 0x40000 0)
    List.length_replicate).2 overlapping (some ['1']) ⟨fun _ => 0, fun _ => 0, fun _ => 0⟩
  refine ⟨regions, loaded, ?_, ?_⟩
  · rw [bytes 0 (by decide)]
    decide
  · rw [bytes 1 (by decide)]
    decide

end Pc110.Chipset
