import Pc110.Library.StepLoop
import Pc110.Library.LsbBits

/-! The Easy-Setup unpacker, `tools/unpack-easysetup.py`. Python integers are naturals;
`old` is `none` where the script holds -1, and a table access outside its 4096 slots is
the `IndexError` the interpreter would raise. -/
namespace Pc110.Unpack

open LsbBits (Byte)
open StepLoop (Pass)

inductive Failure where
  | notABios
  | unexpectedEnd (bitpos out : Nat)
  | badClearCode
  | badCode (code nextCode : Nat)
  | expandFailed
  | indexError
  deriving DecidableEq, Repr

def Failure.message : Failure → String
  | .notABios => "error: does not look like a PC110 BIOS image"
  | .unexpectedEnd bitpos out => s!"error: unexpected end at bitpos {bitpos}, out {out}"
  | .badClearCode => "error: bad clear code"
  | .badCode code nextCode => s!"error: bad code {code}/{nextCode}"
  | .expandFailed => "error: expand failed"
  | .indexError => "IndexError"

/-- The code, or `none` for the script's -1, with the new bit position. -/
def readCode (src : List Byte) (bitpos bits : Nat) : Option Nat × Nat :=
  let bp := bitpos / 8
  let off := bitpos &&& 7
  if h : bp + 3 > src.length then (none, bitpos)
  else
    let v := src[bp].toNat ||| src[bp + 1].toNat <<< 8 ||| src[bp + 2].toNat <<< 16
    (some ((v >>> off) &&& ((1 <<< bits) - 1)), bitpos + bits)

/-- The chain of a code, last symbol first. `room` is 4096 less the length of `st`. -/
def expandLoop (nextCode : Nat) (prefixes : List Nat) (suffixes : List Byte) :
    (room code : Nat) → List Byte → Except Failure (Option (List Byte))
  | room, code, st =>
    if code < 0x100 then .ok (some (st ++ [BitVec.ofNat 8 code]))
    else match room with
      | 0 => .ok none
      | room + 1 =>
        if code ≥ nextCode then .ok none
        else match suffixes[code]?, prefixes[code]? with
          | some suffix, some next => expandLoop nextCode prefixes suffixes room next (st ++ [suffix])
          | _, _ => .error .indexError

def expand (code nextCode : Nat) (prefixes : List Nat) (suffixes : List Byte) :
    Except Failure (Option (List Byte)) :=
  expandLoop nextCode prefixes suffixes 4096 code []

structure State where
  out : List Byte
  prefixes : List Nat
  suffixes : List Byte
  bits : Nat
  nextCode : Nat
  growAt : Nat
  old : Option Nat
  first : Byte
  bitpos : Nat
  deriving DecidableEq, Repr

def State.initial : State where
  out := []
  prefixes := List.replicate 4096 0
  suffixes := List.replicate 4096 0
  bits := 9
  nextCode := 0x102
  growAt := 0x200
  old := none
  first := 0
  bitpos := 0

def store (table : List α) (slot : Nat) (value : α) : Except Failure (List α) :=
  if slot < table.length then .ok (table.set slot value) else .error .indexError

/-- The branch taken on the clear code, at the position behind it. -/
def clearBody (src : List Byte) (s : State) (bitpos : Nat) : Except Failure State :=
  match readCode src bitpos 9 with
  | (some code, bitpos) =>
    if code ≥ 0x100 then .error .badClearCode
    else .ok { s with
      bits := 9, nextCode := 0x102, growAt := 0x200,
      out := s.out ++ [BitVec.ofNat 8 code], old := some code, first := BitVec.ofNat 8 code, bitpos }
  | (none, _) => .error .badClearCode

/-- The code to expand for a code read, and whether the read code is the one about to
be defined. -/
def request (s : State) (code : Nat) : Except Failure (Nat × Bool) :=
  if code < s.nextCode then .ok (code, false)
  else match s.old with
    | some old => if code = s.nextCode then .ok (old, true) else .error (.badCode code s.nextCode)
    | none => .error (.badCode code s.nextCode)

/-- The new table entry, and the wider codes once the table has outgrown the width. -/
def define (s : State) (curFirst : Byte) : Except Failure State :=
  match s.old with
  | some old =>
    if s.nextCode < 4096 then do
      let prefixes ← store s.prefixes s.nextCode old
      let suffixes ← store s.suffixes s.nextCode curFirst
      let nextCode := s.nextCode + 1
      if nextCode ≥ s.growAt ∧ s.bits < 12 then
        pure { s with prefixes, suffixes, nextCode, bits := s.bits + 1, growAt := s.growAt <<< 1 }
      else pure { s with prefixes, suffixes, nextCode }
    else .ok s
  | none => .ok s

/-- The branch taken on any other code. -/
def codeBody (s : State) (code bitpos : Nat) : Except Failure State := do
  let (start, special) ← request s code
  match ← expand start s.nextCode s.prefixes s.suffixes with
  | none => .error .expandFailed
  | some st =>
    match st.getLast? with
    | none => .error .indexError
    | some last =>
      let curFirst := if special then s.first else last
      let out := s.out ++ st.reverse ++ if special then [s.first] else []
      let s ← define { s with out, bitpos } curFirst
      pure { s with old := some code, first := curFirst }

def proceed : Except Failure State → Pass State (Except Failure (List Byte))
  | .ok s => .again s
  | .error e => .leave (.error e)

def body (src : List Byte) (s : State) : Pass State (Except Failure (List Byte)) :=
  match readCode src s.bitpos s.bits with
  | (none, bitpos) => .leave (.error (.unexpectedEnd bitpos s.out.length))
  | (some code, bitpos) =>
    if code = 0x101 then .leave (.ok s.out)
    else if code = 0x100 then proceed (clearBody src s bitpos)
    else proceed (codeBody s code bitpos)

/-- The decoding loop. Every pass consumes bits of `src`, so the fuel suffices. -/
def decode (src : List Byte) : Option (Except Failure (List Byte)) :=
  StepLoop.iterate (body src) (8 * src.length + 1) .initial

/-- The bytes of the header check, compared as far as they agree. -/
def checkHeader (rom : List Byte) : List (Nat × Byte) → Except Failure Unit
  | [] => .ok ()
  | (slot, byte) :: rest =>
    match rom[slot]? with
    | none => .error .indexError
    | some b => if b = byte then checkHeader rom rest else .error .notABios

/-- The header check and the slice of the ROM that holds the container. -/
def unpackRom (rom : List Byte) : Option (Except Failure (List Byte)) :=
  match checkHeader rom [(0, 0x55), (1, 0xAA), (3, 0xEB), (4, 0x45)] with
  | .ok () => decode ((rom.take 0x20000).drop 0x2BF)
  | .error e => some (.error e)

example : unpackRom [0x56] = some (.error .notABios) := rfl

/-- Three bytes hold every field a code is read from, whatever its bit offset. -/
theorem readCode_eq (src : List Byte) (bitpos bits : Nat) (narrow : bits ≤ 12) :
    readCode src bitpos bits =
      if bitpos / 8 + 3 ≤ src.length then (some (LsbBits.field src bitpos bits), bitpos + bits)
      else (none, bitpos) := by
  unfold readCode
  have low : bitpos &&& 7 = bitpos % 8 := Nat.and_two_pow_sub_one_eq_mod bitpos 3
  have mask : (1 <<< bits) - 1 = 2 ^ bits - 1 := by rw [Nat.shiftLeft_eq, Nat.one_mul]
  by_cases available : bitpos / 8 + 3 ≤ src.length
  · have position : 8 * (bitpos / 8) + bitpos % 8 = bitpos := Nat.div_add_mod bitpos 8
    have inside : bitpos % 8 + bits ≤ 24 := by omega
    rw [dif_neg (by omega), if_pos available, LsbBits.window src _ available, low, mask]
    dsimp only
    rw [Nat.and_two_pow_sub_one_eq_mod, Nat.shiftRight_eq_div_pow,
      LsbBits.field_field src _ _ _ _ inside, position]
  · rw [dif_pos (by omega), if_neg available]

theorem readCode_some (narrow : bits ≤ 12) (read : readCode src bitpos bits = (some code, next)) :
    bitpos / 8 + 3 ≤ src.length ∧ next = bitpos + bits ∧ code < 2 ^ bits := by
  rw [readCode_eq src bitpos bits narrow] at read
  split at read
  case isTrue available =>
    simp only [Prod.mk.injEq, Option.some.injEq] at read
    obtain ⟨rfl, rfl⟩ := read
    exact ⟨available, rfl, Nat.mod_lt _ (Nat.two_pow_pos bits)⟩
  case isFalse => simp at read

end Pc110.Unpack
