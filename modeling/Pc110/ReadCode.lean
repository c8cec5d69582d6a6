import Pc110.UnpackDictionary

/-! `read_code` at the end of the data. It looks for three bytes from the one a code begins in,
which is what the widest code at the last bit of a byte takes; most take two. -/
namespace Pc110.Unpack

open LsbBits (Byte)
open StepLoop (Rounds)

/-- All the bits of a code are there. -/
def Inside (src : List Byte) (bitpos bits : Nat) : Prop := bitpos + bits ≤ 8 * src.length

/-- The three bytes that `read_code` asks for are there. -/
def ThreeLeft (src : List Byte) (bitpos : Nat) : Prop := bitpos / 8 + 3 ≤ src.length

/-- A code is read whenever its bits are there, and is what they say. -/
structure ReadsExactly (src : List Byte) (bitpos bits : Nat) : Prop where
  available : (readCode src bitpos bits).1 ≠ none ↔ Inside src bitpos bits
  value : ∀ code next, readCode src bitpos bits = (some code, next) →
    code = LsbBits.field src bitpos bits ∧ next = bitpos + bits

/-- The end code is the next one, and all of it is there. -/
structure EndInside (src : List Byte) (s : State) : Prop where
  inside : Inside src s.bitpos s.bits
  code : LsbBits.field src s.bitpos s.bits = 0x101

def Truncated (src : List Byte) : Prop :=
  ∃ bitpos out, decode src = some (.error (.unexpectedEnd bitpos out))

section Reading
variable {src : List Byte} {bitpos bits : Nat} {s : State}

theorem ThreeLeft.inside (left : ThreeLeft src bitpos) (narrow : bits ≤ 12) : Inside src bitpos bits := by
  unfold ThreeLeft at left
  unfold Inside
  omega

theorem readCode_available (narrow : bits ≤ 12) : (readCode src bitpos bits).1 ≠ none ↔ ThreeLeft src bitpos := by
  rw [readCode_eq src bitpos bits narrow]
  unfold ThreeLeft
  split
  case isTrue left => simp [left]
  case isFalse short => simp [short]

theorem readCode_value (narrow : bits ≤ 12) (code next : Nat)
    (read : readCode src bitpos bits = (some code, next)) :
    code = LsbBits.field src bitpos bits ∧ next = bitpos + bits := by
  rw [readCode_eq src bitpos bits narrow] at read
  split at read
  · obtain ⟨value, rfl⟩ := Prod.mk.inj read
    exact ⟨(Option.some.inj value).symm, rfl⟩
  · simp at read

/-- It is exact but where the code is there and the three bytes are not. -/
theorem readsExactly_iff (narrow : bits ≤ 12) :
    ReadsExactly src bitpos bits ↔ ThreeLeft src bitpos ∨ ¬ Inside src bitpos bits := by
  constructor
  · intro reads
    by_cases inside : Inside src bitpos bits
    · exact .inl ((readCode_available narrow).mp (reads.available.mpr inside))
    · exact .inr inside
  · intro either
    refine ⟨(readCode_available narrow).trans ⟨(·.inside narrow), ?_⟩, readCode_value narrow⟩
    intro inside
    exact either.resolve_right (absurd inside)

/-- The loop takes the end code for what it is, or for the end of the data. -/
theorem body_endInside (narrow : s.bits ≤ 12) (ends : EndInside src s) :
    body src s = if s.bitpos / 8 + 3 ≤ src.length then .leave (.ok s.out)
      else .leave (.error (.unexpectedEnd s.bitpos s.out.length)) := by
  unfold body
  rw [readCode_eq src s.bitpos s.bits narrow, ends.code]
  by_cases left : s.bitpos / 8 + 3 ≤ src.length
  · rw [if_pos left, if_pos left]
    rfl
  · rw [if_neg left, if_neg left]

end Reading

theorem decode_endInside {src : List Byte} {n : Nat} {s : State} (rounds : Rounds (body src) n .initial s)
    (ends : EndInside src s) : decode src = some (if s.bitpos / 8 + 3 ≤ src.length then .ok s.out
      else .error (.unexpectedEnd s.bitpos s.out.length)) := by
  obtain ⟨t, _, rep⟩ := rounds.related (body_represents src) represents_initial
  obtain ⟨outcome, _, decoded, _⟩ := decode_implements_lzw src
  have left := body_endInside rep.narrow.2 ends
  rw [← apply_ite] at left
  rw [decoded, rounds.unique left decoded]

/-- A code is read exactly if the three bytes are there or its own bits are not; and a stream
that comes to its end code is taken for truncated exactly if they are not. -/
theorem readCode_exact_iff (src : List Byte) :
    (∀ bitpos bits, 9 ≤ bits ∧ bits ≤ 12 →
      (ReadsExactly src bitpos bits ↔ ThreeLeft src bitpos ∨ ¬ Inside src bitpos bits)) ∧
      ∀ n s, Rounds (body src) n .initial s → EndInside src s → (¬ Truncated src ↔ ThreeLeft src s.bitpos) := by
  refine ⟨fun bitpos bits width => readsExactly_iff width.2, ?_⟩
  intro n s rounds ends
  have decoded := decode_endInside rounds ends
  unfold Truncated ThreeLeft
  rw [decoded]
  split
  case isTrue left => simp [left]
  case isFalse short => simp [short]

/-- With one byte behind the end code the stream is taken for what it is. -/
theorem readCode_exact_iff_padded :
    ReadsExactly [0x00, 0x83, 0x04, 0x04, 0x00] 18 9 ∧ ¬ Truncated [0x00, 0x83, 0x04, 0x04, 0x00] := by
  obtain ⟨reads, streams⟩ := readCode_exact_iff [0x00, 0x83, 0x04, 0x04, 0x00]
  have left : ThreeLeft [0x00, 0x83, 0x04, 0x04, 0x00] 18 := by unfold ThreeLeft; decide
  let cleared : State := { State.initial with out := [0x41], old := some 0x41, first := 0x41, bitpos := 18 }
  have rounds : Rounds (body [0x00, 0x83, 0x04, 0x04, 0x00]) 1 .initial cleared := .single rfl
  have ends : EndInside [0x00, 0x83, 0x04, 0x04, 0x00] cleared := ⟨by unfold Inside; decide, by decide⟩
  exact ⟨(reads 18 9 (by decide)).mpr (.inl left), (streams 1 cleared rounds ends).mpr left⟩

/-- The four bytes of a clear code, `A` and the end code. -/
theorem not_readsExactly_packed :
    let src : List Byte := [0x00, 0x83, 0x04, 0x04]
    LsbBits.field src 18 9 = 0x101 ∧ Inside src 18 9 ∧ ¬ ReadsExactly src 18 9 ∧
      decode src = some (.error (.unexpectedEnd 18 1)) := by
  intro src
  refine ⟨by decide, by unfold Inside; decide, ?_, by decide⟩
  intro reads
  exact reads.available.mpr (by unfold Inside; decide) (by decide)

end Pc110.Unpack
