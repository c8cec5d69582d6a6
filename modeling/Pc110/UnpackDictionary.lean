import Pc110.Unpack
import Pc110.Library.Lzw

/-! The decoding loop against a decoder that keeps its dictionary as explicit byte
strings. The script's linked tables are never cleared; only the slots below
`next_code` represent anything, and each links to a smaller code. -/
namespace Pc110.Unpack

open LsbBits (Byte)
open StepLoop (Pass)

def capacity : Nat := 4096 - 0x102

/-- Codes 0 to 255 are bytes; the dictionary is numbered from 0x102. -/
def codeOf (code : Nat) : Lzw.Code Byte :=
  if code < 0x100 then .literal (BitVec.ofNat 8 code) else .entry (code - 0x102)

theorem codeOf_entry (large : ¬code < 0x100) : codeOf code = .entry (code - 0x102) := if_neg large

namespace Explicit

structure State where
  out : List Byte
  decoder : Lzw.Decoder Byte
  width : Nat
  bitpos : Nat
  deriving DecidableEq, Repr

def State.initial : State := ⟨[], .fresh, 9, 0⟩

def nextCode (decoder : Lzw.Decoder Byte) : Nat := 0x102 + decoder.dictionary.length

def widen (width next : Nat) : Nat := if next ≥ 2 ^ width ∧ width < 12 then width + 1 else width

/-- One code, or a clear code with the literal that must follow it. -/
def body (src : List Byte) (s : State) : Pass State (Option (List Byte)) :=
  match readCode src s.bitpos s.width with
  | (none, _) => .leave none
  | (some code, bitpos) =>
    if code = 0x101 then .leave (some s.out)
    else if code = 0x100 then
      match readCode src bitpos 9 with
      | (some code, bitpos) =>
        if code ≥ 0x100 then .leave none
        else .again ⟨s.out ++ [BitVec.ofNat 8 code], ⟨[], some [BitVec.ofNat 8 code]⟩, 9, bitpos⟩
      | (none, _) => .leave none
    else match s.decoder.phrase (codeOf code) with
      | none => .leave none
      | some phrase =>
        let decoder := s.decoder.after capacity phrase
        .again ⟨s.out ++ phrase, decoder, widen s.width (nextCode decoder), bitpos⟩

def decode (src : List Byte) : Option (Option (List Byte)) :=
  StepLoop.iterate (body src) (8 * src.length + 1) .initial

end Explicit

/-- A code that names a byte or one of the first `count` dictionary entries. -/
def Names (count code : Nat) : Prop := code < 0x100 ∨ 0x102 ≤ code ∧ code < 0x102 + count

theorem Names.mono (names : Names count code) (le : count ≤ more) : Names more code := by
  unfold Names at *; omega

theorem names_of_lt (ordinary : code ≠ 0x100 ∧ code ≠ 0x101) (below : code < 0x102 + count) :
    Names count code := by
  unfold Names; omega

theorem lookup_append (dictionary : Lzw.Dictionary Byte) (entry : List Byte)
    (names : Names dictionary.length code) :
    Lzw.lookup (dictionary ++ [entry]) (codeOf code) = Lzw.lookup dictionary (codeOf code) := by
  unfold codeOf
  split
  · rfl
  · have := names
    unfold Names at this
    simp only [Lzw.lookup]
    rw [List.getElem?_append_left (by omega)]

theorem names_of_lookup (ordinary : code ≠ 0x100 ∧ code ≠ 0x101)
    (known : Lzw.lookup dictionary (codeOf code) = some phrase) : Names dictionary.length code := by
  unfold codeOf at known
  split at known
  case isTrue literal => exact .inl literal
  case isFalse =>
    have := (List.getElem?_eq_some_iff.mp known).1
    exact .inr (by omega)

/-- The tables hold the dictionary as chains of smaller codes. -/
structure Linked (dictionary : Lzw.Dictionary Byte) (prefixes : List Nat)
    (suffixes : List Byte) : Prop where
  prefixes_length : prefixes.length = 4096
  suffixes_length : suffixes.length = 4096
  room : dictionary.length ≤ capacity
  chain : ∀ i phrase, dictionary[i]? = some phrase → ∃ parent suffix init,
    prefixes[0x102 + i]? = some parent ∧ suffixes[0x102 + i]? = some suffix ∧
    Names i parent ∧ Lzw.lookup dictionary (codeOf parent) = some init ∧ phrase = init ++ [suffix]

theorem Linked.nil (prefixes_length : prefixes.length = 4096)
    (suffixes_length : suffixes.length = 4096) : Linked [] prefixes suffixes :=
  ⟨prefixes_length, suffixes_length, Nat.zero_le _, by simp⟩

theorem lookup_names (dictionary : Lzw.Dictionary Byte) (names : Names dictionary.length code) :
    ∃ phrase, Lzw.lookup dictionary (codeOf code) = some phrase := by
  unfold codeOf
  split
  · exact ⟨_, rfl⟩
  · unfold Names at names
    exact ⟨_, List.getElem?_eq_getElem (by omega)⟩

/-- Chains are short enough for the stack of `expand`. -/
theorem Linked.length_le (linked : Linked dictionary prefixes suffixes)
    (names : Names dictionary.length code)
    (phrase : Lzw.lookup dictionary (codeOf code) = some w) :
    0 < w.length ∧ w.length ≤ code - 0x101 + 1 := by
  induction code using Nat.strongRecOn generalizing w with
  | ind code ih =>
    by_cases literal : code < 0x100
    · simp only [codeOf, literal, ↓reduceIte, Lzw.lookup, Option.some.injEq] at phrase
      subst phrase
      exact ⟨Nat.one_pos, Nat.le_add_left _ _⟩
    · have entry : 0x102 ≤ code ∧ code < 0x102 + dictionary.length :=
        names.resolve_left literal
      simp only [codeOf, literal, ↓reduceIte, Lzw.lookup] at phrase
      obtain ⟨parent, suffix, init, _, _, smaller, known, rfl⟩ := linked.chain _ _ phrase
      have below : parent < code := by unfold Names at smaller; omega
      have shorter := (ih parent below (smaller.mono (by omega)) known).2
      rw [List.length_append, List.length_singleton]
      have : parent < 0x100 ∨ 0x102 ≤ parent := by unfold Names at smaller; omega
      omega

theorem Linked.expandLoop (linked : Linked dictionary prefixes suffixes)
    (names : Names dictionary.length code)
    (phrase : Lzw.lookup dictionary (codeOf code) = some w) (room : Nat) (st : List Byte)
    (enough : w.length ≤ room + 1) :
    expandLoop (0x102 + dictionary.length) prefixes suffixes room code st =
      .ok (some (st ++ w.reverse)) := by
  induction code using Nat.strongRecOn generalizing w room st with
  | ind code ih =>
    by_cases literal : code < 0x100
    · simp only [codeOf, literal, ↓reduceIte, Lzw.lookup, Option.some.injEq] at phrase
      subst phrase
      unfold Unpack.expandLoop
      rw [if_pos literal]
      rfl
    · have entry : 0x102 ≤ code ∧ code < 0x102 + dictionary.length :=
        names.resolve_left literal
      simp only [codeOf, literal, ↓reduceIte, Lzw.lookup] at phrase
      obtain ⟨parent, suffix, init, link, last, smaller, known, rfl⟩ := linked.chain _ _ phrase
      have slot : 0x102 + (code - 0x102) = code := by omega
      rw [slot] at link last
      have below : parent < code := by unfold Names at smaller; omega
      have parentNames : Names dictionary.length parent := smaller.mono (by omega)
      have nonempty := (linked.length_le parentNames known).1
      rw [List.length_append, List.length_singleton] at enough
      obtain ⟨room, rfl⟩ : ∃ n, room = n + 1 := ⟨room - 1, by omega⟩
      unfold Unpack.expandLoop
      rw [if_neg literal]
      simp only [if_neg (Nat.not_le.mpr entry.2), last, link]
      rw [ih parent below parentNames known room _ (by omega), List.reverse_append]
      simp

theorem Linked.expand (linked : Linked dictionary prefixes suffixes)
    (names : Names dictionary.length code)
    (phrase : Lzw.lookup dictionary (codeOf code) = some w) :
    expand code (0x102 + dictionary.length) prefixes suffixes = .ok (some w.reverse) := by
  have bound := linked.length_le names phrase
  have room := linked.room
  unfold capacity at room
  unfold Names at names
  exact linked.expandLoop names phrase 4096 [] (by omega)

/-- Defining the next entry links it to the previous code. -/
theorem Linked.append (linked : Linked dictionary prefixes suffixes)
    (space : dictionary.length < capacity) (names : Names dictionary.length old)
    (previous : Lzw.lookup dictionary (codeOf old) = some w) (suffix : Byte) :
    Linked (dictionary ++ [w ++ [suffix]]) (prefixes.set (0x102 + dictionary.length) old)
      (suffixes.set (0x102 + dictionary.length) suffix) := by
  have pl := linked.prefixes_length
  have sl := linked.suffixes_length
  unfold capacity at space
  refine ⟨by simpa using pl, by simpa using sl, by simp [capacity]; omega, ?_⟩
  intro i phrase entry
  by_cases before : i < dictionary.length
  · rw [List.getElem?_append_left before] at entry
    obtain ⟨parent, last, init, link, byte, smaller, known, eq⟩ := linked.chain i phrase entry
    refine ⟨parent, last, init, ?_, ?_, smaller, ?_, eq⟩
    · rw [List.getElem?_set_ne (by omega)]; exact link
    · rw [List.getElem?_set_ne (by omega)]; exact byte
    · rw [lookup_append _ _ (smaller.mono (Nat.le_of_lt before))]; exact known
  · have atEnd : i = dictionary.length := by
      have := (List.getElem?_eq_some_iff.mp entry).1
      rw [List.length_append, List.length_singleton] at this
      omega
    subst atEnd
    rw [List.getElem?_concat_length, Option.some.injEq] at entry
    refine ⟨old, suffix, w, ?_, ?_, names, ?_, entry.symm⟩
    · rw [List.getElem?_set_self (by omega)]
    · rw [List.getElem?_set_self (by omega)]
    · rw [lookup_append _ _ names]; exact previous

/-- The script's `old` and `first` against the previous phrase. -/
def Previous (decoder : Lzw.Decoder Byte) (first : Byte) : Option Nat → Prop
  | none => decoder.previous = none
  | some old => ∃ phrase, decoder.previous = some phrase ∧
      Names decoder.dictionary.length old ∧
      Lzw.lookup decoder.dictionary (codeOf old) = some phrase ∧ phrase.head? = some first

/-- The loop invariant: a state of the script represents one of the explicit decoder. -/
structure Represents (s : State) (t : Explicit.State) : Prop where
  out : s.out = t.out
  bitpos : s.bitpos = t.bitpos
  bits : s.bits = t.width
  narrow : 9 ≤ s.bits ∧ s.bits ≤ 12
  growAt : s.growAt = 2 ^ s.bits
  nextCode : s.nextCode = Explicit.nextCode t.decoder
  fits : s.nextCode < 2 ^ s.bits ∨ s.bits = 12
  linked : Linked t.decoder.dictionary s.prefixes s.suffixes
  previous : Previous t.decoder s.first s.old

theorem represents_initial : Represents .initial .initial where
  out := rfl
  bitpos := rfl
  bits := rfl
  narrow := by decide
  growAt := rfl
  nextCode := rfl
  fits := .inl (by decide)
  linked := .nil (List.length_replicate ..) (List.length_replicate ..)
  previous := rfl

/-- The width of the next code, in step with its number up to twelve bits. -/
structure Widths (s : State) : Prop where
  narrow : 9 ≤ s.bits ∧ s.bits ≤ 12
  growAt : s.growAt = 2 ^ s.bits
  fits : s.nextCode < 2 ^ s.bits ∨ s.bits = 12

theorem Represents.widths (rep : Represents s t) : Widths s := ⟨rep.narrow, rep.growAt, rep.fits⟩

/-- What `define` leaves: tables that hold `dictionary`, and the width for the next code. -/
structure Defined (s s' : State) (dictionary : Lzw.Dictionary Byte) : Prop where
  out : s'.out = s.out
  bitpos : s'.bitpos = s.bitpos
  bits : s'.bits = Explicit.widen s.bits s'.nextCode
  widths : Widths s'
  nextCode : s'.nextCode = 0x102 + dictionary.length
  linked : Linked dictionary s'.prefixes s'.suffixes

theorem Represents.unchanged (rep : Represents s t) : Defined s s t.decoder.dictionary where
  out := rfl
  bitpos := rfl
  bits := by
    have fits := rep.fits
    unfold Explicit.widen
    rw [if_neg]
    omega
  widths := rep.widths
  nextCode := rep.nextCode
  linked := rep.linked

/-- The state with one entry more, and wider codes once they are used up. -/
def entered (s : State) (parent : Nat) (suffix : Byte) : State :=
  let s' := { s with
    prefixes := s.prefixes.set s.nextCode parent
    suffixes := s.suffixes.set s.nextCode suffix
    nextCode := s.nextCode + 1 }
  if s.nextCode + 1 ≥ s.growAt ∧ s.bits < 12 then { s' with bits := s.bits + 1, growAt := s.growAt <<< 1 }
  else s'

theorem define_enters (linked : Linked dictionary s.prefixes s.suffixes) (old : s.old = some parent)
    (space : s.nextCode < 4096) : define s suffix = .ok (entered s parent suffix) := by
  have pl := linked.prefixes_length
  have sl := linked.suffixes_length
  simp only [define, old, if_pos space, store, pl, sl, bind, Except.bind, pure, Except.pure, entered]
  split <;> rfl

theorem Widths.entered_defined (widths : Widths s) (next : s.nextCode + 1 = 0x102 + dictionary.length)
    (linked : Linked dictionary (s.prefixes.set s.nextCode parent) (s.suffixes.set s.nextCode suffix)) :
    Defined s (entered s parent suffix) dictionary := by
  obtain ⟨narrow, growAt, fits⟩ := widths
  by_cases wider : s.nextCode + 1 ≥ 2 ^ s.bits ∧ s.bits < 12
  · have doubled : 2 ^ (s.bits + 1) = 2 ^ s.bits * 2 := Nat.pow_succ ..
    rw [entered, if_pos (growAt ▸ wider)]
    refine ⟨rfl, rfl, ?_, ⟨by simp only; omega, ?_, .inl ?_⟩, next, linked⟩
    · simp only [Explicit.widen, if_pos wider]
    · simp only [growAt, Nat.shiftLeft_eq, doubled, Nat.pow_one]
    · simp only; omega
  · rw [entered, if_neg (growAt ▸ wider)]
    refine ⟨rfl, rfl, ?_, ⟨narrow, growAt, ?_⟩, next, linked⟩
    · simp only [Explicit.widen, if_neg wider]
    · simp only; omega

/-- After a phrase the tables hold what the explicit decoder learns from it. -/
theorem define_learns (rep : Represents s t) (head : phrase.head? = some curFirst) :
    ∃ s', define s curFirst = .ok s' ∧ Defined s s' (t.decoder.learn capacity phrase) := by
  have previous := rep.previous
  have next : s.nextCode = 0x102 + t.decoder.dictionary.length := rep.nextCode
  obtain ⟨rest, rfl⟩ := List.head?_eq_some_iff.mp head
  cases old : s.old with
  | none =>
    rw [old] at previous
    have same : t.decoder.learn capacity (curFirst :: rest) = t.decoder.dictionary := by
      simp only [Lzw.Decoder.learn, show t.decoder.previous = none from previous]
    rw [same]
    exact ⟨s, by simp only [define, old], rep.unchanged⟩
  | some o =>
    rw [old] at previous
    obtain ⟨w, prev, names, known, _⟩ := previous
    rw [Lzw.learn_some capacity t.decoder prev]
    by_cases space : s.nextCode < 4096
    · have room : t.decoder.dictionary.length < capacity := by unfold capacity; omega
      have linked := rep.linked.append room names known curFirst
      rw [if_pos room]
      rw [← next] at linked
      refine ⟨_, define_enters rep.linked old space, rep.widths.entered_defined ?_ linked⟩
      rw [next, List.length_append, List.length_singleton, Nat.add_assoc]
    · have full : ¬t.decoder.dictionary.length < capacity := by unfold capacity; omega
      rw [if_neg full]
      exact ⟨s, by simp only [define, old, if_neg space], rep.unchanged⟩

theorem phrase_names (decoder : Lzw.Decoder Byte)
    (names : Names decoder.dictionary.length code) :
    decoder.phrase (codeOf code) = Lzw.lookup decoder.dictionary (codeOf code) := by
  unfold codeOf
  split
  · rw [Lzw.phrase_literal]; rfl
  · have := names
    unfold Names at this
    rw [Lzw.phrase_known _ _ (by omega)]; rfl

/-- What the script expands for a code that has a phrase, and what it expands to. -/
theorem request_phrase (rep : Represents s t) (ordinary : code ≠ 0x100 ∧ code ≠ 0x101)
    (found : t.decoder.phrase (codeOf code) = some phrase) :
    ∃ start special st last, request s code = .ok (start, special) ∧
      expand start s.nextCode s.prefixes s.suffixes = .ok (some st) ∧ st.getLast? = some last ∧
      phrase = st.reverse ++ (if special then [s.first] else []) ∧
      phrase.head? = some (if special then s.first else last) := by
  have next : s.nextCode = 0x102 + t.decoder.dictionary.length := rep.nextCode
  by_cases below : code < s.nextCode
  · have names := names_of_lt ordinary (by omega : code < 0x102 + t.decoder.dictionary.length)
    rw [phrase_names _ names] at found
    have expanded := rep.linked.expand names found
    have nonempty := (rep.linked.length_le names found).1
    obtain ⟨symbol, rest, rfl⟩ := List.exists_cons_of_ne_nil (List.length_pos_iff.mp nonempty)
    rw [← next] at expanded
    exact ⟨code, false, _, symbol, by rw [request, if_pos below], expanded,
      by simp, by simp, by simp⟩
  · rw [codeOf_entry (by omega)] at found
    rcases Lzw.phrase_entry_bound _ found with known | ⟨atNext, some⟩
    · omega
    · have previous := rep.previous
      cases old : s.old with
      | none =>
        rw [old] at previous
        exact absurd previous some
      | some o =>
        rw [old] at previous
        obtain ⟨w, prev, names, known, head⟩ := previous
        have expanded := rep.linked.expand names known
        obtain ⟨rest, rfl⟩ := List.head?_eq_some_iff.mp head
        rw [← next] at expanded
        rw [atNext, Lzw.phrase_next _ prev, Option.some.injEq] at found
        subst found
        have equal : code = s.nextCode := by omega
        refine ⟨o, true, _, s.first, ?_, expanded, by simp, by simp, by simp⟩
        rw [request, if_neg below]
        simp only [old, if_pos equal]

theorem request_unknown (rep : Represents s t) (ordinary : code ≠ 0x100 ∧ code ≠ 0x101)
    (unknown : t.decoder.phrase (codeOf code) = none) :
    request s code = .error (.badCode code s.nextCode) := by
  have next : s.nextCode = 0x102 + t.decoder.dictionary.length := rep.nextCode
  by_cases below : code < s.nextCode
  · have names := names_of_lt ordinary (by omega : code < 0x102 + t.decoder.dictionary.length)
    obtain ⟨phrase, known⟩ := lookup_names _ names
    rw [phrase_names _ names, known] at unknown
    contradiction
  · have previous := rep.previous
    rw [request, if_neg below]
    cases old : s.old with
    | none => rfl
    | some o =>
      rw [old] at previous
      obtain ⟨w, prev, _, _, head⟩ := previous
      obtain ⟨rest, rfl⟩ := List.head?_eq_some_iff.mp head
      simp only
      rw [if_neg]
      intro equal
      have atNext : code - 0x102 = t.decoder.dictionary.length := by omega
      rw [codeOf_entry (by omega), atNext, Lzw.phrase_next _ prev] at unknown
      exact Option.some_ne_none _ unknown

theorem codeBody_represents (rep : Represents s t) (ordinary : code ≠ 0x100 ∧ code ≠ 0x101)
    (small : code < 4096) (found : t.decoder.phrase (codeOf code) = some phrase) (bitpos : Nat) :
    ∃ s', codeBody s code bitpos = .ok s' ∧
      Represents s' ⟨t.out ++ phrase, t.decoder.after capacity phrase,
        Explicit.widen t.width (Explicit.nextCode (t.decoder.after capacity phrase)), bitpos⟩ := by
  obtain ⟨start, special, st, last, requested, expanded, lastIs, whole, head⟩ :=
    request_phrase rep ordinary found
  have moved : Represents { s with out := t.out ++ phrase, bitpos }
      { t with out := t.out ++ phrase, bitpos } :=
    { rep with out := rfl, bitpos := rfl }
  obtain ⟨s', ran, defined⟩ := define_learns moved head
  refine ⟨{ s' with old := some code, first := if special then s.first else last }, ?_, ?_⟩
  · have output : s.out ++ st.reverse ++ (if special then [s.first] else []) = t.out ++ phrase := by
      rw [rep.out, whole, List.append_assoc]
    unfold codeBody
    simp only [requested, expanded, lastIs, output, ran, bind, Except.bind, pure, Except.pure]
  · have width : s'.bits = Explicit.widen t.width
        (Explicit.nextCode (t.decoder.after capacity phrase)) := by
      rw [defined.bits, defined.nextCode, ← rep.bits]
      rfl
    have known : Lzw.lookup (t.decoder.learn capacity phrase) (codeOf code) = some phrase := by
      apply Lzw.lookup_learn capacity t.decoder found
      intro index entry
      unfold codeOf at entry
      split at entry
      · contradiction
      · obtain rfl := Lzw.Code.entry.inj entry
        unfold capacity
        omega
    have names : Names (t.decoder.learn capacity phrase).length code := names_of_lookup ordinary known
    obtain ⟨narrow, growAt, fits⟩ := defined.widths
    exact ⟨defined.out, defined.bitpos, width, narrow, growAt, defined.nextCode, fits, defined.linked,
      phrase, rfl, names, known, head⟩

theorem clearBody_represents (rep : Represents s t) (literal : code < 0x100)
    (read : readCode src bitpos 9 = (some code, next)) :
    ∃ s', clearBody src s bitpos = .ok s' ∧
      Represents s' ⟨t.out ++ [BitVec.ofNat 8 code], ⟨[], some [BitVec.ofNat 8 code]⟩, 9, next⟩ := by
  unfold clearBody
  simp only [read, if_neg (Nat.not_le.mpr literal)]
  refine ⟨_, rfl, by rw [rep.out], rfl, rfl, (by decide : 9 ≤ 9 ∧ 9 ≤ 12), rfl, rfl, .inl ?_, ?_, ?_⟩
  · exact (by decide : 0x102 < 2 ^ 9)
  · exact .nil rep.linked.prefixes_length rep.linked.suffixes_length
  · exact ⟨_, rfl, .inl literal, by simp [codeOf, literal, Lzw.lookup], rfl⟩

/-- Agreement of an outcome of the script with one of the explicit decoder. -/
def SameVerdict (outcome : Except Failure (List Byte)) (reference : Option (List Byte)) : Prop :=
  outcome.toOption = reference

theorem body_represents (src : List Byte) (s : State) (t : Explicit.State)
    (rep : Represents s t) :
    Pass.Related Represents SameVerdict (body src s) (Explicit.body src t) := by
  have narrow := rep.narrow
  unfold body Explicit.body
  rw [← rep.bitpos, ← rep.bits]
  rcases read : readCode src s.bitpos s.bits with ⟨_ | code, bitpos⟩
  · exact .leave rfl
  · have small := (readCode_some (by omega) read).2.2
    have twelve : 2 ^ s.bits ≤ 2 ^ 12 := Nat.pow_le_pow_right (by omega) narrow.2
    by_cases finish : code = 0x101
    · simp only [if_pos finish]
      exact .leave (congrArg some rep.out)
    by_cases restart : code = 0x100
    · simp only [if_neg finish, if_pos restart]
      rcases first : readCode src bitpos 9 with ⟨_ | literal, next⟩
      · simp only [clearBody, first, proceed]
        exact .leave rfl
      · by_cases valid : literal < 0x100
        · obtain ⟨s', cleared, related⟩ := clearBody_represents rep valid first
          simp only [cleared, proceed, if_neg (Nat.not_le.mpr valid)]
          exact .again related
        · simp only [clearBody, first, proceed, if_pos (Nat.not_lt.mp valid)]
          exact .leave rfl
    simp only [if_neg finish, if_neg restart]
    cases found : t.decoder.phrase (codeOf code) with
    | none =>
      simp only [codeBody, request_unknown rep ⟨restart, finish⟩ found, bind, Except.bind, proceed]
      exact .leave rfl
    | some phrase =>
      obtain ⟨s', stepped, related⟩ :=
        codeBody_represents rep ⟨restart, finish⟩ (by omega) found bitpos
      rw [rep.bits]
      simp only [stepped, proceed]
      exact .again related

theorem widen_bounds (low : 9 ≤ width) (high : width ≤ 12) (next : Nat) :
    9 ≤ Explicit.widen width next ∧ Explicit.widen width next ≤ 12 := by
  unfold Explicit.widen
  split <;> omega

/-- Each round moves the position on, so the fuel of the explicit decoder suffices. -/
theorem explicit_progress {src : List Byte} {s t : Explicit.State}
    (width : 9 ≤ s.width ∧ s.width ≤ 12) (pass : Explicit.body src s = .again t) :
    (9 ≤ t.width ∧ t.width ≤ 12) ∧ s.bitpos < t.bitpos ∧ s.bitpos < 8 * src.length := by
  unfold Explicit.body at pass
  rcases read : readCode src s.bitpos s.width with ⟨_ | code, bitpos⟩
  · simp [read] at pass
  · obtain ⟨available, rfl, _⟩ := readCode_some width.2 read
    simp only [read] at pass
    split at pass
    · contradiction
    split at pass
    · split at pass
      case h_1 first =>
        obtain ⟨_, next, _⟩ := readCode_some (by omega) first
        split at pass
        · contradiction
        · obtain rfl := Pass.again.inj pass
          exact ⟨(by decide : 9 ≤ 9 ∧ 9 ≤ 12), by simp only; omega, by omega⟩
      case h_2 => contradiction
    · split at pass
      · contradiction
      · obtain rfl := Pass.again.inj pass
        exact ⟨widen_bounds width.1 width.2 _, by simp only; omega, by omega⟩

theorem explicit_decode_terminates (src : List Byte) :
    ∃ reference, Explicit.decode src = some reference := by
  apply StepLoop.iterate_terminates (fun s => 9 ≤ s.width ∧ s.width ≤ 12)
    (fun s => 8 * src.length - s.bitpos)
  · intro s t width pass
    obtain ⟨kept, forward, inside⟩ := explicit_progress width pass
    exact ⟨kept, by omega⟩
  · exact (by decide : 9 ≤ 9 ∧ 9 ≤ 12)
  · exact Nat.lt_succ_of_le (Nat.sub_le _ _)

theorem decode_simulates (src : List Byte) :
    Option.Rel SameVerdict (decode src) (Explicit.decode src) :=
  StepLoop.iterate_simulation (body_represents src) represents_initial _

/-- The unpacker implements LZW: on every input it ends with the verdict, and the output
on success, of the decoder that keeps the dictionary as byte strings. -/
theorem decode_implements_lzw (src : List Byte) :
    ∃ outcome reference, decode src = some outcome ∧ Explicit.decode src = some reference ∧
      outcome.toOption = reference := by
  obtain ⟨reference, found⟩ := explicit_decode_terminates src
  have related := decode_simulates src
  rw [found] at related
  generalize decode src = outcome at related
  cases related with
  | some same => exact ⟨_, reference, rfl, found, same⟩

end Pc110.Unpack
