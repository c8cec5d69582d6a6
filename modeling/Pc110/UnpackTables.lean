import Pc110.UnpackDictionary

/-! The tables of the unpacker after every iteration. Below `next_code` each entry links to a
smaller code, so a chain ends however stale the slots above are, and what can go wrong on a
corrupt stream is told by a code, not by an access outside the tables. -/
namespace Pc110.Unpack

open LsbBits (Byte)
open StepLoop (Pass Rounds)

structure TableInvariant (s : State) : Prop where
  bits : 9 ≤ s.bits ∧ s.bits ≤ 12
  growAt : s.growAt = 2 ^ s.bits
  nextCode : 0x102 ≤ s.nextCode ∧ s.nextCode ≤ 4096
  fits : s.nextCode < 2 ^ s.bits ∨ s.bits = 12
  links : ∀ k, 0x102 ≤ k → k < s.nextCode →
    ∃ parent, s.prefixes[k]? = some parent ∧ parent < k ∧ parent ≠ 0x100 ∧ parent ≠ 0x101
  old : ∀ code, s.old = some code → code < s.nextCode ∧ code ≠ 0x100 ∧ code ≠ 0x101
  first : ∀ code, s.old = some code → ∃ st,
    expand code s.nextCode s.prefixes s.suffixes = .ok (some st) ∧ st.getLast? = some s.first

/-- A code expands, and within 4095 steps. -/
def ExpandsBelow (s : State) (code : Nat) : Prop :=
  ∃ st, expand code s.nextCode s.prefixes s.suffixes = .ok (some st) ∧
    expandLoop s.nextCode s.prefixes s.suffixes 4095 code [] = .ok (some st)

/-- The code one past the table has got its entry, and is the next `old`. -/
structure StoredFirst (s : State) (code : Nat) (s' : State) : Prop where
  entry : s'.prefixes[code]? = s.old ∧ s'.suffixes[code]? = some s.first
  below : code < s'.nextCode
  old : s'.old = some code

/-- The exits of the loop: the end code, a stream that ends too early, and codes that mean
nothing where they stand. -/
inductive Exits : Except Failure (List Byte) → Prop where
  | endCode (out : List Byte) : Exits (.ok out)
  | unexpectedEnd (bitpos out : Nat) : Exits (.error (.unexpectedEnd bitpos out))
  | badClearCode : Exits (.error .badClearCode)
  | badCode (code nextCode : Nat) : Exits (.error (.badCode code nextCode))

section Invariant
variable {s s' : State} {t : Explicit.State} {src : List Byte} {code start bitpos : Nat} {special : Bool}

theorem Names.ordinary (names : Names count code) : code < 0x102 + count ∧ code ≠ 0x100 ∧ code ≠ 0x101 := by
  unfold Names at names
  omega

/-- A known code expands to its phrase within the entries there can be. -/
theorem Represents.expands (rep : Represents s t) (names : Names t.decoder.dictionary.length code)
    (phrase : Lzw.lookup t.decoder.dictionary (codeOf code) = some w) (room : Nat) (enough : 4095 ≤ room) :
    expandLoop s.nextCode s.prefixes s.suffixes room code [] = .ok (some w.reverse) := by
  have next : s.nextCode = 0x102 + t.decoder.dictionary.length := rep.nextCode
  have size := rep.linked.room
  have bound := (rep.linked.length_le names phrase).2
  have below := names.ordinary.1
  unfold capacity at size
  rw [next]
  exact rep.linked.expandLoop names phrase room [] (by omega)

theorem Represents.invariant (rep : Represents s t) : TableInvariant s := by
  have next : s.nextCode = 0x102 + t.decoder.dictionary.length := rep.nextCode
  have size := rep.linked.room
  have previous := rep.previous
  unfold capacity at size
  constructor
  case bits => exact rep.narrow
  case growAt => exact rep.growAt
  case nextCode => omega
  case fits => exact rep.fits
  case links =>
    intro k low high
    obtain ⟨i, rfl⟩ := Nat.exists_eq_add_of_le low
    have known : t.decoder.dictionary[i]? = some t.decoder.dictionary[i] := List.getElem?_eq_getElem (by omega)
    obtain ⟨parent, _, _, link, _, smaller, _⟩ := rep.linked.chain i _ known
    exact ⟨parent, link, smaller.ordinary⟩
  case old =>
    intro code old
    rw [old] at previous
    obtain ⟨_, _, names, _⟩ := previous
    rw [next]
    exact names.ordinary
  case first =>
    intro code old
    rw [old] at previous
    obtain ⟨w, _, names, known, head⟩ := previous
    refine ⟨w.reverse, rep.expands names known 4096 (by decide), ?_⟩
    rw [List.getLast?_reverse, head]

/-- What the script asks `expand` for is always a known code. -/
theorem Represents.requests (rep : Represents s t) (ordinary : code ≠ 0x100 ∧ code ≠ 0x101)
    (requested : request s code = .ok (start, special)) : Names t.decoder.dictionary.length start := by
  have next : s.nextCode = 0x102 + t.decoder.dictionary.length := rep.nextCode
  have previous := rep.previous
  unfold request at requested
  split at requested
  case isTrue below =>
    obtain ⟨rfl, -⟩ := Prod.mk.inj (Except.ok.inj requested)
    exact names_of_lt ordinary (by omega)
  case isFalse =>
    cases old : s.old with
    | none => simp [old] at requested
    | some o =>
      rw [old] at previous requested
      obtain ⟨_, _, names, _⟩ := previous
      simp only at requested
      split at requested
      · obtain ⟨rfl, -⟩ := Prod.mk.inj (Except.ok.inj requested)
        exact names
      · contradiction

theorem Represents.expandsBelow (rep : Represents s t) (ordinary : code ≠ 0x100 ∧ code ≠ 0x101)
    (requested : request s code = .ok (start, special)) : ExpandsBelow s start := by
  have names := rep.requests ordinary requested
  obtain ⟨phrase, known⟩ := lookup_names _ names
  exact ⟨_, rep.expands names known 4096 (by decide), rep.expands names known 4095 (Nat.le_refl _)⟩

@[simp] theorem entered_prefixes (s : State) (parent : Nat) (suffix : Byte) :
    (entered s parent suffix).prefixes = s.prefixes.set s.nextCode parent := by
  unfold entered
  split <;> rfl

@[simp] theorem entered_suffixes (s : State) (parent : Nat) (suffix : Byte) :
    (entered s parent suffix).suffixes = s.suffixes.set s.nextCode suffix := by
  unfold entered
  split <;> rfl

@[simp] theorem entered_nextCode (s : State) (parent : Nat) (suffix : Byte) :
    (entered s parent suffix).nextCode = s.nextCode + 1 := by
  unfold entered
  split <;> rfl

/-- The code about to be defined is defined by the iteration that reads it. -/
theorem codeBody_next (rep : Represents s t) (small : s.nextCode < 4096) {o : Nat} (old : s.old = some o) (bitpos : Nat) :
    ∃ s', codeBody s s.nextCode bitpos = .ok s' ∧ StoredFirst s s.nextCode s' := by
  have requested : request s s.nextCode = .ok (o, true) := by
    rw [request, if_neg (Nat.lt_irrefl _)]
    simp only [old, if_true]
  obtain ⟨st, expanded, last⟩ := rep.invariant.first o old
  have defined : define { s with out := s.out ++ st.reverse ++ [s.first], bitpos } s.first =
      .ok (entered { s with out := s.out ++ st.reverse ++ [s.first], bitpos } o s.first) :=
    define_enters rep.linked old small
  have pl := rep.linked.prefixes_length
  have sl := rep.linked.suffixes_length
  simp only [codeBody, requested, expanded, last, if_true, bind, Except.bind, defined, pure, Except.pure]
  refine ⟨_, rfl, ?_⟩
  constructor
  case entry => simp [pl, sl, small, old]
  case below => simp
  case old => rfl

theorem codeBody_stores (rep : Represents s t) (small : code < 4096) (next : code = s.nextCode)
    (ran : codeBody s code bitpos = .ok s') : StoredFirst s code s' := by
  subst next
  cases old : s.old with
  | none =>
    have refused : request s s.nextCode = .error (.badCode s.nextCode s.nextCode) := by
      rw [request, if_neg (Nat.lt_irrefl _)]
      simp only [old]
    simp [codeBody, refused, bind, Except.bind] at ran
  | some o =>
    obtain ⟨_, same, stored⟩ := codeBody_next rep small old bitpos
    rw [same] at ran
    exact Except.ok.inj ran ▸ stored

/-- However the loop is left, it is through one of its exits. -/
theorem body_exits (rep : Represents s t) (left : body src s = .leave result) : Exits result := by
  have narrow := rep.narrow
  unfold body at left
  rcases read : readCode src s.bitpos s.bits with ⟨_ | code, bitpos⟩
  · simp only [read] at left
    obtain rfl := Pass.leave.inj left
    exact .unexpectedEnd _ _
  have small := (readCode_some (by omega) read).2.2
  have twelve : 2 ^ s.bits ≤ 2 ^ 12 := Nat.pow_le_pow_right (by omega) narrow.2
  simp only [read] at left
  by_cases finish : code = 0x101
  · rw [if_pos finish] at left
    obtain rfl := Pass.leave.inj left
    exact .endCode _
  by_cases restart : code = 0x100
  · rw [if_neg finish, if_pos restart] at left
    unfold clearBody at left
    split at left
    case h_1 =>
      split at left
      · obtain rfl := Pass.leave.inj left
        exact .badClearCode
      · contradiction
    case h_2 =>
      obtain rfl := Pass.leave.inj left
      exact .badClearCode
  rw [if_neg finish, if_neg restart] at left
  cases found : t.decoder.phrase (codeOf code) with
  | none =>
    simp only [codeBody, request_unknown rep ⟨restart, finish⟩ found, bind, Except.bind, proceed] at left
    obtain rfl := Pass.leave.inj left
    exact .badCode _ _
  | some phrase =>
    obtain ⟨s', stepped, _⟩ := codeBody_represents rep ⟨restart, finish⟩ (by omega) found bitpos
    rw [stepped] at left
    contradiction

/-- Every state the loop reaches represents an explicit dictionary. -/
theorem rounds_represents {n : Nat} (rounds : Rounds (body src) n .initial s) : ∃ t, Represents s t := by
  obtain ⟨t, _, rep⟩ := rounds.related (body_represents src) represents_initial
  exact ⟨t, rep⟩

theorem body_stores (rep : Represents s t) (read : readCode src s.bitpos s.bits = (some code, bitpos))
    (next : code = s.nextCode) (pass : body src s = .again s') : StoredFirst s code s' := by
  have narrow := rep.narrow
  have low := rep.invariant.nextCode.1
  have small := (readCode_some (by omega) read).2.2
  have twelve : 2 ^ s.bits ≤ 2 ^ 12 := Nat.pow_le_pow_right (by omega) narrow.2
  unfold body at pass
  simp only [read, if_neg (by omega : code ≠ 0x101), if_neg (by omega : code ≠ 0x100)] at pass
  cases ran : codeBody s code bitpos with
  | error e =>
    rw [ran] at pass
    contradiction
  | ok stepped =>
    rw [ran] at pass
    obtain rfl := Pass.again.inj pass
    exact codeBody_stores rep (by omega) next ran

end Invariant

/-- On every input the tables keep their invariant, what is expanded is short, the code being
defined is stored before it is used, and the loop ends through one of its exits. -/
theorem decode_tables (src : List Byte) :
    (∀ n s, Rounds (body src) n .initial s → TableInvariant s ∧
      ∀ code bitpos, readCode src s.bitpos s.bits = (some code, bitpos) → code ≠ 0x100 ∧ code ≠ 0x101 →
        (∀ start special, request s code = .ok (start, special) → ExpandsBelow s start) ∧
          ∀ s', code = s.nextCode → body src s = .again s' → StoredFirst s code s') ∧
      ∃ outcome, decode src = some outcome ∧ Exits outcome := by
  constructor
  · intro n s rounds
    obtain ⟨t, rep⟩ := rounds_represents rounds
    refine ⟨rep.invariant, fun code bitpos read ordinary => ⟨?_, ?_⟩⟩
    · intro start special requested
      exact rep.expandsBelow ordinary requested
    · intro s' next pass
      exact body_stores rep read next pass
  · obtain ⟨outcome, _, decoded, _⟩ := decode_implements_lzw src
    refine ⟨outcome, decoded, ?_⟩
    obtain ⟨n, s, rounds, left⟩ := StepLoop.iterate_leaves decoded
    obtain ⟨t, rep⟩ := rounds_represents rounds
    exact body_exits rep left

/-- A clear code, `A`, and the code one past the table, which is stored before it is used. -/
theorem decode_tables_repeated :
    let src : List Byte := [0x00, 0x83, 0x08, 0x0C, 0x08, 0x00]
    let s := { State.initial with out := [0x41], old := some 0x41, first := 0x41, bitpos := 18 }
    TableInvariant s ∧ ExpandsBelow s 0x41 ∧ ∃ s', body src s = .again s' ∧ StoredFirst s 0x102 s' := by
  intro src s
  have cleared : Rounds (body [0x00, 0x83, 0x08, 0x0C, 0x08, 0x00]) 1 .initial s := .single rfl
  have read : readCode src s.bitpos s.bits = (some 0x102, 27) := by decide
  obtain ⟨s', pass⟩ : ∃ s', body src s = .again s' := by
    obtain ⟨_, rep⟩ := rounds_represents cleared
    obtain ⟨s', defined, -⟩ := codeBody_next rep (by decide) rfl 27
    refine ⟨s', ?_⟩
    simp only [body, read, if_neg (by decide : 0x102 ≠ 0x101), if_neg (by decide : 0x102 ≠ 0x100)]
    exact congrArg proceed defined
  obtain ⟨loop, -⟩ := decode_tables src
  obtain ⟨invariant, reads⟩ := loop 1 s cleared
  obtain ⟨expands, stores⟩ := reads 0x102 27 read (by decide)
  exact ⟨invariant, expands 0x41 true rfl, s', pass, stores s' rfl pass⟩

end Pc110.Unpack
