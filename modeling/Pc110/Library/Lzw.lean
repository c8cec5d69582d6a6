import Mathlib.Data.List.Basic

/-! LZW over an arbitrary alphabet, with the dictionary kept as explicit phrases.
Codes name a literal or a numbered entry; the numbering and the widths of codes in a
container format are not part of this theory. The decoder's dictionary is one entry
behind the encoder's, and `learn` describes both. -/
namespace Lzw

variable {α : Type*}

inductive Code (α : Type*) where
  | literal (symbol : α)
  | entry (index : Nat)
  deriving DecidableEq, Repr

abbrev Dictionary (α : Type*) := List (List α)

def lookup (dictionary : Dictionary α) : Code α → Option (List α)
  | .literal symbol => some [symbol]
  | .entry index => dictionary[index]?

structure Decoder (α : Type*) where
  dictionary : Dictionary α
  previous : Option (List α)
  deriving DecidableEq, Repr

def Decoder.fresh : Decoder α := ⟨[], none⟩

/-- The phrase of a code. A code one past the dictionary stands for the previous
phrase followed by its own first symbol. -/
def Decoder.phrase (d : Decoder α) (code : Code α) : Option (List α) :=
  match code, d.previous with
  | .entry index, some previous =>
    if index = d.dictionary.length then previous.head?.map (fun symbol => previous ++ [symbol])
    else lookup d.dictionary code
  | code, _ => lookup d.dictionary code

/-- The dictionary once `next` follows the previous phrase. -/
def Decoder.learn (capacity : Nat) (d : Decoder α) (next : List α) : Dictionary α :=
  match d.previous, next.head? with
  | some previous, some symbol =>
    if d.dictionary.length < capacity then d.dictionary ++ [previous ++ [symbol]]
    else d.dictionary
  | _, _ => d.dictionary

def Decoder.after (capacity : Nat) (d : Decoder α) (phrase : List α) : Decoder α :=
  ⟨d.learn capacity phrase, some phrase⟩

def decode (capacity : Nat) : Decoder α → List (Code α) → Option (List α)
  | _, [] => some []
  | d, code :: rest =>
    (d.phrase code).bind fun phrase =>
      (decode capacity (d.after capacity phrase) rest).map (phrase ++ ·)

@[simp] theorem phrase_literal (d : Decoder α) (symbol : α) :
    d.phrase (.literal symbol) = some [symbol] := by
  simp [Decoder.phrase, lookup]

theorem phrase_known (d : Decoder α) (index : Nat) (known : index < d.dictionary.length) :
    d.phrase (.entry index) = d.dictionary[index]? := by
  cases hp : d.previous with
  | none => simp [Decoder.phrase, hp, lookup]
  | some previous => simp [Decoder.phrase, hp, lookup, Nat.ne_of_lt known]

theorem phrase_next (d : Decoder α) (previous : d.previous = some (symbol :: rest)) :
    d.phrase (.entry d.dictionary.length) = some (symbol :: rest ++ [symbol]) := by
  simp [Decoder.phrase, previous]

/-- Nothing else has a phrase: a code past the next entry, or the next entry when
there is no previous phrase. -/
theorem phrase_entry_bound (d : Decoder α) (found : d.phrase (.entry index) = some phrase) :
    index < d.dictionary.length ∨ index = d.dictionary.length ∧ d.previous ≠ none := by
  cases hp : d.previous with
  | none =>
    simp only [Decoder.phrase, hp, lookup] at found
    exact .inl (List.getElem?_eq_some_iff.mp found).1
  | some previous =>
    by_cases next : index = d.dictionary.length
    · exact .inr ⟨next, by simp⟩
    · simp only [Decoder.phrase, hp, if_neg next, lookup] at found
      exact .inl (List.getElem?_eq_some_iff.mp found).1

/-- Only the first symbol of what follows is learnt. -/
theorem learn_head (capacity : Nat) (d : Decoder α) (same : next.head? = other.head?) :
    d.learn capacity next = d.learn capacity other := by
  simp only [Decoder.learn, same]

theorem learn_some (capacity : Nat) (d : Decoder α) (previous : d.previous = some w) :
    d.learn capacity (symbol :: rest) =
      if d.dictionary.length < capacity then d.dictionary ++ [w ++ [symbol]]
      else d.dictionary := by
  simp [Decoder.learn, previous]

/-- A phrase's own code still names it after the phrase has been learnt from, also when
the code was the next entry. -/
theorem lookup_learn (capacity : Nat) (d : Decoder α) (found : d.phrase code = some phrase)
    (room : ∀ index, code = .entry index → index < capacity) :
    lookup (d.learn capacity phrase) code = some phrase := by
  cases code with
  | literal symbol => simpa [lookup] using found
  | entry index =>
    have small := room index rfl
    rcases phrase_entry_bound d found with known | ⟨rfl, some⟩
    · rw [phrase_known d index known] at found
      rw [← found, lookup]
      unfold Decoder.learn
      split
      · split
        · rw [List.getElem?_append_left known]
        · rfl
      · rfl
    · obtain ⟨previous, hp⟩ := Option.ne_none_iff_exists'.mp some
      cases previous with
      | nil => simp [Decoder.phrase, hp] at found
      | cons symbol rest =>
        rw [phrase_next d hp, Option.some.injEq] at found
        subst found
        rw [List.cons_append, learn_some capacity d hp, if_pos small, lookup,
          List.getElem?_concat_length]
        rfl

structure Decoder.Proper (d : Decoder α) : Prop where
  entries : ∀ phrase ∈ d.dictionary, phrase ≠ []
  previous : d.previous ≠ some []

theorem phrase_ne_nil (d : Decoder α) (proper : d.Proper) (found : d.phrase code = some phrase) :
    phrase ≠ [] := by
  cases code with
  | literal symbol =>
    rw [phrase_literal, Option.some.injEq] at found
    subst found
    exact List.cons_ne_nil _ _
  | entry index =>
    rcases phrase_entry_bound d found with known | ⟨rfl, some⟩
    · rw [phrase_known d index known] at found
      exact proper.entries _ (List.mem_of_getElem? found)
    · obtain ⟨previous, hp⟩ := Option.ne_none_iff_exists'.mp some
      cases previous with
      | nil => exact absurd hp proper.previous
      | cons symbol rest =>
        rw [phrase_next d hp, Option.some.injEq] at found
        subst found
        exact List.cons_ne_nil _ _

theorem after_proper (capacity : Nat) (d : Decoder α) (proper : d.Proper) (nonempty : phrase ≠ []) :
    (d.after capacity phrase).Proper := by
  refine ⟨fun entry member => ?_, by simpa [Decoder.after] using nonempty⟩
  simp only [Decoder.after, Decoder.learn] at member
  split at member
  · split at member
    · rcases List.mem_append.mp member with old | new
      · exact proper.entries entry old
      · obtain rfl := List.mem_singleton.mp new
        exact List.append_ne_nil_of_right_ne_nil _ (List.cons_ne_nil _ _)
    · exact proper.entries entry member
  · exact proper.entries entry member

theorem learn_length (capacity : Nat) (d : Decoder α) (previous : d.previous = some w)
    (nonempty : next ≠ []) (bounded : d.dictionary.length ≤ capacity) :
    (d.learn capacity next).length = min (d.dictionary.length + 1) capacity := by
  obtain ⟨symbol, rest, rfl⟩ := List.exists_cons_of_ne_nil nonempty
  rw [learn_some capacity d previous]
  split
  · rw [List.length_append, List.length_singleton]; omega
  · omega

theorem learn_length_succ_le (capacity : Nat) (d : Decoder α) (next : List α) :
    (d.learn capacity next).length ≤ d.dictionary.length + 1 := by
  unfold Decoder.learn
  split
  · split
    · exact Nat.le_of_eq (by rw [List.length_append, List.length_singleton])
    · exact Nat.le_succ _
  · exact Nat.le_succ _

theorem learn_length_le (capacity : Nat) (d : Decoder α) (next : List α)
    (bounded : d.dictionary.length ≤ capacity) :
    (d.learn capacity next).length ≤ capacity := by
  unfold Decoder.learn
  split
  · split
    · rw [List.length_append, List.length_singleton]; omega
    · exact bounded
  · exact bounded

/-- What a match found so far satisfies: it is a non-empty start of the input and the
phrase of its code. -/
structure Matches (dictionary : Dictionary α) (input : List α)
    (found : Code α × List α) : Prop where
  phrase : lookup dictionary found.1 = some found.2
  start : found.2 <+: input
  nonempty : found.2 ≠ []

/-- The encoder is one entry ahead. The decoder still knows the phrase of every code
the encoder picks, since that entry ends with the symbol the input starts with. -/
theorem phrase_of_match (capacity : Nat) (d : Decoder α) (symbol : α) (rest : List α)
    (previous : d.previous ≠ some []) (found : Code α × List α)
    (valid : Matches (d.learn capacity (symbol :: rest)) (symbol :: rest) found) :
    d.phrase found.1 = some found.2 := by
  obtain ⟨code, phrase⟩ := found
  cases code with
  | literal other => exact (phrase_literal d other).trans valid.phrase
  | entry index =>
    have known : (d.learn capacity (symbol :: rest))[index]? = some phrase := valid.phrase
    by_cases old : index < d.dictionary.length
    · rw [phrase_known d index old, ← known]
      unfold Decoder.learn
      split
      · split
        · rw [List.getElem?_append_left old]
        · rfl
      · rfl
    · have added : d.dictionary.length ≤ index := Nat.not_lt.mp old
      cases hp : d.previous with
      | none =>
        simp only [Decoder.learn, hp, List.getElem?_eq_none added] at known
        contradiction
      | some w =>
        have nonempty : w ≠ [] := fun empty => previous (hp.trans (congrArg some empty))
        obtain ⟨a, w, rfl⟩ := List.exists_cons_of_ne_nil nonempty
        rw [learn_some capacity d hp] at known
        split at known
        case isFalse => simp [List.getElem?_eq_none added] at known
        case isTrue =>
          rw [List.getElem?_append_right added, List.getElem?_singleton] at known
          split at known
          case isFalse => contradiction
          case isTrue last =>
            obtain rfl := Option.some.inj known
            obtain ⟨_, first⟩ := valid.start
            have same : a = symbol := by simpa using (List.cons.inj first).1
            have atNext : index = d.dictionary.length := by omega
            rw [atNext, phrase_next d hp, same]

section Encoder

variable [DecidableEq α]

/-- Keep the longer of the best match so far and a numbered candidate. -/
def better (input : List α) (best : Code α × List α) (candidate : List α × Nat) :
    Code α × List α :=
  if candidate.1.isPrefixOf input ∧ best.2.length < candidate.1.length then
    (.entry candidate.2, candidate.1)
  else best

/-- The longest phrase of the dictionary, or literal, that the input starts with. -/
def longestMatch (dictionary : Dictionary α) (symbol : α) (rest : List α) :
    Code α × List α :=
  dictionary.zipIdx.foldl (better (symbol :: rest)) (.literal symbol, [symbol])

/-- Greedy encoding: after each code the match is entered together with the symbol
that follows it, while there is room. -/
def encodeFrom (capacity : Nat) (dictionary : Dictionary α) : List α → List (Code α)
  | [] => []
  | symbol :: rest =>
    let found := longestMatch dictionary symbol rest
    let tail := rest.drop (found.2.length - 1)
    found.1 :: encodeFrom capacity
      (Decoder.learn capacity ⟨dictionary, some found.2⟩ tail) tail
termination_by input => input.length
decreasing_by simp only [List.length_drop, List.length_cons]; omega

def encode (capacity : Nat) (input : List α) : List (Code α) := encodeFrom capacity [] input

theorem better_matches (dictionary : Dictionary α) (input : List α)
    (best : Code α × List α) (candidate : List α × Nat)
    (entry : dictionary[candidate.2]? = some candidate.1)
    (valid : Matches dictionary input best) :
    Matches dictionary input (better input best candidate) := by
  unfold better
  split
  case isTrue taken =>
    have longer : 0 < candidate.1.length := by omega
    exact ⟨entry, List.isPrefixOf_iff_prefix.mp taken.1, List.length_pos_iff.mp longer⟩
  case isFalse => exact valid

theorem better_length (input : List α) (best : Code α × List α) (candidate : List α × Nat) :
    best.2.length ≤ (better input best candidate).2.length ∧
    (candidate.1 <+: input → candidate.1.length ≤ (better input best candidate).2.length) := by
  unfold better
  split
  case isTrue taken => exact ⟨by simp only; omega, fun _ => Nat.le_refl _⟩
  case isFalse kept =>
    refine ⟨Nat.le_refl _, fun start => ?_⟩
    have := List.isPrefixOf_iff_prefix.mpr start
    simp only [this, true_and, Nat.not_lt] at kept
    exact kept

theorem foldl_better_matches (dictionary : Dictionary α) (input : List α)
    (candidates : List (List α × Nat)) (best : Code α × List α)
    (entries : ∀ c ∈ candidates, dictionary[c.2]? = some c.1)
    (valid : Matches dictionary input best) :
    Matches dictionary input (candidates.foldl (better input) best) := by
  induction candidates generalizing best with
  | nil => exact valid
  | cons c candidates ih =>
    apply ih
    · exact fun d member => entries d (List.mem_cons_of_mem _ member)
    · exact better_matches dictionary input best c (entries c List.mem_cons_self) valid

theorem foldl_better_length (input : List α) (candidates : List (List α × Nat))
    (best : Code α × List α) :
    best.2.length ≤ (candidates.foldl (better input) best).2.length ∧
    ∀ c ∈ candidates, c.1 <+: input →
      c.1.length ≤ (candidates.foldl (better input) best).2.length := by
  induction candidates generalizing best with
  | nil => simp
  | cons c candidates ih =>
    have head := better_length input best c
    have later := ih (better input best c)
    refine ⟨Nat.le_trans head.1 later.1, fun d member start => ?_⟩
    rcases List.mem_cons.mp member with rfl | member
    · exact Nat.le_trans (head.2 start) later.1
    · exact later.2 d member start

theorem longestMatch_matches (dictionary : Dictionary α) (symbol : α) (rest : List α) :
    Matches dictionary (symbol :: rest) (longestMatch dictionary symbol rest) := by
  apply foldl_better_matches
  · intro c member
    exact List.mem_zipIdx_iff_getElem?.mp member
  · exact ⟨rfl, ⟨rest, rfl⟩, by simp⟩

/-- No literal and no phrase of the dictionary that the input starts with is longer. -/
theorem longestMatch_longest (dictionary : Dictionary α) (symbol : α) (rest : List α)
    (code : Code α) (phrase : List α) (known : lookup dictionary code = some phrase)
    (start : phrase <+: symbol :: rest) :
    phrase.length ≤ (longestMatch dictionary symbol rest).2.length := by
  have bound := foldl_better_length (symbol :: rest) dictionary.zipIdx (.literal symbol, [symbol])
  cases code with
  | literal other =>
    obtain rfl := Option.some.inj known
    exact bound.1
  | entry index => exact bound.2 (phrase, index) (List.mem_zipIdx_iff_getElem?.mpr known) start

theorem drop_match (dictionary : Dictionary α) (symbol : α) (rest : List α) :
    (longestMatch dictionary symbol rest).2 ++
      rest.drop ((longestMatch dictionary symbol rest).2.length - 1) = symbol :: rest := by
  have found := longestMatch_matches dictionary symbol rest
  generalize longestMatch dictionary symbol rest = m at found ⊢
  obtain ⟨tail, split⟩ := found.start
  obtain ⟨a, w, eq⟩ := List.exists_cons_of_ne_nil found.nonempty
  rw [eq, List.cons_append, List.cons.injEq] at split
  rw [eq, ← split.2]
  simp [split.1]

/-- Induction along a greedy encoding: the match found, and what is encoded after it. -/
theorem encode_induction (capacity : Nat)
    {motive : Dictionary α → List α → List (Code α) → Prop}
    (nil : ∀ dictionary, motive dictionary [] [])
    (cons : ∀ dictionary symbol rest found tail codes,
      Matches dictionary (symbol :: rest) found → found.2 ++ tail = symbol :: rest →
      motive (Decoder.learn capacity ⟨dictionary, some found.2⟩ tail) tail codes →
      motive dictionary (symbol :: rest) (found.1 :: codes))
    (dictionary : Dictionary α) (input : List α) :
    motive dictionary input (encodeFrom capacity dictionary input) := by
  induction hn : input.length using Nat.strongRecOn generalizing dictionary input with
  | ind n ih =>
    subst hn
    cases input with
    | nil =>
      rw [encodeFrom]
      exact nil dictionary
    | cons symbol rest =>
      have valid := longestMatch_matches dictionary symbol rest
      have whole := drop_match dictionary symbol rest
      rw [encodeFrom]
      apply cons _ _ _ _ _ _ valid whole
      apply ih _ _ _ _ rfl
      simp only [List.length_drop, List.length_cons]
      omega

/-- Decoding undoes encoding from any point at which the decoder is one entry behind. -/
theorem decode_encodeFrom (capacity : Nat) (d : Decoder α) (proper : d.Proper) (input : List α) :
    decode capacity d (encodeFrom capacity (d.learn capacity input) input) = some input := by
  refine encode_induction capacity (motive := fun dictionary input codes => ∀ d : Decoder α,
    d.Proper → dictionary = d.learn capacity input → decode capacity d codes = some input)
    ?_ ?_ (d.learn capacity input) input d proper rfl
  · intro _ _ _ _
    rfl
  · rintro _ symbol rest found tail codes valid whole later d proper rfl
    have head : found.2.head? = (symbol :: rest).head? := by
      obtain ⟨a, w, eq⟩ := List.exists_cons_of_ne_nil valid.nonempty
      rw [eq, List.cons_append] at whole
      rw [eq, ← whole]
      rfl
    have next := later (d.after capacity found.2) (after_proper capacity d proper valid.nonempty)
      (by rw [← learn_head capacity d head]; rfl)
    rw [decode, phrase_of_match capacity d symbol rest proper.previous found valid,
      Option.bind_some, next, Option.map_some, whole]

end Encoder

end Lzw
