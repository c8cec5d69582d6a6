import Pc110.UnpackDictionary
import Pc110.Library.LsbBits

/-! The container format as a writer sees it: greedy LZW codes, a clear code before
every segment, and each code packed at the width the decoder will read it with. -/
namespace Pc110.Unpack

open LsbBits (Byte Field)

def codeNumber : Lzw.Code Byte → Nat
  | .literal symbol => symbol.toNat
  | .entry index => 0x102 + index

/-- The least width of at least nine bits that holds `n`, and never more than twelve. -/
def leastWidth (n : Nat) : Nat := ([9, 10, 11].find? (fun width => n < 2 ^ width)).getD 12

/-- The width of a code that `count` codes since the last clear precede. -/
def codeWidth : (count : Nat) → Nat
  | 0 => 9
  | count + 1 => leastWidth (0x102 + count)

def withWidths : (count : Nat) → List Nat → List Field
  | _, [] => []
  | count, code :: rest =>
    (codeWidth count, code) :: withWidths (if code = 0x100 then 0 else count + 1) rest

def segmentCodes (segment : List Byte) : List Nat :=
  0x100 :: (Lzw.encode capacity segment).map codeNumber

/-- The codes of a byte string cut into segments, up to the end code. -/
def codeStream : List (List Byte) → List Nat
  | [] => [0x101]
  | segment :: rest => segmentCodes segment ++ codeStream rest

def container (segments : List (List Byte)) (pad : List Byte) : List Byte :=
  LsbBits.pack (withWidths 0 (codeStream segments)) ++ pad

theorem leastWidth_eq (n : Nat) : leastWidth n =
    if n < 512 then 9 else if n < 1024 then 10 else if n < 2048 then 11 else 12 := by
  unfold leastWidth
  by_cases a : n < 512
  · simp [a]
  by_cases b : n < 1024
  · simp [a, b]
  by_cases c : n < 2048
  · simp [a, b, c]
  · simp [a, b, c]

theorem leastWidth_bounds (n : Nat) : 9 ≤ leastWidth n ∧ leastWidth n ≤ 12 := by
  rw [leastWidth_eq]
  repeat' split
  all_goals omega

theorem codeWidth_bounds (count : Nat) : 9 ≤ codeWidth count ∧ codeWidth count ≤ 12 := by
  cases count with
  | zero => exact (by decide : 9 ≤ 9 ∧ 9 ≤ 12)
  | succ count => exact leastWidth_bounds _

theorem lt_two_pow_leastWidth (small : n < 4096) : n < 2 ^ leastWidth n := by
  rw [leastWidth_eq]
  repeat' split
  all_goals omega

theorem leastWidth_least (wide : 9 ≤ width) (holds : n < 2 ^ width) : leastWidth n ≤ width := by
  by_contra narrow
  have bounds := leastWidth_bounds n
  have below : width = 9 ∨ width = 10 ∨ width = 11 := by omega
  rw [leastWidth_eq] at narrow
  rcases below with rfl | rfl | rfl
  all_goals
    simp only [Nat.reducePow] at holds
    repeat' split at narrow
    all_goals omega

/-- The decoder widens its codes exactly as the widths prescribe, also once the table
is full and stops growing. -/
theorem widen_codeWidth (count : Nat) :
    Explicit.widen (codeWidth (count + 1)) (0x102 + min (count + 1) capacity) =
      codeWidth (count + 2) := by
  simp only [codeWidth, leastWidth_eq, Explicit.widen, capacity]
  repeat' split
  all_goals omega

theorem codeOf_codeNumber (code : Lzw.Code Byte) : codeOf (codeNumber code) = code := by
  cases code with
  | literal symbol =>
    have := symbol.isLt
    rw [codeOf, codeNumber, if_pos (by omega), BitVec.ofNat_toNat, BitVec.setWidth_eq]
  | entry index =>
    rw [codeOf_entry (by simp only [codeNumber]; omega), codeNumber, Nat.add_sub_cancel_left]

theorem codeNumber_ordinary (code : Lzw.Code Byte) :
    codeNumber code ≠ 0x100 ∧ codeNumber code ≠ 0x101 := by
  cases code with
  | literal symbol =>
    have := symbol.isLt
    simp only [codeNumber]
    omega
  | entry index =>
    simp only [codeNumber]
    omega

/-- Every code of a stream fits the width it is written with. -/
def Sized : (count : Nat) → List Nat → Prop
  | _, [] => True
  | count, code :: rest =>
    code < 2 ^ codeWidth count ∧ Sized (if code = 0x100 then 0 else count + 1) rest

theorem fits_withWidths (sized : Sized count codes) : LsbBits.Fits (withWidths count codes) := by
  induction codes generalizing count with
  | nil => simp [LsbBits.Fits, withWidths]
  | cons code rest ih =>
    intro f member
    rcases List.mem_cons.mp member with rfl | later
    · exact sized.1
    · exact ih sized.2 f later

theorem byte_lt_width (symbol : Byte) (count : Nat) : symbol.toNat < 2 ^ codeWidth count := by
  have wide : 2 ^ 9 ≤ 2 ^ codeWidth count := Nat.pow_le_pow_right (by omega) (codeWidth_bounds count).1
  have := symbol.isLt
  omega

theorem command_lt_width (command : code = 0x100 ∨ code = 0x101) (count : Nat) :
    code < 2 ^ codeWidth count := by
  have wide : 2 ^ 9 ≤ 2 ^ codeWidth count := Nat.pow_le_pow_right (by omega) (codeWidth_bounds count).1
  omega

theorem entry_lt_width (le : index ≤ count) (room : index < capacity) :
    0x102 + index < 2 ^ codeWidth (count + 1) := by
  unfold capacity at room
  by_cases small : 0x102 + count < 4096
  · have := lt_two_pow_leastWidth small
    simp only [codeWidth]
    omega
  · have full : codeWidth (count + 1) = 12 := by
      simp only [codeWidth, leastWidth_eq]
      repeat' split
      all_goals omega
    rw [full]
    omega

/-- An entry is never written before the code that lets the decoder guess it. -/
theorem sized_encodeFrom (tail : List Nat) (sized : ∀ later, Sized later tail)
    (dictionary : Lzw.Dictionary Byte) (input : List Byte)
    (behind : dictionary.length ≤ count) (room : dictionary.length ≤ capacity) :
    Sized count ((Lzw.encodeFrom capacity dictionary input).map codeNumber ++ tail) := by
  refine Lzw.encode_induction capacity (motive := fun dictionary _ codes => ∀ count,
    dictionary.length ≤ count → dictionary.length ≤ capacity →
    Sized count (codes.map codeNumber ++ tail)) ?_ ?_ dictionary input count behind room
  · intro _ count _ _
    exact sized count
  · intro dictionary _ _ found next codes valid _ later count behind room
    have fits : codeNumber found.1 < 2 ^ codeWidth count := by
      obtain ⟨code, phrase⟩ := found
      cases code with
      | literal symbol => exact byte_lt_width symbol count
      | entry index =>
        have known : index < dictionary.length := (List.getElem?_eq_some_iff.mp valid.phrase).1
        obtain ⟨before, rfl⟩ : ∃ k, count = k + 1 := ⟨count - 1, by omega⟩
        exact entry_lt_width (by omega) (by omega)
    rw [List.map_cons, List.cons_append, Sized, if_neg (codeNumber_ordinary found.1).1]
    refine ⟨fits, later (count + 1) ?_ (Lzw.learn_length_le capacity _ next room)⟩
    exact Nat.le_trans (Lzw.learn_length_succ_le capacity _ next) (Nat.succ_le_succ behind)

theorem sized_codeStream (segments : List (List Byte)) (count : Nat) :
    Sized count (codeStream segments) := by
  induction segments generalizing count with
  | nil => exact ⟨command_lt_width (.inr rfl) count, trivial⟩
  | cons segment rest ih =>
    refine ⟨command_lt_width (.inl rfl) count, ?_⟩
    exact sized_encodeFrom _ ih [] segment (Nat.zero_le _) (Nat.zero_le _)

/-- `read_code` returns the fields one after the other from a position on. -/
def Reads (src : List Byte) : Nat → List Field → Prop
  | _, [] => True
  | position, (width, code) :: rest =>
    readCode src position width = (some code, position + width) ∧ Reads src (position + width) rest

theorem reads_of_fieldsAt (src : List Byte) (fields : List Field) (position : Nat)
    (widths : ∀ f ∈ fields, 9 ≤ f.1 ∧ f.1 ≤ 12)
    (available : (position + LsbBits.span fields + 7) / 8 + 2 ≤ src.length)
    (stored : LsbBits.FieldsAt src position fields) : Reads src position fields := by
  induction fields generalizing position with
  | nil => trivial
  | cons f rest ih =>
    obtain ⟨width, code⟩ := f
    have bounds : 9 ≤ width ∧ width ≤ 12 := widths (width, code) List.mem_cons_self
    obtain ⟨head, tail⟩ := stored
    rw [LsbBits.span] at available
    refine ⟨?_, ih _ (fun g member => widths g (List.mem_cons_of_mem _ member)) ?_ tail⟩
    · rw [readCode_eq src _ _ bounds.2, if_pos (by omega), head]
    · rwa [← Nat.add_assoc position] at available

theorem withWidths_widths (count : Nat) (codes : List Nat) :
    ∀ f ∈ withWidths count codes, 9 ≤ f.1 ∧ f.1 ≤ 12 := by
  induction codes generalizing count with
  | nil => simp [withWidths]
  | cons code rest ih =>
    intro f member
    rcases List.mem_cons.mp member with rfl | later
    · exact codeWidth_bounds count
    · exact ih _ f later

/-- Two padding bytes let the three-byte window of the last code be read. -/
theorem reads_container (segments : List (List Byte)) (pad : List Byte) (padded : 2 ≤ pad.length) :
    Reads (container segments pad) 0 (withWidths 0 (codeStream segments)) := by
  have fits := fits_withWidths (sized_codeStream segments 0)
  apply reads_of_fieldsAt _ _ _ (withWidths_widths 0 _)
  · rw [container, List.length_append, LsbBits.pack_length, Nat.zero_add]
    omega
  · exact LsbBits.fieldsAt_pack _ fits pad

theorem explicit_step {src : List Byte} {s : Explicit.State}
    (read : readCode src s.bitpos s.width = (some (codeNumber code), next))
    (found : s.decoder.phrase code = some phrase) :
    Explicit.body src s = .again ⟨s.out ++ phrase, s.decoder.after capacity phrase,
      Explicit.widen s.width (Explicit.nextCode (s.decoder.after capacity phrase)), next⟩ := by
  have ordinary := codeNumber_ordinary code
  simp only [Explicit.body, read, if_neg ordinary.1, if_neg ordinary.2, codeOf_codeNumber, found]

/-- The loop follows the codes of a segment after the first. The decoder's dictionary is
one entry behind, so its size gives the number of codes so far and hence the width. -/
theorem rounds_decode (src : List Byte) (codes : List (Lzw.Code Byte)) (s : Explicit.State)
    (count : Nat) (tail : List Nat) (proper : s.decoder.Proper) (first : s.decoder.previous = some w)
    (entries : s.decoder.dictionary.length = min count capacity)
    (width : s.width = codeWidth (count + 1))
    (decoded : Lzw.decode capacity s.decoder codes = some data)
    (reads : Reads src s.bitpos (withWidths (count + 1) (codes.map codeNumber ++ tail))) :
    ∃ n t later, StepLoop.Rounds (Explicit.body src) n s t ∧ t.out = s.out ++ data ∧
      t.width = codeWidth later ∧ Reads src t.bitpos (withWidths later tail) := by
  induction codes generalizing s count data w with
  | nil =>
    rw [Lzw.decode, Option.some.injEq] at decoded
    subst decoded
    exact ⟨0, s, count + 1, .refl, (List.append_nil _).symm, width, reads⟩
  | cons code codes ih =>
    rw [Lzw.decode, Option.bind_eq_some_iff] at decoded
    obtain ⟨phrase, found, decoded⟩ := decoded
    obtain ⟨rest, later, rfl⟩ := Option.map_eq_some_iff.mp decoded
    rw [List.map_cons, List.cons_append, withWidths, if_neg (codeNumber_ordinary code).1,
      ← width] at reads
    have pass := explicit_step reads.1 found
    have nonempty := Lzw.phrase_ne_nil _ proper found
    have length : (s.decoder.after capacity phrase).dictionary.length = min (count + 1) capacity := by
      have := Lzw.learn_length capacity s.decoder first nonempty (by omega)
      simp only [Lzw.Decoder.after]
      omega
    have wider : Explicit.widen s.width (Explicit.nextCode (s.decoder.after capacity phrase)) =
        codeWidth (count + 2) := by
      rw [Explicit.nextCode, length, width]
      exact widen_codeWidth count
    obtain ⟨n, t, last, rounds, out, tWidth, tReads⟩ :=
      ih ⟨s.out ++ phrase, s.decoder.after capacity phrase, _, _⟩ (count + 1)
        (Lzw.after_proper capacity _ proper nonempty) rfl length wider later reads.2
    refine ⟨n + 1, t, last, .step pass rounds, ?_, tWidth, tReads⟩
    rw [out, List.append_assoc]

theorem encode_cons (symbol : Byte) (rest : List Byte) :
    Lzw.encode capacity (symbol :: rest) = .literal symbol ::
      Lzw.encodeFrom capacity (Lzw.Decoder.learn capacity ⟨[], some [symbol]⟩ rest) rest := by
  rw [Lzw.encode, Lzw.encodeFrom]
  rfl

theorem rounds_segment (src : List Byte) (symbol : Byte) (rest : List Byte) (s : Explicit.State)
    (count : Nat) (tail : List Nat) (width : s.width = codeWidth count)
    (reads : Reads src s.bitpos (withWidths count (segmentCodes (symbol :: rest) ++ tail))) :
    ∃ n t later, StepLoop.Rounds (Explicit.body src) n s t ∧
      t.out = s.out ++ symbol :: rest ∧ t.width = codeWidth later ∧
      Reads src t.bitpos (withWidths later tail) := by
  have literal : symbol.toNat < 0x100 := symbol.isLt
  rw [segmentCodes, encode_cons, List.map_cons, List.cons_append, List.cons_append, withWidths,
    if_pos rfl, ← width, withWidths,
    if_neg (codeNumber_ordinary (.literal symbol)).1] at reads
  obtain ⟨clear, first, later⟩ := reads
  have proper : Lzw.Decoder.Proper (⟨[], some [symbol]⟩ : Lzw.Decoder Byte) := ⟨by simp, by simp⟩
  have pass : Explicit.body src s = .again
      ⟨s.out ++ [symbol], ⟨[], some [symbol]⟩, 9, s.bitpos + s.width + codeWidth 0⟩ := by
    have same : codeWidth 0 = 9 := rfl
    rw [same] at first
    simp only [Explicit.body, clear, first, codeNumber, if_neg (Nat.not_le.mpr literal),
      BitVec.ofNat_toNat, BitVec.setWidth_eq, same]
    rfl
  obtain ⟨n, t, last, rounds, out, tWidth, tReads⟩ :=
    rounds_decode src _ ⟨s.out ++ [symbol], ⟨[], some [symbol]⟩, 9, _⟩ 0 tail proper rfl rfl rfl
      (Lzw.decode_encodeFrom capacity _ proper rest) later
  exact ⟨n + 1, t, last, .step pass rounds, by simp [out], tWidth, tReads⟩

theorem rounds_codeStream (src : List Byte) (segments : List (List Byte))
    (nonempty : ∀ segment ∈ segments, segment ≠ []) (s : Explicit.State) (count : Nat)
    (width : s.width = codeWidth count)
    (reads : Reads src s.bitpos (withWidths count (codeStream segments))) :
    ∃ n t, StepLoop.Rounds (Explicit.body src) n s t ∧
      Explicit.body src t = .leave (some (s.out ++ segments.flatten)) := by
  induction segments generalizing s count with
  | nil =>
    rw [codeStream, withWidths, ← width] at reads
    refine ⟨0, s, .refl, ?_⟩
    simp [Explicit.body, reads.1]
  | cons segment rest ih =>
    obtain ⟨symbol, tail, rfl⟩ := List.exists_cons_of_ne_nil (nonempty segment List.mem_cons_self)
    obtain ⟨m, middle, later, first, out, mWidth, mReads⟩ :=
      rounds_segment src symbol tail s count _ width reads
    obtain ⟨n, t, second, leave⟩ :=
      ih (fun g member => nonempty g (List.mem_cons_of_mem _ member)) middle later mWidth mReads
    refine ⟨m + n, t, first.trans second, ?_⟩
    rw [leave, out, List.flatten_cons, List.append_assoc]

theorem explicit_decode_container (segments : List (List Byte)) (pad : List Byte)
    (nonempty : ∀ segment ∈ segments, segment ≠ []) (padded : 2 ≤ pad.length) :
    Explicit.decode (container segments pad) = some (some segments.flatten) := by
  obtain ⟨n, t, rounds, leave⟩ := rounds_codeStream (container segments pad) segments nonempty
    .initial 0 rfl (reads_container segments pad padded)
  obtain ⟨reference, found⟩ := explicit_decode_terminates (container segments pad)
  have ends := rounds.iterate_eq 1
  rw [StepLoop.iterate_leave leave] at ends
  unfold Explicit.decode at found ⊢
  have atMost := StepLoop.iterate_mono (Nat.le_max_left _ (n + 1)) found
  rw [StepLoop.iterate_mono (Nat.le_max_right _ _) ends, Option.some.injEq] at atMost
  rw [found, ← atMost]
  rfl

/-- Decoding undoes encoding: a byte string cut into segments, each written after a
clear code with greedy codes, is what the unpacker gives back. -/
theorem decode_container (data : List Byte) (segments : List (List Byte)) (pad : List Byte)
    (cut : segments.flatten = data)
    (nonempty : ∀ segment ∈ segments, segment ≠ []) (padded : 2 ≤ pad.length) :
    decode (container segments pad) = some (.ok data) := by
  have related := decode_simulates (container segments pad)
  rw [explicit_decode_container segments pad nonempty padded] at related
  generalize decode (container segments pad) = outcome at related
  cases related with
  | some same =>
    rename_i verdict
    cases verdict with
    | error e => contradiction
    | ok out =>
      have equal : out = segments.flatten := Option.some.inj same
      rw [equal, cut]

/-- A restart in the middle, a repeated pair and a code read before it is defined. -/
theorem decode_container_restart :
    decode (container [[1, 1, 1, 1], [2, 1]] [0, 0]) = some (.ok [1, 1, 1, 1, 2, 1]) :=
  decode_container [1, 1, 1, 1, 2, 1] [[1, 1, 1, 1], [2, 1]] [0, 0] rfl (by decide) (by decide)

theorem codeStream_length_replicate (segment : List Byte) (n : Nat) :
    (codeStream (List.replicate n segment)).length = n * ((Lzw.encode capacity segment).length + 1) + 1 := by
  induction n with
  | zero => simp [codeStream]
  | succ n ih =>
    rw [List.replicate_succ, codeStream, List.length_append, ih, segmentCodes, List.length_cons,
      List.length_map, Nat.succ_mul]
    omega

theorem span_withWidths_le (count : Nat) (codes : List Nat) :
    LsbBits.span (withWidths count codes) ≤ 12 * codes.length := by
  induction codes generalizing count with
  | nil => simp [withWidths, LsbBits.span]
  | cons code rest ih =>
    have := (codeWidth_bounds count).2
    have := ih (if code = 0x100 then 0 else count + 1)
    rw [withWidths, LsbBits.span, List.length_cons]
    omega

/-- The first bytes the unpacker looks for. -/
structure Signed (header : List Byte) : Prop where
  length : header.length = 0x2BF
  first : header[0]? = some 0x55
  second : header[1]? = some 0xAA
  jump : header[3]? = some 0xEB
  target : header[4]? = some 0x45

/-- A ROM with a container in its slot unpacks to what the container holds. -/
theorem unpackRom_container {header : List Byte} (signed : Signed header) (segments : List (List Byte))
    (nonempty : ∀ segment ∈ segments, segment ≠ []) (pad : List Byte) (padded : 2 ≤ pad.length)
    (room : (LsbBits.pack (withWidths 0 (codeStream segments))).length + 2 ≤ 0x20000 - 0x2BF) :
    unpackRom (header ++ container segments pad) = some (.ok segments.flatten) := by
  have length := signed.length
  have early {i : Nat} (inside : i < 0x2BF) : (header ++ container segments pad)[i]? = header[i]? :=
    List.getElem?_append_left (by omega)
  have slot : ((header ++ container segments pad).take 0x20000).drop 0x2BF =
      container segments
        (pad.take (0x20000 - 0x2BF - (LsbBits.pack (withWidths 0 (codeStream segments))).length)) := by
    rw [List.drop_take, List.drop_left' length, container, List.take_append,
      List.take_of_length_le (by omega), container]
  simp only [unpackRom, checkHeader, early (i := 0) (by decide), early (i := 1) (by decide),
    early (i := 3) (by decide), early (i := 4) (by decide), signed.first, signed.second,
    signed.jump, signed.target, if_true, slot]
  refine decode_container _ segments _ rfl nonempty ?_
  rw [List.length_take]
  omega

end Pc110.Unpack
