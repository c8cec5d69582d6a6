import Pc110.PostBranches
import Pc110.Library.Formatter

/-! The texts of the reset report, printed PC by PC into buffers of fixed size. Five digits are
the least that `"%05X "` prints and eight the most, so a buffer's room is a matter of how wide
the PCs in the rings are. -/
namespace Pc110

open Formatter (Text Contained Shows)

/-- `"%05X "` -/
def pcText (pc : Word) : Text := (hex 5 pc.toNat ++ " ").toList

/-- The digits of a PC beyond the fifth. -/
def extraDigits (pc : Word) : Nat :=
  if pc < 0x100000 then 0 else if pc < 0x1000000 then 1 else if pc < 0x10000000 then 2 else 3

section Widths

theorem pcText_toList (pc : Word) : pcText pc =
    List.replicate (5 - (Nat.toDigits 16 pc.toNat).length) '0' ++
      (Nat.toDigits 16 pc.toNat).map Char.toUpper ++ [' '] := by
  simp [pcText, hex]

theorem toDigits_length (pc : Word) : max 5 (Nat.toDigits 16 pc.toNat).length = 5 + extraDigits pc := by
  have digits (k : Nat) (some : 0 < k) : (Nat.toDigits 16 pc.toNat).length ≤ k ↔ pc.toNat < 16 ^ k :=
    Nat.length_toDigits_le_iff (by decide) some
  have five : _ ↔ pc.toNat < 0x100000 := digits 5 (by decide)
  have six : _ ↔ pc.toNat < 0x1000000 := digits 6 (by decide)
  have seven : _ ↔ pc.toNat < 0x10000000 := digits 7 (by decide)
  have eight : _ ↔ pc.toNat < 2 ^ 32 := digits 8 (by decide)
  have bound := eight.mpr pc.isLt
  unfold extraDigits
  simp only [BitVec.lt_def, BitVec.reduceToNat]
  split_ifs <;> omega

theorem pcText_length (pc : Word) : (pcText pc).length = 6 + extraDigits pc := by
  have digits := toDigits_length pc
  rw [pcText_toList]
  simp only [List.length_append, List.length_replicate, List.length_map, List.length_singleton]
  omega

theorem extraDigits_le (pc : Word) : extraDigits pc ≤ 3 := by
  unfold extraDigits
  split_ifs <;> decide

theorem extraDigits_sum_le (pcs : List Word) : (pcs.map extraDigits).sum ≤ 3 * pcs.length := by
  induction pcs with
  | nil => exact Nat.le_refl 0
  | cons pc pcs ih =>
    have one := extraDigits_le pc
    rw [List.map_cons, List.sum_cons, List.length_cons]
    omega

theorem texts_length (pcs : List Word) :
    (pcs.map pcText).flatten.length = 6 * pcs.length + (pcs.map extraDigits).sum := by
  induction pcs with
  | nil => rfl
  | cons pc pcs ih =>
    rw [List.map_cons, List.flatten_cons, List.length_append, pcText_length, ih, List.map_cons, List.sum_cons,
      List.length_cons]
    omega

theorem ringLine_toList (pcs : List Word) : (ringLine pcs).toList = (pcs.map pcText).flatten := by
  simp only [ringLine, String.toList_join, List.flatMap_map]
  rfl

theorem digit_upper_ne_nul : ∀ n < 16, (Nat.digitChar n).toUpper ≠ Formatter.nul := by decide

/-- No digit is the NUL that ends a string. -/
theorem nul_not_mem_digits (n : Nat) : Formatter.nul ∉ (Nat.toDigits 16 n).map Char.toUpper := by
  induction n using Nat.strongRecOn with
  | ind n ih =>
    rw [Nat.toDigits_eq_if (by decide)]
    split
    case isTrue small => simpa using (digit_upper_ne_nul n small).symm
    case isFalse large =>
      rw [List.map_append, List.mem_append, not_or]
      exact ⟨ih (n / 16) (by omega), by simpa using (digit_upper_ne_nul (n % 16) (by omega)).symm⟩

theorem nul_not_mem_texts (pcs : List Word) : Formatter.nul ∉ (pcs.map pcText).flatten := by
  intro member
  obtain ⟨text, isText, inText⟩ := List.mem_flatten.mp member
  obtain ⟨pc, _, rfl⟩ := List.mem_map.mp isText
  rw [pcText_toList, List.mem_append, List.mem_append] at inText
  rcases inText with (zero | digit) | blank
  · exact absurd (List.eq_of_mem_replicate zero) (by decide)
  · exact nul_not_mem_digits _ digit
  · exact absurd (List.mem_singleton.mp blank) (by decide)

end Widths

section Buffers
variable {size : Nat} {pcs : List Word}

/-- A buffer is overrun by the widths of all PCs but the last. -/
theorem pcs_contained_iff (size : Nat) (pcs : List Word) :
    Contained size (pcs.map pcText) ↔ 6 * (pcs.length - 1) + (pcs.dropLast.map extraDigits).sum ≤ size := by
  rw [Formatter.contained_iff, ← List.map_dropLast, texts_length, List.length_dropLast]

/-- The overrun of the model is the one of the loop. -/
theorem overruns_iff (size : Nat) (pcs : List Word) : overruns size pcs = false ↔ Contained size (pcs.map pcText) := by
  have text : (ringLine pcs.dropLast).length = (pcs.dropLast.map pcText).flatten.length := by
    rw [← String.length_toList, ringLine_toList]
  rw [overruns, decide_eq_false_iff_not, Nat.not_lt, text, List.map_dropLast, Formatter.contained_iff]

/-- Sixteen PCs never overrun a buffer of 160, however wide they are. -/
theorem sixteen_contained (room : 160 ≤ size) (sixteen : pcs.length = 16) : Contained size (pcs.map pcText) := by
  have wide := extraDigits_sum_le pcs.dropLast
  rw [List.length_dropLast, sixteen] at wide
  rw [pcs_contained_iff, sixteen]
  omega

/-- What is printed into a buffer shows the line as far as the buffer holds it. -/
theorem print_ringLine (base : Nat) (mem : ByteMemory.Memory Char) (some : 0 < size) (small : size < 2 ^ 64)
    (any : pcs ≠ []) : Shows (Formatter.print base size (pcs.map pcText) mem).mem base (buffered size (ringLine pcs)).toList := by
  rw [buffered, String.toList_ofList, ringLine_toList]
  apply Formatter.print_shows base mem some small _ (by simpa using any)
  exact nul_not_mem_texts pcs

/-- The buffer shows all the PCs, but perhaps for the blank behind the last one. -/
def PrintedWhole (size : Nat) (pcs : List Word) : Prop :=
  ∀ base mem, ∃ text, Shows (Formatter.print base size (pcs.map pcText) mem).mem base text ∧
    (text = (ringLine pcs).toList ∨ text ++ [' '] = (ringLine pcs).toList)

theorem ringLine_blank (any : pcs ≠ []) : ∃ front, (ringLine pcs).toList = front ++ [' '] := by
  obtain ⟨others, last, rfl⟩ : ∃ others last, pcs = others ++ [last] := ⟨_, _, (List.dropLast_concat_getLast any).symm⟩
  rw [ringLine_toList, List.map_append, List.flatten_append, List.map_singleton, List.flatten_singleton,
    pcText_toList, ← List.append_assoc]
  exact ⟨_, rfl⟩

theorem printedWhole_iff (some : 0 < size) (small : size < 2 ^ 64) (any : pcs ≠ []) :
    PrintedWhole size pcs ↔ 6 * pcs.length + (pcs.map extraDigits).sum ≤ size := by
  have shown (base : Nat) (mem : ByteMemory.Memory Char) := print_ringLine base mem some small any
  rw [← texts_length, ← ringLine_toList]
  rw [buffered, String.toList_ofList] at shown
  obtain ⟨front, blank⟩ := ringLine_blank any
  have length : (ringLine pcs).toList.length = front.length + 1 := by rw [blank, List.length_append, List.length_singleton]
  constructor
  · intro whole
    obtain ⟨text, shows', same⟩ := whole 0 fun _ => Formatter.nul
    obtain rfl := shows'.unique (shown 0 _)
    rcases same with same | same
    · have cut := congrArg List.length same
      rw [List.length_take] at cut
      omega
    · have cut := congrArg List.length same
      rw [List.length_append, List.length_take, List.length_singleton] at cut
      omega
  · intro fits base mem
    refine ⟨_, shown base mem, ?_⟩
    by_cases room : (ringLine pcs).toList.length ≤ size - 1
    · exact .inl (List.take_of_length_le room)
    · right
      rw [blank, show size - 1 = front.length by omega, List.take_left]

end Buffers

section Report

theorem recent_contained_iff (d : Diag) :
    Contained 256 ((recentPcs d).map pcText) ↔ ((recentPcs d).dropLast.map extraDigits).sum ≤ 76 := by
  have recent : (recentPcs d).length = 31 := by simp [recentPcs]
  rw [pcs_contained_iff, recent]
  omega

theorem dos_contained (d : Diag) : Contained 160 ((dosPcs d).map pcText) :=
  sixteen_contained (Nat.le_refl _) (by simp [dosPcs])

/-- The report stays in its buffers as far as its PCs are narrow. -/
theorem reportOverruns_iff (d : Diag) :
    reportOverruns d = false ↔ ((recentPcs d).dropLast.map extraDigits).sum ≤ 76 := by
  rw [reportOverruns, Bool.or_eq_false_iff, overruns_iff, overruns_iff, recent_contained_iff]
  exact and_iff_right (dos_contained d)

end Report

/-- The buffers of the reset report and of the history behind it are not overrun, exactly if the
first thirty PCs of the recent line have at most 76 digits beyond the fifth. -/
theorem report_contained_iff (d : Diag) :
    (Contained 256 ((recentPcs d).map pcText) ∧ Contained 160 ((dosPcs d).map pcText) ∧
      ∀ line ∈ d.ringLines, Contained 256 (line.map pcText)) ↔
      ((recentPcs d).dropLast.map extraDigits).sum ≤ 76 := by
  have lines : ∀ line ∈ d.ringLines, Contained 256 (line.map pcText) := by
    intro line member
    obtain ⟨k, _, rfl⟩ := List.mem_map.mp member
    exact sixteen_contained (by decide) (by simp)
  rw [recent_contained_iff]
  exact and_iff_left ⟨dos_contained d, lines⟩

/-- A ring full of blocks near the top of the address space. -/
theorem not_report_contained :
    ¬ Contained 256 ((recentPcs { Diag.initial with linRing := fun _ => 0xFFFFFFF0 }).map pcText) := by
  rw [pcs_contained_iff]
  decide

end Pc110
