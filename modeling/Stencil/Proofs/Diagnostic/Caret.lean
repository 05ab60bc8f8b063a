import Stencil.Proofs.Diagnostic.Window
import Stencil.Proofs.Template.Reading

/-!
Carets.  The caret of a picture is meant to stand under a column of the marked row, behind the number of
its line.  The number is filled up to three places and the caret keeps room for three, so it stands there
for every line up to the thousandth, and from there on to the left by the further digits.
-/

set_option autoImplicit false
set_option relaxedAutoImplicit false

namespace Stencil

theorem length_padded (text : Text) : (padded text).length = max 3 text.length := by
  rw [padded, List.length_append, List.length_replicate]
  omega

theorem length_intText_le_iff {number : Int} (positive : 0 < number) :
    (intText number).length ≤ 3 ↔ number < 1000 := by
  cases number with
  | ofNat n =>
    rw [intText, natText, Nat.length_toDigits_le_iff (by decide) (by decide)]
    exact Int.ofNat_lt.symm
  | negSucc n => cases positive

namespace Snippet

theorem length_numberPart (number : Int) (isError : Bool) :
    (numberPart number isError).length = max 3 (intText number).length + 4 := by
  rw [numberPart, List.length_append, List.length_cons, length_padded]
  rfl

theorem getElem?_caretLine {column : Int} (counted : 0 ≤ column) (place : Nat) :
    (caretLine false column)[place]? = some '^' ↔ place = column.toNat + 7 := by
  have front : '^' ∉ "   | ".toList ++ List.replicate (column + 2).toNat ' ' := by
    rw [List.mem_append, not_or]
    exact ⟨by decide, fun member => absurd (List.eq_of_mem_replicate member) (by decide)⟩
  have length : ("   | ".toList ++ List.replicate (column + 2).toNat ' ').length =
      column.toNat + 7 := by
    rw [List.length_append, List.length_replicate, (by rfl : "   | ".toList.length = 5)]
    omega
  rw [caretLine_false, ← length]
  constructor
  · intro found
    by_contra elsewhere
    rcases Nat.lt_or_gt_of_ne elsewhere with before | behind
    · rw [List.getElem?_append_left before] at found
      exact front (List.mem_of_getElem? found)
    · rw [List.getElem?_eq_none (by simpa using behind)] at found
      cases found
  · rintro rfl
    rw [List.getElem?_append_right (Nat.le_refl _), Nat.sub_self]
    rfl

theorem exists_rows_around {source content : Text} {errorLine context column : Int} {number : Nat}
    (line : (number : Int) = errorLine)
    (member : (number, content) ∈ (ofSource source errorLine context (some column)).lines) :
    ∃ above below,
      (ofSource source errorLine context (some column)).rows =
        above ++ (numberPart errorLine true ++ content) :: below ++
          [caretLine false column, border false] ∧
      ∀ row ∈ above ++ below ++ [caretLine false column, border false],
        row.head? ≠ some '>' := by
  obtain ⟨before, after, split⟩ := List.append_of_mem member
  have apart := @map_fst_lines_ofSource source errorLine context (some column) ▸
    List.nodup_range' 1 Nat.one_pos
  rw [split, List.map_append, List.map_cons, List.nodup_middle, ← List.map_append,
    List.nodup_cons] at apart
  let row (line : Nat × Text) : Text :=
    sourceLine false line.1 line.2 (decide ((line.1 : Int) = errorLine))
  have marked : row (number, content) = numberPart errorLine true ++ content := by
    show sourceLine false _ _ (decide ((number : Int) = errorLine)) = _
    rw [sourceLine_false, line, decide_eq_true rfl]
  have unmarked (other : Nat × Text) (among : other ∈ before ++ after) :
      (row other).head? ≠ some '>' := by
    have differs : (other.1 : Int) ≠ errorLine := by
      rintro same
      have repeated : other.1 = number := by omega
      have again := List.mem_map_of_mem (f := Prod.fst) among
      rw [repeated] at again
      exact apart.1 again
    rw [head?_sourceLine, decide_eq_false differs]
    decide
  refine ⟨border false :: before.map row, after.map row, ?_, ?_⟩
  · have lines : (ofSource source errorLine context (some column)).lines.map row =
        before.map row ++ row (number, content) :: after.map row := by
      rw [split, List.map_append, List.map_cons]
    rw [rows_eq newline_not_mem_of_mem_lines_ofSource, ← marked, List.cons_append, ← lines]
    exact List.append_assoc _ _ _
  · intro shown among
    rw [List.cons_append, ← List.map_append, List.cons_append, List.mem_cons, List.mem_append,
      List.mem_map] at among
    rcases among with rfl | ⟨other, among, rfl⟩ | frame
    · decide
    · exact unmarked other among
    · rcases List.mem_pair.1 frame with rfl | rfl
      · exact fun caret => absurd (Option.some.inj caret) (by decide)
      · decide

end Snippet

/-- The caret of an excerpt stands as many places left of its column in the marked row as the number of
the line has digits beyond three.  So it stands under the column exactly for lines below the thousandth. -/
theorem caret_under_column_iff {source : Text} {errorLine context column : Int}
    (positive : 0 < errorLine) (inside : errorLine ≤ (Text.lines source).length)
    (around : 0 ≤ context) (counted : 0 ≤ column) :
    ∃ content above below caret,
      (Text.lines source)[(errorLine - 1).toNat]? = some content ∧
      (Snippet.ofSource source errorLine context (some column)).rows =
        above ++ (Snippet.numberPart errorLine true ++ content) :: below ++
          [caret, Snippet.border false] ∧
      (∀ row ∈ above ++ below ++ [caret, Snippet.border false], row.head? ≠ some '>') ∧
      (∀ place, caret[place]? = some '^' ↔
        place + ((intText errorLine).length - 3) =
          (Snippet.numberPart errorLine true).length + column.toNat) ∧
      (caret[(Snippet.numberPart errorLine true).length + column.toNat]? = some '^' ↔
        errorLine < 1000) := by
  have within : (errorLine - 1).toNat < (Text.lines source).length := by omega
  obtain ⟨content, found⟩ : ∃ content, (Text.lines source)[(errorLine - 1).toNat]? = some content :=
    ⟨_, List.getElem?_eq_getElem within⟩
  have place : (errorLine - 1).toNat = errorLine.toNat - 1 := by omega
  have number : ((errorLine.toNat : Nat) : Int) = errorLine := by omega
  have member : (errorLine.toNat, content) ∈
      (Snippet.ofSource source errorLine context (some column)).lines :=
    Snippet.mem_lines_ofSource_iff.2 ⟨by omega, place ▸ found, by omega, by omega⟩
  obtain ⟨above, below, rows, unmarked⟩ := Snippet.exists_rows_around number member
  have width := Snippet.length_numberPart errorLine true
  refine ⟨_, above, below, _, found, rows, unmarked, fun place => ?_, ?_⟩
  · rw [Snippet.getElem?_caretLine counted, width]
    omega
  · rw [Snippet.getElem?_caretLine counted, width, ← length_intText_le_iff positive]
    omega

private def secondLine : Text :=
  "a\n".toList ++ Tag.written " b "

theorem caret_under_column_second :
    (0 < (2 : Int) ∧ (2 : Int) ≤ (Text.lines secondLine).length ∧
      0 ≤ Snippet.usualContext ∧ (0 : Int) ≤ 3) ∧
    ∃ above below caret,
      (Snippet.ofSource secondLine 2 Snippet.usualContext (some 3)).rows =
        above ++ (Snippet.numberPart 2 true ++ Tag.written " b ") :: below ++
          [caret, Snippet.border false] ∧
      caret[(Snippet.numberPart 2 true).length + 3]? = some '^' := by
  have inside : (2 : Int) ≤ (Text.lines secondLine).length := by decide
  obtain ⟨content, above, below, caret, found, rows, -, -, stands⟩ :=
    @caret_under_column_iff secondLine 2 Snippet.usualContext 3 (by decide) inside (by decide)
      (by decide)
  cases found
  exact ⟨⟨by decide, inside, by decide, by decide⟩, above, below, caret, rows,
    stands.2 (by decide)⟩

private def thousandLines : Text :=
  List.replicate 999 '\n' ++ Tag.written " b "

/-- In the thousandth line the caret stands under the blank before the content, not under column zero. -/
theorem caret_of_thousandth :
    (Text.lines thousandLines).length = 1000 ∧
    (Snippet.ofSource thousandLines 1000 0 (some 0)).rows =
      [Snippet.border false, Snippet.numberPart 1000 true ++ Tag.written " b ",
        Snippet.caretLine false 0, Snippet.border false] ∧
    (Snippet.numberPart 1000 true).length = 8 ∧
    (Snippet.caretLine false 0)[8]? ≠ some '^' ∧ (Snippet.caretLine false 0)[7]? = some '^' := by
  refine ⟨?_, ?_, by decide, by decide, by decide⟩
  · decide +kernel
  · decide +kernel

end Stencil
