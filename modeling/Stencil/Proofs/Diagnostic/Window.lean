import Stencil.Proofs.Diagnostic.Colors
import Stencil.Proofs.Value.DeadEnds

/-!
Windows on a source.  An excerpt holds the lines whose numbers are near enough to the line in question,
all of them and in their order, whatever that line and the distance are.  Its picture has a row for each
of them, and the rows that are marked are those of the line in question.
-/

set_option autoImplicit false
set_option relaxedAutoImplicit false

namespace Stencil

namespace Text

theorem endsLine_of_mem_lines {text content : Text} (member : content ∈ lines text) {c : Char}
    (among : c ∈ content) : endsLine c = false := by
  fun_induction lines text generalizing content c with
  | case1 => cases member
  | case2 text ih =>
    rcases List.mem_cons.1 member with rfl | later
    · cases among
    · exact ih later among
  | case3 d text apart ends ih =>
    rcases List.mem_cons.1 member with rfl | later
    · cases among
    · exact ih later among
  | case4 d text apart goes_on last ih =>
    cases List.mem_singleton.1 member
    cases List.mem_singleton.1 among
    exact Bool.not_eq_true _ ▸ goes_on
  | case5 d text apart goes_on first others more ih =>
    rw [more] at ih
    rcases List.mem_cons.1 member with rfl | later
    · rcases List.mem_cons.1 among with rfl | further
      · exact Bool.not_eq_true _ ▸ goes_on
      · exact ih List.mem_cons_self further
    · exact ih (List.mem_cons_of_mem _ later) among

theorem pieces_joined {mark : Char} {texts : List Text} (nonempty : texts ≠ [])
    (absent : ∀ text ∈ texts, mark ∉ text) : pieces mark (joined [mark] texts) = texts := by
  induction texts with
  | nil => exact absurd rfl nonempty
  | cons text others ih =>
    have first := pieces_of_not_mem (absent text List.mem_cons_self)
    cases others with
    | nil => exact first
    | cons next others =>
      have rest := ih (List.cons_ne_nil _ _) fun other member =>
        absent other (List.mem_cons_of_mem _ member)
      rw [joined, List.append_assoc, List.singleton_append, pieces_append_cons, first, rest,
        List.singleton_append]
      exact List.cons_ne_nil _ _

end Text

namespace Snippet

section Window

variable {source : Text} {errorLine context : Int} {column : Option Int}

def lineAt? (lines : List Text) (place : Int) : Option (Nat × Text) :=
  if place < 0 then none
  else lines[place.toNat]?.map fun content => (place.toNat + 1, content)

/-- The lines around one line of a source, read at their places one by one. -/
def readAround? (source : Text) (errorLine context : Int) : Option (List (Nat × Text)) :=
  let lines := Text.lines source
  let first := max 0 (errorLine - 1 - context)
  let past := min (lines.length : Int) (errorLine + context)
  (List.range (past - first).toNat).mapM fun (offset : Nat) => lineAt? lines (first + offset)

theorem getElem?_numbered (source : Text) (index : Nat) :
    (numbered source)[index]? =
      (Text.lines source)[index]?.map fun content => (index + 1, content) := by
  rw [numbered, List.getElem?_map, List.getElem?_zipIdx, Option.map_map, Nat.add_comm]
  rfl

theorem length_numbered (source : Text) : (numbered source).length = (Text.lines source).length := by
  rw [numbered, List.length_map, List.length_zipIdx]

theorem getElem?_lines_ofSource_iff {index : Nat} {line : Nat × Text} :
    (ofSource source errorLine context column).lines[index]? = some line ↔
      (errorLine - 1 - context).toNat + index < (errorLine + context).toNat ∧
        ∃ content,
          (Text.lines source)[(errorLine - 1 - context).toNat + index]? = some content ∧
          line = ((errorLine - 1 - context).toNat + index + 1, content) := by
  rw [ofSource, List.getElem?_drop, List.getElem?_take, getElem?_numbered, Option.ite_none_right_eq_some,
    Option.map_eq_some_iff]
  simp only [eq_comm (b := line)]

theorem length_lines_ofSource :
    (ofSource source errorLine context column).lines.length =
      (min ((Text.lines source).length : Int) (errorLine + context) -
        max 0 (errorLine - 1 - context)).toNat := by
  rw [ofSource, List.length_drop, List.length_take, length_numbered]
  omega

private theorem mapM_eq_some_of_map {α β : Type} {read : α → Option β} {items : List α}
    {results : List β} (each : items.map read = results.map some) :
    items.mapM read = some results := by
  induction items generalizing results with
  | nil =>
    cases List.map_eq_nil_iff.1 each.symm
    rfl
  | cons item items ih =>
    cases results with
    | nil => cases each
    | cons result results =>
      rw [List.map_cons, List.map_cons, List.cons.injEq] at each
      rw [List.mapM_cons, each.1, ih each.2]
      rfl

theorem readAround?_eq_some (column : Option Int) :
    readAround? source errorLine context =
      some (ofSource source errorLine context column).lines := by
  -- Both ends of the window are kept inside the text, so no place in it is without a line.
  apply mapM_eq_some_of_map
  have count := @length_lines_ofSource source errorLine context column
  apply List.ext_getElem
  · rw [List.length_map, List.length_map, List.length_range, count]
  · intro index bound bound'
    rw [List.length_map] at bound bound'
    obtain ⟨-, content, found, same⟩ :=
      getElem?_lines_ofSource_iff.1 (List.getElem?_eq_getElem bound')
    have place : (max 0 (errorLine - 1 - context) + (index : Int)).toNat =
        (errorLine - 1 - context).toNat + index := by omega
    rw [List.getElem_map, List.getElem_map, List.getElem_range, same, lineAt?,
      if_neg (by omega), place, found, Option.map_some]

theorem mem_lines_ofSource_iff {number : Nat} {content : Text} :
    (number, content) ∈ (ofSource source errorLine context column).lines ↔
      0 < number ∧ (Text.lines source)[number - 1]? = some content ∧
        errorLine - context ≤ number ∧ (number : Int) ≤ errorLine + context := by
  rw [List.mem_iff_getElem?]
  constructor
  · rintro ⟨index, shown⟩
    obtain ⟨inside, content, found, same⟩ := getElem?_lines_ofSource_iff.1 shown
    cases same
    refine ⟨Nat.succ_pos _, found, ?_, ?_⟩ <;> omega
  · rintro ⟨positive, found, near, far⟩
    refine ⟨number - 1 - (errorLine - 1 - context).toNat, getElem?_lines_ofSource_iff.2 ?_⟩
    have place : (errorLine - 1 - context).toNat +
        (number - 1 - (errorLine - 1 - context).toNat) = number - 1 := by omega
    rw [place]
    exact ⟨by omega, content, found, by rw [Nat.sub_add_cancel positive]⟩

theorem map_fst_lines_ofSource :
    (ofSource source errorLine context column).lines.map Prod.fst =
      List.range' ((errorLine - 1 - context).toNat + 1)
        (ofSource source errorLine context column).lines.length := by
  apply List.ext_getElem
  · rw [List.length_map, List.length_range']
  · intro index bound bound'
    rw [List.length_map] at bound
    obtain ⟨-, content, -, same⟩ :=
      getElem?_lines_ofSource_iff.1 (List.getElem?_eq_getElem bound)
    rw [List.getElem_map, same, List.getElem_range']
    omega

end Window

section Rows

variable {snippet : Snippet}

def numberPart (number : Int) (isError : Bool) : Text :=
  (if isError then '>' else ' ') :: padded (intText number) ++ " | ".toList

def rows (snippet : Snippet) : List Text :=
  Text.pieces '\n' (snippet.shown false)

theorem sourceLine_false (number : Int) (content : Text) (isError : Bool) :
    sourceLine false number content isError = numberPart number isError ++ content := by
  cases isError <;> rfl

theorem isVisible_numberPart (number : Int) (isError : Bool) :
    Json.IsVisible (numberPart number isError) := by
  refine Json.isVisible_append.2 ⟨List.forall_mem_cons.2 ⟨?_, ?_⟩, by decide⟩
  · cases isError <;> decide
  · exact isVisible_padded (Json.isVisible_intText number)

theorem caretLine_false (column : Int) :
    caretLine false column = "   | ".toList ++ List.replicate (column + 2).toNat ' ' ++ ['^'] := rfl

theorem mem_frame_of_mem_caretLine {column : Int} {c : Char}
    (member : c ∈ caretLine false column) : c ∈ " |^".toList := by
  rw [caretLine_false, List.mem_append, List.mem_append, List.mem_singleton] at member
  have allowed : "   | ".toList ⊆ " |^".toList := by decide
  rcases member with (frame | indent) | rfl
  · exact allowed frame
  · rw [List.eq_of_mem_replicate indent]
    decide
  · decide

theorem head?_sourceLine (number : Int) (content : Text) (isError : Bool) :
    (sourceLine false number content isError).head? = some (if isError then '>' else ' ') := by
  rw [sourceLine_false]
  rfl

theorem newline_not_mem_of_isVisible {text : Text} (visible : Json.IsVisible text) :
    '\n' ∉ text := by
  intro member
  exact absurd (visible '\n' member) (by decide)

theorem mem_shownLines_iff {row : Text} :
    row ∈ snippet.shownLines false ↔
      row = border false ∨
      (∃ line ∈ snippet.lines,
        row = numberPart line.1 (decide ((line.1 : Int) = snippet.errorLine)) ++ line.2) ∨
      ∃ column, snippet.column = some column ∧ row = caretLine false column := by
  rw [shownLines, List.mem_append, List.mem_append, List.mem_cons, List.mem_map,
    Option.mem_toList, Option.map_eq_some_iff, List.mem_singleton]
  constructor
  · rintro (((rfl | ⟨line, among, rfl⟩) | ⟨column, held, rfl⟩) | rfl)
    · exact Or.inl rfl
    · exact Or.inr (Or.inl ⟨line, among, sourceLine_false _ _ _⟩)
    · exact Or.inr (Or.inr ⟨column, held, rfl⟩)
    · exact Or.inl rfl
  · rintro (rfl | ⟨line, among, rfl⟩ | ⟨column, held, rfl⟩)
    · exact Or.inr rfl
    · exact Or.inl (Or.inl (Or.inr ⟨line, among, sourceLine_false _ _ _⟩))
    · exact Or.inl (Or.inr ⟨column, held, rfl⟩)

theorem newline_not_mem_of_mem_shownLines (flat : ∀ line ∈ snippet.lines, '\n' ∉ line.2)
    {row : Text} (member : row ∈ snippet.shownLines false) : '\n' ∉ row := by
  rcases mem_shownLines_iff.1 member with rfl | ⟨line, among, rfl⟩ | ⟨column, -, rfl⟩
  · exact newline_not_mem_of_isVisible (by decide)
  · rw [List.mem_append, not_or]
    exact ⟨newline_not_mem_of_isVisible (isVisible_numberPart _ _), flat line among⟩
  · exact fun feeds => absurd (mem_frame_of_mem_caretLine feeds) (by decide)

theorem rows_eq (flat : ∀ line ∈ snippet.lines, '\n' ∉ line.2) :
    snippet.rows = snippet.shownLines false :=
  Text.pieces_joined (List.append_ne_nil_of_right_ne_nil _ (List.cons_ne_nil _ _)) fun _ =>
    newline_not_mem_of_mem_shownLines flat

theorem filter_number_eq {lines : List (Nat × Text)} (apart : (lines.map Prod.fst).Nodup)
    (number : Int) :
    (lines.filter fun line => (line.1 : Int) = number) =
      (lines.find? fun line => (line.1 : Int) = number).toList := by
  induction lines with
  | nil => rfl
  | cons line lines ih =>
    rw [List.map_cons, List.nodup_cons] at apart
    by_cases same : (line.1 : Int) = number
    · have others : (lines.filter fun line => (line.1 : Int) = number) = [] := by
        refine List.filter_eq_nil_iff.2 fun other member equal => apart.1 ?_
        have repeated : line.1 = other.1 := by
          have := of_decide_eq_true equal
          omega
        rw [repeated]
        exact List.mem_map_of_mem member
      simp [same, others]
    · simp [same, ih apart.2]

theorem filter_caretLine (column : Option Int) :
    ((column.map (caretLine false)).toList.filter fun row => row.head? = some '>') = [] := by
  cases column <;> rfl

theorem filter_shownLines :
    ((snippet.shownLines false).filter fun row => row.head? = some '>') =
      (snippet.lines.filter fun line => (line.1 : Int) = snippet.errorLine).map fun line =>
        numberPart line.1 true ++ line.2 := by
  have frame : ([border false].filter fun row => row.head? = some '>') = [] := rfl
  have marked (line : Nat × Text) :
      (sourceLine false line.1 line.2 (decide ((line.1 : Int) = snippet.errorLine))).head? =
        some '>' ↔ (line.1 : Int) = snippet.errorLine := by
    rw [head?_sourceLine, Option.some.injEq]
    by_cases same : (line.1 : Int) = snippet.errorLine <;> simp [same]
  rw [shownLines, List.filter_append, List.filter_append, filter_caretLine, frame,
    ← List.singleton_append, List.filter_append, frame, List.nil_append, List.append_nil,
    List.append_nil, List.filter_map]
  simp only [Function.comp_def, marked]
  apply List.map_congr_left
  intro line member
  have same := List.mem_filter.1 member
  rw [sourceLine_false, same.2]

end Rows

theorem newline_not_mem_of_mem_lines_ofSource {source : Text} {errorLine context : Int}
    {column : Option Int} :
    ∀ line ∈ (ofSource source errorLine context column).lines, '\n' ∉ line.2 := by
  intro line among feeds
  obtain ⟨-, found, -, -⟩ := mem_lines_ofSource_iff.1 among
  have goes_on := Text.endsLine_of_mem_lines (List.mem_of_getElem? found) feeds
  cases goes_on

end Snippet

/-- Whatever the line in question and the distance are, every line near it can be read, and the excerpt
holds these lines and no others, numbered one after another.  The picture has a row for each of them, and
the one that is marked is that of the line in question; without that line none is. -/
theorem lines_near (source : Text) (errorLine context : Int) (column : Option Int) :
    ∃ lines, Snippet.readAround? source errorLine context = some lines ∧
      Snippet.ofSource source errorLine context column = ⟨lines, errorLine, column⟩ ∧
      (∀ number content, (number, content) ∈ lines ↔
        0 < number ∧ (Text.lines source)[number - 1]? = some content ∧
          errorLine - context ≤ number ∧ (number : Int) ≤ errorLine + context) ∧
      (∃ first, lines.map Prod.fst = List.range' first lines.length) ∧
      (Snippet.ofSource source errorLine context column).rows =
        Snippet.border false ::
          lines.map (fun line =>
            Snippet.numberPart line.1 (decide ((line.1 : Int) = errorLine)) ++ line.2) ++
          (column.map (Snippet.caretLine false)).toList ++ [Snippet.border false] ∧
      ((Snippet.ofSource source errorLine context column).rows.filter fun row =>
          row.head? = some '>') =
        ((lines.find? fun line => (line.1 : Int) = errorLine).map fun line =>
          Snippet.numberPart line.1 true ++ line.2).toList := by
  have rows := Snippet.rows_eq (@Snippet.newline_not_mem_of_mem_lines_ofSource source errorLine
    context column)
  refine ⟨_, Snippet.readAround?_eq_some column, rfl, fun _ _ => Snippet.mem_lines_ofSource_iff,
    ⟨_, Snippet.map_fst_lines_ofSource⟩, ?_, ?_⟩
  · simp only [rows, Snippet.shownLines, Snippet.sourceLine_false]
    rfl
  · have apart := @Snippet.map_fst_lines_ofSource source errorLine context column ▸
      List.nodup_range' 1 Nat.one_pos
    rw [rows, Snippet.filter_shownLines, Option.toList_map]
    exact congrArg _ (Snippet.filter_number_eq apart errorLine)

end Stencil
