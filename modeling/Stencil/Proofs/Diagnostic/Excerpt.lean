import Stencil.Proofs.Diagnostic.Window
import Stencil.Proofs.Render.Stops
import Stencil.Proofs.Template.Segments
import Stencil.Proofs.Text.Lines

/-!
What excerpts show.  A failure comes with an excerpt that marks a line and a column, and these are meant
to be where the tag that failed opens.  Places count line feeds and excerpts count lines, so the tag is
what is marked exactly when every line before it ends at a line feed.
-/

set_option autoImplicit false
set_option relaxedAutoImplicit false

namespace Stencil

namespace Snippet

/-- Whether the line in question, at the column in question, has the opening mark of a tag, and has it
from an offset of the source. -/
def Shows (snippet : Snippet) (source : Text) (offset : Nat) : Prop :=
  ∃ number start column content,
    snippet.errorLine = ((number + 1 : Nat) : Int) ∧ snippet.column = some ((column : Nat) : Int) ∧
    (number + 1, content) ∈ snippet.lines ∧
    (Text.placedLines 0 source)[number]? = some (start, content) ∧
    start + column = offset ∧ Tag.opener <+: content.drop column

theorem mem_lines_ofSource {source content : Text} {number : Nat} (column : Option Int)
    (found : (Text.lines source)[number]? = some content) :
    (number + 1, content) ∈
      (ofSource source ((number + 1 : Nat) : Int) usualContext column).lines := by
  refine mem_lines_ofSource_iff.2 ⟨Nat.succ_pos _, found, ?_, ?_⟩
  · rw [usualContext]
    omega
  · rw [usualContext]
    omega

theorem exists_line_of_tag (front rest : Text) :
    ∃ begins begun content, begins + begun.length = front.length ∧
      begun.length = Text.openLength front ∧
      (Text.placedLines 0 (front ++ (Tag.opener ++ rest)))[Text.lineEnds front]? =
        some (begins, begun ++ (Tag.opener ++ content)) := by
  obtain ⟨content, others, more⟩ :=
    Text.exists_placedLines_cons_of_not_end (0 + front.length + 1) (by rfl : endsLine '{' = false) rest
  have line := Text.placedLines_cons_of_not_end (by rfl : endsLine '{' = false) more
  obtain ⟨begins, begun, place, length, found⟩ :=
    Text.getElem?_placedLines_append (by simp) 0 front line
  exact ⟨begins, begun, content, place.trans (Nat.zero_add _), length, found⟩

/-- The excerpt around the place of a tag shows it exactly when line feeds end the lines before it. -/
theorem shows_at_iff {front rest : Text} :
    (Snippet.at (front ++ (Tag.opener ++ rest)) (.after front)).Shows
      (front ++ (Tag.opener ++ rest)) front.length ↔ front.FeedsEndLines := by
  obtain ⟨begins, begun, content, place, length, found⟩ := exists_line_of_tag front rest
  have marked : (Snippet.at (front ++ (Tag.opener ++ rest)) (.after front)).errorLine =
      ((front.count '\n' + 1 : Nat) : Int) := by
    rw [Nat.add_comm]
    rfl
  constructor
  · rintro ⟨number, start, column, other, line, -, -, stands, total, shown⟩
    have number_eq : number = front.count '\n' := by
      rw [marked] at line
      omega
    by_contra unfed
    have earlier : number < Text.lineEnds front := by
      rw [← Text.count_eq_lineEnds_iff] at unfed
      rw [number_eq]
      exact lt_of_le_of_ne (Text.count_le_lineEnds front) unfed
    obtain ⟨bound, here⟩ := List.getElem?_eq_some_iff.1 stands
    obtain ⟨bound', there⟩ := List.getElem?_eq_some_iff.1 found
    have apart := List.pairwise_iff_getElem.1
      (Text.pairwise_placedLines 0 (front ++ (Tag.opener ++ rest))) _ _ bound bound' earlier
    rw [here, there] at apart
    have room := shown.length_le
    rw [List.length_drop] at room
    have marks : Tag.opener.length = 2 := rfl
    dsimp only at apart
    omega
  · intro feeds
    have same := (Text.count_eq_lineEnds_iff front).2 feeds
    rw [← same] at found
    refine ⟨front.count '\n', begins, begun.length, begun ++ (Tag.opener ++ content), marked, ?_, ?_,
      found, place, ?_⟩
    · rw [length, feeds.openLength_eq]
      rfl
    · rw [Snippet.at, Position.after, Nat.add_comm 1]
      apply mem_lines_ofSource
      rw [← Text.map_snd_placedLines 0, List.getElem?_map, found]
      rfl
    · rw [List.drop_left]
      exact List.prefix_append _ _

end Snippet

namespace Segment

theorem exists_of_mem_placed_eq {front : Text} {segments : List Segment} {entry : Text × Segment}
    (member : entry ∈ placed front segments) :
    ∃ rest, front ++ segments.flatMap text = entry.1 ++ (entry.2.text ++ rest) := by
  induction segments generalizing front with
  | nil => cases member
  | cons segment segments ih =>
    rw [placed, List.mem_cons] at member
    rw [List.flatMap_cons]
    rcases member with rfl | later
    · exact ⟨segments.flatMap text, rfl⟩
    · obtain ⟨rest, same⟩ := ih later
      exact ⟨rest, by rw [← List.append_assoc, same]⟩

theorem eq_opening_of_heads {segment : Segment} {node : Node} (heads : segment.Heads node)
    (isBlock : node.isBlock = true) : ∃ kind inside, segment = .opening kind inside := by
  cases node with
  | literal => cases isBlock
  | reference => cases isBlock
  | block kind place path body =>
    cases segment with
    | opening kind inside => exact ⟨kind, inside, rfl⟩
    | literal => exact heads.elim
    | reference => exact heads.elim
    | closing => exact heads.elim
    | stray => exact heads.elim

theorem eq_reference_of_heads {segment : Segment} {place : Position} {path : Text}
    (heads : segment.Heads (.reference place path)) :
    ∃ inside, segment = .reference inside ∧ path = Text.trim inside := by
  cases segment with
  | reference inside => exact ⟨inside, rfl, heads⟩
  | literal => exact heads.elim
  | opening => exact heads.elim
  | closing => exact heads.elim
  | stray => exact heads.elim

end Segment

theorem Reading.exists_segment_of_mem {name : Option Text} {room : Int} {source : Text}
    {notices : List Notice} {body : List Node}
    (reading : Reading name room .start source notices body) {around : Nat} {node : Node}
    (member : node ∈ (Node.allInOrder around body).map Prod.snd) :
    ∃ front segment rest, source = front ++ (Segment.text segment ++ rest) ∧
      segment.Heads node ∧ node.place = .after front := by
  obtain ⟨segments, segmentation⟩ := exists_segmentation reading [] Position.start_eq_after
  obtain ⟨index, bound, rfl⟩ := List.getElem_of_mem member
  have heads := segmentation.laid.forall₂_heads around
  have bound' := heads.length_eq ▸ bound
  obtain ⟨headed, place⟩ := heads.get bound bound'
  have placed := List.mem_of_mem_filter (List.getElem_mem bound')
  obtain ⟨rest, same⟩ := Segment.exists_of_mem_placed_eq placed
  rw [List.nil_append, segmentation.text_eq] at same
  exact ⟨_, _, rest, same, headed, place⟩

theorem Heap.snippet_undefinedAt {n : Nat} (heap : Heap n) {name : Option Text} {source : Text}
    (nonempty : source ≠ []) (place : Position) (path : Text) (value : Value n) :
    (heap.undefinedAt (some ⟨name, some source⟩) place path value).value.snippet =
      some (Snippet.at source place) := by
  cases source with
  | nil => exact absurd rfl nonempty
  | cons c source => rfl

/-- Whatever fails, the excerpt is about the tag that failed, and it shows that tag exactly when every
line before the tag ends at a line feed.  When blocks nest too deeply, that is the opening tag of the
first block of the tree with at least `limit` blocks around it; when a value is missing, it is the tag of
the reference at which the run stops. -/
theorem excerpt_shows_iff (source : Text) :
    (∀ (name : Option Text) (limit : Int) (exceeded : NestingExceeded),
      (Template.ofSource name limit source).run.value = .error (.nesting exceeded) →
      ∃ tree around block front kind inside rest snippet,
        (Template.ofSource name (source.length + 1) source).run.value = .ok tree ∧
        Node.firstBeyond? limit 0 tree.body = some (around, block) ∧
        block.place = .after front ∧ (Segment.opening kind inside).Heads block ∧
        source = front ++ ((Segment.opening kind inside).text ++ rest) ∧
        exceeded.snippet = some snippet ∧ exceeded.line = some snippet.errorLine ∧
        (snippet.Shows source front.length ↔ front.FeedsEndLines)) ∧
    ∀ (engine : Engine) (name : Option Text) (context : Context) (failure : UndefinedVariable),
      (engine.render name source context).run.value = .error (.undefined failure) →
      ∃ template front current inside rest snippet,
        (Template.ofSource name engine.limit source).run.value = .ok template ∧
        Node.StopsAt context.heap (some ⟨name, some source⟩) context.root template.body
          (.after front) failure.path current ∧
        failure.path = Text.trim inside ∧
        source = front ++ ((Segment.reference inside).text ++ rest) ∧
        failure.snippet = some snippet ∧ failure.line = some snippet.errorLine ∧
        (snippet.Shows source front.length ↔ front.FeedsEndLines) := by
  constructor
  · intro name limit exceeded failed
    obtain ⟨notices, body, reading⟩ :=
      Node.exists_reading name .start (Int.lt_add_one_of_le (Int.le_refl (source.length : Int)))
    have parsed : (Template.ofSource name (source.length + 1) source).run =
        ⟨notices, .ok ⟨name, body⟩⟩ := Template.run_ofSource_eq_ok_iff.2 ⟨rfl, reading⟩
    rw [Template.outcome_ofSource_of_reading reading limit] at failed
    cases first : Node.firstBeyond? limit 0 body with
    | none => rw [first] at failed; cases failed
    | some entry =>
      rw [first] at failed
      cases failed
      obtain ⟨around, block⟩ := entry
      have member := List.mem_map_of_mem (f := Prod.snd) (List.mem_of_find?_eq_some first)
      have deep := List.find?_some first
      rw [Bool.and_eq_true] at deep
      obtain ⟨front, segment, rest, same, heads, place⟩ := reading.exists_segment_of_mem member
      obtain ⟨kind, inside, rfl⟩ := Segment.eq_opening_of_heads heads deep.1
      refine ⟨_, around, block, front, kind, inside, rest, Snippet.at source block.place,
        congrArg Logged.value parsed, first, place, heads, same, rfl, rfl, ?_⟩
      rw [place, same, Segment.text, List.append_assoc, List.append_assoc]
      exact Snippet.shows_at_iff
  · intro engine name context failure failed
    obtain ⟨-, template, place, path, current, parsed, stops, rfl⟩ :=
      Engine.outcome_render_eq_undefined_iff.1 failed
    have member := Node.mem_allInOrder_of_stopsAt 0 template.body stops
    obtain ⟨front, segment, rest, same, heads, rfl⟩ :=
      (Template.reading_of_ofSource parsed).exists_segment_of_mem member
    obtain ⟨inside, rfl, trimmed⟩ := Segment.eq_reference_of_heads heads
    have nonempty : source ≠ [] := by
      rintro rfl
      have long := congrArg List.length same
      simp [Segment.text, Tag.opener] at long
    refine ⟨template, front, current, inside, rest, Snippet.at source (.after front), parsed, stops,
      trimmed, same, Heap.snippet_undefinedAt _ nonempty _ _ _, rfl, ?_⟩
    rw [same, Segment.text, List.append_assoc, List.append_assoc]
    exact Snippet.shows_at_iff

private def greeting (lineEnd : Text) : Text :=
  "Hello".toList ++ lineEnd ++ Tag.written " name "

private def nobody : Context := ⟨0, ⟨Fin.elim0⟩, .scalar .null⟩

private def strictly : Engine := ⟨true, Engine.usualLimit, true⟩

theorem excerpt_shows_of_both :
    ∃ failure snippet,
      (strictly.render none (greeting ['\r', '\n']) nobody).run.value = .error (.undefined failure) ∧
      failure.snippet = some snippet ∧ snippet.Shows (greeting ['\r', '\n']) 7 := by
  have failed : (strictly.render none (greeting ['\r', '\n']) nobody).run.value =
      .error (.undefined ⟨"name".toList, none, some 2, [],
        some ⟨[(1, "Hello".toList), (2, Tag.written " name ")], 2, some 0⟩⟩) := by cbv
  obtain ⟨-, front, -, inside, rest, snippet, -, -, -, same, excerpt, -, shows⟩ :=
    (excerpt_shows_iff (greeting ['\r', '\n'])).2 _ _ _ _ failed
  have opens : Tag.opener <+: (greeting ['\r', '\n']).drop front.length := by
    rw [same, List.drop_left, Segment.text, List.append_assoc, List.append_assoc]
    exact List.prefix_append _ _
  have short : front.length < 18 := by
    have long := congrArg List.length same
    rw [List.length_append, (by rfl : (greeting ['\r', '\n']).length = 17)] at long
    omega
  have only : ∀ offset < 18, Tag.opener <+: (greeting ['\r', '\n']).drop offset → offset = 7 := by
    decide
  have place := only front.length short opens
  have feeds : front.FeedsEndLines := by
    have begun : front = (greeting ['\r', '\n']).take 7 := by rw [same, ← place, List.take_left]
    rw [begun, ← Text.count_eq_lineEnds_iff]
    decide
  exact ⟨_, snippet, failed, excerpt, place ▸ shows.2 feeds⟩

/-- After a carriage return alone the excerpt is about the line before the tag. -/
theorem excerpt_of_return :
    ∃ failure snippet,
      (strictly.render none (greeting ['\r']) nobody).run.value = .error (.undefined failure) ∧
      failure.path = "name".toList ∧ failure.line = some 1 ∧ failure.snippet = some snippet ∧
      snippet = ⟨[(1, "Hello".toList), (2, Tag.written " name ")], 1, some 6⟩ ∧
      ¬ snippet.Shows (greeting ['\r']) 6 := by
  have failed : (strictly.render none (greeting ['\r']) nobody).run.value =
      .error (.undefined ⟨"name".toList, none, some 1, [],
        some ⟨[(1, "Hello".toList), (2, Tag.written " name ")], 1, some 6⟩⟩) := by cbv
  refine ⟨_, _, failed, rfl, rfl, rfl, rfl, ?_⟩
  rintro ⟨number, start, column, content, line, col, member, -, -, shown⟩
  obtain rfl : number = 0 := by
    dsimp only at line
    omega
  obtain rfl : column = 6 := by
    rw [Option.some.injEq] at col
    omega
  obtain rfl : content = "Hello".toList := by
    simpa using member
  exact absurd shown (by decide)

end Stencil
