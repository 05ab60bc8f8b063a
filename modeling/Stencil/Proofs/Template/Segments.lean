import Stencil.Proofs.Template.Order
import Stencil.Proofs.Template.Reading
import Mathlib

/-!
The segments of a source.  A source that can be parsed is a sequence of segments, and nothing of it is
lost: literal texts, tags that put in a value or open a block, the closing marks of blocks, and stray
closing tags.  The nodes of the tree begin, in order, at the segments that are no closings, each at the
place that the line feeds before its segment tell, and the notices of stray tags name their places.
-/

set_option autoImplicit false
set_option relaxedAutoImplicit false

namespace Stencil

namespace Position

/-- The place after a text at the beginning of a source: its line is told by the line feeds before it,
and its column by the characters since the last of them. -/
def after (front : Text) : Position :=
  ⟨1 + front.count '\n', (front.reverse.takeWhile (· ≠ '\n')).length⟩

def Precedes (first second : Position) : Prop :=
  first.line < second.line ∨ first.line = second.line ∧ first.column < second.column

theorem start_eq_after : start = after [] := rfl

theorem step_after (front : Text) (c : Char) : (after front).step c = after (front ++ [c]) := by
  by_cases feed : c = '\n'
  · subst feed
    simp [step, after, List.count_append, Nat.add_assoc]
  · simp [step, after, List.count_append, feed]

theorem past_after (front text : Text) : (after front).past text = after (front ++ text) := by
  induction text generalizing front with
  | nil => rw [past_nil, List.append_nil]
  | cons c text ih => rw [past_cons, step_after, ih, List.append_assoc, List.singleton_append]

theorem Precedes.trans {first second third : Position} (one : first.Precedes second)
    (two : second.Precedes third) : first.Precedes third := by
  unfold Precedes at *
  omega

theorem precedes_step (place : Position) (c : Char) : place.Precedes (place.step c) := by
  by_cases feed : c = '\n'
  · simp [Precedes, step, feed]
  · simp [Precedes, step, feed]

theorem precedes_past (place : Position) {text : Text} (nonempty : text ≠ []) :
    place.Precedes (place.past text) := by
  induction text generalizing place with
  | nil => exact absurd rfl nonempty
  | cons c text ih =>
    rw [past_cons]
    by_cases last : text = []
    · rw [last, past_nil]
      exact precedes_step place c
    · exact (precedes_step place c).trans (ih (place.step c) last)

end Position

inductive Segment
  | literal (content : Text)
  /-- A tag that puts in the value at a path, with what stands between its marks. -/
  | reference (inside : Text)
  /-- A tag that opens a block, with what stands between its marks. -/
  | opening (kind : BlockKind) (inside : Text)
  /-- The mark that closes a block. -/
  | closing (kind : BlockKind)
  /-- A closing tag that ends no block. -/
  | stray (inside : Text)

namespace Segment

def text : Segment → Text
  | literal content => content
  | reference inside => Tag.opener ++ inside ++ Tag.closer
  | opening _ inside => Tag.opener ++ inside ++ Tag.closer
  | closing kind => kind.closer
  | stray inside => Tag.opener ++ inside ++ Tag.closer

/-- Whether a tag ends at the first closing mark after its opening mark. -/
def EndsFirst (inside : Text) : Prop :=
  Text.find? Tag.closer (inside ++ Tag.closer) 0 = some inside.length

/-- What a segment is by itself: a literal text is not empty, a tag ends as soon as it can, and the
trimmed content of a stray tag begins with a slash. -/
def IsWhole : Segment → Prop
  | literal content => content ≠ []
  | reference inside => EndsFirst inside
  | opening _ inside => EndsFirst inside
  | closing _ => True
  | stray inside => EndsFirst inside ∧ (Text.trim inside).head? = some '/'

def isHead : Segment → Bool
  | literal _ => true
  | reference _ => true
  | opening .. => true
  | closing _ => false
  | stray _ => false

/-- Whether a segment is the one at which a given node begins. -/
def Heads : Segment → Node → Prop
  | literal content, .literal _ shown => shown = content
  | reference inside, .reference _ path => path = Text.trim inside
  | opening kind inside, .block kind' _ path _ =>
    kind' = kind ∧ ∃ rest, Text.trim inside = kind.directive ++ rest ∧ path = Text.trim rest
  | _, _ => False

/-- Segments one after another, each with all the text before it. -/
def placed (front : Text) : List Segment → List (Text × Segment)
  | [] => []
  | segment :: segments => (front, segment) :: placed (front ++ segment.text) segments

def notice? (name : Option Text) : Text × Segment → Option Notice
  | (front, stray inside) => some (.stray name (.after front) (Text.trim inside))
  | _ => none

end Segment

/-- How segments make up the nodes of a body, after a text: a node that is no block is one segment, a
block is its opening tag, the segments of its body and the mark that closes it, and stray tags may stand
anywhere between nodes. -/
inductive Laid : Text → List Node → List Segment → Prop
  | nil {front : Text} : Laid front [] []
  | leaf {front : Text} {segment : Segment} {node : Node} {nodes : List Node}
    {segments : List Segment} (heads : segment.Heads node) (leaf : node.isBlock = false)
    (place : node.place = .after front) (others : Laid (front ++ segment.text) nodes segments) :
    Laid front (node :: nodes) (segment :: segments)
  | block {front inside path : Text} {kind : BlockKind} {place : Position} {body nodes : List Node}
    {inner segments : List Segment}
    (heads : (Segment.opening kind inside).Heads (.block kind place path body))
    (place_eq : place = .after front)
    (inwards : Laid (front ++ (Segment.opening kind inside).text) body inner)
    (others : Laid (front ++ (Segment.opening kind inside).text ++ inner.flatMap Segment.text ++
      (Segment.closing kind).text) nodes segments) :
    Laid front (.block kind place path body :: nodes)
      (.opening kind inside :: inner ++ .closing kind :: segments)
  | stray {front inside : Text} {nodes : List Node} {segments : List Segment}
    (others : Laid (front ++ (Segment.stray inside).text) nodes segments) :
    Laid front nodes (.stray inside :: segments)

namespace Segment

theorem placed_append (front : Text) (first rest : List Segment) :
    placed front (first ++ rest) =
      placed front first ++ placed (front ++ first.flatMap text) rest := by
  induction first generalizing front with
  | nil => rw [List.flatMap_nil, List.append_nil]; rfl
  | cons segment first ih =>
    rw [List.cons_append, placed, placed, ih, List.flatMap_cons, List.append_assoc]
    rfl

theorem isHead_of_heads {segment : Segment} {node : Node} (heads : segment.Heads node) :
    segment.isHead = true := by
  cases segment with
  | literal content => rfl
  | reference inside => rfl
  | opening kind inside => rfl
  | closing kind => exact heads.elim
  | stray inside => exact heads.elim

theorem text_ne_nil {segment : Segment} (whole : segment.IsWhole) : segment.text ≠ [] := by
  cases segment with
  | literal content => exact whole
  | reference inside => exact List.cons_ne_nil _ _
  | opening kind inside => exact List.cons_ne_nil _ _
  | closing kind => exact List.length_pos_iff.1 kind.length_closer_pos
  | stray inside => exact List.cons_ne_nil _ _

theorem exists_of_mem_placed {front : Text} {segments : List Segment} {entry : Text × Segment}
    (member : entry ∈ placed front segments) : ∃ between, entry.1 = front ++ between := by
  induction segments generalizing front with
  | nil => cases member
  | cons segment segments ih =>
    rw [placed, List.mem_cons] at member
    rcases member with rfl | later
    · exact ⟨[], (List.append_nil front).symm⟩
    · obtain ⟨between, grown⟩ := ih later
      exact ⟨segment.text ++ between, by rw [grown, List.append_assoc]⟩

theorem pairwise_placed {front : Text} {segments : List Segment}
    (whole : ∀ segment ∈ segments, segment.IsWhole) :
    (placed front segments).Pairwise fun one two =>
      (Position.after one.1).Precedes (Position.after two.1) := by
  induction segments generalizing front with
  | nil => exact List.Pairwise.nil
  | cons segment segments ih =>
    rw [placed, List.pairwise_cons]
    refine ⟨?_, ih fun other member => whole other (List.mem_cons_of_mem _ member)⟩
    intro entry later
    obtain ⟨between, grown⟩ := exists_of_mem_placed later
    rw [grown, List.append_assoc, ← Position.past_after]
    apply Position.precedes_past
    intro empty
    exact text_ne_nil (whole segment List.mem_cons_self) (List.append_eq_nil_iff.1 empty).1

end Segment

namespace Laid

theorem forall₂_heads {front : Text} {nodes : List Node} {segments : List Segment}
    (laid : Laid front nodes segments) (around : Nat) :
    List.Forall₂ (fun node entry => entry.2.Heads node ∧ node.place = .after entry.1)
      ((Node.allInOrder around nodes).map Prod.snd)
      ((Segment.placed front segments).filter fun entry => entry.2.isHead) := by
  induction laid generalizing around with
  | nil => exact List.Forall₂.nil
  | @leaf _ segment node _ _ heads leaf place _ ih =>
    rw [Segment.placed, List.filter_cons, if_pos (Segment.isHead_of_heads heads)]
    cases node with
    | literal => exact List.Forall₂.cons ⟨heads, place⟩ (ih around)
    | reference => exact List.Forall₂.cons ⟨heads, place⟩ (ih around)
    | block => cases leaf
  | block heads place_eq _ _ body_ih others_ih =>
    rw [Node.allInOrder, Node.inOrder, List.cons_append, List.map_cons, List.map_append,
      List.cons_append, Segment.placed, List.filter_cons_of_pos rfl]
    refine List.Forall₂.cons ⟨heads, place_eq⟩ ?_
    rw [Segment.placed_append, List.filter_append, Segment.placed,
      List.filter_cons_of_neg Bool.false_ne_true]
    exact List.rel_append (body_ih (around + 1)) (others_ih around)
  | stray _ ih =>
    rw [Segment.placed, List.filter_cons_of_neg Bool.false_ne_true]
    exact ih around

end Laid

def Notice.isStray : Notice → Bool
  | .stray .. => true
  | _ => false

structure Segmentation (name : Option Text) (front text : Text) (notices : List Notice)
    (nodes : List Node) (segments : List Segment) : Prop where
  text_eq : segments.flatMap Segment.text = text
  whole : ∀ segment ∈ segments, segment.IsWhole
  laid : Laid front nodes segments
  strays : (Segment.placed front segments).filterMap (Segment.notice? name) =
    notices.filter Notice.isStray

namespace Segmentation

variable {name : Option Text} {front text inside : Text} {notices : List Notice}
variable {nodes : List Node} {segments : List Segment}

theorem nil : Segmentation name front [] [] [] [] :=
  ⟨rfl, fun _ member => absurd member List.not_mem_nil, .nil, rfl⟩

theorem leaf {segment : Segment} {node : Node} (heads : segment.Heads node)
    (isLeaf : node.isBlock = false) (place : node.place = .after front) (whole : segment.IsWhole)
    (others : Segmentation name (front ++ segment.text) text notices nodes segments) :
    Segmentation name front (segment.text ++ text) notices (node :: nodes)
      (segment :: segments) where
  text_eq := by rw [List.flatMap_cons, others.text_eq]
  whole := List.forall_mem_cons.2 ⟨whole, others.whole⟩
  laid := .leaf heads isLeaf place others.laid
  strays := by
    have silent : Segment.notice? name (front, segment) = none := by
      cases segment with
      | stray => exact heads.elim
      | _ => rfl
    rw [Segment.placed, List.filterMap_cons_none silent, others.strays]

theorem literal (content : Text)
    (others : Segmentation name (front ++ content) text notices nodes segments) :
    ∃ all, Segmentation name front (content ++ text) notices
      (Node.ofLiteral (.after front) content ++ nodes) all := by
  rw [Node.ofLiteral]
  split
  · next empty =>
    rw [empty, List.append_nil] at others
    rw [empty]
    exact ⟨segments, others⟩
  · next full =>
    have heads : (Segment.literal content).Heads (.literal (.after front) content) := by
      rw [Segment.Heads]
    exact ⟨.literal content :: segments, leaf heads rfl rfl full others⟩

theorem stray (ends : Segment.EndsFirst inside) (slash : (Text.trim inside).head? = some '/')
    (others :
      Segmentation name (front ++ (Segment.stray inside).text) text notices nodes segments) :
    Segmentation name front ((Segment.stray inside).text ++ text)
      (.stray name (.after front) (Text.trim inside) :: notices) nodes
      (.stray inside :: segments) where
  text_eq := by rw [List.flatMap_cons, others.text_eq]
  whole := List.forall_mem_cons.2 ⟨⟨ends, slash⟩, others.whole⟩
  laid := .stray others.laid
  strays := by
    have noticed : Segment.notice? name (front, .stray inside) =
        some (.stray name (.after front) (Text.trim inside)) := rfl
    rw [Segment.placed, List.filterMap_cons_some noticed, others.strays]
    rfl

theorem notice {notice : Notice} (other : notice.isStray = false)
    (segmentation : Segmentation name front text notices nodes segments) :
    Segmentation name front text (notice :: notices) nodes segments :=
  { segmentation with
    strays := by rw [segmentation.strays, List.filter_cons_of_neg (by simp [other])] }

theorem block {kind : BlockKind} {rest inner : Text} {body : List Node} {notices' : List Notice}
    {parts : List Segment} (ends : Segment.EndsFirst inside)
    (directive : Text.trim inside = kind.directive ++ rest)
    (inwards : Segmentation name (front ++ (Segment.opening kind inside).text) inner notices body
      parts)
    (others : Segmentation name
      (front ++ (Segment.opening kind inside).text ++ inner ++ (Segment.closing kind).text) text
      notices' nodes segments) :
    Segmentation name front
      ((Segment.opening kind inside).text ++ inner ++ (Segment.closing kind).text ++ text)
      (notices ++ notices')
      (.block kind (.after front) (Text.trim rest) body :: nodes)
      (.opening kind inside :: parts ++ .closing kind :: segments) where
  text_eq := by
    rw [List.flatMap_append, List.flatMap_cons, List.flatMap_cons, inwards.text_eq, others.text_eq]
    simp only [List.append_assoc]
  whole := by
    intro segment member
    rw [List.cons_append, List.mem_cons, List.mem_append, List.mem_cons] at member
    rcases member with rfl | member | rfl | member
    · exact ends
    · exact inwards.whole segment member
    · exact trivial
    · exact others.whole segment member
  laid := by
    refine .block ⟨rfl, rest, directive, rfl⟩ rfl inwards.laid ?_
    rw [inwards.text_eq]
    exact others.laid
  strays := by
    rw [List.cons_append, Segment.placed, List.filterMap_cons_none rfl, Segment.placed_append,
      List.filterMap_append, inwards.strays, inwards.text_eq, Segment.placed,
      List.filterMap_cons_none rfl, others.strays, List.filter_append]

end Segmentation

section Tag

variable {text before content after : Text}

theorem Position.pastTag_after (front before content : Text) :
    (Position.after front).pastTag before content =
      .after (front ++ before ++ (Tag.opener ++ content ++ Tag.closer)) := by
  rw [Position.pastTag, Position.past_after, Position.past_after]

theorem Front.text_of_tag (front : Front.ofText text = .tag before content after) :
    text = before ++ (Tag.opener ++ content ++ Tag.closer ++ after) := by
  rw [Front.eq_append_of_tag front]
  simp only [List.append_assoc]

private theorem endsFirst_of_tag (front : Front.ofText text = .tag before content after) :
    Segment.EndsFirst content := by
  have cut : Text.cut? Tag.closer (content ++ Tag.closer ++ []) = some (content, []) :=
    Text.cut?_append (by decide) (Front.closer_first_of_tag front)
  rw [List.append_nil] at cut
  rw [Segment.EndsFirst, Text.find?_eq_cut? (Nat.zero_le _), List.drop_zero, cut, Option.map_some,
    Nat.zero_add]

end Tag

open Segmentation in
/-- A text that has been read falls into segments. -/
theorem exists_segmentation {name : Option Text} {room : Int} {place : Position} {text : Text}
    {notices : List Notice} {nodes : List Node}
    (reading : Reading name room place text notices nodes) (front : Text)
    (start : place = .after front) :
    ∃ segments, Segmentation name front text notices nodes segments := by
  induction reading generalizing front with
  | @plain _ _ text front_eq =>
    subst start
    have empty : Segmentation name (front ++ text) [] [] [] [] := .nil
    simpa only [List.append_nil] using empty.literal text
  | @unterminated _ _ text before front_eq =>
    subst start
    have empty : Segmentation name (front ++ text) [] [] [] [] := .nil
    obtain ⟨segments, all⟩ := empty.literal text
    rw [List.append_nil, List.append_nil] at all
    exact ⟨segments, all.notice rfl⟩
  | @reference _ _ text before content after notices nodes front_eq tag _ ih =>
    subst start
    have heads : (Segment.reference content).Heads
        (.reference (.after (front ++ before)) (Text.trim content)) := by
      rw [Segment.Heads]
    obtain ⟨segments, others⟩ := ih (front ++ before ++ (Segment.reference content).text)
      (Position.pastTag_after front before content)
    rw [Front.text_of_tag front_eq, Position.past_after]
    exact (leaf heads rfl rfl (endsFirst_of_tag front_eq) others).literal before
  | @stray _ _ text before content after kind notices nodes front_eq tag _ ih =>
    subst start
    obtain ⟨segments, others⟩ := ih (front ++ before ++ (Segment.stray content).text)
      (Position.pastTag_after front before content)
    rw [Front.text_of_tag front_eq, Position.past_after]
    exact (stray (endsFirst_of_tag front_eq) (Tag.head?_of_closing tag) others).literal before
  | @unmatched _ _ text before content after kind notices nodes front_eq tag inside _ ih =>
    subst start
    have heads : (Segment.reference content).Heads
        (.reference (.after (front ++ before)) (Text.trim content)) := by
      rw [Segment.Heads]
    obtain ⟨segments, others⟩ := ih (front ++ before ++ (Segment.reference content).text)
      (Position.pastTag_after front before content)
    rw [Front.text_of_tag front_eq, Position.past_after]
    obtain ⟨all, segmentation⟩ :=
      (leaf heads rfl rfl (endsFirst_of_tag front_eq) others).literal before
    exact ⟨all, segmentation.notice rfl⟩
  | @block _ _ text before content after inner rest kind notices notices' body nodes front_eq tag
      inside _ _ _ body_ih others_ih =>
    subst start
    obtain ⟨named, directive⟩ := Tag.ofContent_eq_opening_iff.1 tag
    obtain ⟨parts, inwards⟩ := body_ih (front ++ before ++ (Segment.opening kind content).text)
      (Position.pastTag_after front before content)
    obtain ⟨segments, others⟩ := others_ih
      (front ++ before ++ (Segment.opening kind content).text ++ inner ++
        (Segment.closing kind).text)
      (by
        rw [Position.pastTag_after, Position.past_after, List.append_assoc _ inner]
        rfl)
    have path : kind.pathIn (Text.trim content) = Text.trim named := by
      rw [← directive, BlockKind.pathIn_directive]
    rw [Front.text_of_tag front_eq, Position.past_after, path, BlockKind.eq_append_of_inside? inside]
    have whole := block (endsFirst_of_tag front_eq) directive.symm inwards others
    simpa only [Segment.text, List.append_assoc] using whole.literal before

theorem Segmentation.pairwise_places {name : Option Text} {front text : Text}
    {notices : List Notice} {nodes : List Node} {segments : List Segment}
    (segmentation : Segmentation name front text notices nodes segments) (around : Nat) :
    ((Node.allInOrder around nodes).map fun entry => entry.2.place).Pairwise
      Position.Precedes := by
  have heads := segmentation.laid.forall₂_heads around
  have same : ((Node.allInOrder around nodes).map Prod.snd).map Node.place =
      ((Segment.placed front segments).filter fun entry => entry.2.isHead).map
        fun entry => Position.after entry.1 := by
    rw [← List.forall₂_eq_eq_eq, List.forall₂_map_left_iff, List.forall₂_map_right_iff]
    exact heads.imp fun node entry both => both.2
  rw [List.map_map] at same
  show ((Node.allInOrder around nodes).map (Node.place ∘ Prod.snd)).Pairwise _
  rw [same, List.pairwise_map]
  exact (Segment.pairwise_placed segmentation.whole).filter _

/-- Wherever parsing succeeds, the source is a sequence of whole segments from which the tree is made:
nothing is lost, the nodes in order are the segments that begin a node, each at the place that the text
before its segment tells, these places follow each other, and the notices of stray tags are those of the
stray segments in order. -/
theorem segments_of_ofSource {name : Option Text} {limit : Int} {source : Text}
    {template : Template}
    (parsed : (Template.ofSource name limit source).run.value = .ok template) :
    ∃ segments : List Segment,
      segments.flatMap Segment.text = source ∧
      (∀ segment ∈ segments, segment.IsWhole) ∧
      Laid [] template.body segments ∧
      List.Forall₂ (fun node entry => entry.2.Heads node ∧ node.place = Position.after entry.1)
        ((Node.allInOrder 0 template.body).map Prod.snd)
        ((Segment.placed [] segments).filter fun entry => entry.2.isHead) ∧
      ((Node.allInOrder 0 template.body).map fun entry => entry.2.place).Pairwise
        Position.Precedes ∧
      (Template.ofSource name limit source).run.notices.filter Notice.isStray =
        (Segment.placed [] segments).filterMap (Segment.notice? name) := by
  have reading := Template.reading_of_ofSource parsed
  obtain ⟨segments, segmentation⟩ := exists_segmentation reading [] Position.start_eq_after
  exact ⟨segments, segmentation.text_eq, segmentation.whole, segmentation.laid,
    segmentation.laid.forall₂_heads 0, segmentation.pairwise_places 0, segmentation.strays.symm⟩

private def strayInside : Text :=
  Tag.written "#if a" ++ ['\n'] ++ Tag.written "/each" ++ Tag.written "b" ++ Tag.written "/if"

theorem segments_of_stray :
    (Template.ofSource none 5 strayInside).run.value =
      .ok ⟨none, [.block .condition ⟨1, 0⟩ ['a']
        [.literal ⟨1, 9⟩ ['\n'], .reference ⟨2, 9⟩ ['b']]]⟩ ∧
    ∃ segments : List Segment,
      segments.flatMap Segment.text = strayInside ∧
      Laid [] [.block .condition ⟨1, 0⟩ ['a'] [.literal ⟨1, 9⟩ ['\n'], .reference ⟨2, 9⟩ ['b']]]
        segments ∧
      (Segment.placed [] segments).filterMap (Segment.notice? none) =
        [.stray none ⟨2, 0⟩ "/each".toList] := by
  have parsed : (Template.ofSource none 5 strayInside).run.value =
      .ok ⟨none, [.block .condition ⟨1, 0⟩ ['a']
        [.literal ⟨1, 9⟩ ['\n'], .reference ⟨2, 9⟩ ['b']]]⟩ := by cbv
  have noted : (Template.ofSource none 5 strayInside).run.notices.filter Notice.isStray =
      [.stray none ⟨2, 0⟩ "/each".toList] := by cbv
  obtain ⟨segments, texts, -, laid, -, -, strays⟩ := segments_of_ofSource parsed
  exact ⟨parsed, segments, texts, laid, strays.symm.trans noted⟩

end Stencil
