import Stencil.Proofs.Render.Outcome
import Stencil.Proofs.Template.Matching
import Stencil.Proofs.Template.RoundTrip
import Stencil.Proofs.Template.Segments

/-!
What stands in a tree.  Whatever a source is like, the tree it is parsed into holds no complete tag in a
literal text, keeps its paths trimmed and within their tags, and takes the opening tag of a block for a
reference only where the block has no end in the body around it.  A text without a complete tag stands
for itself, under every limit and in every mode.
-/

set_option autoImplicit false
set_option relaxedAutoImplicit false

namespace Stencil

def Text.HasTag (text : Text) : Prop :=
  ∃ before inside after, text = before ++ Tag.opener ++ inside ++ Tag.closer ++ after

section Front

variable {text before content after : Text}

theorem Text.HasTag.of_front (front : Front.ofText text = .tag before content after) :
    text.HasTag :=
  ⟨before, content, after, Front.eq_append_of_tag front⟩

theorem Text.not_hasTag_of_plain (front : Front.ofText text = .plain) : ¬ text.HasTag := by
  rintro ⟨before, inside, after, whole⟩
  apply Front.ofText_eq_plain_iff.1 front
  exact ⟨before, inside ++ Tag.closer ++ after, by rw [whole]; simp only [List.append_assoc]⟩

theorem Text.not_hasTag_of_unterminated (front : Front.ofText text = .unterminated before) :
    ¬ text.HasTag := by
  rintro ⟨before', inside, after, whole⟩
  obtain ⟨rest, whole', opens, never⟩ := Front.eq_append_of_unterminated front
  have cut : Text.cut? Tag.opener text = some (before, rest) := by
    rw [whole']
    exact Text.cut?_append (by decide) opens
  have split : text = before' ++ Tag.opener ++ (inside ++ Tag.closer ++ after) := by
    rw [whole]
    simp only [List.append_assoc]
  have first := Text.length_le_of_cut? cut split
  have behind : inside ++ Tag.closer ++ after <:+ rest := by
    have one : inside ++ Tag.closer ++ after <:+ text := ⟨_, split.symm⟩
    have two : rest <:+ text := ⟨_, whole'.symm⟩
    apply List.suffix_of_suffix_length_le one two
    have lengths := congrArg List.length (split.symm.trans whole')
    simp only [List.length_append] at lengths ⊢
    omega
  apply never
  have closes : Tag.closer <:+: inside ++ Tag.closer ++ after := ⟨inside, after, rfl⟩
  exact closes.trans behind.isInfix

theorem Node.outcome_ofText_of_not_hasTag (name : Option Text) (room : Int) (place : Position)
    (untagged : ¬ text.HasTag) :
    (Node.ofText name room place text).run.value = .ok (Node.ofLiteral place text) := by
  cases front : Front.ofText text with
  | plain =>
    rw [Node.ofText_plain front]
    rfl
  | unterminated before =>
    rw [Node.ofText_unterminated front]
    rfl
  | tag before content after => exact absurd (.of_front front) untagged

end Front

/-- Whether a tag with some trimmed content stands at a place of a source, up to the offset `past`. -/
def TagAt (source : Text) (place : Position) (content : Text) (past : Nat) : Prop :=
  ∃ first last, place = .after (source.take first) ∧ Tag.opener <+: source.drop first ∧
    Text.find? Tag.closer source (first + 2) = some last ∧
    content = Text.trim (source.between (first + 2) last) ∧ past = last + 2

section TagAt

variable {text before content after : Text}

theorem TagAt.of_front (front : Front.ofText text = .tag before content after)
    (ahead behind : Text) :
    TagAt (ahead ++ text ++ behind) (.after (ahead ++ before)) (Text.trim content)
      (ahead ++ before ++ (Tag.opener ++ content ++ Tag.closer)).length := by
  have whole : ahead ++ text ++ behind =
      ahead ++ before ++ (Tag.opener ++ (content ++ Tag.closer ++ (after ++ behind))) := by
    rw [Front.text_of_tag front]
    simp only [List.append_assoc]
  have opened : (ahead ++ before ++ Tag.opener).length = (ahead ++ before).length + 2 :=
    List.length_append
  have rest : (ahead ++ text ++ behind).drop ((ahead ++ before).length + 2) =
      content ++ Tag.closer ++ (after ++ behind) := by
    rw [whole, ← opened, ← List.append_assoc, List.drop_left]
  have closes : Text.find? Tag.closer (ahead ++ text ++ behind) ((ahead ++ before).length + 2) =
      some ((ahead ++ before).length + 2 + content.length) := by
    have cut : Text.cut? Tag.closer (content ++ Tag.closer ++ (after ++ behind)) =
        some (content, after ++ behind) :=
      Text.cut?_append (by decide) (Front.closer_first_of_tag front)
    have inside : (ahead ++ before).length + 2 ≤ (ahead ++ text ++ behind).length := by
      rw [whole, ← opened, ← List.append_assoc]
      exact (List.prefix_append _ _).length_le
    rw [Text.find?_eq_cut? inside, rest, cut]
    rfl
  refine ⟨(ahead ++ before).length, _, ?_, ?_, closes, ?_, ?_⟩
  · rw [whole, List.take_left]
  · rw [whole, List.drop_left]
    exact List.prefix_append _ _
  · rw [Text.between, List.drop_take, rest, Nat.add_sub_cancel_left, List.append_assoc,
      List.take_left]
  · have marks : Tag.opener.length = 2 ∧ Tag.closer.length = 2 := ⟨rfl, rfl⟩
    simp only [List.length_append]
    omega

end TagAt

theorem BlockKind.closeOffset?_append (kind : BlockKind) (ahead text behind : Text) :
    kind.closeOffset? (ahead ++ text ++ behind) ahead.length (some (ahead ++ text).length) =
      (kind.inside? text).map fun parts => ahead.length + parts.1.length := by
  have part : window (ahead ++ text ++ behind) ahead.length (some (ahead ++ text).length) = text := by
    rw [window, Option.map_some, Option.getD_some, offsetIn_natCast, offsetIn_natCast,
      List.take_left, List.drop_left]
  rw [closeOffset?, part, offsetIn_natCast]

namespace Node

def content? : Node → Option Text
  | literal _ content => some content
  | _ => none

mutual

/-- Whether a node may stand in a body that ends at the offset `stop` of a source. -/
def StandsIn (source : Text) (stop : Nat) : Node → Prop
  | literal _ content => content ≠ [] ∧ ¬ content.HasTag
  | reference place path =>
    Text.trim path = path ∧ ¬ Tag.closer <:+: path ∧ path.head? ≠ some '/' ∧
      ∃ past, TagAt source place path past ∧ ∀ kind : BlockKind, kind.directive <+: path →
        kind.closeOffset? source past (some stop) = none
  | block kind place path body =>
    Text.trim path = path ∧ ¬ Tag.closer <:+: path ∧ path ≠ [] ∧
      ∃ rest past close, TagAt source place (kind.directive ++ rest) past ∧ path = Text.trim rest ∧
        kind.closeOffset? source past (some stop) = some close ∧ AllStandIn source close body

/-- Whether nodes may stand one after another in a body that ends at the offset `stop` of a source:
only the last of them may be a literal text with an opening mark. -/
def AllStandIn (source : Text) (stop : Nat) : List Node → Prop
  | [] => True
  | node :: nodes =>
    StandsIn source stop node ∧ (∀ content ∈ node.content?, Tag.opener <:+: content → nodes = []) ∧
      AllStandIn source stop nodes

end

variable {source text before content after : Text} {stop : Nat} {nodes : List Node}
variable {place : Position} {kind : BlockKind}

theorem allStandIn_ofLiteral {text : Text} (untagged : ¬ text.HasTag) :
    AllStandIn source stop (ofLiteral place text) := by
  rw [ofLiteral]
  split
  · trivial
  · next nonempty => exact ⟨⟨nonempty, untagged⟩, fun _ _ _ => rfl, trivial⟩

theorem AllStandIn.literal_append (single : ¬ Tag.opener <:+: before ++ ['{'])
    (others : AllStandIn source stop nodes) :
    AllStandIn source stop (ofLiteral place before ++ nodes) := by
  have no_opener : ¬ Tag.opener <:+: before := fun opens =>
    single (opens.trans (List.prefix_append before ['{']).isInfix)
  rw [ofLiteral]
  split
  · exact others
  · next nonempty =>
    refine ⟨⟨nonempty, ?_⟩, ?_, others⟩
    · rintro ⟨front, inside, back, whole⟩
      apply no_opener
      exact ⟨front, inside ++ Tag.closer ++ back, by rw [whole]; simp only [List.append_assoc]⟩
    · rintro content literal opens
      cases literal
      exact absurd opens no_opener

theorem AllStandIn.tag_cons {node : Node} (front : Front.ofText text = .tag before content after)
    (first : StandsIn source stop node) (tagged : node.content? = none)
    (others : AllStandIn source stop nodes) :
    AllStandIn source stop (ofLiteral place before ++ node :: nodes) := by
  apply AllStandIn.literal_append (Front.opener_first_of_tag front)
  refine ⟨first, ?_, others⟩
  intro shown literal
  rw [tagged] at literal
  cases literal

theorem standsIn_reference (front : Front.ofText text = .tag before content after)
    (no_slash : (Text.trim content).head? ≠ some '/')
    (endless : ∀ kind : BlockKind, kind.directive <+: Text.trim content → kind.inside? after = none)
    (ahead behind : Text) :
    StandsIn (ahead ++ text ++ behind) (ahead ++ text).length
      (.reference (.after (ahead ++ before)) (Text.trim content)) := by
  have trimmed := Text.trim_of_isTrimmed (Text.isTrimmed_trim content)
  have closes := closer_absent_of_infix front (Text.trim_infix content)
  refine ⟨trimmed, closes, no_slash, _, .of_front front ahead behind, ?_⟩
  intro kind named
  have search := kind.closeOffset?_append
    (ahead ++ before ++ (Tag.opener ++ content ++ Tag.closer)) after behind
  rw [endless kind named, Option.map_none] at search
  simpa only [Front.text_of_tag front, List.append_assoc] using search

theorem standsIn_block {inner rest : Text} {body : List Node} {ahead behind : Text}
    (front : Front.ofText text = .tag before content after)
    (tag : Tag.ofContent (Text.trim content) = .opening kind)
    (inside : kind.inside? after = some (inner, rest))
    (inwards : AllStandIn (ahead ++ text ++ behind)
      (ahead ++ before ++ (Tag.opener ++ content ++ Tag.closer) ++ inner).length body) :
    StandsIn (ahead ++ text ++ behind) (ahead ++ text).length
      (.block kind (.after (ahead ++ before)) (kind.pathIn (Text.trim content)) body) := by
  obtain ⟨trimmed, nonempty, closes⟩ := path_of_opening front tag
  obtain ⟨named, directive⟩ := Tag.ofContent_eq_opening_iff.1 tag
  have standing := TagAt.of_front front ahead behind
  have search := kind.closeOffset?_append
    (ahead ++ before ++ (Tag.opener ++ content ++ Tag.closer)) after behind
  rw [inside, Option.map_some, ← List.length_append] at search
  have path : kind.pathIn (Text.trim content) = Text.trim named := by
    rw [← directive, BlockKind.pathIn_directive]
  rw [← directive] at standing
  refine ⟨trimmed, closes, nonempty, named, _, _, standing, path, ?_, inwards⟩
  simpa only [Front.text_of_tag front, List.append_assoc] using search

/-- The nodes of a part of a source that has been read stand in the body that ends with it. -/
theorem allStandIn_of_reading {name : Option Text} {room : Int} {notices : List Notice}
    (reading : Reading name room place text notices nodes) (ahead behind : Text)
    (start : place = .after ahead) :
    AllStandIn (ahead ++ text ++ behind) (ahead ++ text).length nodes := by
  induction reading generalizing ahead behind with
  | plain front => exact allStandIn_ofLiteral (Text.not_hasTag_of_plain front)
  | unterminated front => exact allStandIn_ofLiteral (Text.not_hasTag_of_unterminated front)
  | @reference _ _ text before content after _ _ front tag _ ih =>
    subst start
    obtain ⟨unnamed, no_slash⟩ := Tag.ofContent_eq_reference_iff.1 tag
    have first := standsIn_reference front no_slash
      (fun kind named => absurd named (unnamed kind)) ahead behind
    have others := ih (ahead ++ before ++ (Tag.opener ++ content ++ Tag.closer)) behind
      (Position.pastTag_after ahead before content)
    rw [Position.past_after]
    apply AllStandIn.tag_cons front first rfl
    simpa only [Front.text_of_tag front, List.append_assoc] using others
  | @stray _ _ text before content after kind _ _ front tag _ ih =>
    subst start
    have others := ih (ahead ++ before ++ (Tag.opener ++ content ++ Tag.closer)) behind
      (Position.pastTag_after ahead before content)
    apply AllStandIn.literal_append (Front.opener_first_of_tag front)
    simpa only [Front.text_of_tag front, List.append_assoc] using others
  | @unmatched _ _ text before content after kind _ _ front tag inside _ ih =>
    subst start
    have endless : ∀ other : BlockKind, other.directive <+: Text.trim content →
        other.inside? after = none := by
      intro other named
      cases tag.symm.trans (Tag.ofContent_eq_opening_iff.2 named)
      exact inside
    have first := standsIn_reference front (Tag.head?_of_opening tag) endless ahead behind
    have others := ih (ahead ++ before ++ (Tag.opener ++ content ++ Tag.closer)) behind
      (Position.pastTag_after ahead before content)
    rw [Position.past_after]
    apply AllStandIn.tag_cons front first rfl
    simpa only [Front.text_of_tag front, List.append_assoc] using others
  | @block _ _ text before content after inner rest kind _ _ body _ front tag inside _ _ _ body_ih
      others_ih =>
    subst start
    have split := BlockKind.eq_append_of_inside? inside
    have inwards := body_ih (ahead ++ before ++ (Tag.opener ++ content ++ Tag.closer))
      (kind.closer ++ rest ++ behind) (Position.pastTag_after ahead before content)
    have others := others_ih
      (ahead ++ before ++ (Tag.opener ++ content ++ Tag.closer) ++ (inner ++ kind.closer)) behind
      (by rw [Position.pastTag_after, Position.past_after])
    have first : StandsIn (ahead ++ text ++ behind) (ahead ++ text).length
        (.block kind (.after (ahead ++ before)) (kind.pathIn (Text.trim content)) body) := by
      apply standsIn_block front tag inside
      simpa only [Front.text_of_tag front, split, List.append_assoc] using inwards
    rw [Position.past_after]
    apply AllStandIn.tag_cons front first rfl
    simpa only [Front.text_of_tag front, split, List.append_assoc] using others

end Node

theorem Engine.outcome_render_of_not_hasTag {text : Text} (untagged : ¬ text.HasTag)
    (engine : Engine) (name : Option Text) (context : Context) :
    (engine.render name text context).run.value = .ok text := by
  have parsed : (engine.parse name text).run.value =
      .ok ⟨name, Node.ofLiteral .start text⟩ := by
    rw [parse, Template.ofSource, Attempt.outcome_bind, Attempt.outcome_adapt,
      Node.outcome_ofText_of_not_hasTag _ _ _ untagged]
    rfl
  rw [render, Attempt.outcome_bind, parsed]
  show (Template.render _ _ _ _).run.value = _
  rw [Template.render, Attempt.outcome_bind, Node.ofLiteral]
  split
  · next empty =>
    rw [empty]
    rfl
  · rw [Node.outcome_renderAll_cons]
    show Except.ok (Piece.join [_]) = _
    rw [Piece.join, List.flatMap_singleton]

/-- Wherever parsing succeeds, every node of the tree stands in the source; the tree is the source as one
literal text, or no node for the empty source, exactly when the source has no complete tag; and every
text without a complete tag is rendered as it is, by every engine and against every context. -/
theorem allStandIn_of_ofSource {name : Option Text} {limit : Int} {source : Text}
    {template : Template}
    (parsed : (Template.ofSource name limit source).run.value = .ok template) :
    Node.AllStandIn source source.length template.body ∧
    ((source = [] ∧ template.body = [] ∨ ∃ place, template.body = [.literal place source]) ↔
      ¬ source.HasTag) ∧
    ∀ text : Text, ¬ text.HasTag → ∀ (engine : Engine) (name : Option Text) (context : Context),
      (engine.render name text context).run.value = .ok text := by
  have standing : Node.AllStandIn source source.length template.body := by
    have all := Node.allStandIn_of_reading (Template.reading_of_ofSource parsed) [] []
      Position.start_eq_after
    rwa [List.nil_append, List.append_nil] at all
  refine ⟨standing, ⟨?_, ?_⟩, fun text untagged => Engine.outcome_render_of_not_hasTag untagged⟩
  · rintro (⟨rfl, -⟩ | ⟨place, alone⟩)
    · rintro ⟨before, inside, after, whole⟩
      have lengths := congrArg List.length whole
      simp only [List.length_append, List.length_nil] at lengths
      have mark : Tag.opener.length = 2 := rfl
      omega
    · rw [alone] at standing
      exact standing.1.2
  · intro untagged
    rw [Template.ofSource, Attempt.outcome_bind, Attempt.outcome_adapt,
      Node.outcome_ofText_of_not_hasTag _ _ _ untagged] at parsed
    cases parsed
    by_cases empty : source = []
    · exact Or.inl ⟨empty, by rw [empty]; rfl⟩
    · exact Or.inr ⟨.start, if_neg empty⟩

/-- A condition around the opening tag of an iteration whose closing tag stands behind the condition,
and an opening mark at the end. -/
private def cutShort : Text :=
  Tag.written "#if a" ++ Tag.written "#each b" ++ Tag.written "/if" ++ Tag.written "/each" ++
    Tag.opener

private def cutShortNodes : List Node :=
  [.block .condition ⟨1, 0⟩ ['a'] [.reference ⟨1, 9⟩ "#each b".toList], .literal ⟨1, 36⟩ Tag.opener]

theorem allStandIn_of_cutShort :
    (Template.ofSource none 1 cutShort).run.value = .ok ⟨none, cutShortNodes⟩ ∧
    Node.AllStandIn cutShort 38 cutShortNodes ∧
    BlockKind.iteration.closeOffset? cutShort 20 (some 20) = none ∧
    BlockKind.iteration.closeOffset? cutShort 20 none = some 27 ∧
    cutShort.HasTag ∧ ¬ Text.HasTag (Tag.closer ++ Tag.opener) ∧
    ∀ (engine : Engine) (context : Context),
      (engine.render none (Tag.closer ++ Tag.opener) context).run.value =
        .ok (Tag.closer ++ Tag.opener) := by
  have parsed : (Template.ofSource none 1 cutShort).run.value = .ok ⟨none, cutShortNodes⟩ := by cbv
  obtain ⟨standing, alone, rendered⟩ := allStandIn_of_ofSource parsed
  have tagged : cutShort.HasTag := by
    by_contra untagged
    rcases alone.2 untagged with ⟨empty, -⟩ | ⟨place, literal⟩
    · cases empty
    · cases literal
  have front : Front.ofText (Tag.closer ++ Tag.opener) = .unterminated Tag.closer := by decide
  have untagged := Text.not_hasTag_of_unterminated front
  exact ⟨parsed, standing, by cbv, by cbv, tagged, untagged,
    fun engine context => rendered _ untagged engine none context⟩

end Stencil
