import Stencil.Proofs.Render.Outcome
import Stencil.Proofs.Template.Reading
import Mathlib

/-!
Evaluation in one pass.  A source can be evaluated by searching it from left to right, without a tree:
the text before the first tag is put out, the tag is replaced by what it stands for, and the inside of a
block is evaluated as a source of its own.  All searches are by offsets into the source at hand.  Without
strictness, rendering the tree that a source is parsed into gives the text of this evaluation.
-/

set_option autoImplicit false
set_option relaxedAutoImplicit false

namespace Stencil

def BlockKind.named? (content : Text) : Option BlockKind :=
  [BlockKind.condition, BlockKind.iteration].find? fun kind => kind.directive.isPrefixOf content

/-- The block that a tag opens: its kind, and the offset of the closing mark that ends it. -/
def blockFrom? (source content : Text) (past : Nat) : Option (BlockKind × Nat) :=
  (BlockKind.named? content).bind fun kind =>
    (kind.closeOffset? source past none).map fun stop => (kind, stop)

private theorem length_pos_of_opener {source : Text} {first : Nat}
    (opens : Text.find? Tag.opener source 0 = some first) : 0 < source.length := by
  have inside := Text.add_length_le_of_find? opens
  simp only [Tag.opener, List.length_cons] at inside
  omega

private theorem length_drop_lt {source : Text} {count : Nat} (nonempty : 0 < source.length)
    (positive : 0 < count) : (source.drop count).length < source.length := by
  rw [List.length_drop]
  omega

private theorem length_drop_take_lt {source : Text} {count stop : Nat} (nonempty : 0 < source.length)
    (positive : 0 < count) : ((source.take stop).drop count).length < source.length := by
  rw [List.length_drop, List.length_take]
  omega

/-- The text of a source evaluated in one pass against a value. -/
def evaluate {n : Nat} (heap : Heap n) (source : Text) (value : Value n) : Text :=
  match _opens : Text.find? Tag.opener source 0 with
  | none => source
  | some first =>
    match Text.find? Tag.closer source (first + 2) with
    | none => source
    | some last =>
      let past := last + 2
      let content := Text.trim ((source.take last).drop (first + 2))
      match blockFrom? source content past with
      | some (kind, stop) =>
        let inner := (source.take stop).drop past
        let found := (heap.resolve (Text.trim (content.drop kind.directive.length)) value).value
        source.take first ++ kind.shown heap found value (fun item => evaluate heap inner item) ++
          evaluate heap (source.drop (stop + kind.closer.length)) value
      | none =>
        let shown :=
          if content.head? = some '/' then [] else heap.shown (heap.resolve content value).value
        source.take first ++ shown ++ evaluate heap (source.drop past) value
termination_by source.length
decreasing_by
  · exact length_drop_take_lt (length_pos_of_opener _opens) (by omega)
  · exact length_drop_lt (length_pos_of_opener _opens)
      (Nat.add_pos_right _ (BlockKind.length_closer_pos _))
  · exact length_drop_lt (length_pos_of_opener _opens) (by omega)

namespace BlockKind

theorem named?_eq_some_iff {content : Text} {kind : BlockKind} :
    named? content = some kind ↔ Tag.ofContent content = .opening kind := by
  rw [Tag.ofContent_eq_opening_iff]
  constructor
  · intro found
    have stands := List.find?_some found
    exact List.isPrefixOf_iff_prefix.1 stands
  · intro named
    cases found : named? content with
    | none =>
      have unnamed := List.find?_eq_none.1 found kind (by cases kind <;> decide)
      exact absurd (List.isPrefixOf_iff_prefix.2 named) unnamed
    | some other =>
      have stands := List.find?_some found
      have other_named := List.isPrefixOf_iff_prefix.1 stands
      have same := (Tag.ofContent_eq_opening_iff.2 other_named).symm.trans
        (Tag.ofContent_eq_opening_iff.2 named)
      rw [Tag.opening.inj same]

theorem closeOffset?_eq_inside? (kind : BlockKind) (source : Text) (past : Nat) :
    kind.closeOffset? source past none =
      (kind.inside? (source.drop past)).map fun parts => past + parts.1.length := by
  rw [closeOffset?, window, offsetIn_natCast, Option.map_none, Option.getD_none, List.take_length]

end BlockKind

theorem offsets_of_tag {source before content after : Text}
    (front : Front.ofText source = .tag before content after) :
    Text.find? Tag.opener source 0 = some before.length ∧
      Text.find? Tag.closer source (before.length + 2) =
        some (before.length + 2 + content.length) ∧
      source.take before.length = before ∧
      (source.take (before.length + 2 + content.length)).drop (before.length + 2) = content ∧
      source.drop (before.length + 2 + content.length + 2) = after := by
  obtain ⟨rest, opens, closes⟩ := Front.cuts_of_tag front
  have whole := Text.eq_append_of_cut? opens
  have split := Text.eq_append_of_cut? closes
  have opener_length : Tag.opener.length = 2 := rfl
  have closer_length : Tag.closer.length = 2 := rfl
  have tail : source.drop (before.length + 2) = rest := by
    rw [whole, ← opener_length, ← List.length_append, List.drop_left]
  refine ⟨?_, ?_, ?_, ?_, ?_⟩
  · rw [Text.find?_eq_cut? (Nat.zero_le _), List.drop_zero, opens, Option.map_some, Nat.zero_add]
  · have inside : before.length + 2 ≤ source.length := by
      rw [whole, List.length_append, List.length_append, opener_length]
      omega
    rw [Text.find?_eq_cut? inside, tail, closes, Option.map_some]
  · rw [whole, List.append_assoc, List.take_left]
  · rw [List.drop_take, tail, split, Nat.add_sub_cancel_left, List.append_assoc, List.take_left]
  · rw [Nat.add_assoc, ← List.drop_drop, tail, split, ← closer_length, ← List.length_append,
      List.drop_left]

section Evaluate

variable {n : Nat} (heap : Heap n) {source before content after : Text} (value : Value n)

theorem evaluate_plain (front : Front.ofText source = .plain) :
    evaluate heap source value = source := by
  have absent : Text.find? Tag.opener source 0 = none := by
    rw [Text.find?_eq_cut? (Nat.zero_le _), List.drop_zero,
      Text.cut?_eq_none_iff.2 (Front.ofText_eq_plain_iff.1 front), Option.map_none]
  rw [evaluate]
  split
  · rfl
  · next opens => rw [absent] at opens; cases opens

theorem evaluate_unterminated (front : Front.ofText source = .unterminated before) :
    evaluate heap source value = source := by
  obtain ⟨rest, whole, first, absent⟩ := Front.eq_append_of_unterminated front
  have opens : Text.find? Tag.opener source 0 = some before.length := by
    rw [Text.find?_eq_cut? (Nat.zero_le _), List.drop_zero, whole,
      Text.cut?_append (by decide) first, Option.map_some, Nat.zero_add]
  have tail : source.drop (before.length + 2) = rest := by
    rw [whole, show before.length + 2 = (before ++ Tag.opener).length from by
      rw [List.length_append]; rfl, List.drop_left]
  have inside : before.length + 2 ≤ source.length := by
    rw [whole, List.length_append, List.length_append]
    show before.length + 2 ≤ before.length + 2 + rest.length
    omega
  have closes : Text.find? Tag.closer source (before.length + 2) = none := by
    rw [Text.find?_eq_cut? inside, tail, Text.cut?_eq_none_iff.2 absent, Option.map_none]
  rw [evaluate]
  split
  · rfl
  · next opens' =>
    cases opens.symm.trans opens'
    rw [closes]

theorem evaluate_block {kind : BlockKind} {inner rest : Text}
    (front : Front.ofText source = .tag before content after)
    (tag : Tag.ofContent (Text.trim content) = .opening kind)
    (inside : kind.inside? after = some (inner, rest)) :
    evaluate heap source value =
      before ++ kind.shown heap (heap.resolve (kind.pathIn (Text.trim content)) value).value value
        (evaluate heap inner) ++ evaluate heap rest value := by
  obtain ⟨opens, closes, front_eq, content_eq, after_eq⟩ := offsets_of_tag front
  have found : blockFrom? source (Text.trim content) (before.length + 2 + content.length + 2) =
      some (kind, before.length + 2 + content.length + 2 + inner.length) := by
    rw [blockFrom?, BlockKind.named?_eq_some_iff.2 tag, Option.bind_some,
      BlockKind.closeOffset?_eq_inside?, after_eq, inside]
    rfl
  have inner_eq : (source.take (before.length + 2 + content.length + 2 + inner.length)).drop
      (before.length + 2 + content.length + 2) = inner := by
    rw [List.drop_take, after_eq, Nat.add_sub_cancel_left, BlockKind.eq_append_of_inside? inside,
      List.append_assoc, List.take_left]
  have rest_eq : source.drop (before.length + 2 + content.length + 2 + inner.length +
      kind.closer.length) = rest := by
    rw [Nat.add_assoc, ← List.drop_drop, after_eq, BlockKind.eq_append_of_inside? inside,
      ← List.length_append, List.drop_left]
  rw [evaluate]
  split
  · next absent => rw [opens] at absent; cases absent
  · next opens' =>
    cases opens.symm.trans opens'
    rw [closes]
    simp only [content_eq, found, front_eq, inner_eq, rest_eq, BlockKind.pathIn]

theorem evaluate_tag (front : Front.ofText source = .tag before content after)
    (bare : ∀ kind, Tag.ofContent (Text.trim content) = .opening kind → kind.inside? after = none) :
    evaluate heap source value =
      before ++ (if (Text.trim content).head? = some '/' then []
        else heap.shown (heap.resolve (Text.trim content) value).value) ++
        evaluate heap after value := by
  obtain ⟨opens, closes, front_eq, content_eq, after_eq⟩ := offsets_of_tag front
  have found : blockFrom? source (Text.trim content) (before.length + 2 + content.length + 2) =
      none := by
    rw [blockFrom?]
    cases named : BlockKind.named? (Text.trim content) with
    | none => rfl
    | some kind =>
      have tag := BlockKind.named?_eq_some_iff.1 named
      rw [Option.bind_some, BlockKind.closeOffset?_eq_inside?, after_eq, bare kind tag]
      rfl
  rw [evaluate]
  split
  · next absent => rw [opens] at absent; cases absent
  · next opens' =>
    cases opens.symm.trans opens'
    rw [closes]
    simp only [content_eq, found, front_eq, after_eq]

end Evaluate

theorem Node.shownAll_append {n : Nat} (heap : Heap n) (value : Value n) (first rest : List Node) :
    Node.shownAll heap value (first ++ rest) =
      Node.shownAll heap value first ++ Node.shownAll heap value rest := by
  induction first with
  | nil => rfl
  | cons node first ih =>
    rw [List.cons_append, Node.shownAll, Node.shownAll, ih, List.append_assoc]

theorem Node.shownAll_ofLiteral {n : Nat} (heap : Heap n) (value : Value n) (place : Position)
    (content : Text) : Node.shownAll heap value (Node.ofLiteral place content) = content := by
  rw [Node.ofLiteral]
  split
  · next empty => rw [empty]; rfl
  · rw [Node.shownAll, Node.shown, Node.shownAll, List.append_nil]

/-- The tree of a text puts out what the text evaluates to, against every value. -/
theorem shownAll_eq_evaluate {n : Nat} (heap : Heap n) {name : Option Text} {room : Int}
    {place : Position} {text : Text} {notices : List Notice} {nodes : List Node}
    (reading : Reading name room place text notices nodes) (value : Value n) :
    Node.shownAll heap value nodes = evaluate heap text value := by
  induction reading generalizing value with
  | plain front => rw [Node.shownAll_ofLiteral, evaluate_plain heap value front]
  | unterminated front => rw [Node.shownAll_ofLiteral, evaluate_unterminated heap value front]
  | reference front tag _ ih =>
    rw [Node.shownAll_append, Node.shownAll_ofLiteral, Node.shownAll, Node.shown, ih,
      evaluate_tag heap value front (by simp [tag]), if_neg (Tag.ofContent_eq_reference_iff.1 tag).2,
      List.append_assoc]
  | stray front tag _ ih =>
    rw [Node.shownAll_append, Node.shownAll_ofLiteral, ih,
      evaluate_tag heap value front (by simp [tag]), if_pos (Tag.head?_of_closing tag),
      List.append_nil]
  | @unmatched _ _ _ _ content after _ _ _ front tag inside _ ih =>
    have bare : ∀ kind, Tag.ofContent (Text.trim content) = .opening kind →
        kind.inside? after = none := by
      intro kind same
      cases tag.symm.trans same
      exact inside
    rw [Node.shownAll_append, Node.shownAll_ofLiteral, Node.shownAll, Node.shown, ih,
      evaluate_tag heap value front bare, if_neg (Tag.head?_of_opening tag), List.append_assoc]
  | block front tag inside _ _ _ body_ih others_ih =>
    rw [Node.shownAll_append, Node.shownAll_ofLiteral, Node.shownAll, Node.shown, others_ih,
      evaluate_block heap value front tag inside, funext body_ih, List.append_assoc]

/-- Wherever parsing succeeds, rendering without strictness gives the text of the one-pass evaluation,
both by an engine and from the tree alone. -/
theorem render_eq_evaluate (engine : Engine) (lenient : engine.rendersStrictly = false)
    (name : Option Text) (source : Text) (context : Context) (template : Template)
    (parsed : (engine.parse name source).run.value = .ok template) :
    (engine.render name source context).run.value =
        .ok (evaluate context.heap source context.root) ∧
      ∀ frame, (template.render false frame context).run.value =
        .ok (evaluate context.heap source context.root) := by
  have reading := Template.reading_of_ofSource parsed
  have rendered : ∀ frame, (template.render false frame context).run.value =
      .ok (evaluate context.heap source context.root) := by
    intro frame
    rw [outcome_render_lenient, shownAll_eq_evaluate context.heap reading]
  refine ⟨?_, rendered⟩
  rw [Engine.render, Attempt.outcome_bind, parsed, lenient]
  exact rendered _

/-- A map that stands twice in the sequence it files under `a`. -/
private def recurring : Context :=
  ⟨2, ⟨fun
    | 0 => .map [(.scalar (.text ['a']), .object 1), (.scalar (.text ['c']), .scalar (.text ['x']))]
    | 1 => .list [.object 0, .object 0]⟩, .object 0⟩

/-- Blocks of the two kinds that interleave, and a tag that is never closed. -/
private def interleaved : Text :=
  Tag.written "#each a" ++ Tag.written "#if b" ++ Tag.written "c" ++ Tag.written "/each" ++
    Tag.written "/if" ++ Tag.opener

theorem render_interleaved :
    (Engine.usual.parse none interleaved).run.value =
      .ok ⟨none, [.block .iteration ⟨1, 0⟩ ['a'] [.reference ⟨1, 11⟩ "#if b".toList,
        .reference ⟨1, 20⟩ ['c']], .literal ⟨1, 41⟩ Tag.opener]⟩ ∧
    (Engine.usual.render none interleaved recurring).run.value =
      .ok (['x', 'x'] ++ Tag.opener) := by
  have parsed : (Engine.usual.parse none interleaved).run.value =
      .ok ⟨none, [.block .iteration ⟨1, 0⟩ ['a'] [.reference ⟨1, 11⟩ "#if b".toList,
        .reference ⟨1, 20⟩ ['c']], .literal ⟨1, 41⟩ Tag.opener]⟩ := by cbv
  have evaluated : evaluate recurring.heap interleaved recurring.root =
      ['x', 'x'] ++ Tag.opener := by cbv
  refine ⟨parsed, ?_⟩
  rw [← evaluated]
  exact (render_eq_evaluate Engine.usual rfl none _ recurring _ parsed).1

end Stencil
