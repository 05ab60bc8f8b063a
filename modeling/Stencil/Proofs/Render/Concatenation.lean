import Stencil.Proofs.Render.OnePass
import Stencil.Proofs.Template.Concatenation

/-!
Sources one after another.  A source whose top level leaves no tag and no block open puts out the same
text whatever source follows it, and the source that follows puts out what it does alone.  Only the
literal texts at the seam come together in one node, and a brace on either side of the seam would make
a tag that neither source has.
-/

set_option autoImplicit false
set_option relaxedAutoImplicit false

namespace Stencil

/-- Whether a text may follow another without making an opening mark together with it. -/
def Text.MayFollow (second first : Text) : Prop :=
  ¬ (first.getLast? = some '{' ∧ second.head? = some '{')

/-- Whether a node at the top level has all that it needs: no tag stands unfinished in a literal text,
and no reference stands for the opening tag of a block without an end. -/
def Node.IsFinished : Node → Prop
  | .literal _ content => ¬ Tag.opener <:+: content
  | .reference _ path => ∀ kind : BlockKind, ¬ kind.directive <+: path
  | .block .. => True

section Seam

variable {first second before rest : Text}

theorem opener_not_infix_append (one : ¬ Tag.opener <:+: first) (two : ¬ Tag.opener <:+: second)
    (seam : second.MayFollow first) : ¬ Tag.opener <:+: first ++ second := by
  show ¬ ['{', '{'] <:+: first ++ second
  rw [Text.pair_infix_append_iff]
  rintro (early | late | across)
  · exact one early
  · exact two late
  · exact seam across

theorem Text.MayFollow.of_suffix (seam : second.MayFollow first) (suffix : rest <:+ first) :
    second.MayFollow rest := by
  rintro ⟨last, head⟩
  refine seam ⟨?_, head⟩
  obtain ⟨front, rfl⟩ := suffix
  rw [List.getLast?_append, last, Option.some_or]

theorem Text.MayFollow.of_opener (seam : (before ++ Tag.opener ++ rest).MayFollow first) :
    (before ++ ['{']).MayFollow first := by
  rintro ⟨last, head⟩
  refine seam ⟨last, ?_⟩
  cases before with
  | nil => rfl
  | cons c before => exact head

end Seam

/-- Whether nodes put out the text of others and, behind it, what a source evaluates to. -/
def Node.AllGoOn (nodes others : List Node) (source : Text) : Prop :=
  ∀ (n : Nat) (heap : Heap n) (value : Value n),
    Node.shownAll heap value others = Node.shownAll heap value nodes ++ evaluate heap source value

theorem Node.AllGoOn.append_left {nodes others : List Node} {source : Text}
    (goOn : Node.AllGoOn nodes others source) (front : List Node) :
    Node.AllGoOn (front ++ nodes) (front ++ others) source := by
  intro n heap value
  rw [Node.shownAll_append, Node.shownAll_append, goOn, List.append_assoc]

theorem Node.AllGoOn.cons {nodes others : List Node} {source : Text}
    (goOn : Node.AllGoOn nodes others source) (node : Node) :
    Node.AllGoOn (node :: nodes) (node :: others) source :=
  goOn.append_left [node]

namespace Reading

variable {name : Option Text} {room : Int} {place : Position} {first second : Text}
variable {notices : List Notice} {nodes : List Node}

theorem exists_literal_append (single : ¬ Tag.opener <:+: first) (seam : second.MayFollow first)
    (reading : Reading name room (place.past first) second notices nodes) :
    ∃ notices' nodes', Reading name room place (first ++ second) notices' nodes' ∧
      Node.AllGoOn (Node.ofLiteral place first) nodes' second := by
  cases front : Front.ofText second with
  | plain =>
    have absent := Front.ofText_eq_plain_iff.1 front
    refine ⟨_, _, .plain (Front.ofText_eq_plain_iff.2 (opener_not_infix_append single absent seam)), ?_⟩
    intro n heap value
    rw [Node.shownAll_ofLiteral, Node.shownAll_ofLiteral, evaluate_plain heap value front]
  | unterminated before =>
    obtain ⟨rest, whole, opens, never⟩ := Front.eq_append_of_unterminated front
    rw [whole] at seam
    have opens' : ¬ Tag.opener <:+: first ++ before ++ ['{'] := by
      rw [List.append_assoc]
      exact opener_not_infix_append single opens seam.of_opener
    have front' : Front.ofText (first ++ second) = .unterminated (first ++ before) := by
      rw [← Front.ofText_eq_unterminated opens' never, whole]
      simp only [List.append_assoc]
    refine ⟨_, _, .unterminated front', ?_⟩
    intro n heap value
    rw [Node.shownAll_ofLiteral, Node.shownAll_ofLiteral, evaluate_unterminated heap value front]
  | tag before content after =>
    have opens := Front.opener_first_of_tag front
    have closes := Front.closer_first_of_tag front
    have whole := Front.eq_append_of_tag front
    rw [whole, List.append_assoc _ content, List.append_assoc _ (content ++ Tag.closer)] at seam
    have opens' : ¬ Tag.opener <:+: first ++ before ++ ['{'] := by
      rw [List.append_assoc]
      exact opener_not_infix_append single opens seam.of_opener
    have front' : Front.ofText (first ++ second) = .tag (first ++ before) content after := by
      rw [← Front.ofText_append opens' closes, whole]
      simp only [List.append_assoc]
    obtain ⟨others, rfl, joined⟩ := refront front front' (Position.past_append place first before) reading
    refine ⟨_, _, joined, ?_⟩
    intro n heap value
    rw [← shownAll_eq_evaluate heap reading, Node.shownAll_append, Node.shownAll_append,
      Node.shownAll_ofLiteral, Node.shownAll_ofLiteral, Node.shownAll_ofLiteral, List.append_assoc]

/-- A text that is finished at its top level is read in the same way when another text follows it. -/
theorem exists_append (reading : Reading name room place first notices nodes)
    (finished : ∀ node ∈ nodes, node.IsFinished) (seam : second.MayFollow first)
    (readable : ∀ place, ∃ notices nodes, Reading name room place second notices nodes) :
    ∃ notices' nodes', Reading name room place (first ++ second) notices' nodes' ∧
      Node.AllGoOn nodes nodes' second := by
  induction reading with
  | @plain _ place text front =>
    obtain ⟨_, _, following⟩ := readable (place.past text)
    exact exists_literal_append (Front.ofText_eq_plain_iff.1 front) seam following
  | @unterminated _ place text before front =>
    obtain ⟨rest, whole, -, -⟩ := Front.eq_append_of_unterminated front
    have opener : Tag.opener <:+: text := ⟨before, rest, whole.symm⟩
    have nonempty : text ≠ [] := by
      rintro rfl
      exact absurd opener (by decide)
    rw [Node.ofLiteral, if_neg nonempty] at finished
    exact absurd opener (finished _ List.mem_cons_self)
  | @reference _ place _ before _ _ _ _ front tag _ ih =>
    have after_suffix := Front.suffix_of_tag front
    obtain ⟨_, _, others, goOn⟩ := ih
      (fun node member => finished node (List.mem_append_right _ (List.mem_cons_of_mem _ member)))
      (seam.of_suffix after_suffix) readable
    exact ⟨_, _, .reference (Front.ofText_append_right front) tag others,
      (goOn.cons _).append_left _⟩
  | stray front tag _ ih =>
    have after_suffix := Front.suffix_of_tag front
    obtain ⟨_, _, others, goOn⟩ := ih
      (fun node member => finished node (List.mem_append_right _ member))
      (seam.of_suffix after_suffix) readable
    exact ⟨_, _, .stray (Front.ofText_append_right front) tag others, goOn.append_left _⟩
  | unmatched front tag inside _ ih =>
    have opening := finished _ (List.mem_append_right _ List.mem_cons_self)
    exact absurd (Tag.ofContent_eq_opening_iff.1 tag) (opening _)
  | block front tag inside deep inwards _ _ ih =>
    have after_suffix := Front.suffix_of_tag front
    have rest_suffix := (BlockKind.eq_append_of_inside? inside) ▸ List.suffix_append _ _
    obtain ⟨_, _, others, goOn⟩ := ih
      (fun node member => finished node (List.mem_append_right _ (List.mem_cons_of_mem _ member)))
      (seam.of_suffix (rest_suffix.trans after_suffix)) readable
    exact ⟨_, _, .block (Front.ofText_append_right front) tag (BlockKind.inside?_append_right inside)
      deep inwards others, (goOn.cons _).append_left _⟩

end Reading

/-- When the top level of a source leaves nothing unfinished and no brace stands on both sides of the
seam, the source with another behind it respects every nesting limit that the two respect, and without
strictness it renders to the text of the one followed by the text of the other. -/
theorem render_append (engine : Engine) (lenient : engine.rendersStrictly = false)
    (name : Option Text) (first second : Text) (context : Context) (one two : Template)
    (parsed_one : (engine.parse name first).run.value = .ok one)
    (parsed_two : (engine.parse name second).run.value = .ok two)
    (finished : ∀ node ∈ one.body, node.IsFinished)
    (seam : ¬ (first.getLast? = some '{' ∧ second.head? = some '{')) :
    ∃ both text others, (engine.parse name (first ++ second)).run.value = .ok both ∧
      (engine.render name first context).run.value = .ok text ∧
      (engine.render name second context).run.value = .ok others ∧
      (engine.render name (first ++ second) context).run.value = .ok (text ++ others) := by
  have reading_one := Template.reading_of_ofSource parsed_one
  have reading_two := Template.reading_of_ofSource parsed_two
  obtain ⟨notices, body, reading, goOn⟩ :=
    reading_one.exists_append finished seam reading_two.exists_at
  have parsed : (engine.parse name (first ++ second)).run = ⟨notices, .ok ⟨name, body⟩⟩ :=
    Template.run_ofSource_eq_ok_iff.2 ⟨rfl, reading⟩
  have rendered : ∀ {source template}, (engine.parse name source).run.value = .ok template →
      (engine.render name source context).run.value =
        .ok (Node.shownAll context.heap context.root template.body) := by
    intro source template parsed
    rw [Engine.render, Attempt.outcome_bind, parsed, lenient]
    exact outcome_render_lenient template _ context
  refine ⟨⟨name, body⟩, _, _, congrArg Logged.value parsed, rendered parsed_one,
    rendered parsed_two, ?_⟩
  rw [rendered (congrArg Logged.value parsed), goOn, shownAll_eq_evaluate context.heap reading_two]

private def twoNames : Context :=
  ⟨1, ⟨fun _ => .map [(.scalar (.text ['a']), .scalar (.bool true)),
    (.scalar (.text ['c']), .scalar (.text Tag.opener))]⟩, .object 0⟩

/-- A condition that holds the opening tag of an iteration, and a brace behind it. -/
private def openInside : Text :=
  Tag.written "#if a" ++ Tag.written "#each c" ++ Tag.written "/if" ++ ['{']

/-- The rest of a closing mark, a name and a closing tag. -/
private def closeBehind : Text :=
  "/each".toList ++ Tag.closer ++ Tag.written "c" ++ Tag.written "/each"

theorem render_append_interleaved :
    (Engine.usual.parse none openInside).run.value =
      .ok ⟨none, [.block .condition ⟨1, 0⟩ ['a'] [.reference ⟨1, 9⟩ "#each c".toList],
        .literal ⟨1, 27⟩ ['{']]⟩ ∧
    (Engine.usual.parse none closeBehind).run.value =
      .ok ⟨none, [.literal ⟨1, 0⟩ ("/each".toList ++ Tag.closer), .reference ⟨1, 7⟩ ['c']]⟩ ∧
    ∃ text others, (Engine.usual.render none openInside twoNames).run.value = .ok text ∧
      (Engine.usual.render none closeBehind twoNames).run.value = .ok others ∧
      (Engine.usual.render none (openInside ++ closeBehind) twoNames).run.value =
        .ok (text ++ others) := by
  have parsed_one : (Engine.usual.parse none openInside).run.value =
      .ok ⟨none, [.block .condition ⟨1, 0⟩ ['a'] [.reference ⟨1, 9⟩ "#each c".toList],
        .literal ⟨1, 27⟩ ['{']]⟩ := by cbv
  have parsed_two : (Engine.usual.parse none closeBehind).run.value =
      .ok ⟨none, [.literal ⟨1, 0⟩ ("/each".toList ++ Tag.closer), .reference ⟨1, 7⟩ ['c']]⟩ := by
    cbv
  have finished : ∀ node ∈ [Node.block .condition ⟨1, 0⟩ ['a'] [.reference ⟨1, 9⟩ "#each c".toList],
      .literal ⟨1, 27⟩ ['{']], node.IsFinished := by
    intro node member
    rcases List.mem_pair.1 member with rfl | rfl
    · trivial
    · show ¬ Tag.opener <:+: ['{']
      decide
  obtain ⟨both, text, others, -, rendered⟩ := render_append Engine.usual rfl none openInside
    closeBehind twoNames _ _ parsed_one parsed_two finished (by decide)
  exact ⟨parsed_one, parsed_two, text, others, rendered⟩

end Stencil
