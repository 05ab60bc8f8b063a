import Stencil.Proofs.Template.BlockEnd
import Stencil.Template.Node
import Stencil.Text.Blank

/-!
Canonical trees.  Every tree can be printed as a source.  The tree is canonical when its texts and paths
hold nothing that could be taken for a tag; then every mark in the printed source belongs to a block of
the tree, so the search for the end of a block passes over printed nodes with its count unchanged.
-/

set_option autoImplicit false
set_option relaxedAutoImplicit false

namespace Stencil

namespace Node

mutual

def print : Node → Text
  | literal _ content => content
  | reference _ path => Tag.opener ++ (' ' :: path ++ [' ']) ++ Tag.closer
  | block kind _ path body =>
    Tag.opener ++ (kind.directive ++ path ++ [' ']) ++ Tag.closer ++ printAll body ++ kind.closer

def printAll : List Node → Text
  | [] => []
  | node :: nodes => print node ++ printAll nodes

end

mutual

def unplaced : Node → Node
  | literal _ content => literal .start content
  | reference _ path => reference .start path
  | block kind _ path body => block kind .start path (allUnplaced body)

def allUnplaced : List Node → List Node
  | [] => []
  | node :: nodes => unplaced node :: allUnplaced nodes

end

def isLiteral : Node → Bool
  | literal .. => true
  | _ => false

/-- Whether a node may stand before a sibling: two literal texts are never neighbours, and a literal text
that ends with a brace would make a tag of what follows. -/
def MayPrecede : Node → Node → Prop
  | literal _ content, next => next.isLiteral = false ∧ content.getLast? ≠ some '{'
  | _, _ => True

mutual

/-- Whether nothing in a node could be taken for a tag. -/
def IsCanonical : Node → Prop
  | literal _ content => content ≠ [] ∧ ¬ Tag.opener <:+: content
  | reference _ path =>
    Text.trim path = path ∧ ¬ Tag.opener <:+: path ∧ ¬ Tag.closer <:+: path ∧
      (∀ kind : BlockKind, ¬ kind.directive <+: path) ∧ path.head? ≠ some '/'
  | block _ _ path body =>
    Text.trim path = path ∧ path ≠ [] ∧ ¬ Tag.opener <:+: path ∧ ¬ Tag.closer <:+: path ∧
      AllCanonical body

def AllCanonical : List Node → Prop
  | [] => True
  | node :: nodes =>
    IsCanonical node ∧ (∀ next ∈ nodes.head?, MayPrecede node next) ∧ AllCanonical nodes

end

end Node

section Scan

variable {kind : BlockKind} {inside tail : Text} {count : Nat}

private theorem opener_infix_closed_iff :
    Tag.opener <:+: inside ++ Tag.closer ↔ Tag.opener <:+: inside := by
  show ['{', '{'] <:+: inside ++ ['}', '}'] ↔ ['{', '{'] <:+: inside
  rw [Text.pair_infix_append_iff]
  constructor
  · rintro (early | late | ⟨-, across⟩)
    · exact early
    · exact absurd late (by decide)
    · cases across
  · exact Or.inl

private theorem ignores_behind_brace (single : ¬ Tag.opener <:+: inside)
    (head : inside.head? ≠ some '{') :
    kind.Ignores ('{' :: (inside ++ Tag.closer)) tail := by
  apply BlockKind.ignores_of_not_infix
  · show ¬ ['{', '{'] <:+: ['{'] ++ (inside ++ Tag.closer)
    rw [Text.pair_infix_append_iff]
    rintro (early | late | ⟨-, across⟩)
    · exact absurd early (by decide)
    · exact single (opener_infix_closed_iff.1 late)
    · cases inside with
      | nil => cases across
      | cons c inside => exact head across
  · intro last
    rw [show '{' :: (inside ++ Tag.closer) = ('{' :: inside ++ ['}']) ++ ['}'] by
      simp [Tag.closer], List.getLast?_concat] at last
    cases last

private theorem ignores_tag (single : ¬ Tag.opener <:+: inside) (head : inside.head? ≠ some '{')
    (no_opener : ¬ '#' :: kind.word <+: inside ++ (Tag.closer ++ tail))
    (no_closer : ¬ '/' :: (kind.word ++ Tag.closer) <+: inside ++ (Tag.closer ++ tail)) :
    kind.Ignores (Tag.opener ++ inside ++ Tag.closer) tail := by
  have behind : kind.Ignores ('{' :: (inside ++ Tag.closer)) tail := ignores_behind_brace single head
  constructor
  · refine Text.lacks_cons_iff.2 ⟨?_, behind.1⟩
    show ¬ '{' :: '{' :: '#' :: kind.word <+: '{' :: '{' :: (inside ++ Tag.closer ++ tail)
    rw [List.cons_prefix_cons, List.cons_prefix_cons, List.append_assoc]
    exact fun stands => no_opener stands.2.2
  · refine Text.lacks_cons_iff.2 ⟨?_, behind.2⟩
    show ¬ '{' :: '{' :: '/' :: (kind.word ++ Tag.closer) <+:
      '{' :: '{' :: (inside ++ Tag.closer ++ tail)
    rw [List.cons_prefix_cons, List.cons_prefix_cons, List.append_assoc]
    exact fun stands => no_closer stands.2.2

private theorem words_differ {other : BlockKind} (differ : kind ≠ other) (rest rest' : Text) :
    ¬ kind.word ++ rest <+: other.word ++ rest' := by
  rintro ⟨more, same⟩
  cases kind <;> cases other
  · exact differ rfl
  · cases same
  · cases same
  · exact differ rfl

private theorem pair_infix_padded_iff {c : Char} {front path back : Text} (visible : c ≠ ' ')
    (front_single : ¬ [c, c] <:+: front) (front_last : front.getLast? ≠ some c)
    (back_single : ¬ [c, c] <:+: ' ' :: back) :
    [c, c] <:+: front ++ path ++ ' ' :: back ↔ [c, c] <:+: path := by
  rw [Text.pair_infix_append_iff, Text.pair_infix_append_iff]
  constructor
  · rintro ((early | inner | ⟨across, -⟩) | late | ⟨-, across⟩)
    · exact absurd early front_single
    · exact inner
    · exact absurd across front_last
    · exact absurd late back_single
    · exact absurd (Option.some.inj across).symm visible
  · exact fun inner => Or.inl (Or.inr (Or.inl inner))

private theorem opener_infix_padded_iff {path : Text} :
    Tag.opener <:+: [' '] ++ path ++ [' '] ↔ Tag.opener <:+: path :=
  pair_infix_padded_iff (by decide) (by decide) (by decide) (by decide)

private theorem opener_infix_directive_iff {path : Text} :
    Tag.opener <:+: kind.directive ++ path ++ [' '] ↔ Tag.opener <:+: path := by
  apply pair_infix_padded_iff (by decide)
  · cases kind <;> decide
  · cases kind <;> decide
  · decide

theorem closer_infix_padded_iff {path : Text} :
    Tag.closer <:+: ' ' :: path ++ [' '] ++ ['}'] ↔ Tag.closer <:+: path := by
  rw [List.append_assoc]
  show Tag.closer <:+: [' '] ++ path ++ ' ' :: ['}'] ↔ Tag.closer <:+: path
  exact pair_infix_padded_iff (by decide) (by decide) (by decide) (by decide)

theorem closer_infix_directive_iff {path : Text} :
    Tag.closer <:+: kind.directive ++ path ++ [' '] ++ ['}'] ↔ Tag.closer <:+: path := by
  rw [List.append_assoc]
  show Tag.closer <:+: kind.directive ++ path ++ ' ' :: ['}'] ↔ Tag.closer <:+: path
  apply pair_infix_padded_iff (by decide)
  · cases kind <;> decide
  · cases kind <;> decide
  · decide

private theorem ignores_closer {other : BlockKind} (differ : kind ≠ other) :
    kind.Ignores other.closer tail := by
  apply ignores_tag
  · cases other <;> decide
  · simp
  · intro stands
    cases (List.cons_prefix_cons.1 stands).1
  · intro stands
    exact words_differ differ _ _ (List.cons_prefix_cons.1 stands).2

private theorem ignores_opening {other : BlockKind} {path : Text} (differ : kind ≠ other)
    (single : ¬ Tag.opener <:+: path) :
    kind.Ignores (Tag.opener ++ (other.directive ++ path ++ [' ']) ++ Tag.closer) tail := by
  apply ignores_tag
  · rwa [opener_infix_directive_iff]
  · simp [BlockKind.directive]
  · intro stands
    have behind : kind.word <+: other.word ++ (' ' :: path ++ [' '] ++ (Tag.closer ++ tail)) := by
      simpa [BlockKind.directive] using stands
    apply words_differ differ [] _
    rwa [List.append_nil]
  · intro stands
    cases (List.cons_prefix_cons.1 stands).1

private theorem scans_opening {path : Text} (single : ¬ Tag.opener <:+: path) :
    kind.Scans (Tag.opener ++ (kind.directive ++ path ++ [' ']) ++ Tag.closer) tail count
      (count + 1) := by
  show kind.Scans ('{' :: ('{' :: (kind.directive ++ path ++ [' '] ++ Tag.closer))) tail _ _
  apply BlockKind.scans_opener
  · simp [BlockKind.opener, BlockKind.directive, Tag.opener]
  · simp [BlockKind.closer, BlockKind.directive, Tag.opener]
  · apply ignores_behind_brace
    · rwa [opener_infix_directive_iff]
    · simp [BlockKind.directive]

end Scan

namespace Node

mutual

theorem scans_print (kind : BlockKind) (node : Node) (canonical : IsCanonical node) (tail : Text)
    (count : Nat)
    (seam : node.isLiteral = true → (print node).getLast? = some '{' →
      BlockKind.CompletesNoMark tail) :
    kind.Scans (print node) tail count count := by
  cases node with
  | literal place content =>
    exact BlockKind.scans_of_ignores (BlockKind.ignores_of_not_infix canonical.2 (seam rfl))
  | reference place path =>
    obtain ⟨-, single, -⟩ := canonical
    apply BlockKind.scans_of_ignores
    apply ignores_tag
    · show ¬ Tag.opener <:+: [' '] ++ path ++ [' ']
      rwa [opener_infix_padded_iff]
    · simp
    · intro stands
      cases (List.cons_prefix_cons.1 stands).1
    · intro stands
      cases (List.cons_prefix_cons.1 stands).1
  | block other place path body =>
    obtain ⟨-, -, single, -, canonical⟩ := canonical
    have seam : BlockKind.CompletesNoMark (other.closer ++ tail) :=
      BlockKind.completesNoMark_closer
    by_cases same : kind = other
    · subst same
      have inner := scans_printAll kind body canonical (kind.closer ++ tail) (count + 1) seam
      exact ((scans_opening single).append inner).append BlockKind.scans_closer
    · have inner := scans_printAll kind body canonical (other.closer ++ tail) count seam
      exact ((BlockKind.scans_of_ignores (ignores_opening same single)).append inner).append
        (BlockKind.scans_of_ignores (ignores_closer same))

theorem scans_printAll (kind : BlockKind) (nodes : List Node) (canonical : AllCanonical nodes)
    (tail : Text) (count : Nat) (seam : BlockKind.CompletesNoMark tail) :
    kind.Scans (printAll nodes) tail count count := by
  cases nodes with
  | nil => exact BlockKind.scans_nil
  | cons node nodes =>
    obtain ⟨first, neighbours, others⟩ := canonical
    have one : kind.Scans (print node) (printAll nodes ++ tail) count count := by
      apply scans_print kind node first
      intro isLiteral last
      cases node with
      | literal place content =>
        cases nodes with
        | nil => exact seam
        | cons next nodes => exact absurd last (neighbours next rfl).2
      | reference place path => cases isLiteral
      | block other place path body => cases isLiteral
    exact one.append (scans_printAll kind nodes others tail count seam)

end

end Node

end Stencil
