import Stencil.Proofs.Template.Canonical
import Stencil.Proofs.Template.Concatenation
import Stencil.Proofs.Template.Nesting
import Stencil.Proofs.Text.Trimmed

/-!
Printing and reading back.  The printed source of a canonical tree is read as the same tree, places
aside, and without a notice.  The tree of a source that was read without a notice is canonical, as long
as no tag holds a second opening mark.
-/

set_option autoImplicit false
set_option relaxedAutoImplicit false

namespace Stencil

section Read

variable {name : Option Text} {room : Int} {place : Position} {kind : BlockKind}
variable {text path inside after : Text} {nodes body : List Node}

private theorem opener_infix_brace_iff :
    Tag.opener <:+: text ++ ['{'] ↔ Tag.opener <:+: text ∨ text.getLast? = some '{' := by
  show ['{', '{'] <:+: text ++ ['{'] ↔ ['{', '{'] <:+: text ∨ text.getLast? = some '{'
  rw [Text.pair_infix_append_iff]
  constructor
  · rintro (early | late | ⟨across, -⟩)
    · exact Or.inl early
    · exact absurd late (by decide)
    · exact Or.inr across
  · rintro (early | across)
    · exact Or.inl early
    · exact Or.inr (Or.inr ⟨across, rfl⟩)

theorem Front.ofText_tag (closes : ¬ Tag.closer <:+: inside ++ ['}']) :
    Front.ofText (Tag.opener ++ inside ++ Tag.closer ++ after) = .tag [] inside after := by
  have front : Front.ofText ([] ++ Tag.opener ++ (inside ++ Tag.closer ++ after)) =
      .tag [] inside after := Front.ofText_append (by decide) closes
  rw [← front]
  simp

theorem Reading.literal_append {content : Text} {notices : List Notice}
    (front : Front.ofText text = .tag [] inside after)
    (single : ¬ Tag.opener <:+: content ++ ['{'])
    (reading : Reading name room (place.past content) text notices nodes) :
    Reading name room place (content ++ text) notices (Node.ofLiteral place content ++ nodes) := by
  have front' : Front.ofText (content ++ text) = .tag content inside after := by
    rw [← Front.ofText_append single (Front.closer_first_of_tag front), Front.eq_append_of_tag front]
    simp
  have same : place.past content = (place.past content).past [] := rfl
  obtain ⟨others, rfl, joined⟩ := Reading.refront front front' same reading
  exact joined

private theorem blank_space : ∀ c ∈ [' '], isBlank c = true :=
  List.forall_mem_singleton.2 (by decide)

private theorem trim_padded_path (trimmed : Text.trim path = path) :
    Text.trim (' ' :: path ++ [' ']) = path := by
  show Text.trim ([' '] ++ path ++ [' ']) = path
  exact Text.trim_padded blank_space blank_space (Text.trim_eq_self_iff.1 trimmed)

private theorem trim_directive (trimmed : Text.trim path = path) (nonempty : path ≠ []) :
    Text.trim (kind.directive ++ path ++ [' ']) = kind.directive ++ path := by
  have visible : Text.IsTrimmed (kind.directive ++ path) := by
    constructor
    · intro c first
      cases first
      decide
    · rw [List.getLast?_append_of_ne_nil _ nonempty]
      exact (Text.trim_eq_self_iff.1 trimmed).2
  show Text.trim ([] ++ (kind.directive ++ path) ++ [' ']) = _
  exact Text.trim_padded (by simp) blank_space visible

/-- Whether a text is read as some nodes, places aside, wherever it begins, and without a notice. -/
def Reads (name : Option Text) (room : Int) (text : Text) (nodes : List Node) : Prop :=
  ∀ place, ∃ body, Reading name room place text [] body ∧
    Node.allUnplaced body = Node.allUnplaced nodes

theorem reads_nil : Reads name room [] [] := by
  intro place
  exact ⟨[], .plain (Front.ofText_eq_plain_iff.2 (by decide)), rfl⟩

theorem reads_literal {content : Text} (canonical : Node.IsCanonical (.literal place content)) :
    Reads name room content [.literal place content] := by
  obtain ⟨nonempty, single⟩ := canonical
  intro start
  refine ⟨_, .plain (Front.ofText_eq_plain_iff.2 single), ?_⟩
  rw [Node.ofLiteral, if_neg nonempty]
  rfl

theorem reads_literal_append {content : Text} (nonempty : content ≠ [])
    (front : Front.ofText text = .tag [] inside after)
    (single : ¬ Tag.opener <:+: content ++ ['{']) (others : Reads name room text nodes) :
    Reads name room (content ++ text) (.literal place content :: nodes) := by
  intro start
  obtain ⟨body, reading, same⟩ := others (start.past content)
  refine ⟨_, reading.literal_append front single, ?_⟩
  rw [Node.ofLiteral, if_neg nonempty]
  show Node.unplaced _ :: Node.allUnplaced body = Node.unplaced _ :: Node.allUnplaced nodes
  rw [same]
  rfl

private theorem front_of_reference (canonical : Node.IsCanonical (.reference place path)) :
    Front.ofText (Node.print (.reference place path) ++ text) =
      .tag [] (' ' :: path ++ [' ']) text := by
  obtain ⟨-, -, closes, -⟩ := canonical
  apply Front.ofText_tag
  rwa [closer_infix_padded_iff]

private theorem front_of_block (canonical : Node.IsCanonical (.block kind place path body)) :
    Front.ofText (Node.print (.block kind place path body) ++ text) =
      .tag [] (kind.directive ++ path ++ [' ']) (Node.printAll body ++ (kind.closer ++ text)) := by
  obtain ⟨-, -, -, closes, -⟩ := canonical
  rw [Node.print, List.append_assoc, List.append_assoc]
  apply Front.ofText_tag
  rwa [closer_infix_directive_iff]

private theorem front_of_print {node : Node} (canonical : node.IsCanonical)
    (tagged : node.isLiteral = false) :
    ∃ inside after, Front.ofText (node.print ++ text) = .tag [] inside after := by
  cases node with
  | literal place content => cases tagged
  | reference place path => exact ⟨_, _, front_of_reference canonical⟩
  | block kind place path body => exact ⟨_, _, front_of_block canonical⟩

theorem reads_reference (canonical : Node.IsCanonical (.reference place path))
    (others : Reads name room text nodes) :
    Reads name room (Node.print (.reference place path) ++ text) (.reference place path :: nodes) := by
  intro start
  have front : Front.ofText (Node.print (.reference place path) ++ text) = _ :=
    front_of_reference canonical
  obtain ⟨trimmed, -, -, names_none, no_slash⟩ := canonical
  obtain ⟨body, reading, same⟩ := others (start.pastTag [] (' ' :: path ++ [' ']))
  have content := trim_padded_path trimmed
  have tag : Tag.ofContent (Text.trim (' ' :: path ++ [' '])) = .reference := by
    rw [content]
    exact Tag.ofContent_eq_reference_iff.2 ⟨names_none, no_slash⟩
  refine ⟨_, .reference front tag reading, ?_⟩
  rw [content]
  show Node.unplaced _ :: Node.allUnplaced body = Node.unplaced _ :: Node.allUnplaced nodes
  rw [same]
  rfl

theorem reads_block (canonical : Node.IsCanonical (.block kind place path body)) (deep : 0 < room)
    (inwards : Reads name (room - 1) (Node.printAll body) body)
    (others : Reads name room text nodes) :
    Reads name room (Node.print (.block kind place path body) ++ text)
      (.block kind place path body :: nodes) := by
  intro start
  have front : Front.ofText (Node.print (.block kind place path body) ++ text) = _ :=
    front_of_block canonical
  obtain ⟨trimmed, nonempty, -, -, canonical⟩ := canonical
  have content : Text.trim (kind.directive ++ path ++ [' ']) = kind.directive ++ path :=
    trim_directive trimmed nonempty
  have tag : Tag.ofContent (Text.trim (kind.directive ++ path ++ [' '])) = .opening kind := by
    rw [content]
    exact Tag.ofContent_eq_opening_iff.2 (List.prefix_append kind.directive path)
  have inside : kind.inside? (Node.printAll body ++ (kind.closer ++ text)) =
      some (Node.printAll body, text) :=
    BlockKind.inside?_append
      (Node.scans_printAll kind body canonical _ 0 BlockKind.completesNoMark_closer)
  obtain ⟨inner, inner_reading, inner_same⟩ :=
    inwards (start.pastTag [] (kind.directive ++ path ++ [' ']))
  obtain ⟨rest, rest_reading, rest_same⟩ :=
    others ((start.pastTag [] (kind.directive ++ path ++ [' '])).past
      (Node.printAll body ++ kind.closer))
  refine ⟨_, .block front tag inside deep inner_reading rest_reading, ?_⟩
  rw [content, BlockKind.pathIn_directive, trimmed]
  show Node.unplaced (.block kind _ path inner) :: Node.allUnplaced rest =
    Node.unplaced (.block kind place path body) :: Node.allUnplaced nodes
  rw [Node.unplaced, Node.unplaced, inner_same, rest_same]

end Read

namespace Node

theorem reads_printAll (name : Option Text) (limit : Int) (nodes : List Node)
    (canonical : AllCanonical nodes) (around : Nat)
    (shallow : ∀ entry ∈ allInOrder around nodes, entry.2.isBlock → (entry.1 : Int) < limit) :
    Reads name (limit - around) (printAll nodes) nodes := by
  cases nodes with
  | nil => exact reads_nil
  | cons node nodes =>
    obtain ⟨first, neighbours, others⟩ := canonical
    have others_shallow : ∀ entry ∈ allInOrder around nodes, entry.2.isBlock →
        (entry.1 : Int) < limit := by
      intro entry member
      exact shallow entry (List.mem_append_right _ member)
    have rest := reads_printAll name limit nodes others around others_shallow
    cases node with
    | literal place content =>
      cases nodes with
      | nil =>
        rw [printAll, printAll, List.append_nil]
        exact reads_literal first
      | cons next nodes =>
        -- A literal text is read together with the tag behind it, so it must not reach into the tag.
        obtain ⟨tagged, last⟩ := neighbours next rfl
        obtain ⟨inside, after, front⟩ := front_of_print others.1 tagged
        have single : ¬ Tag.opener <:+: content ++ ['{'] := by
          rw [opener_infix_brace_iff, not_or]
          exact ⟨first.2, last⟩
        exact reads_literal_append first.1 front single rest
    | reference place path => exact reads_reference first rest
    | block kind place path body =>
      have deep := shallow (around, .block kind place path body) List.mem_cons_self rfl
      have inner := reads_printAll name limit body first.2.2.2.2 (around + 1) (by
        intro entry member
        exact shallow entry (List.mem_append_left _ (List.mem_cons_of_mem _ member)))
      have deeper : limit - ((around + 1 : Nat) : Int) = limit - (around : Int) - 1 := by omega
      rw [deeper] at inner
      exact reads_block first (by omega) inner rest
termination_by sizeOf nodes

section Converse

variable {kind : BlockKind} {before content after : Text} {text : Text}

theorem closer_absent_of_infix {path : Text}
    (front : Front.ofText text = .tag before content after) (part : path <:+: content) :
    ¬ Tag.closer <:+: path := by
  intro closes
  apply Front.closer_first_of_tag front
  exact (closes.trans part).trans (List.prefix_append content ['}']).isInfix

theorem path_of_opening (front : Front.ofText text = .tag before content after)
    (tag : Tag.ofContent (Text.trim content) = .opening kind) :
    Text.trim (kind.pathIn (Text.trim content)) = kind.pathIn (Text.trim content) ∧
      kind.pathIn (Text.trim content) ≠ [] ∧
      ¬ Tag.closer <:+: kind.pathIn (Text.trim content) := by
  obtain ⟨rest, whole⟩ := Tag.ofContent_eq_opening_iff.1 tag
  have trimmed := Text.isTrimmed_trim content
  have part : rest <:+: content :=
    (List.suffix_append kind.directive rest).isInfix.trans (whole ▸ Text.trim_infix content)
  rw [← whole, BlockKind.pathIn_directive]
  refine ⟨Text.trim_of_isTrimmed (Text.isTrimmed_trim rest), ?_, ?_⟩
  · have blank : isBlank ' ' = true := by decide
    apply Text.trim_ne_nil_of_append blank
    show Text.IsTrimmed ('#' :: kind.word ++ ' ' :: rest)
    rw [← whole, BlockKind.directive, List.append_assoc] at trimmed
    exact trimmed
  · exact closer_absent_of_infix front ((Text.trim_infix rest).trans part)

theorem allCanonical_ofLiteral_append {place : Position} {node : Node} {nodes : List Node}
    (single : ¬ Tag.opener <:+: before ++ ['{']) (tagged : node.isLiteral = false)
    (first : IsCanonical node) (others : AllCanonical nodes) :
    AllCanonical (ofLiteral place before ++ node :: nodes) := by
  have canonical : AllCanonical (node :: nodes) := by
    refine ⟨first, ?_, others⟩
    intro next _
    cases node with
    | literal place content => cases tagged
    | reference place path => trivial
    | block kind place path body => trivial
  rw [opener_infix_brace_iff, not_or] at single
  rw [ofLiteral]
  split
  · exact canonical
  · next nonempty =>
    refine ⟨⟨nonempty, single.1⟩, ?_, canonical⟩
    intro next head
    cases head
    exact ⟨tagged, single.2⟩

end Converse

theorem allCanonical_of_reading {name : Option Text} {room : Int} {place : Position} {text : Text}
    {notices : List Notice} {nodes : List Node}
    (reading : Reading name room place text notices nodes) (quiet : notices = []) (around : Nat)
    (plain : ∀ entry ∈ allInOrder around nodes, ∀ path ∈ entry.2.path?, ¬ Tag.opener <:+: path) :
    AllCanonical nodes := by
  -- The readings of malformed tags give a notice each, so they are not among the cases.
  induction reading generalizing around with
  | @plain _ _ text front =>
    rw [ofLiteral]
    split
    · trivial
    · next nonempty =>
      refine ⟨⟨nonempty, Front.ofText_eq_plain_iff.1 front⟩, ?_, trivial⟩
      intro next head
      cases head
  | unterminated front => cases quiet
  | reference front tag _ ih =>
    rw [allInOrder_append] at plain
    have others := ih quiet around (by
      intro entry member
      exact plain entry (List.mem_append_right _ (List.mem_cons_of_mem _ member)))
    have single := plain (around, .reference _ _)
      (List.mem_append_right _ List.mem_cons_self) _ rfl
    apply allCanonical_ofLiteral_append (Front.opener_first_of_tag front) rfl _ others
    exact ⟨Text.trim_of_isTrimmed (Text.isTrimmed_trim _), single,
      closer_absent_of_infix front (Text.trim_infix _), Tag.ofContent_eq_reference_iff.1 tag⟩
  | stray front tag _ ih => cases quiet
  | unmatched front tag inside _ ih => cases quiet
  | block front tag inside _ _ _ body_ih others_ih =>
    obtain ⟨quiet_body, quiet_others⟩ := List.append_eq_nil_iff.1 quiet
    rw [allInOrder_append] at plain
    have body := body_ih quiet_body (around + 1) (by
      intro entry member
      apply plain entry (List.mem_append_right _ _)
      exact List.mem_append_left _ (List.mem_cons_of_mem _ member))
    have others := others_ih quiet_others around (by
      intro entry member
      exact plain entry (List.mem_append_right _ (List.mem_append_right _ member)))
    have single := plain (around, .block _ _ _ _)
      (List.mem_append_right _ List.mem_cons_self) _ rfl
    obtain ⟨trimmed, nonempty, closes⟩ := path_of_opening front tag
    apply allCanonical_ofLiteral_append (Front.opener_first_of_tag front) rfl _ others
    exact ⟨trimmed, nonempty, single, closes, body⟩

theorem shallow_of_reading {name : Option Text} {limit : Int} {place : Position} {text : Text}
    {notices : List Notice} {nodes : List Node}
    (reading : Reading name limit place text notices nodes) :
    ∀ entry ∈ allInOrder 0 nodes, entry.2.isBlock → (entry.1 : Int) < limit := by
  have parsed := congrArg Logged.value (run_ofText_of_reading reading)
  have outcome := outcome_ofText_of_reading reading limit 0
  rw [Int.ofNat_zero, Int.sub_zero, parsed, limited] at outcome
  intro entry member isBlock
  cases beyond : firstBeyond? limit 0 nodes with
  | none =>
    have shallow := List.find?_eq_none.1 beyond entry member
    by_contra deep
    exact shallow (by simp [isBlock, Int.not_lt.1 deep])
  | some first =>
    rw [beyond] at outcome
    cases outcome

end Node

/-- Printing and parsing undo each other, places aside.  The printed source of canonical nodes whose
blocks are within the limit is parsed as these nodes, and the nodes of a source that is parsed without a
notice are canonical unless a path holds an opening mark, so printing them gives a source for the same
nodes. -/
theorem ofSource_printAll (name : Option Text) (limit : Int) :
    (∀ nodes, Node.AllCanonical nodes →
      (∀ entry ∈ Node.allInOrder 0 nodes, entry.2.isBlock → (entry.1 : Int) < limit) →
      ∃ body, (Template.ofSource name limit (Node.printAll nodes)).run = ⟨[], .ok ⟨name, body⟩⟩ ∧
        Node.allUnplaced body = Node.allUnplaced nodes) ∧
    ∀ source template, (Template.ofSource name limit source).run = ⟨[], .ok template⟩ →
      (∀ entry ∈ Node.allInOrder 0 template.body, ∀ path ∈ entry.2.path?,
        ¬ Tag.opener <:+: path) →
      Node.AllCanonical template.body ∧
      ∃ body, (Template.ofSource name limit (Node.printAll template.body)).run =
          ⟨[], .ok ⟨name, body⟩⟩ ∧
        Node.allUnplaced body = Node.allUnplaced template.body := by
  have printed : ∀ nodes, Node.AllCanonical nodes →
      (∀ entry ∈ Node.allInOrder 0 nodes, entry.2.isBlock → (entry.1 : Int) < limit) →
      ∃ body, (Template.ofSource name limit (Node.printAll nodes)).run = ⟨[], .ok ⟨name, body⟩⟩ ∧
        Node.allUnplaced body = Node.allUnplaced nodes := by
    intro nodes canonical shallow
    have reads := Node.reads_printAll name limit nodes canonical 0 shallow
    rw [Int.ofNat_zero, Int.sub_zero] at reads
    obtain ⟨body, reading, same⟩ := reads .start
    exact ⟨body, Template.run_ofSource_eq_ok_iff.2 ⟨rfl, reading⟩, same⟩
  refine ⟨printed, ?_⟩
  intro source template parsed plain
  obtain ⟨-, reading⟩ := Template.run_ofSource_eq_ok_iff.1 parsed
  have canonical := Node.allCanonical_of_reading reading rfl 0 plain
  exact ⟨canonical, printed template.body canonical (Node.shallow_of_reading reading)⟩

private def nestedBlocks : List Node :=
  [.literal ⟨1, 0⟩ ['}'], .block .condition ⟨1, 1⟩ ['a']
    [.block .iteration ⟨1, 10⟩ ['b'] [.reference ⟨1, 21⟩ ['c']]]]

theorem ofSource_printAll_nested :
    (Template.ofSource none 2 (['}'] ++ Tag.written "#if a" ++ Tag.written "#each b" ++
        Tag.written "c" ++ Tag.written "/each" ++ Tag.written "/if")).run =
      ⟨[], .ok ⟨none, nestedBlocks⟩⟩ ∧
    Node.AllCanonical nestedBlocks ∧
    Node.printAll nestedBlocks = ['}'] ++ Tag.written "#if a " ++ Tag.written "#each b " ++
      Tag.written " c " ++ Tag.written "/each" ++ Tag.written "/if" ∧
    ∃ body, (Template.ofSource none 2 (Node.printAll nestedBlocks)).run =
        ⟨[], .ok ⟨none, body⟩⟩ ∧
      Node.allUnplaced body = Node.allUnplaced nestedBlocks := by
  have parsed : (Template.ofSource none 2 (['}'] ++ Tag.written "#if a" ++ Tag.written "#each b" ++
        Tag.written "c" ++ Tag.written "/each" ++ Tag.written "/if")).run =
      ⟨[], .ok ⟨none, nestedBlocks⟩⟩ := by cbv
  have printed : Node.printAll nestedBlocks = ['}'] ++ Tag.written "#if a " ++
      Tag.written "#each b " ++ Tag.written " c " ++ Tag.written "/each" ++
      Tag.written "/if" := by cbv
  obtain ⟨forward, backward⟩ := ofSource_printAll none 2
  obtain ⟨canonical, -⟩ := backward _ _ parsed (by cbv; decide)
  exact ⟨parsed, canonical, printed, forward nestedBlocks canonical (by cbv; decide)⟩

end Stencil
