import Stencil.Engine
import Stencil.Proofs.Render.Outcome
import Stencil.Proofs.Template.Order
import Stencil.Proofs.Template.Reading
import Mathlib

/-!
The nesting limit.  A limit above the length of a source is never reached, and the tree it gives decides
what happens under every other limit: parsing fails at the first block of the tree with at least that
many blocks around it, and gives the same tree when there is none.  Rendering adds no such failure and
takes none away.
-/

set_option autoImplicit false
set_option relaxedAutoImplicit false

namespace Stencil

namespace Node

/-- The first block of a body that has at least `limit` blocks around it. -/
def firstBeyond? (limit : Int) (around : Nat) (nodes : List Node) : Option (Nat × Node) :=
  (allInOrder around nodes).find? fun entry => entry.2.isBlock && decide (limit ≤ entry.1)

theorem firstBeyond?_append (limit : Int) (around : Nat) (first rest : List Node) :
    firstBeyond? limit around (first ++ rest) =
      (firstBeyond? limit around first).or (firstBeyond? limit around rest) := by
  rw [firstBeyond?, allInOrder_append, List.find?_append]
  rfl

@[simp] theorem firstBeyond?_ofLiteral (limit : Int) (around : Nat) (place : Position)
    (content : Text) : firstBeyond? limit around (ofLiteral place content) = none := by
  rw [firstBeyond?, allInOrder_ofLiteral, ofLiteral]
  split <;> rfl

theorem firstBeyond?_reference (limit : Int) (around : Nat) (place : Position) (path : Text)
    (nodes : List Node) :
    firstBeyond? limit around (reference place path :: nodes) = firstBeyond? limit around nodes :=
  rfl

theorem firstBeyond?_block (limit : Int) (around : Nat) (kind : BlockKind) (place : Position)
    (path : Text) (body nodes : List Node) :
    firstBeyond? limit around (block kind place path body :: nodes) =
      if limit ≤ around then some (around, block kind place path body)
      else (firstBeyond? limit (around + 1) body).or (firstBeyond? limit around nodes) := by
  rw [firstBeyond?, allInOrder, inOrder, List.cons_append, List.find?_cons]
  by_cases deep : limit ≤ around
  · simp [isBlock, deep]
  · simp [isBlock, deep, firstBeyond?, List.find?_append]

/-- What a body comes to when at most `limit` blocks may be around a block. -/
def limited (limit : Int) (around : Nat) (nodes : List Node) : Except Position (List Node) :=
  match firstBeyond? limit around nodes with
  | none => .ok nodes
  | some entry => .error entry.2.place

/-- The limit changes nothing in what a text stands for: under another limit, parsing fails at the
first block that is too deep and otherwise gives the same nodes. -/
theorem outcome_ofText_of_reading {name : Option Text} {room : Int} {place : Position} {text : Text}
    {notices : List Notice} {nodes : List Node}
    (reading : Reading name room place text notices nodes) (limit : Int) (around : Nat) :
    (ofText name (limit - around) place text).run.value = limited limit around nodes := by
  induction reading generalizing around with
  | plain front =>
    rw [ofText_plain front, limited, firstBeyond?_ofLiteral]
    rfl
  | unterminated front =>
    rw [ofText_unterminated front, limited, firstBeyond?_ofLiteral]
    rfl
  | reference front tag _ ih =>
    rw [ofText_reference front tag, Attempt.outcome_bind, ih, limited, limited,
      firstBeyond?_append, firstBeyond?_ofLiteral, Option.none_or, firstBeyond?_reference]
    split <;> rfl
  | stray front tag _ ih =>
    rw [ofText_stray front tag, Attempt.outcome_note_bind, Attempt.outcome_bind, ih, limited,
      limited, firstBeyond?_append, firstBeyond?_ofLiteral, Option.none_or]
    split <;> rfl
  | unmatched front tag inside _ ih =>
    rw [ofText_unmatched front tag inside, Attempt.outcome_note_bind, Attempt.outcome_bind, ih,
      limited, limited, firstBeyond?_append, firstBeyond?_ofLiteral, Option.none_or,
      firstBeyond?_reference]
    split <;> rfl
  | block front tag inside _ _ _ body_ih others_ih =>
    rw [ofText_block front tag inside, limited, firstBeyond?_append, firstBeyond?_ofLiteral,
      Option.none_or, firstBeyond?_block]
    by_cases deep : limit ≤ around
    · rw [if_pos (by omega), if_pos deep]
      rfl
    · have deeper : limit - (around : Int) - 1 = limit - ((around + 1 : Nat) : Int) := by omega
      rw [if_neg (by omega), if_neg deep, Attempt.outcome_bind, deeper, body_ih, limited]
      cases firstBeyond? limit (around + 1) _ with
      | some entry => rfl
      | none =>
        dsimp only [Except.bind]
        rw [Attempt.outcome_bind, others_ih, limited, Option.none_or]
        split <;> rfl

theorem exists_reading (name : Option Text) {room : Int} (place : Position) {text : Text}
    (ample : (text.length : Int) < room) :
    ∃ notices nodes, Reading name room place text notices nodes := by
  induction hn : text.length using Nat.strong_induction_on generalizing room place text with
  | _ n ih =>
  subst hn
  cases front : Front.ofText text with
  | plain => exact ⟨_, _, .plain front⟩
  | unterminated before => exact ⟨_, _, .unterminated front⟩
  | tag before content after =>
    have shorter := Front.length_lt_of_tag front
    have ample_after : (after.length : Int) < room := by omega
    obtain ⟨notices, nodes, others⟩ :=
      ih _ shorter (place.pastTag before content) ample_after rfl
    cases tag : Tag.ofContent (Text.trim content) with
    | reference => exact ⟨_, _, .reference front tag others⟩
    | closing kind => exact ⟨_, _, .stray front tag others⟩
    | opening kind =>
      cases inside : kind.inside? after with
      | none => exact ⟨_, _, .unmatched front tag inside others⟩
      | some parts =>
        obtain ⟨inner, rest⟩ := parts
        have inner_lt := BlockKind.length_inner_lt inside
        have rest_lt := BlockKind.length_rest_lt inside
        have ample_inner : (inner.length : Int) < room - 1 := by omega
        have ample_rest : (rest.length : Int) < room := by omega
        obtain ⟨_, _, inwards⟩ := ih _ (inner_lt.trans shorter)
          (place.pastTag before content) ample_inner rfl
        obtain ⟨_, _, onwards⟩ := ih _ (rest_lt.trans shorter)
          ((place.pastTag before content).past (inner ++ kind.closer)) ample_rest rfl
        exact ⟨_, _, .block front tag inside (by omega) inwards onwards⟩

end Node

namespace Template

theorem outcome_ofSource (name : Option Text) (limit : Int) (source : Text) :
    (ofSource name limit source).run.value =
      match (Node.ofText name limit .start source).run.value with
      | .ok body => .ok ⟨name, body⟩
      | .error place => .error (.nesting (NestingExceeded.ofPlace name limit source place)) := by
  rw [ofSource, Attempt.outcome_bind, Attempt.outcome_adapt]
  cases (Node.ofText name limit .start source).run.value with
  | ok body => rfl
  | error place => rfl

theorem outcome_ofSource_of_reading {name : Option Text} {room : Int} {source : Text}
    {notices : List Notice} {body : List Node}
    (reading : Reading name room .start source notices body) (limit : Int) :
    (ofSource name limit source).run.value =
      match Node.firstBeyond? limit 0 body with
      | none => .ok ⟨name, body⟩
      | some entry =>
        .error (.nesting (NestingExceeded.ofPlace name limit source entry.2.place)) := by
  have outcome := Node.outcome_ofText_of_reading reading limit 0
  rw [Int.ofNat_zero, Int.sub_zero] at outcome
  rw [outcome_ofSource, outcome, Node.limited]
  cases Node.firstBeyond? limit 0 body with
  | none => rfl
  | some entry => rfl

end Template

namespace Engine

variable {engine : Engine} {name : Option Text} {source : Text} {context : Context}

theorem nesting_of_render_iff {exceeded : NestingExceeded} :
    (engine.render name source context).run.value = .error (.nesting exceeded) ↔
      (Template.ofSource name engine.limit source).run.value = .error (.nesting exceeded) := by
  rw [render, parse, Attempt.outcome_bind]
  cases outcome : (Template.ofSource name engine.limit source).run.value with
  | error failure =>
    constructor
    · intro failed
      cases failed
      rfl
    · intro failed
      cases failed
      rfl
  | ok template =>
    constructor
    · intro failed
      obtain ⟨missing, impossible⟩ := undefined_of_template failed
      cases impossible
    · intro impossible
      cases impossible

theorem nesting_of_lenient_failure (lenient : engine.rendersStrictly = false) {failure : Failure}
    (failed : (engine.render name source context).run.value = .error failure) :
    ∃ exceeded, failure = .nesting exceeded := by
  rw [render, parse, Attempt.outcome_bind, Template.outcome_ofSource] at failed
  split at failed
  · rw [lenient] at failed
    dsimp only [Except.bind] at failed
    rw [outcome_render_lenient] at failed
    cases failed
  · cases failed
    exact ⟨_, rfl⟩

end Engine

/-- A limit above the length of the source gives a tree, and that tree tells what every limit does:
parsing fails exactly when some block has at least `limit` blocks around it, then with the first such
block, and otherwise gives that tree.  An engine with that limit fails so in the same cases, whatever
the context, and without strictness in no other way. -/
theorem ofSource_limit_iff (name : Option Text) (source : Text) (limit ample : Int)
    (above : (source.length : Int) < ample) :
    ∃ tree, (Template.ofSource name ample source).run.value = .ok tree ∧
      ((∃ exceeded, (Template.ofSource name limit source).run.value = .error (.nesting exceeded)) ↔
        ∃ entry ∈ Node.allInOrder 0 tree.body, entry.2.isBlock ∧ limit ≤ entry.1) ∧
      (Template.ofSource name limit source).run.value =
        (match (Node.allInOrder 0 tree.body).find? fun entry =>
            entry.2.isBlock && decide (limit ≤ entry.1) with
          | none => .ok tree
          | some (_, block) => .error (.nesting
              ⟨limit, name, some block.place.line, some (Snippet.ofSource source block.place.line
                Snippet.usualContext (some block.place.column))⟩)) ∧
      ∀ (engine : Engine) (context : Context), engine.limit = limit →
        (∀ exceeded,
          (engine.render name source context).run.value = .error (.nesting exceeded) ↔
            (Template.ofSource name limit source).run.value = .error (.nesting exceeded)) ∧
        (engine.rendersStrictly = false → ∀ failure,
          (engine.render name source context).run.value = .error failure →
            ∃ exceeded, failure = .nesting exceeded) := by
  obtain ⟨notices, body, reading⟩ := Node.exists_reading name .start above
  have outcome := Template.outcome_ofSource_of_reading reading limit
  refine ⟨⟨name, body⟩, ?_, ?_, ?_, ?_⟩
  · have parsed : (Template.ofSource name ample source).run = ⟨notices, .ok ⟨name, body⟩⟩ :=
      Template.run_ofSource_eq_ok_iff.2 ⟨rfl, reading⟩
    exact congrArg Logged.value parsed
  · rw [outcome]
    cases beyond : Node.firstBeyond? limit 0 body with
    | none =>
      constructor
      · rintro ⟨exceeded, impossible⟩
        cases impossible
      · rintro ⟨entry, member, isBlock, deep⟩
        have shallow := List.find?_eq_none.1 beyond entry member
        exact absurd (by simp [isBlock, deep]) shallow
    | some entry =>
      have deep := List.find?_some beyond
      rw [Bool.and_eq_true, decide_eq_true_eq] at deep
      constructor
      · intro _
        exact ⟨entry, List.mem_of_find?_eq_some beyond, deep⟩
      · intro _
        exact ⟨_, rfl⟩
  · rw [outcome]
    show _ = match Node.firstBeyond? limit 0 body with | none => _ | some (_, block) => _
    cases Node.firstBeyond? limit 0 body with
    | none => rfl
    | some entry => rfl
  · rintro engine context rfl
    exact ⟨fun exceeded => Engine.nesting_of_render_iff,
      fun lenient failure => Engine.nesting_of_lenient_failure lenient⟩

private def twoDeep : Text :=
  Tag.written "#if a" ++ Tag.written "#if b" ++ Tag.written "/if" ++ Tag.written "/if"

theorem ofSource_limit_one :
    (twoDeep.length : Int) < 40 ∧
    (Template.ofSource none 1 twoDeep).run.value =
      .error (.nesting ⟨1, none, some 1, some ⟨[(1, twoDeep)], 1, some 9⟩⟩) := by
  have above : (twoDeep.length : Int) < 40 := by decide
  have parsed : (Template.ofSource none 40 twoDeep).run.value =
      .ok ⟨none, [.block .condition ⟨1, 0⟩ ['a'] [.block .condition ⟨1, 9⟩ ['b'] []]]⟩ := by cbv
  obtain ⟨tree, same, -, limited, -⟩ := ofSource_limit_iff none twoDeep 1 40 above
  rw [parsed] at same
  cases same
  refine ⟨above, limited.trans ?_⟩
  cbv

end Stencil
