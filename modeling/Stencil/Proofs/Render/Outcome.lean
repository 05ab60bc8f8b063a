import Stencil.Engine
import Stencil.Proofs.Attempt

/-!
What rendering comes to.  The outcome of rendering is worked out node by node, notices aside.  Under
strictness the only failure is a reference whose path leads nowhere; without strictness there is no
failure, and every node puts out a text that depends on the value alone.
-/

set_option autoImplicit false
set_option relaxedAutoImplicit false

namespace Stencil

/-- What a block puts out against a value, given the value at its path and what its body puts out. -/
def BlockKind.shown {n : Nat} (kind : BlockKind) (heap : Heap n) (found value : Value n)
    (body : Value n → Text) : Text :=
  match kind with
  | .condition => if heap.isTrue found then body value else []
  | .iteration => ((heap.elements? found).getD []).flatMap body

namespace Node

mutual

def shown {n : Nat} (heap : Heap n) (value : Value n) : Node → Text
  | .literal _ content => content
  | .reference _ path => heap.shown (heap.resolve path value).value
  | .block kind _ path body =>
    kind.shown heap (heap.resolve path value).value value fun item => shownAll heap item body

def shownAll {n : Nat} (heap : Heap n) (value : Value n) : List Node → Text
  | [] => []
  | node :: nodes => shown heap value node ++ shownAll heap value nodes

end

section Outcome

variable {n : Nat} (heap : Heap n) (strict : Bool) (frame : Option Frame) (value : Value n)
variable (place : Position) (path content : Text) (body nodes : List Node) (node : Node)

@[simp] theorem outcome_renderAll_nil :
    (renderAll heap strict frame value []).run.value = .ok [] := rfl

theorem outcome_renderAll_cons :
    (renderAll heap strict frame value (node :: nodes)).run.value =
      (render heap strict frame value node).run.value.bind fun first =>
        (renderAll heap strict frame value nodes).run.value.bind fun rest => .ok (first ++ rest) := by
  rw [renderAll, Attempt.outcome_bind]
  simp only [Attempt.outcome_bind, Attempt.outcome_pure]

@[simp] theorem outcome_render_literal :
    (render heap strict frame value (.literal place content)).run.value =
      .ok [⟨.literal place content, content⟩] := rfl

theorem outcome_render_reference :
    (render heap strict frame value (.reference place path)).run.value =
      if (heap.resolve path value).value = .undefined then
        if strict then .error (.undefined (heap.undefinedAt frame place path value).value)
        else .ok []
      else .ok [⟨.reference place path, heap.shown (heap.resolve path value).value⟩] := by
  rw [render, renderReference, Attempt.outcome_bind, Attempt.outcome_lift]
  show (ite _ _ _ : Attempt Failure (List Piece)).run.value = _
  split
  · rw [Attempt.outcome_bind]
    cases strict <;> rfl
  · rfl

theorem outcome_render_condition :
    (render heap strict frame value (.block .condition place path body)).run.value =
      if heap.isTrue (heap.resolve path value).value then
        (renderAll heap strict frame value body).run.value
      else .ok [] := by
  rw [render, Attempt.outcome_bind, Attempt.outcome_lift]
  show (ite _ _ _ : Attempt Failure (List Piece)).run.value = _
  split <;> rfl

theorem value_elementsFor :
    (elementsFor heap value place path).value =
      (heap.elements? (heap.resolve path value).value).getD [] := by
  rw [elementsFor, Logged.value_bind]
  split
  · next items found => rw [found]; rfl
  · next absent =>
    rw [absent]
    dsimp only
    split <;> rfl

theorem outcome_render_iteration :
    (render heap strict frame value (.block .iteration place path body)).run.value =
      (Attempt.gather (fun item => renderAll heap strict frame item body)
        ((heap.elements? (heap.resolve path value).value).getD [])).run.value := by
  rw [render, Attempt.outcome_bind, Attempt.outcome_lift, value_elementsFor]
  rfl

end Outcome

end Node

section Lenient

variable {n : Nat} (heap : Heap n) (frame : Option Frame)

private theorem joins_append {first rest : Except Failure (List Piece)} {text others : Text}
    (one : first.map Piece.join = .ok text) (two : rest.map Piece.join = .ok others) :
    (first.bind fun pieces => rest.bind fun more => .ok (pieces ++ more)).map Piece.join =
      .ok (text ++ others) := by
  cases first with
  | error failure => cases one
  | ok pieces =>
    cases rest with
    | error failure => cases two
    | ok more =>
      cases one
      cases two
      show Except.ok (Piece.join (pieces ++ more)) = _
      rw [Piece.join, List.flatMap_append]
      rfl

theorem joins_gather {α : Type} {step : α → Attempt Failure (List Piece)} {text : α → Text}
    (each : ∀ item, (step item).run.value.map Piece.join = .ok (text item)) (items : List α) :
    (Attempt.gather step items).run.value.map Piece.join = .ok (items.flatMap text) := by
  induction items with
  | nil => rfl
  | cons item items ih =>
    rw [Attempt.gather, Attempt.outcome_bind, List.flatMap_cons]
    simp only [Attempt.outcome_bind, Attempt.outcome_pure]
    exact joins_append (each item) ih

mutual

theorem joins_render (value : Value n) (node : Node) :
    (Node.render heap false frame value node).run.value.map Piece.join =
      .ok (node.shown heap value) := by
  cases node with
  | literal place content =>
    rw [Node.outcome_render_literal, Node.shown]
    show Except.ok (Piece.join [_]) = _
    rw [Piece.join, List.flatMap_singleton]
  | reference place path =>
    rw [Node.outcome_render_reference, Node.shown]
    split
    · next missing => rw [missing]; rfl
    · show Except.ok (Piece.join [_]) = _
      rw [Piece.join, List.flatMap_singleton]
  | block kind place path body =>
    cases kind with
    | condition =>
      rw [Node.outcome_render_condition, Node.shown, BlockKind.shown]
      split
      · exact joins_renderAll value body
      · rfl
    | iteration =>
      rw [Node.outcome_render_iteration, Node.shown, BlockKind.shown]
      exact joins_gather (fun item => joins_renderAll item body) _

theorem joins_renderAll (value : Value n) (nodes : List Node) :
    (Node.renderAll heap false frame value nodes).run.value.map Piece.join =
      .ok (Node.shownAll heap value nodes) := by
  cases nodes with
  | nil => rfl
  | cons node nodes =>
    rw [Node.outcome_renderAll_cons, Node.shownAll]
    exact joins_append (joins_render value node) (joins_renderAll value nodes)

end

end Lenient

/-- Without strictness a template never fails and puts out its text, whatever its frame. -/
theorem outcome_render_lenient (template : Template) (frame : Option Frame) (context : Context) :
    (template.render false frame context).run.value =
      .ok (Node.shownAll context.heap context.root template.body) := by
  have joined := joins_renderAll context.heap frame context.root template.body
  rw [Template.render, Attempt.outcome_bind]
  cases outcome : (Node.renderAll context.heap false frame context.root template.body).run.value with
  | error failure => rw [outcome] at joined; cases joined
  | ok pieces => rw [outcome] at joined; exact joined

section Strict

variable {n : Nat} (heap : Heap n) (strict : Bool) (frame : Option Frame)

private theorem undefined_of_bind {first rest : Except Failure (List Piece)} {failure : Failure}
    (one : ∀ failure, first = .error failure → ∃ missing, failure = .undefined missing)
    (two : ∀ failure, rest = .error failure → ∃ missing, failure = .undefined missing)
    (failed : (first.bind fun pieces => rest.bind fun more => .ok (pieces ++ more)) =
      .error failure) : ∃ missing, failure = .undefined missing := by
  cases first with
  | error other => cases failed; exact one _ rfl
  | ok pieces =>
    cases rest with
    | error other => cases failed; exact two _ rfl
    | ok more => cases failed

theorem undefined_of_gather {α : Type} {step : α → Attempt Failure (List Piece)} {items : List α}
    {failure : Failure}
    (each : ∀ item failure, (step item).run.value = .error failure →
      ∃ missing, failure = .undefined missing)
    (failed : (Attempt.gather step items).run.value = .error failure) :
    ∃ missing, failure = .undefined missing := by
  induction items generalizing failure with
  | nil => cases failed
  | cons item items ih =>
    rw [Attempt.gather, Attempt.outcome_bind] at failed
    simp only [Attempt.outcome_bind, Attempt.outcome_pure] at failed
    exact undefined_of_bind (each item) (fun _ => ih) failed

mutual

theorem undefined_of_render (value : Value n) (node : Node) (failure : Failure)
    (failed : (Node.render heap strict frame value node).run.value = .error failure) :
    ∃ missing, failure = .undefined missing := by
  cases node with
  | literal place content => cases failed
  | reference place path =>
    rw [Node.outcome_render_reference] at failed
    split at failed
    · split at failed
      · cases failed
        exact ⟨_, rfl⟩
      · cases failed
    · cases failed
  | block kind place path body =>
    cases kind with
    | condition =>
      rw [Node.outcome_render_condition] at failed
      split at failed
      · exact undefined_of_renderAll value body failure failed
      · cases failed
    | iteration =>
      rw [Node.outcome_render_iteration] at failed
      exact undefined_of_gather (fun item => undefined_of_renderAll item body) failed

theorem undefined_of_renderAll (value : Value n) (nodes : List Node) (failure : Failure)
    (failed : (Node.renderAll heap strict frame value nodes).run.value = .error failure) :
    ∃ missing, failure = .undefined missing := by
  cases nodes with
  | nil => cases failed
  | cons node nodes =>
    rw [Node.outcome_renderAll_cons] at failed
    exact undefined_of_bind (undefined_of_render value node) (undefined_of_renderAll value nodes)
      failed

end

end Strict

theorem undefined_of_template {template : Template} {strict : Bool} {frame : Option Frame}
    {context : Context} {failure : Failure}
    (failed : (template.render strict frame context).run.value = .error failure) :
    ∃ missing, failure = .undefined missing := by
  rw [Template.render, Attempt.outcome_bind] at failed
  cases outcome : (Node.renderAll context.heap strict frame context.root template.body).run.value with
  | error other =>
    rw [outcome] at failed
    cases failed
    exact undefined_of_renderAll context.heap strict frame context.root template.body _ outcome
  | ok pieces => rw [outcome] at failed; cases failed

end Stencil
