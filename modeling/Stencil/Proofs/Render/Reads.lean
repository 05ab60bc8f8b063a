import Stencil.Proofs.Render.Privacy

/-!
What a template reads.  The paths of its references, conditions and iterations that stand in no
iteration are all that is ever looked up in the context: the body of an iteration is rendered against
the elements alone.  Two contexts that have the same data at these paths are rendered to the same text,
or fail for the same reference.
-/

set_option autoImplicit false
set_option relaxedAutoImplicit false

namespace Stencil

mutual

/-- The paths that a node looks up in the value it is rendered against. -/
def Node.reads : Node → List Text
  | .literal .. => []
  | .reference _ path => [path]
  | .block .condition _ path body => path :: Node.readsAll body
  | .block .iteration _ path _ => [path]

def Node.readsAll : List Node → List Text
  | [] => []
  | node :: nodes => Node.reads node ++ Node.readsAll nodes

end

def Failure.SameReference (first second : Failure) : Prop :=
  ∃ missing missing', first = .undefined missing ∧ second = .undefined missing' ∧
    missing.path = missing'.path ∧ missing.line = missing'.line

section

variable {n m : Nat} {left : Heap n} {right : Heap m} {value : Value n} {value' : Value m}
variable (strict : Bool) (frame : Option Frame)

theorem Heap.SameData.isTrue_eq (same : left.SameData right value value') :
    left.isTrue value = right.isTrue value' := by
  obtain ⟨twins, twinned, -, alike⟩ := same
  exact isTrue_eq_of_alike twinned alike

theorem Heap.SameData.eq_undefined_iff (same : left.SameData right value value') :
    value = .undefined ↔ value' = .undefined := by
  obtain ⟨twins, -, -, alike⟩ := same
  exact eq_undefined_iff_of_alike alike

theorem Heap.SameData.shown_eq (same : left.SameData right value value') :
    left.shown value = right.shown value' := by
  obtain ⟨twins, twinned, cycles, alike⟩ := same
  exact shown_eq_of_alike twinned cycles alike

theorem Node.run_gather_of_sameData (same : left.SameData right value value') (body : List Node) :
    (Attempt.gather (fun item => Node.renderAll left strict frame item body)
        ((left.elements? value).getD [])).run =
      (Attempt.gather (fun item => Node.renderAll right strict frame item body)
        ((right.elements? value').getD [])).run := by
  obtain ⟨twins, twinned, cycles, alike⟩ := same
  have elements := Heap.rel_elements? twinned alike
  have each : List.Forall₂ (Value.Alike .exact twins) ((left.elements? value).getD [])
      ((right.elements? value').getD []) := by
    generalize left.elements? value = items at elements ⊢
    generalize right.elements? value' = items' at elements ⊢
    cases elements with
    | some each => exact each
    | none => exact .nil
  refine Attempt.Alike.run_eq (.gather each fun item item' same => ?_)
  exact Node.alike_renderAll_of_exact twinned cycles strict frame same body

mutual

/-- A node comes to the same against values that have the same data at every path it reads. -/
theorem Node.outcome_render_of_reads (value : Value n) (value' : Value m) (node : Node)
    (same : ∀ path ∈ node.reads,
      left.SameData right (left.resolve path value).value (right.resolve path value').value) :
    Outcome.Alike Failure.SameReference Eq (Node.render left strict frame value node).run.value
      (Node.render right strict frame value' node).run.value := by
  cases node with
  | literal place content => exact .ok rfl
  | reference place path =>
    have found := same path (List.mem_singleton_self path)
    rw [Node.outcome_render_reference, Node.outcome_render_reference]
    by_cases missing : (left.resolve path value).value = .undefined
    · rw [if_pos missing, if_pos (found.eq_undefined_iff.1 missing)]
      cases strict with
      | false => exact .ok rfl
      | true => exact .error ⟨_, _, rfl, rfl, rfl, rfl⟩
    · rw [if_neg missing, if_neg (mt found.eq_undefined_iff.2 missing), found.shown_eq]
      exact .ok rfl
  | block kind place path body =>
    cases kind with
    | condition =>
      have found := same path List.mem_cons_self
      rw [Node.outcome_render_condition, Node.outcome_render_condition, found.isTrue_eq]
      split
      · exact Node.outcome_renderAll_of_reads value value' body fun inner member =>
          same inner (List.mem_cons_of_mem path member)
      · exact .ok rfl
    | iteration =>
      have found := same path (List.mem_singleton_self path)
      rw [Node.outcome_render_iteration, Node.outcome_render_iteration,
        Node.run_gather_of_sameData strict frame found body]
      cases ended : (Attempt.gather (fun item => Node.renderAll right strict frame item body)
          ((right.elements? (right.resolve path value').value).getD [])).run.value with
      | ok pieces => exact .ok rfl
      | error failure =>
        obtain ⟨missing, rfl⟩ := undefined_of_gather
          (fun item => undefined_of_renderAll right strict frame item body) ended
        exact .error ⟨missing, missing, rfl, rfl, rfl, rfl⟩

theorem Node.outcome_renderAll_of_reads (value : Value n) (value' : Value m) (nodes : List Node)
    (same : ∀ path ∈ Node.readsAll nodes,
      left.SameData right (left.resolve path value).value (right.resolve path value').value) :
    Outcome.Alike Failure.SameReference Eq (Node.renderAll left strict frame value nodes).run.value
      (Node.renderAll right strict frame value' nodes).run.value := by
  cases nodes with
  | nil => exact .ok rfl
  | cons node nodes =>
    have first := Node.outcome_render_of_reads value value' node fun path member =>
      same path (List.mem_append_left _ member)
    have rest := Node.outcome_renderAll_of_reads value value' nodes fun path member =>
      same path (List.mem_append_right _ member)
    rw [Node.outcome_renderAll_cons, Node.outcome_renderAll_cons]
    refine first.bind ?_
    rintro pieces _ rfl
    refine rest.bind ?_
    rintro more _ rfl
    exact .ok rfl

end

end

/-- The paths that stand in no iteration are all that a template reads of its context.  When two contexts
have the same data at these paths, rendering gives the same text against both, or under strictness
fails against both for the same path and line. -/
theorem render_of_same_reads (engine : Engine) (name : Option Text) (source : Text)
    (first second : Context) {template : Template}
    (parsed : (engine.parse name source).run.value = .ok template)
    (same : ∀ path ∈ Node.readsAll template.body,
      first.heap.SameData second.heap (first.heap.resolve path first.root).value
        (second.heap.resolve path second.root).value) :
    (∃ text, (engine.render name source first).run.value = .ok text ∧
        (engine.render name source second).run.value = .ok text) ∨
      engine.rendersStrictly = true ∧ ∃ missing missing',
        (engine.render name source first).run.value = .error (.undefined missing) ∧
        (engine.render name source second).run.value = .error (.undefined missing') ∧
        missing.path = missing'.path ∧ missing.line = missing'.line := by
  have pieces := Node.outcome_renderAll_of_reads engine.rendersStrictly (some ⟨name, some source⟩)
    first.root second.root template.body same
  have rendered (context : Context) : (engine.render name source context).run.value =
      (template.render engine.rendersStrictly (some ⟨name, some source⟩) context).run.value := by
    rw [Engine.render, Attempt.outcome_bind, parsed]
    rfl
  have texts : Outcome.Alike Failure.SameReference Eq (engine.render name source first).run.value
      (engine.render name source second).run.value := by
    rw [rendered, rendered, Template.render, Template.render, Attempt.outcome_bind,
      Attempt.outcome_bind]
    refine pieces.bind ?_
    rintro found _ rfl
    exact .ok rfl
  rcases texts.ok_or_error with ⟨text, _, one, two, rfl⟩ |
    ⟨_, _, one, two, missing, missing', rfl, rfl, paths, lines⟩
  · exact .inl ⟨text, one, two⟩
  · refine .inr ⟨?_, missing, missing', one, two, paths, lines⟩
    by_contra lenient
    rw [Bool.not_eq_true] at lenient
    rw [rendered, lenient, outcome_render_lenient] at one
    cases one

/-- A map with a list that holds one map twice. -/
private def shared (list entry : Fin 3) : Heap 3 where
  object
    | 0 => .map [(.scalar (.text ['a']), .scalar (.bool true)), (.scalar (.text ['c']), .object list),
        (.scalar (.text ['e']), .scalar (.int 5))]
    | 1 => .list [.object entry, .object entry]
    | 2 => .map [(.scalar (.text ['d']), .scalar (.int 1))]

/-- A map with a list that holds two maps with the same entries. -/
private def copied (list first second : Fin 4) : Heap 4 where
  object
    | 0 => .map [(.scalar (.text ['c']), .object list), (.scalar (.text ['a']), .scalar (.bool true))]
    | 1 => .list [.object first, .object second]
    | 2 => .map [(.scalar (.text ['d']), .scalar (.int 1))]
    | 3 => .map [(.scalar (.text ['d']), .scalar (.int 1))]

private theorem sameData_copied : (shared 1 2).SameData (copied 1 2 3) (.object 1) (.object 1) := by
  have twinned : (shared 1 2).Twinned .exact (copied 1 2 3) fun address address' =>
      (address, address') ∈ [((1, 1) : Fin 3 × Fin 4), (2, 2), (2, 3)] := by
    intro address address' paired
    have entry : List.Forall₂ (FiledAlike (Value.Alike .exact fun address address' =>
        (address, address') ∈ [((1, 1) : Fin 3 × Fin 4), (2, 2), (2, 3)]))
        [((.scalar (.text ['d']) : Key), .scalar (.int 1))]
        [((.scalar (.text ['d']) : Key), .scalar (.int 1))] :=
      .cons ⟨rfl, .scalar (.same _)⟩ .nil
    simp only [List.mem_cons, Prod.mk.injEq, List.not_mem_nil, or_false] at paired
    rcases paired with ⟨rfl, rfl⟩ | ⟨rfl, rfl⟩ | ⟨rfl, rfl⟩
    · exact .list (.cons (.object (by decide)) (.cons (.object (by decide)) .nil))
    · exact .map entry
    · exact .map entry
  refine ⟨_, twinned, Heap.sameCycles_of_isAcyclic ?_, .object (by decide)⟩
  intro address address' _
  exact ⟨Heap.isAcyclic_of_later (by decide) _, Heap.isAcyclic_of_later (by decide) _⟩

private def readsSource : Text :=
  Tag.written "#each c" ++ Tag.written "d" ++ Tag.written "/each" ++ '\n' :: Tag.written "#if a" ++
    Tag.written "f" ++ Tag.written "/if"

theorem render_of_same_reads_copied :
    (∀ path ∈ [['c'], ['a'], ['f']], (shared 1 2).SameData (copied 1 2 3)
        ((shared 1 2).resolve path (.object 0)).value ((copied 1 2 3).resolve path (.object 0)).value) ∧
      ∃ missing missing',
        (Engine.render ⟨true, 1, true⟩ none readsSource ⟨3, shared 1 2, .object 0⟩).run.value =
          .error (.undefined missing) ∧
        (Engine.render ⟨true, 1, true⟩ none readsSource ⟨4, copied 1 2 3, .object 0⟩).run.value =
          .error (.undefined missing') ∧
        missing.path = missing'.path ∧ missing.line = missing'.line := by
  have same : ∀ path ∈ [['c'], ['a'], ['f']], (shared 1 2).SameData (copied 1 2 3)
      ((shared 1 2).resolve path (.object 0)).value ((copied 1 2 3).resolve path (.object 0)).value := by
    intro path member
    simp only [List.mem_cons, List.not_mem_nil, or_false] at member
    rcases member with rfl | rfl | rfl
    · exact sameData_copied
    · exact Heap.sameData_scalar _ _ (.bool true)
    · exact Heap.sameData_scalar _ _ .undefined
  have parsed : (Engine.parse ⟨true, 1, true⟩ none readsSource).run.value = .ok ⟨none,
      [.block .iteration ⟨1, 0⟩ ['c'] [.reference ⟨1, 11⟩ ['d']], .literal ⟨1, 25⟩ ['\n'],
        .block .condition ⟨2, 0⟩ ['a'] [.reference ⟨2, 9⟩ ['f']]]⟩ := by cbv
  refine ⟨same, ?_⟩
  rcases render_of_same_reads ⟨true, 1, true⟩ none readsSource ⟨3, shared 1 2, .object 0⟩
    ⟨4, copied 1 2 3, .object 0⟩ parsed same with ⟨text, failed, -⟩ | ⟨-, failed⟩
  · have impossible : (Engine.render ⟨true, 1, true⟩ none readsSource
        ⟨3, shared 1 2, .object 0⟩).run.value.toOption = none := by cbv
    rw [failed] at impossible
    cases impossible
  · exact failed

end Stencil
