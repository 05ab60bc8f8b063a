import Stencil.Proofs.Render.Outcome
import Stencil.Proofs.Template.Nesting

/-!
Where a strict run stops.  It stops at one reference, against the value that is current there: the path
of that reference leads nowhere, and everything that was rendered before it went well.  The failure is
the one that this reference and this value call for.
-/

set_option autoImplicit false
set_option relaxedAutoImplicit false

namespace Stencil

namespace Attempt

variable {ε α β : Type}

theorem outcome_gather_eq_error_iff {step : α → Attempt ε (List β)} {items : List α} {failure : ε} :
    (gather step items).run.value = .error failure ↔
      ∃ before item after, items = before ++ item :: after ∧
        (∀ earlier ∈ before, ∃ results, (step earlier).run.value = .ok results) ∧
        (step item).run.value = .error failure := by
  induction items with
  | nil =>
    constructor
    · intro impossible
      cases impossible
    · rintro ⟨before, item, after, split_eq, -⟩
      cases before <;> cases split_eq
  | cons first items ih =>
    rw [gather, outcome_bind]
    simp only [outcome_bind, outcome_pure]
    constructor
    · intro failed
      cases outcome : (step first).run.value with
      | error other =>
        rw [outcome] at failed
        cases failed
        exact ⟨[], first, items, rfl, fun _ among => absurd among List.not_mem_nil, outcome⟩
      | ok results =>
        have later : (gather step items).run.value = .error failure := by
          rw [outcome] at failed
          cases rest : (gather step items).run.value with
          | error other => rw [rest] at failed; cases failed; rfl
          | ok more => rw [rest] at failed; cases failed
        obtain ⟨before, item, after, rfl, earlier, failed_item⟩ := ih.1 later
        exact ⟨first :: before, item, after, rfl,
          List.forall_mem_cons.2 ⟨⟨results, outcome⟩, earlier⟩, failed_item⟩
    · rintro ⟨before, item, after, split_eq, earlier, failed⟩
      cases before with
      | nil =>
        cases split_eq
        rw [failed]
        rfl
      | cons other before =>
        cases split_eq
        obtain ⟨⟨results, outcome⟩, others⟩ := List.forall_mem_cons.1 earlier
        rw [outcome, Except.bind, ih.2 ⟨before, item, after, rfl, others, failed⟩]
        rfl

end Attempt

namespace Node

section Stops

variable {n : Nat} (heap : Heap n) (frame : Option Frame)

mutual

/-- Whether a strict run of a node against a value stops at a reference, given by its place and its path,
against the value that is current there. -/
inductive StopsIn : Value n → Node → Position → Text → Value n → Prop
  | reference {value : Value n} {place : Position} {path : Text}
    (missing : (heap.resolve path value).value = .undefined) :
    StopsIn value (.reference place path) place path value
  | condition {value current : Value n} {place outer : Position} {path test : Text}
    {body : List Node} (holds : heap.isTrue (heap.resolve test value).value = true)
    (inside : StopsAt value body place path current) :
    StopsIn value (.block .condition outer test body) place path current
  | iteration {value item current : Value n} {place outer : Position} {path collection : Text}
    {body : List Node} {before after : List (Value n)}
    (elements : (heap.elements? (heap.resolve collection value).value).getD [] =
      before ++ item :: after)
    (earlier : ∀ other ∈ before,
      ∃ pieces, (renderAll heap true frame other body).run.value = .ok pieces)
    (inside : StopsAt item body place path current) :
    StopsIn value (.block .iteration outer collection body) place path current

inductive StopsAt : Value n → List Node → Position → Text → Value n → Prop
  | head {value current : Value n} {place : Position} {path : Text} {node : Node}
    {nodes : List Node} (stops : StopsIn value node place path current) :
    StopsAt value (node :: nodes) place path current
  | tail {value current : Value n} {place : Position} {path : Text} {node : Node}
    {nodes : List Node}
    (first : ∃ pieces, (render heap true frame value node).run.value = .ok pieces)
    (stops : StopsAt value nodes place path current) :
    StopsAt value (node :: nodes) place path current

end

variable {heap frame}

private theorem outcome_renderAll_cons_eq_error_iff {value : Value n} {node : Node}
    {nodes : List Node} {failure : Failure} :
    (renderAll heap true frame value (node :: nodes)).run.value = .error failure ↔
      (render heap true frame value node).run.value = .error failure ∨
      (∃ pieces, (render heap true frame value node).run.value = .ok pieces) ∧
        (renderAll heap true frame value nodes).run.value = .error failure := by
  rw [outcome_renderAll_cons]
  cases (render heap true frame value node).run.value with
  | error other => simp [Except.bind]
  | ok pieces =>
    cases (renderAll heap true frame value nodes).run.value with
    | error other => simp [Except.bind]
    | ok more => simp [Except.bind]

mutual

theorem outcome_render_eq_error_iff (value : Value n) (node : Node) (failure : Failure) :
    (render heap true frame value node).run.value = .error failure ↔
      ∃ place path current, StopsIn heap frame value node place path current ∧
        failure = .undefined (heap.undefinedAt frame place path current).value := by
  cases node with
  | literal place content =>
    constructor
    · intro failed
      cases failed
    · rintro ⟨_, _, _, stops, -⟩
      cases stops
  | reference place path =>
    rw [outcome_render_reference]
    constructor
    · intro failed
      split at failed
      · next missing =>
        cases failed
        exact ⟨place, path, value, .reference missing, rfl⟩
      · cases failed
    · rintro ⟨_, _, _, stops, rfl⟩
      cases stops with
      | reference missing =>
        rw [if_pos missing]
        rfl
  | block kind outer test body =>
    cases kind with
    | condition =>
      rw [outcome_render_condition]
      constructor
      · intro failed
        split at failed
        · next holds =>
          obtain ⟨place, path, current, stops, same⟩ :=
            (outcome_renderAll_eq_error_iff value body failure).1 failed
          exact ⟨place, path, current, .condition holds stops, same⟩
        · cases failed
      · rintro ⟨place, path, current, stops, same⟩
        cases stops with
        | condition holds inside =>
          rw [if_pos holds]
          exact (outcome_renderAll_eq_error_iff value body failure).2
            ⟨place, path, current, inside, same⟩
    | iteration =>
      rw [outcome_render_iteration, Attempt.outcome_gather_eq_error_iff]
      constructor
      · rintro ⟨before, item, after, elements, earlier, failed⟩
        obtain ⟨place, path, current, stops, same⟩ :=
          (outcome_renderAll_eq_error_iff item body failure).1 failed
        exact ⟨place, path, current, .iteration elements earlier stops, same⟩
      · rintro ⟨place, path, current, stops, same⟩
        cases stops with
        | @iteration _ item _ _ _ _ _ _ before after elements earlier inside =>
          exact ⟨before, item, after, elements, earlier,
            (outcome_renderAll_eq_error_iff item body failure).2 ⟨place, path, current, inside, same⟩⟩

/-- A strict run of nodes fails exactly where it stops at a reference. -/
theorem outcome_renderAll_eq_error_iff (value : Value n) (nodes : List Node) (failure : Failure) :
    (renderAll heap true frame value nodes).run.value = .error failure ↔
      ∃ place path current, StopsAt heap frame value nodes place path current ∧
        failure = .undefined (heap.undefinedAt frame place path current).value := by
  cases nodes with
  | nil =>
    constructor
    · intro failed
      cases failed
    · rintro ⟨_, _, _, stops, -⟩
      cases stops
  | cons node nodes =>
    rw [outcome_renderAll_cons_eq_error_iff, outcome_render_eq_error_iff value node failure,
      outcome_renderAll_eq_error_iff value nodes failure]
    constructor
    · rintro (⟨place, path, current, stops, same⟩ | ⟨first, place, path, current, stops, same⟩)
      · exact ⟨place, path, current, .head stops, same⟩
      · exact ⟨place, path, current, .tail first stops, same⟩
    · rintro ⟨place, path, current, stops, same⟩
      cases stops with
      | head stops => exact Or.inl ⟨place, path, current, stops, same⟩
      | tail first stops => exact Or.inr ⟨first, place, path, current, stops, same⟩

end

mutual

theorem mem_inOrder_of_stopsIn {value current : Value n} {place : Position} {path : Text}
    (around : Nat) (node : Node) (stops : StopsIn heap frame value node place path current) :
    .reference place path ∈ (inOrder around node).map Prod.snd := by
  cases node with
  | literal => cases stops
  | reference =>
    cases stops
    exact List.mem_singleton_self _
  | block kind outer test body =>
    rw [inOrder, List.map_cons]
    refine List.mem_cons_of_mem _ ?_
    cases stops with
    | condition _ inside => exact mem_allInOrder_of_stopsAt (around + 1) body inside
    | iteration _ _ inside => exact mem_allInOrder_of_stopsAt (around + 1) body inside

theorem mem_allInOrder_of_stopsAt {value current : Value n} {place : Position} {path : Text}
    (around : Nat) (nodes : List Node) (stops : StopsAt heap frame value nodes place path current) :
    .reference place path ∈ (allInOrder around nodes).map Prod.snd := by
  cases nodes with
  | nil => cases stops
  | cons node nodes =>
    rw [allInOrder, List.map_append, List.mem_append]
    cases stops with
    | head stops => exact Or.inl (mem_inOrder_of_stopsIn around node stops)
    | tail _ stops => exact Or.inr (mem_allInOrder_of_stopsAt around nodes stops)

end

mutual

theorem missing_of_stopsIn {value current : Value n} {place : Position} {path : Text} (node : Node)
    (stops : StopsIn heap frame value node place path current) :
    (heap.resolve path current).value = .undefined := by
  cases node with
  | literal => cases stops
  | reference =>
    cases stops with
    | reference missing => exact missing
  | block kind outer test body =>
    cases stops with
    | condition _ inside => exact missing_of_stopsAt body inside
    | iteration _ _ inside => exact missing_of_stopsAt body inside

theorem missing_of_stopsAt {value current : Value n} {place : Position} {path : Text}
    (nodes : List Node) (stops : StopsAt heap frame value nodes place path current) :
    (heap.resolve path current).value = .undefined := by
  cases nodes with
  | nil => cases stops
  | cons node nodes =>
    cases stops with
    | head stops => exact missing_of_stopsIn node stops
    | tail _ stops => exact missing_of_stopsAt nodes stops

end

end Stops

end Node

theorem Template.outcome_render_eq_error_iff {template : Template} {strict : Bool}
    {frame : Option Frame} {context : Context} {failure : Failure} :
    (template.render strict frame context).run.value = .error failure ↔
      (Node.renderAll context.heap strict frame context.root template.body).run.value =
        .error failure := by
  rw [render, Attempt.outcome_bind]
  cases (Node.renderAll context.heap strict frame context.root template.body).run.value with
  | error other =>
    rw [Except.bind, Except.error.injEq, Except.error.injEq]
  | ok pieces =>
    constructor
    · intro impossible
      cases impossible
    · intro impossible
      cases impossible

theorem Engine.outcome_render_eq_undefined_iff {engine : Engine} {name : Option Text} {source : Text}
    {context : Context} {failure : UndefinedVariable} :
    (engine.render name source context).run.value = .error (.undefined failure) ↔
      engine.rendersStrictly = true ∧ ∃ template place path current,
        (Template.ofSource name engine.limit source).run.value = .ok template ∧
        Node.StopsAt context.heap (some ⟨name, some source⟩) context.root template.body place path
          current ∧
        failure = (context.heap.undefinedAt (some ⟨name, some source⟩) place path current).value := by
  rw [render, parse, Attempt.outcome_bind]
  cases parsed : (Template.ofSource name engine.limit source).run.value with
  | error other =>
    constructor
    · intro failed
      rw [Template.outcome_ofSource] at parsed
      cases failed
      split at parsed <;> cases parsed
    · rintro ⟨-, _, _, _, _, impossible, -⟩
      cases impossible
  | ok template =>
    cases strict : engine.rendersStrictly with
    | false =>
      constructor
      · intro failed
        rw [Except.bind, outcome_render_lenient] at failed
        cases failed
      · rintro ⟨impossible, -⟩
        cases impossible
    | true =>
      rw [Except.bind, Template.outcome_render_eq_error_iff, Node.outcome_renderAll_eq_error_iff]
      constructor
      · rintro ⟨place, path, current, stops, same⟩
        cases same
        exact ⟨rfl, template, place, path, current, rfl, stops, rfl⟩
      · rintro ⟨-, _, place, path, current, same, stops, rfl⟩
        cases same
        exact ⟨place, path, current, stops, rfl⟩

end Stencil
