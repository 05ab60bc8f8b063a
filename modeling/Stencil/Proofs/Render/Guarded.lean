import Stencil.Proofs.Render.Outcome
import Mathlib

/-!
Guarded iterations.  Whether a value is true and what it holds are decided apart, but they agree: a
sequence is true exactly when an iteration over it has something to go over, and nothing that is false
has elements.  So a condition on the path of an iteration around that iteration changes nothing.
-/

set_option autoImplicit false
set_option relaxedAutoImplicit false

namespace Stencil

section Range

variable {start stop step : Int}

theorem lt_rangeCount_iff {i : Nat} :
    i < rangeCount start stop step ↔
      0 < step ∧ start + i * step < stop ∨ step < 0 ∧ stop < start + i * step := by
  rw [rangeCount]
  split
  · next up =>
    have places : (i : Int) + 1 ≤ (stop - start + step - 1) / step ↔
        ((i : Int) + 1) * step ≤ stop - start + step - 1 := Int.le_ediv_iff_mul_le up
    rw [Int.add_mul, Int.one_mul] at places
    rw [Int.lt_toNat]
    omega
  · split
    · next down =>
      have places : (i : Int) + 1 ≤ (start - stop - step - 1) / -step ↔
          ((i : Int) + 1) * -step ≤ start - stop - step - 1 :=
        Int.le_ediv_iff_mul_le (Int.neg_pos_of_neg down)
      rw [Int.add_mul, Int.one_mul, Int.mul_neg] at places
      rw [Int.lt_toNat]
      omega
    · omega

theorem mem_rangeItems_iff {item : Int} :
    item ∈ rangeItems start stop step ↔ ∃ i : Nat, item = start + i * step ∧
      (0 < step ∧ item < stop ∨ step < 0 ∧ stop < item) := by
  rw [rangeItems, List.mem_map]
  constructor
  · rintro ⟨i, among, rfl⟩
    exact ⟨i, rfl, lt_rangeCount_iff.1 (List.mem_range.1 among)⟩
  · rintro ⟨i, rfl, before⟩
    exact ⟨i, List.mem_range.2 (lt_rangeCount_iff.2 before), rfl⟩

theorem rangeItems_ne_nil_iff :
    rangeItems start stop step ≠ [] ↔ 0 < rangeCount start stop step := by
  rw [← List.length_pos_iff, rangeItems, List.length_map, List.length_range]

end Range

namespace Heap

variable {n : Nat} {heap : Heap n} {value : Value n}

theorem isTrue_iff_of_elements? {items : List (Value n)} (found : heap.elements? value = some items) :
    heap.isTrue value = true ↔ items ≠ [] := by
  cases value with
  | scalar value =>
    cases value with
    | range start stop step =>
      cases found
      show decide (0 < rangeCount start stop step) = true ↔ _
      rw [decide_eq_true_iff, ← rangeItems_ne_nil_iff, ne_eq, ne_eq, List.map_eq_nil_iff]
    | _ => cases found
  | object address =>
    rw [elements?] at found
    rw [isTrue]
    cases held : heap.object address with
    | list held_items => rw [held] at found; cases found; simp [Object.isTrue]
    | tuple held_items => rw [held] at found; cases found; simp [Object.isTrue]
    | namedTuple typeName fields => rw [held] at found; cases found; simp [Object.isTrue]
    | map entries => rw [held] at found; cases found
    | record => rw [held] at found; cases found

theorem elements_of_isTrue_eq_false (false_value : heap.isTrue value = false) :
    (heap.elements? value).getD [] = [] := by
  cases found : heap.elements? value with
  | none => rfl
  | some items =>
    by_contra held
    have true_value := (isTrue_iff_of_elements? found).2 held
    rw [false_value] at true_value
    cases true_value

end Heap

namespace Node

variable {n : Nat} (heap : Heap n) (strict : Bool) (frame : Option Frame) (value : Value n)

theorem outcome_renderAll_singleton (node : Node) :
    (renderAll heap strict frame value [node]).run.value =
      (render heap strict frame value node).run.value := by
  rw [outcome_renderAll_cons, outcome_renderAll_nil]
  cases (render heap strict frame value node).run.value with
  | error failure => rfl
  | ok pieces => exact congrArg Except.ok (List.append_nil pieces)

theorem outcome_render_iteration_place (place place' : Position) (path : Text) (body : List Node) :
    (render heap strict frame value (.block .iteration place path body)).run.value =
      (render heap strict frame value (.block .iteration place' path body)).run.value := by
  rw [outcome_render_iteration, outcome_render_iteration]

theorem outcome_render_guarded (place inner : Position) (path : Text) (body : List Node) :
    (render heap strict frame value
        (.block .condition place path [.block .iteration inner path body])).run.value =
      (render heap strict frame value (.block .iteration inner path body)).run.value := by
  rw [outcome_render_condition, outcome_renderAll_singleton]
  split
  · rfl
  · next untrue =>
    have empty := Heap.elements_of_isTrue_eq_false (Bool.not_eq_true _ ▸ untrue)
    rw [outcome_render_iteration, empty]
    rfl

end Node

/-- A condition on a path around an iteration over the same path gives what the iteration alone gives:
the same pieces or the same failure, and so the same text, under either strictness, within any frame and
against any value.  The two agree on values of every kind, since what is false has no elements and a
sequence is true exactly when it has one; a range has one while its stop lies ahead. -/
theorem render_guarded_iteration (strict : Bool) (frame : Option Frame) (context : Context)
    (name name' : Option Text) (place inner place' : Position) (path : Text) (body : List Node) :
    (∀ value : Value context.size,
      (Node.render context.heap strict frame value
        (.block .condition place path [.block .iteration inner path body])).run.value =
      (Node.render context.heap strict frame value
        (.block .iteration place' path body)).run.value) ∧
    ((⟨name, [.block .condition place path [.block .iteration inner path body]]⟩ : Template).render
        strict frame context).run.value =
      ((⟨name', [.block .iteration place' path body]⟩ : Template).render
        strict frame context).run.value ∧
    (∀ found : Value context.size,
      (context.heap.isTrue found = false → (context.heap.elements? found).getD [] = []) ∧
      ∀ items, context.heap.elements? found = some items →
        (context.heap.isTrue found = true ↔ items ≠ [])) ∧
    ∀ start stop step : Int,
      (context.heap.isTrue (.scalar (.range start stop step)) = true ↔
        0 < step ∧ start < stop ∨ step < 0 ∧ stop < start) ∧
      ∀ item, item ∈ rangeItems start stop step ↔ ∃ i : Nat, item = start + i * step ∧
        (0 < step ∧ item < stop ∨ step < 0 ∧ stop < item) := by
  have nodes (value : Value context.size) :=
    (Node.outcome_render_guarded context.heap strict frame value place inner path body).trans
      (Node.outcome_render_iteration_place context.heap strict frame value inner place' path body)
  refine ⟨nodes, ?_, ?_, ?_⟩
  · rw [Template.render, Template.render, Attempt.outcome_bind, Attempt.outcome_bind,
      Node.outcome_renderAll_singleton, Node.outcome_renderAll_singleton, nodes]
  · exact fun found => ⟨Heap.elements_of_isTrue_eq_false, fun _ => Heap.isTrue_iff_of_elements?⟩
  · intro start stop step
    refine ⟨?_, fun item => mem_rangeItems_iff⟩
    show decide (0 < rangeCount start stop step) = true ↔ _
    rw [decide_eq_true_iff, lt_rangeCount_iff, Nat.cast_zero, zero_mul, add_zero]

end Stencil
