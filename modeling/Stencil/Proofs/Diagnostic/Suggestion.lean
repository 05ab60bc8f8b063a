import Stencil.Proofs.Diagnostic.Closest
import Stencil.Proofs.Render.Stops

/-!
Suggestions.  The name that a failure suggests is meant to be the text key closest to the segment that
led nowhere, among those of the map that did not have it.  It is looked for where the path without its
last segment leads, so it is that name when the last segment is the one that led nowhere.  Where an
earlier segment did, nothing is suggested, and a path that is one segment after a point is taken for that
segment alone.
-/

set_option autoImplicit false
set_option relaxedAutoImplicit false

namespace Stencil

namespace Similarity

theorem mem_of_closest? {missing name : Text} {names : List Text}
    (closest : closest? missing names = some name) :
    name ∈ names ∧ cutoff ≤ ratio name missing := by
  obtain ⟨among, close, -⟩ := closest?_eq_some_iff.1 closest
  exact ⟨among, close⟩

end Similarity

/-- The key of a map that is closest to a segment.  No other value has one. -/
def Heap.closestKey? {n : Nat} (heap : Heap n) (value : Value n) (segment : Text) : Option Text :=
  Similarity.closest? segment ((heap.textKeys? value).getD [])

def Text.IsPointed (path : Text) : Prop :=
  ∃ segment, path = '.' :: segment ∧ '.' ∉ segment

namespace Heap

variable {n : Nat} {heap : Heap n} {frame : Option Frame} {place : Position} {path : Text}
variable {current : Value n}

theorem closestKey?_undefined (segment : Text) : heap.closestKey? .undefined segment = none := rfl

theorem closestKey?_of_entries?_eq_none {value : Value n} (other : heap.entries? value = none)
    (segment : Text) : heap.closestKey? value segment = none := by
  cases value with
  | scalar value => rfl
  | object address =>
    rw [entries?] at other
    rw [closestKey?, textKeys?]
    cases held : heap.object address with
    | map entries => rw [held] at other; cases other
    | _ => rfl

theorem mem_of_closestKey? {value : Value n} {segment key : Text}
    (closest : heap.closestKey? value segment = some key) :
    (∃ keys, heap.textKeys? value = some keys ∧ key ∈ keys) ∧
      Similarity.cutoff ≤ Similarity.ratio key segment := by
  obtain ⟨among, close⟩ := Similarity.mem_of_closest? closest
  cases keys : heap.textKeys? value with
  | none =>
    rw [keys] at among
    cases among
  | some names =>
    rw [keys] at among
    exact ⟨⟨names, rfl, among⟩, close⟩

theorem suggestion_undefinedAt :
    (heap.undefinedAt frame place path current).value.suggestion =
      heap.closestKey? (heap.parent path current).value (Text.afterLast '.' path) := rfl

theorem parent_of_beforeLast {before : Text} (front : Text.beforeLast '.' path = before)
    (nonempty : before ≠ []) : heap.parent path current = heap.resolve before current := by
  rw [parent, front]
  cases before with
  | nil => exact absurd rfl nonempty
  | cons c before => rfl

theorem parent_of_beforeLast_eq_nil (front : Text.beforeLast '.' path = []) :
    heap.parent path current = pure current := by
  rw [parent, front]

theorem suggestion_of_pointed {segment : Text} (single : '.' ∉ segment)
    (pointed : path = '.' :: segment) :
    (heap.undefinedAt frame place path current).value.suggestion =
      heap.closestKey? current segment := by
  have cut : path = [] ++ '.' :: segment := pointed
  rw [suggestion_undefinedAt, cut, Text.afterLast_append single,
    parent_of_beforeLast_eq_nil (Text.beforeLast_append single)]
  rfl

/-- For every other path the suggestion is a key of the value at which the path ends, if it ends at its
last segment. -/
theorem suggestion_of_deadEnd? {ending : DeadEnd n} (other : ¬ path.IsPointed)
    (ends : heap.deadEnd? current (Text.pieces '.' path) = some ending) :
    (heap.undefinedAt frame place path current).value.suggestion =
      if ending.rest = [] then heap.closestKey? ending.value ending.segment else none := by
  rw [suggestion_undefinedAt]
  rcases Text.exists_last_or_not_mem '.' path with ⟨before, last, rfl, single⟩ | single
  · have front : before ≠ [] := by
      rintro rfl
      exact other ⟨last, rfl, single⟩
    rw [Text.afterLast_append single,
      parent_of_beforeLast (Text.beforeLast_append single) front]
    rcases deadEnd?_append_point single ends with rfl | ⟨further, missing⟩
    · exact (if_pos rfl).symm
    · rw [if_neg further, missing, closestKey?_undefined]
  · rw [Text.pieces_of_not_mem single] at ends
    cases eq_of_deadEnd?_singleton ends
    rw [Text.afterLast_of_not_mem single,
      parent_of_beforeLast_eq_nil (Text.beforeLast_of_not_mem single)]
    exact (if_pos rfl).symm

end Heap

/-- Where no map holds the undefined value, a strict run that fails for a missing value stops at a
reference whose path ends at some segment, against the value that is current there.  Unless the path is
one segment after a point, a key closest to that segment is suggested if the segment is the last one, and
nothing otherwise; the key is one of the map that does not have the segment.  So the suggestion is the
closest key there exactly when the last segment is the one that leads nowhere or there is no such key, or
when a path of one segment after a point happens to have the same closest key in the current value. -/
theorem suggestion_of_render {engine : Engine} {name : Option Text} {source : Text}
    {context : Context} {failure : UndefinedVariable} (defined : context.heap.NoneUndefined)
    (failed : (engine.render name source context).run.value = .error (.undefined failure)) :
    ∃ template place current ending,
      (Template.ofSource name engine.limit source).run.value = .ok template ∧
      Node.StopsAt context.heap (some ⟨name, some source⟩) context.root template.body place
        failure.path current ∧
      context.heap.deadEnd? current (Text.pieces '.' failure.path) = some ending ∧
      (¬ failure.path.IsPointed →
        failure.suggestion =
          (if ending.rest = [] then context.heap.closestKey? ending.value ending.segment else none) ∧
        (context.heap.entries? ending.value = none → failure.suggestion = none) ∧
        ∀ key, failure.suggestion = some key →
          (∃ keys, context.heap.textKeys? ending.value = some keys ∧ key ∈ keys) ∧
          Similarity.cutoff ≤ Similarity.ratio key ending.segment) ∧
      (∀ segment, '.' ∉ segment → failure.path = '.' :: segment →
        failure.suggestion = context.heap.closestKey? current segment) ∧
      (failure.suggestion = context.heap.closestKey? ending.value ending.segment ↔
        (¬ failure.path.IsPointed ∧
          (ending.rest = [] ∨ context.heap.closestKey? ending.value ending.segment = none)) ∨
        ∃ segment, '.' ∉ segment ∧ failure.path = '.' :: segment ∧
          context.heap.closestKey? current segment =
            context.heap.closestKey? ending.value ending.segment) := by
  obtain ⟨-, template, place, path, current, parsed, stops, rfl⟩ :=
    Engine.outcome_render_eq_undefined_iff.1 failed
  have missing := Node.missing_of_stopsAt template.body stops
  obtain ⟨ending, ends⟩ := Heap.exists_deadEnd defined (Text.pieces_ne_nil path) missing
  have otherwise (other : ¬ path.IsPointed) :
      (context.heap.undefinedAt (some ⟨name, some source⟩) place path current).value.suggestion =
        if ending.rest = [] then context.heap.closestKey? ending.value ending.segment else none :=
    Heap.suggestion_of_deadEnd? other ends
  refine ⟨template, place, current, ending, parsed, stops, ends, ?_, ?_, ?_⟩
  · intro other
    refine ⟨otherwise other, fun unmapped => ?_, fun key suggested => ?_⟩
    · rw [otherwise other, Heap.closestKey?_of_entries?_eq_none unmapped]
      split <;> rfl
    · rw [otherwise other] at suggested
      split at suggested
      · exact Heap.mem_of_closestKey? suggested
      · cases suggested
  · intro segment single pointed
    exact Heap.suggestion_of_pointed single pointed
  · by_cases other : path.IsPointed
    · obtain ⟨segment, pointed, single⟩ := other
      rw [Heap.suggestion_of_pointed single pointed]
      constructor
      · intro same
        exact Or.inr ⟨segment, single, pointed, same⟩
      · rintro (⟨unpointed, -⟩ | ⟨segment', -, pointed', same⟩)
        · exact absurd ⟨segment, pointed, single⟩ unpointed
        · cases pointed.symm.trans pointed'
          exact same
    · rw [otherwise other]
      constructor
      · intro same
        split at same
        · next last => exact Or.inl ⟨other, Or.inl last⟩
        · exact Or.inl ⟨other, Or.inr same.symm⟩
      · rintro (⟨-, last | unsuggested⟩ | ⟨segment, single, pointed, -⟩)
        · exact if_pos last
        · rw [unsuggested]
          split <;> rfl
        · exact absurd ⟨segment, pointed, single⟩ other

private def userHeap (inner : Fin 2) : Heap 2 where
  object
    | 0 => .map [(.scalar (.text "user".toList), .object inner)]
    | 1 => .map [(.scalar (.text "name".toList), .scalar .null)]

private def user (outer inner : Fin 2) : Context :=
  ⟨2, userHeap inner, .object outer⟩

private theorem noneUndefined_user : (userHeap 1).NoneUndefined := by
  refine Fin.forall_fin_two.2 ⟨?_, ?_⟩
  · intro entries held
    cases held
    simp [Value.undefined]
  · intro entries held
    cases held
    simp [Value.undefined]

private def strictEngine : Engine := ⟨true, Engine.usualLimit, true⟩

theorem suggestion_of_render_lastSegment :
    ∃ failure current ending,
      (strictEngine.render none (Tag.written "user.nmae") (user 0 1)).run.value =
        .error (.undefined failure) ∧
      (user 0 1).heap.NoneUndefined ∧ failure.suggestion = some "name".toList ∧
      (user 0 1).heap.deadEnd? current (Text.pieces '.' failure.path) = some ending ∧
      failure.suggestion =
        (if ending.rest = [] then (user 0 1).heap.closestKey? ending.value ending.segment
        else none) := by
  have failed : (strictEngine.render none (Tag.written "user.nmae") (user 0 1)).run.value =
      .error (.undefined ⟨"user.nmae".toList, none, some 1, ["name".toList],
        some ⟨[(1, Tag.written "user.nmae")], 1, some 0⟩⟩) := by cbv
  obtain ⟨-, -, current, ending, -, -, ends, usual, -⟩ :=
    suggestion_of_render noneUndefined_user failed
  have unpointed : ¬ Text.IsPointed "user.nmae".toList := by
    rintro ⟨segment, pointed, -⟩
    cases pointed
  exact ⟨_, current, ending, failed, noneUndefined_user, by cbv, ends, (usual unpointed).1⟩

/-- Nothing is suggested for an earlier segment, although the map that does not have it has a close key;
and a segment after a point is suggested although the map does not have the empty segment before it. -/
theorem suggestion_of_earlierSegment :
    (∃ failure, (strictEngine.render none (Tag.written "usr.name") (user 0 1)).run.value =
        .error (.undefined failure) ∧ (user 0 1).heap.NoneUndefined ∧
      (user 0 1).heap.deadEnd? (user 0 1).root (Text.pieces '.' failure.path) =
        some ⟨(user 0 1).root, "usr".toList, ["name".toList]⟩ ∧
      (user 0 1).heap.closestKey? (user 0 1).root "usr".toList = some "user".toList ∧
      failure.suggestion = none) ∧
    ∃ failure, (strictEngine.render none (Tag.written ".user") (user 0 1)).run.value =
        .error (.undefined failure) ∧
      (user 0 1).heap.deadEnd? (user 0 1).root (Text.pieces '.' failure.path) =
        some ⟨(user 0 1).root, [], ["user".toList]⟩ ∧
      (user 0 1).heap.closestKey? (user 0 1).root [] = none ∧
      failure.suggestion = some "user".toList := by
  have earlier : (strictEngine.render none (Tag.written "usr.name") (user 0 1)).run.value =
      .error (.undefined ⟨"usr.name".toList, none, some 1, [],
        some ⟨[(1, Tag.written "usr.name")], 1, some 0⟩⟩) := by cbv
  have pointed : (strictEngine.render none (Tag.written ".user") (user 0 1)).run.value =
      .error (.undefined ⟨".user".toList, none, some 1, ["user".toList],
        some ⟨[(1, Tag.written ".user")], 1, some 0⟩⟩) := by cbv
  exact ⟨⟨_, earlier, noneUndefined_user, by cbv, by cbv, by cbv⟩,
    ⟨_, pointed, by cbv, by cbv, by cbv⟩⟩

end Stencil
