import Stencil.Diagnostic.Failure
import Stencil.Proofs.Value.DeadEnds
import Mathlib.Data.List.Lex
import Mathlib.Data.List.MinMax
import Mathlib.Data.Prod.Lex

/-!
The closest name.  Close names are ranked by how alike they are and then by the order of texts.  No two
names have the same rank, so the one that ranks highest is the same in whatever order the names come and
however often they are repeated.
-/

set_option autoImplicit false
set_option relaxedAutoImplicit false

namespace Stencil

namespace Similarity

variable {missing name other : Text} {names names' : List Text}

/-- The rank of a name: how alike it is to the missing one, and then the name itself. -/
def rank (missing name : Text) : Rat ×ₗ Text :=
  toLex (ratio name missing, name)

theorem rank_lt_iff :
    rank missing other < rank missing name ↔
      ratio other missing < ratio name missing ∨
        ratio other missing = ratio name missing ∧ other < name :=
  Prod.Lex.toLex_lt_toLex

theorem eq_of_rank_eq (same : rank missing other = rank missing name) : other = name :=
  congrArg (fun ranked => (ofLex ranked).2) same

theorem isBetter_iff :
    isBetter missing name other = true ↔ rank missing other < rank missing name := by
  rw [rank_lt_iff, isBetter]
  simp only [Bool.or_eq_true, Bool.and_eq_true, decide_eq_true_eq]

def closeNames (missing : Text) (names : List Text) : List Text :=
  names.filter fun name => cutoff ≤ ratio name missing

theorem mem_closeNames_iff :
    name ∈ closeNames missing names ↔ name ∈ names ∧ cutoff ≤ ratio name missing := by
  rw [closeNames, List.mem_filter, decide_eq_true_iff]

/-- The closest name is the close one of the highest rank. -/
theorem closest?_eq_argmax :
    closest? missing names = (closeNames missing names).argmax (rank missing) := by
  have step : prefer missing =
      List.argAux fun name other => rank missing other < rank missing name := by
    funext choice name
    cases choice with
    | none => rfl
    | some other =>
      rw [prefer, List.argAux]
      exact if_congr isBetter_iff rfl rfl
  rw [closest?, step]
  rfl

theorem closest?_eq_none_iff :
    closest? missing names = none ↔ ∀ name ∈ names, ratio name missing < cutoff := by
  rw [closest?_eq_argmax, List.argmax_eq_none, List.eq_nil_iff_forall_not_mem]
  simp only [mem_closeNames_iff, not_and, Rat.not_le]

theorem closest?_eq_some_iff :
    closest? missing names = some name ↔
      name ∈ names ∧ cutoff ≤ ratio name missing ∧
        ∀ other ∈ names, ¬ rank missing name < rank missing other := by
  rw [closest?_eq_argmax, List.argmax_eq_some_iff, mem_closeNames_iff, and_assoc]
  refine and_congr_right fun among => and_congr_right fun close => ?_
  constructor
  · rintro ⟨highest, -⟩ other member above
    have alike : ratio name missing ≤ ratio other missing := by
      rcases rank_lt_iff.1 above with more | ⟨same, -⟩
      · exact more.le
      · exact same.le
    have candidate := mem_closeNames_iff.2 ⟨member, close.trans alike⟩
    exact absurd above (highest other candidate).not_gt
  · intro highest
    have bound (other : Text) (member : other ∈ closeNames missing names) :
        rank missing other ≤ rank missing name :=
      not_lt.1 (highest other (mem_closeNames_iff.1 member).1)
    refine ⟨bound, fun other member above => ?_⟩
    rw [eq_of_rank_eq ((bound other member).antisymm above)]

theorem closest?_congr (same : ∀ name, name ∈ names ↔ name ∈ names') :
    closest? missing names = closest? missing names' := by
  apply Option.ext
  intro name
  rw [closest?_eq_some_iff, closest?_eq_some_iff, same]
  simp only [same]

end Similarity

/-- What a failure suggests, and so its message, depends on which names were available and on nothing
else about them.  The suggestion is a name that is close to what stands after the last point of the path,
such that no available name is more alike, nor as alike and later in the order of texts; there is none
exactly when no available name is close. -/
theorem suggestion_of_available {failure : UndefinedVariable} {names : List Text}
    (same : ∀ name, name ∈ names ↔ name ∈ failure.available) :
    { failure with available := names }.suggestion = failure.suggestion ∧
    (∀ colored, { failure with available := names }.message colored = failure.message colored) ∧
    ∃ missing, '.' ∉ missing ∧
      (failure.path = missing ∨ ∃ before, failure.path = before ++ '.' :: missing) ∧
      (failure.suggestion = none ↔
        ∀ name ∈ failure.available, Similarity.ratio name missing < Similarity.cutoff) ∧
      ∀ name, failure.suggestion = some name ↔
        name ∈ failure.available ∧ Similarity.cutoff ≤ Similarity.ratio name missing ∧
        ∀ other ∈ failure.available,
          ¬ Similarity.ratio name missing < Similarity.ratio other missing ∧
          ¬ (Similarity.ratio name missing = Similarity.ratio other missing ∧ name < other) := by
  have suggested : { failure with available := names }.suggestion = failure.suggestion :=
    Similarity.closest?_congr same
  refine ⟨suggested, fun colored => ?_, Text.afterLast '.' failure.path, ?_⟩
  · unfold UndefinedVariable.message UndefinedVariable.details UndefinedVariable.hintLines
    rw [suggested]
    rfl
  · obtain ⟨absent, last⟩ := Text.eq_afterLast_or_append '.' failure.path
    refine ⟨absent, last, Similarity.closest?_eq_none_iff, fun name => ?_⟩
    rw [UndefinedVariable.suggestion, Similarity.closest?_eq_some_iff]
    simp only [Similarity.rank_lt_iff, not_or]

theorem suggestion_of_available_repeated :
    (∀ name, name ∈ ["hat".toList, "bat".toList, "hat".toList] ↔
      name ∈ ["bat".toList, "hat".toList]) ∧
    UndefinedVariable.suggestion
      ⟨"pets.cat".toList, none, none, ["hat".toList, "bat".toList, "hat".toList], none⟩ =
        some "hat".toList := by
  have same : ∀ name, name ∈ ["hat".toList, "bat".toList, "hat".toList] ↔
      name ∈ ["bat".toList, "hat".toList] := by
    intro name
    simp only [List.mem_cons, List.not_mem_nil, or_false]
    tauto
  have reordered := @suggestion_of_available
    ⟨"pets.cat".toList, none, none, ["bat".toList, "hat".toList], none⟩ _ same
  exact ⟨same, reordered.1.trans (by cbv)⟩

end Stencil
