import Stencil.Value.Path

/-!
Paths in parts.  A path leads from a value to where its parts lead in turn, wherever it is cut at a point,
and gives the notices of its parts in turn.  Nothing leads on from the undefined value, so it makes no
difference that the search stops at the first segment that is not there.
-/

set_option autoImplicit false
set_option relaxedAutoImplicit false

namespace Stencil

namespace Text

variable {mark : Char}

theorem pieces_ne_nil (text : Text) : pieces mark text ≠ [] := by
  cases text with
  | nil => exact List.cons_ne_nil _ _
  | cons c text =>
    rw [pieces]
    split
    · exact List.cons_ne_nil _ _
    · split
      · exact List.cons_ne_nil _ _
      · exact List.cons_ne_nil _ _

theorem pieces_append_cons (first second : Text) :
    pieces mark (first ++ mark :: second) = pieces mark first ++ pieces mark second := by
  induction first with
  | nil =>
    rw [List.nil_append, pieces.eq_def mark (mark :: second)]
    show (if mark = mark then _ else _) = _
    rw [if_pos rfl, pieces, List.singleton_append]
  | cons c first ih =>
    rw [List.cons_append, pieces, pieces, ih]
    by_cases cut : c = mark
    · rw [if_pos cut, if_pos cut, List.cons_append]
    · rw [if_neg cut, if_neg cut]
      cases parts : pieces mark first with
      | nil => exact absurd parts (pieces_ne_nil first)
      | cons part parts => rfl

end Text

namespace Heap

def entries? {n : Nat} (heap : Heap n) : Value n → Option (List (Key × Value n))
  | .scalar _ => none
  | .object address =>
    match heap.object address with
    | .map entries => some entries
    | _ => none

/-- Follows segments one after another and stops at the first that is not there: a key that a map does
not have, or a property that a value does not have.  What a map holds under a key is not looked at, even
if it is the undefined value. -/
def search {n : Nat} (heap : Heap n) (value : Value n) : List Text → Logged (Value n)
  | [] => pure value
  | name :: names =>
    match heap.entries? value with
    | some entries =>
      match lookup? name entries with
      | some found => heap.search found names
      | none => pure .undefined
    | none => do
      let found ← heap.readProperty value name
      if found = .undefined then pure .undefined else heap.search found names

variable {n : Nat} (heap : Heap n)

theorem follow_of_entries? {value : Value n} {entries : List (Key × Value n)}
    (map : heap.entries? value = some entries) (name : Text) :
    heap.follow value name = pure ((lookup? name entries).getD .undefined) := by
  cases value with
  | scalar value => cases map
  | object address =>
    rw [entries?] at map
    rw [follow]
    cases held : heap.object address with
    | map held_entries =>
      rw [held] at map
      cases map
      rfl
    | _ =>
      rw [held] at map
      cases map

theorem follow_of_entries?_eq_none {value : Value n} (other : heap.entries? value = none)
    (name : Text) : heap.follow value name = heap.readProperty value name := by
  cases value with
  | scalar value => rfl
  | object address =>
    rw [entries?] at other
    rw [follow]
    cases held : heap.object address with
    | map entries =>
      rw [held] at other
      cases other
    | _ => rfl

theorem follow_undefined (name : Text) : heap.follow .undefined name = pure .undefined := by
  show heap.readProperty (.scalar .undefined) name = _
  rw [readProperty]
  split <;> rfl

theorem walk_undefined (names : List Text) : heap.walk .undefined names = pure .undefined := by
  induction names with
  | nil => rfl
  | cons name names ih => rw [walk, follow_undefined, pure_bind, ih]

theorem resolve_undefined (path : Text) : heap.resolve path .undefined = pure .undefined :=
  heap.walk_undefined _

theorem walk_append (value : Value n) (first second : List Text) :
    heap.walk value (first ++ second) =
      heap.walk value first >>= fun next => heap.walk next second := by
  induction first generalizing value with
  | nil => rw [List.nil_append, walk, pure_bind]
  | cons name first ih =>
    rw [List.cons_append, walk, walk, bind_assoc]
    simp only [ih]

theorem search_eq_walk (value : Value n) (names : List Text) :
    heap.search value names = heap.walk value names := by
  induction names generalizing value with
  | nil => rfl
  | cons name names ih =>
    rw [search, walk]
    split
    · next entries map =>
      rw [heap.follow_of_entries? map, pure_bind]
      split
      · next found filed => rw [ih, filed, Option.getD_some]
      · next absent => rw [absent, Option.getD_none, walk_undefined]
    · next other =>
      rw [heap.follow_of_entries?_eq_none other]
      congr 1
      funext found
      split
      · next missing => rw [missing, walk_undefined]
      · exact ih found

/-- A path cut at a point leads where its second part leads from where its first part leads, and
nowhere if the first part leads nowhere; it gives the notices of the first part and, if that leads
somewhere, those of the second.  This is said of the search that stops at the first segment that is not
there. -/
theorem resolve_append_point (first second : Text) (value : Value n) :
    (∀ path value, heap.resolve path value = heap.search value (Text.pieces '.' path)) ∧
    (heap.resolve (first ++ '.' :: second) value).value =
      (if (heap.resolve first value).value = .undefined then .undefined
        else (heap.resolve second (heap.resolve first value).value).value) ∧
    (heap.resolve (first ++ '.' :: second) value).notices =
      (heap.resolve first value).notices ++
        (if (heap.resolve first value).value = .undefined then []
          else (heap.resolve second (heap.resolve first value).value).notices) := by
  have parts : heap.resolve (first ++ '.' :: second) value =
      heap.resolve first value >>= fun next => heap.resolve second next := by
    simp only [resolve, Text.pieces_append_cons, walk_append]
  refine ⟨fun path value => (heap.search_eq_walk value _).symm, ?_, ?_⟩
  · rw [parts, Logged.value_bind]
    split
    · next missing => rw [missing, resolve_undefined, Logged.value_pure]
    · rfl
  · rw [parts, Logged.notices_bind]
    split
    · next missing => rw [missing, resolve_undefined, Logged.notices_pure]
    · rfl

end Heap

end Stencil
