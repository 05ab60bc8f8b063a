import Stencil.Proofs.Value.Paths
import Mathlib

/-!
Dead ends.  A path leads nowhere because of one segment: the first that a map does not have among its
text keys, or that any other value does not have as a property.  What was reached before that segment is
where the path ends; a path cut at its last point ends in its first part or at its last segment.
-/

set_option autoImplicit false
set_option relaxedAutoImplicit false

namespace Stencil

namespace Text

variable {mark : Char} {text before last : Text}

theorem pieces_of_not_mem (absent : mark ∉ text) : pieces mark text = [text] := by
  induction text with
  | nil => rfl
  | cons c text ih =>
    rw [List.mem_cons, not_or] at absent
    rw [pieces, if_neg (Ne.symm absent.1), ih absent.2]

theorem exists_last_or_not_mem (mark : Char) (text : Text) :
    (∃ before last, text = before ++ mark :: last ∧ mark ∉ last) ∨ mark ∉ text := by
  by_cases present : mark ∈ text
  · obtain ⟨last, before, reversed, absent⟩ :=
      List.eq_append_cons_of_mem (List.mem_reverse.2 present)
    refine Or.inl ⟨before.reverse, last.reverse, ?_, by simpa using absent⟩
    have straight := congrArg List.reverse reversed
    simpa using straight
  · exact Or.inr present

private theorem passes_of_not_mem (absent : mark ∉ text) :
    ∀ c ∈ text.reverse, (c != mark) = true := by
  intro c among
  rw [bne_iff_ne]
  rintro rfl
  exact absent (List.mem_reverse.1 among)

theorem beforeLast_append (absent : mark ∉ last) :
    beforeLast mark (before ++ mark :: last) = before := by
  rw [beforeLast, List.reverse_append, List.reverse_cons, List.append_assoc,
    List.dropWhile_append_of_pos (passes_of_not_mem absent)]
  simp

theorem afterLast_append (absent : mark ∉ last) :
    afterLast mark (before ++ mark :: last) = last := by
  rw [afterLast, List.reverse_append, List.reverse_cons, List.append_assoc,
    List.takeWhile_append_of_pos (passes_of_not_mem absent)]
  simp

theorem beforeLast_of_not_mem (absent : mark ∉ text) : beforeLast mark text = [] := by
  rw [beforeLast, List.dropWhile_eq_nil_iff.2 (passes_of_not_mem absent)]
  rfl

theorem afterLast_of_not_mem (absent : mark ∉ text) : afterLast mark text = text := by
  rw [afterLast, List.takeWhile_eq_self_iff.2 (passes_of_not_mem absent), List.reverse_reverse]

theorem eq_afterLast_or_append (mark : Char) (text : Text) :
    mark ∉ afterLast mark text ∧
      (text = afterLast mark text ∨ ∃ before, text = before ++ mark :: afterLast mark text) := by
  rcases exists_last_or_not_mem mark text with ⟨before, last, rfl, absent⟩ | absent
  · rw [afterLast_append absent]
    exact ⟨absent, Or.inr ⟨before, rfl⟩⟩
  · rw [afterLast_of_not_mem absent]
    exact ⟨absent, Or.inl rfl⟩

end Text

/-- Where a path ends: the value reached, the segment that leads nowhere from it, and the segments after
that one. -/
structure DeadEnd (n : Nat) where
  value : Value n
  segment : Text
  rest : List Text
deriving DecidableEq

namespace Heap

def lacks {n : Nat} (heap : Heap n) (value : Value n) (name : Text) : Bool :=
  match heap.entries? value with
  | some entries => (lookup? name entries).isNone
  | none => (heap.readProperty value name).value = .undefined

def deadEnd? {n : Nat} (heap : Heap n) (value : Value n) : List Text → Option (DeadEnd n)
  | [] => none
  | name :: names =>
    if heap.lacks value name then some ⟨value, name, names⟩
    else heap.deadEnd? (heap.follow value name).value names

def NoneUndefined {n : Nat} (heap : Heap n) : Prop :=
  ∀ address entries, heap.object address = .map entries → ∀ entry ∈ entries, entry.2 ≠ .undefined

variable {n : Nat} (heap : Heap n)

theorem value_follow_of_lacks {value : Value n} {name : Text} (lacking : heap.lacks value name = true) :
    (heap.follow value name).value = .undefined := by
  rw [lacks] at lacking
  split at lacking
  · next entries map =>
    rw [heap.follow_of_entries? map, Option.isNone_iff_eq_none.1 lacking]
    rfl
  · next other =>
    rw [heap.follow_of_entries?_eq_none other]
    exact of_decide_eq_true lacking

theorem mem_of_lookup? {name : Text} {entries : List (Key × Value n)} {found : Value n}
    (filed : lookup? name entries = some found) : ∃ entry ∈ entries, entry.2 = found := by
  fun_induction lookup? name entries with
  | case1 => cases filed
  | case2 =>
    cases filed
    exact ⟨_, List.mem_cons_self, rfl⟩
  | case3 _ _ _ _ ih =>
    obtain ⟨entry, among, same⟩ := ih filed
    exact ⟨entry, List.mem_cons_of_mem _ among, same⟩
  | case4 _ _ _ ih =>
    obtain ⟨entry, among, same⟩ := ih filed
    exact ⟨entry, List.mem_cons_of_mem _ among, same⟩

variable {heap}

theorem value_follow_ne_undefined (defined : heap.NoneUndefined) {value : Value n} {name : Text}
    (present : heap.lacks value name = false) : (heap.follow value name).value ≠ .undefined := by
  rw [lacks] at present
  split at present
  · next entries map =>
    rw [heap.follow_of_entries? map]
    cases filed : lookup? name entries with
    | none => rw [filed] at present; cases present
    | some found =>
      obtain ⟨entry, among, rfl⟩ := mem_of_lookup? filed
      cases value with
      | scalar value => cases map
      | object address =>
        rw [entries?] at map
        cases held : heap.object address with
        | map held_entries =>
          rw [held] at map
          cases map
          exact defined address entries held entry among
        | _ => rw [held] at map; cases map
  · next other =>
    rw [heap.follow_of_entries?_eq_none other]
    exact of_decide_eq_false present

variable {value : Value n} {names : List Text}

theorem value_walk_of_deadEnd? {ending : DeadEnd n} (ends : heap.deadEnd? value names = some ending) :
    (heap.walk value names).value = .undefined := by
  induction names generalizing value with
  | nil => cases ends
  | cons name names ih =>
    rw [deadEnd?] at ends
    rw [walk, Logged.value_bind]
    split at ends
    · next lacking => rw [heap.value_follow_of_lacks lacking, walk_undefined, Logged.value_pure]
    · exact ih ends

theorem exists_deadEnd (defined : heap.NoneUndefined) (some_name : names ≠ [])
    (missing : (heap.walk value names).value = .undefined) :
    ∃ ending, heap.deadEnd? value names = some ending := by
  induction names generalizing value with
  | nil => exact absurd rfl some_name
  | cons name names ih =>
    rw [deadEnd?]
    split
    · exact ⟨_, rfl⟩
    · next present =>
      rw [walk, Logged.value_bind] at missing
      cases names with
      | nil =>
        exact absurd missing (value_follow_ne_undefined defined (Bool.not_eq_true _ ▸ present))
      | cons next names => exact ih (List.cons_ne_nil _ _) missing

theorem deadEnd?_append (value : Value n) (first second : List Text) :
    heap.deadEnd? value (first ++ second) =
      match heap.deadEnd? value first with
      | some ending => some { ending with rest := ending.rest ++ second }
      | none => heap.deadEnd? (heap.walk value first).value second := by
  induction first generalizing value with
  | nil => rfl
  | cons name first ih =>
    rw [List.cons_append, deadEnd?, deadEnd?, walk, Logged.value_bind]
    split
    · rfl
    · exact ih _

theorem eq_of_deadEnd?_singleton {name : Text} {ending : DeadEnd n}
    (ends : heap.deadEnd? value [name] = some ending) : ending = ⟨value, name, []⟩ := by
  rw [deadEnd?] at ends
  split at ends
  · cases ends
    rfl
  · cases ends

theorem deadEnd?_append_point {first last : Text} {ending : DeadEnd n} (single : '.' ∉ last)
    (ends : heap.deadEnd? value (Text.pieces '.' (first ++ '.' :: last)) = some ending) :
    ending = ⟨(heap.resolve first value).value, last, []⟩ ∨
      ending.rest ≠ [] ∧ (heap.resolve first value).value = .undefined := by
  rw [Text.pieces_append_cons, Text.pieces_of_not_mem single, deadEnd?_append] at ends
  split at ends
  · next earlier inside =>
    cases ends
    exact Or.inr ⟨by simp, value_walk_of_deadEnd? inside⟩
  · exact Or.inl (eq_of_deadEnd?_singleton ends)

end Heap

end Stencil
