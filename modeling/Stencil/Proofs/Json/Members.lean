import Stencil.Json.Members
import Mathlib.Data.List.Nodup

/-!
Members that are put one after another.  Their keys are distinct, and it does not matter whether their
values are changed before or after.
-/

set_option autoImplicit false
set_option relaxedAutoImplicit false

namespace Stencil

namespace Json

variable {α β : Type}

theorem keys_put (key : Text) (value : α) (members : List (Text × α)) :
    (put key value members).map Prod.fst =
      if key ∈ members.map Prod.fst then members.map Prod.fst else members.map Prod.fst ++ [key] := by
  induction members with
  | nil => rfl
  | cons member members ih =>
    rw [put]
    by_cases here : member.1 = key
    · simp [here]
    · have elsewhere : key ≠ member.1 := Ne.symm here
      simp only [if_neg here, List.map_cons, ih, List.mem_cons, elsewhere, false_or]
      split <;> rfl

theorem nodup_put {members : List (Text × α)} (distinct : (members.map Prod.fst).Nodup) (key : Text)
    (value : α) : ((put key value members).map Prod.fst).Nodup := by
  rw [keys_put]
  split
  · exact distinct
  · next fresh =>
    rw [← List.concat_eq_append]
    exact distinct.concat fresh

theorem put_map (f : α → β) (key : Text) (value : α) (members : List (Text × α)) :
    put key (f value) (members.map fun member => (member.1, f member.2)) =
      (put key value members).map fun member => (member.1, f member.2) := by
  induction members with
  | nil => rfl
  | cons member members ih =>
    rw [List.map_cons, put, put, ih]
    dsimp only
    split <;> rfl

theorem put_of_fresh {key : Text} {members : List (Text × α)} (fresh : key ∉ members.map Prod.fst)
    (value : α) : put key value members = members ++ [(key, value)] := by
  induction members with
  | nil => rfl
  | cons member members ih =>
    rw [List.map_cons, List.mem_cons, not_or] at fresh
    rw [put, if_neg (Ne.symm fresh.1), ih fresh.2]
    rfl

theorem nodup_collect (entries : List (Text × α)) :
    ((collect entries).map Prod.fst).Nodup := by
  have step (members : List (Text × α)) (distinct : (members.map Prod.fst).Nodup) :
      ((entries.foldl (fun members entry => put entry.1 entry.2 members) members).map
        Prod.fst).Nodup := by
    induction entries generalizing members with
    | nil => exact distinct
    | cons entry entries ih => exact ih _ (nodup_put distinct entry.1 entry.2)
  exact step [] List.nodup_nil

theorem collect_map (f : α → β) (entries : List (Text × α)) :
    collect (entries.map fun entry => (entry.1, f entry.2)) =
      (collect entries).map fun member => (member.1, f member.2) := by
  have step (members : List (Text × α)) :
      (entries.map fun entry => (entry.1, f entry.2)).foldl
        (fun members entry => put entry.1 entry.2 members)
        (members.map fun member => (member.1, f member.2)) =
      (entries.foldl (fun members entry => put entry.1 entry.2 members) members).map
        fun member => (member.1, f member.2) := by
    induction entries generalizing members with
    | nil => rfl
    | cons entry entries ih =>
      rw [List.map_cons, List.foldl_cons, List.foldl_cons]
      dsimp only
      rw [put_map, ih]
  exact step []

theorem collect_of_nodup {entries : List (Text × α)} (distinct : (entries.map Prod.fst).Nodup) :
    collect entries = entries := by
  have step (members : List (Text × α)) (fresh : ((members ++ entries).map Prod.fst).Nodup) :
      entries.foldl (fun members entry => put entry.1 entry.2 members) members =
        members ++ entries := by
    induction entries generalizing members with
    | nil => exact (List.append_nil _).symm
    | cons entry entries ih =>
      have apart : entry.1 ∉ members.map Prod.fst := by
        rw [List.map_append, List.map_cons] at fresh
        intro member
        exact (List.nodup_append.1 fresh).2.2 _ member _ List.mem_cons_self rfl
      have shifted : members ++ [entry] ++ entries = members ++ entry :: entries :=
        List.append_assoc ..
      rw [List.foldl_cons, put_of_fresh apart, ← shifted]
      exact ih distinct.tail _ (by rw [shifted]; exact fresh)
  exact step [] distinct

end Json

end Stencil
