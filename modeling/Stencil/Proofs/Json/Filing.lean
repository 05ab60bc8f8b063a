import Stencil.Proofs.Json.Members
import Mathlib

/-!
Objects as their entries file them.  Of the entries under one key only the last leaves its value, and the
member stands where the first of them stood.  These rules say everything about the members that result
from putting entries one after another.
-/

set_option autoImplicit false
set_option relaxedAutoImplicit false

namespace Stencil

namespace Json

variable {α : Type}

/-- Whether an object has the members that entries make when they are filed in order: one for each key,
in the order in which the keys come first, and with the value that comes last. -/
structure Filed (entries members : List (Text × α)) : Prop where
  distinct : (members.map Prod.fst).Nodup
  keys : ∀ key, key ∈ members.map Prod.fst ↔ key ∈ entries.map Prod.fst
  ordered : (members.map Prod.fst).Pairwise fun one two =>
    (entries.map Prod.fst).idxOf one < (entries.map Prod.fst).idxOf two
  last : ∀ key value, (key, value) ∈ members ↔
    ∃ before after, entries = before ++ (key, value) :: after ∧ key ∉ after.map Prod.fst

theorem mem_put_iff {members : List (Text × α)} (distinct : (members.map Prod.fst).Nodup)
    {key key' : Text} {value value' : α} :
    (key', value') ∈ put key value members ↔
      key' = key ∧ value' = value ∨ key' ≠ key ∧ (key', value') ∈ members := by
  induction members with
  | nil => simp [put]
  | cons member members ih =>
    rw [List.map_cons, List.nodup_cons] at distinct
    rw [put]
    split
    · next here =>
      have elsewhere : (key', value') ∈ members → key' ≠ key := by
        rintro among rfl
        exact distinct.1 (here ▸ List.mem_map_of_mem among)
      simp only [List.mem_cons, Prod.mk.injEq]
      constructor
      · rintro (same | among)
        · exact Or.inl same
        · exact Or.inr ⟨elsewhere among, Or.inr among⟩
      · rintro (same | ⟨other, rfl | among⟩)
        · exact Or.inl same
        · exact absurd here other
        · exact Or.inr among
    · next elsewhere =>
      rw [List.mem_cons, ih distinct.2, List.mem_cons]
      constructor
      · rintro (rfl | same | ⟨other, among⟩)
        · exact Or.inr ⟨elsewhere, Or.inl rfl⟩
        · exact Or.inl same
        · exact Or.inr ⟨other, Or.inr among⟩
      · rintro (same | ⟨other, rfl | among⟩)
        · exact Or.inr (Or.inl same)
        · exact Or.inl rfl
        · exact Or.inr (Or.inr ⟨other, among⟩)

private theorem last_concat_iff {entries : List (Text × α)} {key key' : Text} {value value' : α} :
    (∃ before after, entries ++ [(key, value)] = before ++ (key', value') :: after ∧
        key' ∉ after.map Prod.fst) ↔
      key' = key ∧ value' = value ∨ key' ≠ key ∧ ∃ before after,
        entries = before ++ (key', value') :: after ∧ key' ∉ after.map Prod.fst := by
  constructor
  · rintro ⟨before, after, split_eq, absent⟩
    rcases List.eq_nil_or_concat after with rfl | ⟨after, final, rfl⟩
    · obtain ⟨-, same⟩ := List.append_inj' split_eq rfl
      cases same
      exact Or.inl ⟨rfl, rfl⟩
    · rw [List.concat_eq_append] at split_eq absent
      rw [← List.cons_append, ← List.append_assoc] at split_eq
      obtain ⟨front, same⟩ := List.append_inj' split_eq rfl
      cases same
      rw [List.map_append, List.mem_append, not_or] at absent
      exact Or.inr ⟨by simpa using absent.2, before, after, front, absent.1⟩
  · rintro (⟨rfl, rfl⟩ | ⟨other, before, after, rfl, absent⟩)
    · exact ⟨entries, [], rfl, List.not_mem_nil⟩
    · refine ⟨before, after ++ [(key, value)], by simp, ?_⟩
      rw [List.map_append, List.mem_append, not_or]
      exact ⟨absent, by simpa using other⟩

namespace Filed

variable {entries members others : List (Text × α)}

theorem nil : Filed ([] : List (Text × α)) [] where
  distinct := List.nodup_nil
  keys _ := Iff.rfl
  ordered := List.Pairwise.nil
  last key value := by simp

theorem put (filed : Filed entries members) (key : Text) (value : α) :
    Filed (entries ++ [(key, value)]) (put key value members) where
  distinct := nodup_put filed.distinct key value
  keys key' := by
    rw [keys_put, List.map_append, List.mem_append, ← filed.keys]
    split
    · next present =>
      constructor
      · exact Or.inl
      · rintro (among | same)
        · exact among
        · cases List.mem_singleton.1 same
          exact present
    · rw [List.mem_append]
      rfl
  ordered := by
    have kept : (members.map Prod.fst).Pairwise fun one two =>
        ((entries ++ [(key, value)]).map Prod.fst).idxOf one <
          ((entries ++ [(key, value)]).map Prod.fst).idxOf two := by
      refine filed.ordered.imp_of_mem ?_
      intro one two first second before
      rw [List.map_append, List.idxOf_append_of_mem ((filed.keys one).1 first),
        List.idxOf_append_of_mem ((filed.keys two).1 second)]
      exact before
    rw [keys_put]
    split
    · exact kept
    · next fresh =>
      refine List.pairwise_append.2 ⟨kept, List.pairwise_singleton _ _, ?_⟩
      intro one first two second
      cases List.mem_singleton.1 second
      have early : one ∈ entries.map Prod.fst := (filed.keys one).1 first
      have absent : key ∉ entries.map Prod.fst := fun among => fresh ((filed.keys key).2 among)
      rw [List.map_append, List.idxOf_append_of_mem early, List.idxOf_append_of_notMem absent]
      exact Nat.lt_add_right _ (List.idxOf_lt_length_iff.2 early)
  last key' value' := by
    rw [mem_put_iff filed.distinct, last_concat_iff, filed.last]

theorem unique (filed : Filed entries members) (also : Filed entries others) :
    members = others := by
  have same : members.Perm others := by
    refine (List.perm_ext_iff_of_nodup filed.distinct.of_map also.distinct.of_map).2 ?_
    rintro ⟨key, value⟩
    rw [filed.last, also.last]
  have earlier {all : List (Text × α)} (filed : Filed entries all) : all.Pairwise fun one two =>
      (entries.map Prod.fst).idxOf one.1 < (entries.map Prod.fst).idxOf two.1 := by
    have ordered := filed.ordered
    rwa [List.pairwise_map] at ordered
  refine same.eq_of_pairwise ?_ (earlier filed) (earlier also)
  intro one two _ _ before behind
  exact absurd before (Nat.lt_asymm behind)

end Filed

theorem filed_collect (entries : List (Text × α)) : Filed entries (collect entries) := by
  induction entries using List.reverseRecOn with
  | nil => exact .nil
  | append_singleton entries entry ih =>
    have more : collect (entries ++ [entry]) = Json.put entry.1 entry.2 (collect entries) := by
      rw [collect, List.foldl_append]
      rfl
    rw [more]
    exact ih.put entry.1 entry.2

end Json

end Stencil
