import Stencil.Text.Basic
import Mathlib.Data.List.Infix

/-!
Where marks stand.  A mark stands at an offset when the rest of the text from there on begins with it.
A cut is made at the least such offset, which is also what a search by offsets finds, and no mark can
begin before the cut, not even one that would reach into the mark that was found.
-/

set_option autoImplicit false
set_option relaxedAutoImplicit false

namespace Stencil

namespace Text

variable {mark text before after : Text}

/-- The least offset, from `start` on, at which a mark stands in a text. -/
def find? (mark text : Text) (start : Nat) : Option Nat :=
  (List.range (text.length + 1)).find? fun offset =>
    decide (start ≤ offset) && mark.isPrefixOf (text.drop offset)

theorem find?_eq_some_iff {start offset : Nat} :
    find? mark text start = some offset ↔
      offset ≤ text.length ∧ start ≤ offset ∧ mark <+: text.drop offset ∧
        ∀ other, start ≤ other → other < offset → ¬ mark <+: text.drop other := by
  simp only [find?, List.find?_range_eq_some, List.mem_range, Bool.and_eq_true, decide_eq_true_eq,
    List.isPrefixOf_iff_prefix, Bool.not_eq_true', Bool.and_eq_false_iff, decide_eq_false_iff_not,
    Nat.lt_succ_iff]
  constructor
  · rintro ⟨⟨from_start, stands⟩, inside, least⟩
    refine ⟨inside, from_start, stands, ?_⟩
    intro other hs ho hm
    rcases least other ho with h | h
    · exact h hs
    · rw [List.isPrefixOf_iff_prefix.2 hm] at h
      exact Bool.noConfusion h
  · rintro ⟨inside, from_start, stands, least⟩
    refine ⟨⟨from_start, stands⟩, inside, ?_⟩
    intro other ho
    by_cases hs : start ≤ other
    · right
      rw [← Bool.not_eq_true, List.isPrefixOf_iff_prefix]
      exact least other hs ho
    · exact Or.inl hs

theorem find?_eq_none_iff {start : Nat} :
    find? mark text start = none ↔
      ∀ offset, start ≤ offset → offset ≤ text.length → ¬ mark <+: text.drop offset := by
  simp only [find?, List.find?_range_eq_none, Bool.not_eq_true', Bool.and_eq_false_iff,
    decide_eq_false_iff_not, Nat.lt_succ_iff]
  constructor
  · intro none_at offset hs hl hm
    rcases none_at offset hl with h | h
    · exact h hs
    · rw [List.isPrefixOf_iff_prefix.2 hm] at h
      exact Bool.noConfusion h
  · intro none_at offset hl
    by_cases hs : start ≤ offset
    · right
      rw [← Bool.not_eq_true, List.isPrefixOf_iff_prefix]
      exact none_at offset hs hl
    · exact Or.inl hs

theorem add_length_le_of_find? {start offset : Nat} (found : find? mark text start = some offset) :
    offset + mark.length ≤ text.length := by
  obtain ⟨inside, -, stands, -⟩ := find?_eq_some_iff.1 found
  have fits := stands.length_le
  rw [List.length_drop] at fits
  omega

theorem past?_eq_none_iff : past? mark text = none ↔ ¬ mark <+: text := by
  constructor
  · rintro h ⟨rest, rfl⟩
    rw [past?_eq_some_iff.2 rfl] at h
    cases h
  · intro h
    cases hp : past? mark text with
    | none => rfl
    | some rest => exact absurd ⟨rest, (past?_eq_some_iff.1 hp).symm⟩ h

theorem cut?_eq_none_iff : cut? mark text = none ↔ ¬ mark <:+: text := by
  constructor
  · rintro h ⟨before, after, rfl⟩
    have found := cut?_isSome_of_append mark before after
    rw [h] at found
    exact Bool.noConfusion found
  · intro absent
    cases hc : cut? mark text with
    | none => rfl
    | some parts => exact absurd ⟨parts.1, parts.2, (eq_append_of_cut? hc).symm⟩ absent

theorem has_iff : has mark text = true ↔ mark <:+: text := by
  rw [has, Option.isSome_iff_ne_none, Ne, cut?_eq_none_iff, not_not]

theorem not_infix_of_cut? (nonempty : mark ≠ []) (cut : cut? mark text = some (before, after)) :
    ¬ mark <:+: before ++ mark.dropLast := by
  rintro ⟨front, back, earlier⟩
  have whole : text = front ++ mark ++ (back ++ [mark.getLast nonempty] ++ after) := by
    rw [← List.append_assoc, ← List.append_assoc, earlier, List.append_assoc before,
      List.dropLast_append_getLast nonempty]
    exact eq_append_of_cut? cut
  have first := length_le_of_cut? cut whole
  have lengths := congrArg List.length earlier
  have positive := List.length_pos_iff.2 nonempty
  simp only [List.length_append, List.length_dropLast] at lengths
  omega

theorem cut?_append (nonempty : mark ≠ []) (first : ¬ mark <:+: before ++ mark.dropLast) :
    cut? mark (before ++ mark ++ after) = some (before, after) := by
  obtain ⟨⟨front, back⟩, cut⟩ := Option.isSome_iff_exists.1 (cut?_isSome_of_append mark before after)
  have whole := eq_append_of_cut? cut
  have le := length_le_of_cut? cut rfl
  have same : front.length = before.length := by
    by_contra differ
    have positive := List.length_pos_iff.2 nonempty
    have short : (front ++ mark).length ≤ (before ++ mark.dropLast).length := by
      simp only [List.length_append, List.length_dropLast]
      omega
    have one : front ++ mark <+: before ++ mark ++ after := ⟨back, whole.symm⟩
    have two : before ++ mark.dropLast <+: before ++ mark ++ after := by
      rw [List.append_assoc, List.prefix_append_right_inj]
      exact (List.dropLast_prefix mark).trans (List.prefix_append mark after)
    obtain ⟨rest, joined⟩ := List.prefix_of_prefix_length_le one two short
    exact first ⟨front, rest, joined⟩
  rw [List.append_assoc, List.append_assoc] at whole
  obtain ⟨rfl, tails⟩ := List.append_inj whole.symm same
  rw [cut, List.append_cancel_left tails]

theorem find?_eq_cut? {start : Nat} (inside : start ≤ text.length) :
    find? mark text start =
      (cut? mark (text.drop start)).map fun parts => start + parts.1.length := by
  cases hc : cut? mark (text.drop start) with
  | none =>
    rw [Option.map_none, find?_eq_none_iff]
    intro offset from_start _ stands
    apply cut?_eq_none_iff.1 hc
    have same : text.drop offset = (text.drop start).drop (offset - start) := by
      rw [List.drop_drop, Nat.add_sub_cancel' from_start]
    rw [same] at stands
    exact stands.isInfix.trans (List.drop_suffix _ _).isInfix
  | some parts =>
    obtain ⟨before, after⟩ := parts
    have whole := eq_append_of_cut? hc
    have lengths := congrArg List.length whole
    simp only [List.length_drop, List.length_append] at lengths
    rw [Option.map_some, find?_eq_some_iff]
    show start + before.length ≤ text.length ∧ start ≤ start + before.length ∧
      mark <+: text.drop (start + before.length) ∧
        ∀ other, start ≤ other → other < start + before.length → ¬ mark <+: text.drop other
    refine ⟨by omega, by omega, ?_, ?_⟩
    · rw [← List.drop_drop, whole, List.append_assoc, List.drop_left]
      exact List.prefix_append mark after
    · rintro other from_start earlier ⟨rest, stands⟩
      have other_eq : start + (other - start) = other := Nat.add_sub_cancel' from_start
      have split : text.drop start = (text.drop start).take (other - start) ++ mark ++ rest := by
        rw [List.append_assoc, stands, ← other_eq, ← List.drop_drop, other_eq,
          List.take_append_drop]
      have first := length_le_of_cut? hc split
      have short := List.length_take_le (other - start) (text.drop start)
      omega

section Fence

variable {c : Char} {first second : Text}

theorem prefix_append_cons_iff (absent : c ∉ mark) :
    mark <+: first ++ c :: second ↔ mark <+: first := by
  constructor
  · intro stands
    rcases Nat.lt_or_ge first.length mark.length with longer | fits
    · have reached : first ++ [c] <+: first ++ c :: second := ⟨second, List.append_assoc _ _ _⟩
      have inside : first ++ [c] <+: mark := by
        apply List.prefix_of_prefix_length_le reached stands
        rw [List.length_append, List.length_singleton]
        exact longer
      exact absurd (inside.subset (List.mem_append_right first List.mem_cons_self)) absent
    · exact List.prefix_of_prefix_length_le stands (List.prefix_append first _) fits
  · intro stands
    exact stands.trans (List.prefix_append first _)

theorem infix_append_cons_iff (nonempty : mark ≠ []) (absent : c ∉ mark) :
    mark <:+: first ++ c :: second ↔ mark <:+: first ∨ mark <:+: second := by
  induction first with
  | nil =>
    have elsewhere : ¬mark <+: [] ++ c :: second := by
      rw [prefix_append_cons_iff absent, List.prefix_nil]
      exact nonempty
    rw [List.nil_append] at elsewhere ⊢
    rw [List.infix_cons_iff, List.infix_nil, or_iff_right elsewhere, or_iff_right nonempty]
  | cons d first ih =>
    have front := @prefix_append_cons_iff mark c (d :: first) second absent
    rw [List.cons_append] at front ⊢
    rw [List.infix_cons_iff, List.infix_cons_iff, front, ih, or_assoc]

theorem cons_infix_append_iff (absent : c ∉ first) :
    c :: mark <:+: first ++ second ↔ c :: mark <:+: second := by
  induction first with
  | nil => rfl
  | cons d first ih =>
    rw [List.mem_cons, not_or] at absent
    have elsewhere : ¬ c :: mark <+: d :: (first ++ second) := by
      rw [List.cons_prefix_cons]
      exact fun stands => absent.1 stands.1
    rw [List.cons_append, List.infix_cons_iff, or_iff_right elsewhere, ih absent.2]

end Fence

theorem pair_infix_append_iff {c : Char} {first second : Text} :
    [c, c] <:+: first ++ second ↔
      [c, c] <:+: first ∨ [c, c] <:+: second ∨
        first.getLast? = some c ∧ second.head? = some c := by
  induction first with
  | nil => simp
  | cons d first ih =>
    rw [List.cons_append, List.infix_cons_iff, List.infix_cons_iff, ih]
    cases first with
    | nil =>
      cases second with
      | nil => simp
      | cons e second =>
        simp only [List.nil_append, List.cons_prefix_cons, List.nil_prefix, List.infix_nil,
          List.prefix_nil, List.getLast?_singleton, List.getLast?_nil, List.head?_cons,
          Option.some.injEq]
        grind
    | cons e first =>
      simp only [List.cons_append, List.cons_prefix_cons, List.nil_prefix, List.getLast?_cons_cons]
      tauto

end Text

end Stencil
