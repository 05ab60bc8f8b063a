import Stencil.Text.Blank
import Mathlib.Data.List.DropRight

/-!
Trimmed texts.  A trimmed text neither begins nor ends with a blank, and every such text is trimmed
already; blanks around it are exactly what trimming takes away.
-/

set_option autoImplicit false
set_option relaxedAutoImplicit false

namespace Stencil

namespace Text

variable {text : Text}

def IsTrimmed (text : Text) : Prop :=
  (∀ c ∈ text.head?, isBlank c = false) ∧ ∀ c ∈ text.getLast?, isBlank c = false

theorem trimEnd_eq_rdropWhile (text : Text) : trimEnd text = text.rdropWhile isBlank := rfl

theorem trim_infix (text : Text) : trim text <:+: text := by
  have front : trim text <+: text.dropWhile isBlank := by
    rw [trim, trimEnd_eq_rdropWhile]
    exact List.rdropWhile_prefix isBlank _
  exact front.isInfix.trans (List.dropWhile_suffix isBlank).isInfix

theorem isTrimmed_trim (text : Text) : IsTrimmed (trim text) := by
  rw [trim, trimEnd_eq_rdropWhile]
  constructor
  · intro c head
    obtain ⟨rest, whole⟩ := List.rdropWhile_prefix isBlank (text.dropWhile isBlank)
    have head' : (text.dropWhile isBlank).head? = some c := by
      rw [← whole, List.head?_append, head]
      rfl
    have stays := List.head?_dropWhile_not isBlank text
    rw [head'] at stays
    simpa using stays
  · intro c last
    have nonempty : (text.dropWhile isBlank).rdropWhile isBlank ≠ [] := by
      intro empty
      rw [empty] at last
      cases last
    rw [List.getLast?_eq_some_getLast nonempty, Option.mem_some_iff] at last
    rw [← last]
    simpa using List.rdropWhile_last_not isBlank _ nonempty

private theorem dropWhile_of_head {text : Text} (head : ∀ c ∈ text.head?, isBlank c = false) :
    text.dropWhile isBlank = text := by
  cases text with
  | nil => rfl
  | cons c text => rw [List.dropWhile_cons, head c rfl, if_neg Bool.false_ne_true]

theorem trim_padded {front back : Text} (blank_front : ∀ c ∈ front, isBlank c = true)
    (blank_back : ∀ c ∈ back, isBlank c = true) (trimmed : IsTrimmed text) :
    trim (front ++ text ++ back) = text := by
  rw [trim, List.append_assoc, List.dropWhile_append_of_pos blank_front]
  cases text with
  | nil =>
    have all_blank : back.dropWhile isBlank = [] := List.dropWhile_eq_nil_iff.2 blank_back
    rw [List.nil_append, all_blank]
    rfl
  | cons c text =>
    have first : ∀ d ∈ (c :: text ++ back).head?, isBlank d = false := trimmed.1
    have last : ∀ d ∈ (c :: text).reverse.head?, isBlank d = false := by
      rw [List.head?_reverse]
      exact trimmed.2
    have back_blank : ∀ d ∈ back.reverse, isBlank d = true := by
      intro d member
      exact blank_back d (List.mem_reverse.1 member)
    rw [dropWhile_of_head first, trimEnd, List.reverse_append,
      List.dropWhile_append_of_pos back_blank, dropWhile_of_head last, List.reverse_reverse]

theorem trim_of_isTrimmed (trimmed : IsTrimmed text) : trim text = text := by
  have none_blank : ∀ c ∈ ([] : Text), isBlank c = true := by simp
  simpa using trim_padded none_blank none_blank trimmed

theorem trim_eq_self_iff : trim text = text ↔ IsTrimmed text := by
  constructor
  · intro same
    rw [← same]
    exact isTrimmed_trim text
  · exact trim_of_isTrimmed

theorem blank_of_trim_eq_nil (empty : trim text = []) : ∀ c ∈ text, isBlank c = true := by
  intro c member
  rw [trim, trimEnd_eq_rdropWhile, List.rdropWhile_eq_nil_iff] at empty
  rw [← List.takeWhile_append_dropWhile (p := isBlank) (l := text), List.mem_append] at member
  rcases member with early | late
  · exact List.mem_takeWhile_imp early
  · exact empty c late

theorem trim_ne_nil_of_append {front : Text} {blank : Char} (isBlank_eq : isBlank blank = true)
    (trimmed : IsTrimmed (front ++ blank :: text)) : trim text ≠ [] := by
  intro empty
  obtain ⟨c, last⟩ : ∃ c, (blank :: text).getLast? = some c :=
    ⟨_, List.getLast?_eq_some_getLast (List.cons_ne_nil blank text)⟩
  have last' : (front ++ blank :: text).getLast? = some c := by
    rw [List.getLast?_append, last]
    rfl
  have not_blank := trimmed.2 c last'
  have member := List.mem_of_getLast? last
  rw [List.mem_cons] at member
  rcases member with rfl | member
  · rw [isBlank_eq] at not_blank
    cases not_blank
  · rw [blank_of_trim_eq_nil empty c member] at not_blank
    cases not_blank

end Text

end Stencil
