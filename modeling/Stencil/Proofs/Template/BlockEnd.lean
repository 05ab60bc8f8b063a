import Stencil.Proofs.Text.Search
import Stencil.Template.Block

/-!
The search for the end of a block.  The search carries a count of inner blocks still to be closed, and a
text takes it from one count to another: a text in which no mark begins leaves the count as it is, an
opening mark raises it and a closing mark lowers it.  The effects of texts one after another add up.
-/

set_option autoImplicit false
set_option relaxedAutoImplicit false

namespace Stencil

namespace Text

/-- No mark begins in a text when another text follows it. -/
def Lacks (mark text tail : Text) : Prop :=
  ∀ rest, rest <:+ text → rest ≠ [] → ¬ mark <+: rest ++ tail

variable {mark text first second tail : Text}

theorem lacks_nil : Lacks mark [] tail := by
  intro rest suffix nonempty
  exact absurd (List.suffix_nil.1 suffix) nonempty

theorem lacks_cons_iff {c : Char} :
    Lacks mark (c :: text) tail ↔ ¬ mark <+: c :: (text ++ tail) ∧ Lacks mark text tail := by
  constructor
  · intro lacks
    exact ⟨lacks _ List.suffix_rfl (List.cons_ne_nil c text), fun rest suffix =>
      lacks rest (suffix.trans (List.suffix_cons c text))⟩
  · rintro ⟨absent, lacks⟩ rest suffix nonempty
    rcases List.suffix_cons_iff.1 suffix with rfl | inner
    · exact absent
    · exact lacks rest inner nonempty

/-- A mark that begins with a doubled character does not begin in a text that never doubles it, unless
it begins at the end of the text and goes on in what follows. -/
theorem lacks_of_not_infix {c : Char} {rest : Text} (single : ¬ [c, c] <:+: text)
    (seam : text.getLast? = some c → ¬ c :: rest <+: tail) : Lacks (c :: c :: rest) text tail := by
  induction text with
  | nil => exact lacks_nil
  | cons d text ih =>
    rw [List.infix_cons_iff, not_or] at single
    cases text with
    | nil =>
      refine lacks_cons_iff.2 ⟨?_, lacks_nil⟩
      intro stands
      obtain ⟨rfl, across⟩ := List.cons_prefix_cons.1 stands
      exact seam rfl across
    | cons e text =>
      rw [List.getLast?_cons_cons] at seam
      refine lacks_cons_iff.2 ⟨?_, ih single.2 seam⟩
      intro stands
      rw [List.cons_append, List.cons_prefix_cons, List.cons_prefix_cons] at stands
      apply single.1
      rw [List.cons_prefix_cons, List.cons_prefix_cons]
      exact ⟨stands.1, stands.2.1, List.nil_prefix⟩

end Text

section Split

variable {opener closer text : Text} {pending : Nat} {c : Char}

theorem splitBlock?_other (not_closes : ¬ closer <+: c :: text) (not_opens : ¬ opener <+: c :: text) :
    splitBlock? opener closer pending (c :: text) =
      (splitBlock? opener closer pending text).map fun parts => (c :: parts.1, parts.2) := by
  rw [← Text.past?_eq_none_iff] at not_closes
  rw [← List.isPrefixOf_iff_prefix] at not_opens
  simp only [splitBlock?.eq_def opener closer pending (c :: text), not_closes, if_neg not_opens]

theorem splitBlock?_opener (not_closes : ¬ closer <+: c :: text) (opens : opener <+: c :: text) :
    splitBlock? opener closer pending (c :: text) =
      (splitBlock? opener closer (pending + 1) text).map fun parts => (c :: parts.1, parts.2) := by
  rw [← Text.past?_eq_none_iff] at not_closes
  rw [← List.isPrefixOf_iff_prefix] at opens
  simp only [splitBlock?.eq_def opener closer pending (c :: text), not_closes, if_pos opens]

theorem splitBlock?_closer (closes : closer <+: c :: text) :
    splitBlock? opener closer (pending + 1) (c :: text) =
      (splitBlock? opener closer pending text).map fun parts => (c :: parts.1, parts.2) := by
  obtain ⟨rest, whole⟩ := closes
  have past := Text.past?_eq_some_iff.2 whole.symm
  simp only [splitBlock?.eq_def opener closer (pending + 1) (c :: text), past]

theorem splitBlock?_end (nonempty : closer ≠ []) :
    splitBlock? opener closer 0 (closer ++ text) = some ([], text) := by
  have past := Text.past?_eq_some_iff.2 (show closer ++ text = closer ++ text from rfl)
  cases closer with
  | nil => exact absurd rfl nonempty
  | cons c closer =>
    rw [List.cons_append] at past ⊢
    simp only [splitBlock?.eq_def opener (c :: closer) 0 (c :: (closer ++ text)), past]

end Split

namespace BlockKind

variable {kind : BlockKind} {text first second tail : Text} {before middle after : Nat}

/-- The search for the end of a block passes over a text, and the count of inner blocks still to be
closed goes from one value to another. -/
def Scans (kind : BlockKind) (text tail : Text) (before after : Nat) : Prop :=
  splitBlock? kind.opener kind.closer before (text ++ tail) =
    (splitBlock? kind.opener kind.closer after tail).map fun parts => (text ++ parts.1, parts.2)

theorem scans_nil : kind.Scans [] tail before before := by
  rw [Scans, List.nil_append]
  exact Option.map_id'.symm

theorem Scans.append (one : kind.Scans first (second ++ tail) before middle)
    (two : kind.Scans second tail middle after) :
    kind.Scans (first ++ second) tail before after := by
  rw [Scans, List.append_assoc, one, two, Option.map_map]
  congr 1
  funext parts
  simp

def Ignores (kind : BlockKind) (text tail : Text) : Prop :=
  Text.Lacks kind.opener text tail ∧ Text.Lacks kind.closer text tail

/-- Whether a brace just before a text begins no mark of a block together with it. -/
def CompletesNoMark (tail : Text) : Prop :=
  ¬ ['{', '#'] <+: tail ∧ ¬ ['{', '/'] <+: tail

theorem completesNoMark_closer : CompletesNoMark (kind.closer ++ tail) := by
  simp [CompletesNoMark, closer, Tag.opener]

theorem ignores_of_not_infix (single : ¬ Tag.opener <:+: text)
    (seam : text.getLast? = some '{' → CompletesNoMark tail) : kind.Ignores text tail := by
  constructor
  · show Text.Lacks ('{' :: '{' :: '#' :: kind.word) text tail
    apply Text.lacks_of_not_infix single
    intro last stands
    exact (seam last).1 ((List.prefix_append ['{', '#'] kind.word).trans stands)
  · show Text.Lacks ('{' :: '{' :: '/' :: (kind.word ++ Tag.closer)) text tail
    apply Text.lacks_of_not_infix single
    intro last stands
    exact (seam last).2 ((List.prefix_append ['{', '/'] (kind.word ++ Tag.closer)).trans stands)

theorem scans_of_ignores (ignores : kind.Ignores text tail) : kind.Scans text tail before before := by
  obtain ⟨no_opener, no_closer⟩ := ignores
  induction text with
  | nil => exact scans_nil
  | cons c text ih =>
    rw [Text.lacks_cons_iff] at no_opener no_closer
    have rest := ih no_opener.2 no_closer.2
    rw [Scans] at rest ⊢
    rw [List.cons_append, splitBlock?_other no_closer.1 no_opener.1, rest, Option.map_map]
    rfl

theorem scans_opener {c : Char} (opens : kind.opener <+: c :: (text ++ tail))
    (not_closes : ¬ kind.closer <+: c :: (text ++ tail)) (ignores : kind.Ignores text tail) :
    kind.Scans (c :: text) tail before (before + 1) := by
  have passed : kind.Scans text tail (before + 1) (before + 1) := scans_of_ignores ignores
  rw [Scans] at passed ⊢
  rw [List.cons_append, splitBlock?_opener not_closes opens, passed, Option.map_map]
  rfl

theorem scans_closer : kind.Scans kind.closer tail (before + 1) before := by
  have ignores : kind.Ignores ('{' :: '/' :: kind.word ++ Tag.closer) tail := by
    apply ignores_of_not_infix
    · cases kind <;> decide
    · cases kind <;> simp [word, Tag.closer]
  have passed : kind.Scans ('{' :: '/' :: kind.word ++ Tag.closer) tail before before :=
    scans_of_ignores ignores
  have closes : kind.closer <+: '{' :: ('{' :: '/' :: kind.word ++ Tag.closer ++ tail) :=
    List.prefix_append kind.closer tail
  rw [Scans] at passed ⊢
  show splitBlock? _ _ _ ('{' :: ('{' :: '/' :: kind.word ++ Tag.closer ++ tail)) = _
  rw [splitBlock?_closer closes, passed, Option.map_map]
  rfl

theorem inside?_append (scans : kind.Scans text (kind.closer ++ tail) 0 0) :
    kind.inside? (text ++ (kind.closer ++ tail)) = some (text, tail) := by
  have nonempty : kind.closer ≠ [] := List.length_pos_iff.1 kind.length_closer_pos
  rw [inside?, scans, splitBlock?_end nonempty, Option.map_some, List.append_nil]

end BlockKind

end Stencil
