import Stencil.Proofs.Template.BlockEnd
import Stencil.Proofs.Template.Reading

/-!
Texts that go on.  Every search that a tag or a block starts ends at the first place where it can, so
what is found in a text is found in the same place when more text follows.  A text that can be read at
one place of a source can be read at every other, and the literal text before a tag may change without
any effect on what is read after it.
-/

set_option autoImplicit false
set_option relaxedAutoImplicit false

namespace Stencil

section Split

variable {opener closer text more inner after : Text} {pending : Nat}

theorem length_closer_le_of_splitBlock?
    (split : splitBlock? opener closer pending text = some (inner, after)) :
    closer.length ≤ text.length := by
  rw [eq_append_of_splitBlock? split, List.length_append, List.length_append]
  omega

theorem splitBlock?_append (shorter : opener.length ≤ closer.length)
    (split : splitBlock? opener closer pending text = some (inner, after)) :
    splitBlock? opener closer pending (text ++ more) = some (inner, after ++ more) := by
  induction text generalizing pending inner with
  | nil => simp [splitBlock?] at split
  | cons c text ih =>
    have onwards : ∀ count, (splitBlock? opener closer count text).map
          (fun parts => (c :: parts.1, parts.2)) = some (inner, after) →
        (splitBlock? opener closer count (text ++ more)).map
          (fun parts => (c :: parts.1, parts.2)) = some (inner, after ++ more) := by
      intro count found
      obtain ⟨⟨front, back⟩, split', joined⟩ := Option.map_eq_some_iff.1 found
      cases joined
      rw [ih split']
      rfl
    -- Where the end is found, the text is long enough for every mark that begins at its front.
    have fits := length_closer_le_of_splitBlock? split
    rw [List.cons_append]
    by_cases closes : closer <+: c :: text
    · have closes' : closer <+: c :: (text ++ more) :=
        closes.trans (List.prefix_append (c :: text) more)
      cases pending with
      | zero =>
        obtain ⟨rest, whole⟩ := closes
        have past := Text.past?_eq_some_iff.2 whole.symm
        have past' : Text.past? closer (c :: (text ++ more)) = some (rest ++ more) := by
          rw [Text.past?_eq_some_iff, ← List.append_assoc, whole]
          rfl
        simp only [splitBlock?.eq_def opener closer 0 (c :: text), past] at split
        cases split
        simp only [splitBlock?.eq_def opener closer 0 (c :: (text ++ more)), past']
      | succ pending =>
        rw [splitBlock?_closer closes] at split
        rw [splitBlock?_closer closes']
        exact onwards pending split
    · have closes' : ¬ closer <+: c :: (text ++ more) := fun stands =>
        closes ((List.isPrefix_append_of_length fits).1 stands)
      by_cases opens : opener <+: c :: text
      · have opens' : opener <+: c :: (text ++ more) :=
          opens.trans (List.prefix_append (c :: text) more)
        rw [splitBlock?_opener closes opens] at split
        rw [splitBlock?_opener closes' opens']
        exact onwards (pending + 1) split
      · have opens' : ¬ opener <+: c :: (text ++ more) := fun stands =>
          opens ((List.isPrefix_append_of_length (shorter.trans fits)).1 stands)
        rw [splitBlock?_other closes opens] at split
        rw [splitBlock?_other closes' opens']
        exact onwards pending split

theorem BlockKind.inside?_append_right {kind : BlockKind}
    (inside : kind.inside? text = some (inner, after)) :
    kind.inside? (text ++ more) = some (inner, after ++ more) := by
  apply splitBlock?_append _ inside
  cases kind <;> decide

end Split

namespace Front

variable {text more before content after : Text}

theorem suffix_of_tag (front : ofText text = tag before content after) : after <:+ text := by
  rw [eq_append_of_tag front]
  exact List.suffix_append _ after

theorem ofText_append_right (front : ofText text = tag before content after) :
    ofText (text ++ more) = tag before content (after ++ more) := by
  rw [← ofText_append (opener_first_of_tag front) (closer_first_of_tag front),
    eq_append_of_tag front]
  simp only [List.append_assoc]

theorem ofText_eq_unterminated {rest : Text} (opens : ¬ Tag.opener <:+: before ++ ['{'])
    (never : ¬ Tag.closer <:+: rest) :
    ofText (before ++ Tag.opener ++ rest) = unterminated before := by
  have first : Text.cut? Tag.opener (before ++ Tag.opener ++ rest) = some (before, rest) :=
    Text.cut?_append (by decide) opens
  simp only [ofText, first, Text.cut?_eq_none_iff.2 never]

end Front

namespace Reading

variable {name : Option Text} {room : Int} {place place' : Position}
variable {text text' before before' content after : Text} {notices : List Notice} {nodes : List Node}

theorem refront (front : Front.ofText text = .tag before content after)
    (front' : Front.ofText text' = .tag before' content after)
    (same : place'.past before' = place.past before)
    (reading : Reading name room place text notices nodes) :
    ∃ others, nodes = Node.ofLiteral place before ++ others ∧
      Reading name room place' text' notices (Node.ofLiteral place' before' ++ others) := by
  cases reading with
  | plain other => rw [front] at other; cases other
  | unterminated other => rw [front] at other; cases other
  | reference other tag others =>
    rw [front] at other
    cases other
    rw [Position.pastTag, ← same] at others
    refine ⟨_, rfl, ?_⟩
    rw [← same]
    exact .reference front' tag others
  | stray other tag others =>
    rw [front] at other
    cases other
    rw [Position.pastTag, ← same] at others
    refine ⟨_, rfl, ?_⟩
    rw [← same]
    exact .stray front' tag others
  | unmatched other tag inside others =>
    rw [front] at other
    cases other
    rw [Position.pastTag, ← same] at others
    refine ⟨_, rfl, ?_⟩
    rw [← same]
    exact .unmatched front' tag inside others
  | block other tag inside deep inwards others =>
    rw [front] at other
    cases other
    rw [Position.pastTag, ← same] at inwards others
    refine ⟨_, rfl, ?_⟩
    rw [← same]
    exact .block front' tag inside deep inwards others

theorem exists_at (reading : Reading name room place text notices nodes) (place' : Position) :
    ∃ notices' nodes', Reading name room place' text notices' nodes' := by
  induction reading generalizing place' with
  | plain front => exact ⟨_, _, .plain front⟩
  | unterminated front => exact ⟨_, _, .unterminated front⟩
  | @reference _ _ _ before content _ _ _ front tag _ ih =>
    obtain ⟨_, _, others⟩ := ih (place'.pastTag before content)
    exact ⟨_, _, .reference front tag others⟩
  | @stray _ _ _ before content _ _ _ _ front tag _ ih =>
    obtain ⟨_, _, others⟩ := ih (place'.pastTag before content)
    exact ⟨_, _, .stray front tag others⟩
  | @unmatched _ _ _ before content _ _ _ _ front tag inside _ ih =>
    obtain ⟨_, _, others⟩ := ih (place'.pastTag before content)
    exact ⟨_, _, .unmatched front tag inside others⟩
  | @block _ _ _ before content _ inner _ kind _ _ _ _ front tag inside deep _ _ body_ih
      others_ih =>
    obtain ⟨_, _, inwards⟩ := body_ih (place'.pastTag before content)
    obtain ⟨_, _, others⟩ := others_ih ((place'.pastTag before content).past (inner ++ kind.closer))
    exact ⟨_, _, .block front tag inside deep inwards others⟩

end Reading

end Stencil
