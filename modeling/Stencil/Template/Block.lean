import Stencil.Template.Tag

/-!
The end of a block.  Between the opening tag of a block and its end only the marks of the same kind
count: each opening mark asks for one closing mark more, and the first closing mark that nothing asked
for is the end.  Marks of the other kind are text like any other.  No mark can begin inside another,
so the count goes on from character to character.
-/

set_option autoImplicit false
set_option relaxedAutoImplicit false

namespace Stencil

/-- The text before the end of a block and the text after its closing mark, where `pending` inner
blocks are still to be closed first. -/
def splitBlock? (opener closer : Text) : Nat → Text → Option (Text × Text)
  | _, [] => none
  | pending, c :: text =>
    match Text.past? closer (c :: text), pending with
    | some after, 0 => some ([], after)
    | some _, n + 1 =>
      (splitBlock? opener closer n text).map fun parts => (c :: parts.1, parts.2)
    | none, _ =>
      let pending := if opener.isPrefixOf (c :: text) then pending + 1 else pending
      (splitBlock? opener closer pending text).map fun parts => (c :: parts.1, parts.2)

theorem eq_append_of_splitBlock? {opener closer : Text} {pending : Nat} {text inner after : Text}
    (h : splitBlock? opener closer pending text = some (inner, after)) :
    text = inner ++ closer ++ after := by
  induction text generalizing pending inner with
  | nil => simp [splitBlock?] at h
  | cons c text ih =>
    simp only [splitBlock?] at h
    split at h
    · next after' hp =>
      cases h
      simpa using Text.past?_eq_some_iff.1 hp
    · obtain ⟨⟨i, a⟩, hs, he⟩ := Option.map_eq_some_iff.1 h
      cases he
      simp [ih hs]
    · obtain ⟨⟨i, a⟩, hs, he⟩ := Option.map_eq_some_iff.1 h
      cases he
      simp [ih hs]

namespace BlockKind

/-- The inside of a block and what follows it, from the text just past its opening tag. -/
def inside? (kind : BlockKind) (text : Text) : Option (Text × Text) :=
  splitBlock? kind.opener kind.closer 0 text

theorem eq_append_of_inside? {kind : BlockKind} {text inner after : Text}
    (h : kind.inside? text = some (inner, after)) : text = inner ++ kind.closer ++ after :=
  eq_append_of_splitBlock? h

theorem length_closer_pos (kind : BlockKind) : 0 < kind.closer.length := by
  simp [closer, Tag.opener]

theorem length_inner_lt {kind : BlockKind} {text inner after : Text}
    (h : kind.inside? text = some (inner, after)) : inner.length < text.length := by
  have closed := length_closer_pos kind
  rw [eq_append_of_inside? h, List.length_append, List.length_append]
  omega

theorem length_rest_lt {kind : BlockKind} {text inner after : Text}
    (h : kind.inside? text = some (inner, after)) : after.length < text.length := by
  have closed := length_closer_pos kind
  rw [eq_append_of_inside? h, List.length_append, List.length_append]
  omega

end BlockKind

/-- The place in a text of `length` characters that an offset means: a negative one counts back from
the end and stops at the beginning. -/
def offsetIn (length : Nat) (offset : Int) : Nat :=
  if offset < 0 then (offset + length).toNat else offset.toNat

theorem offsetIn_natCast (length offset : Nat) : offsetIn length offset = offset := by
  rw [offsetIn, if_neg (by omega), Int.toNat_natCast]

def window (source : Text) (start : Int) (stop : Option Int) : Text :=
  let stop := (stop.map (offsetIn source.length)).getD source.length
  (source.take stop).drop (offsetIn source.length start)

/-- The offset of the closing mark that ends the block whose inside begins at `start`, looking no
further than `stop`. -/
def BlockKind.closeOffset? (kind : BlockKind) (source : Text) (start : Int) (stop : Option Int) :
    Option Nat :=
  (kind.inside? (window source start stop)).map fun parts =>
    offsetIn source.length start + parts.1.length

end Stencil
