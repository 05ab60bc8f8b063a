import Stencil.Logged
import Stencil.Template.Block
import Stencil.Template.Node
import Stencil.Text.Blank

/-!
From source text to tree.  The text up to the first tag is literal; the tag becomes a reference, opens
a block whose inside is parsed in the same way, or is dropped.  A text without a complete tag is
literal as a whole.  Malformed tags are noted and never fail; the only failure is a block deeper than
allowed, reported by its place before anything inside it is looked at.
-/

set_option autoImplicit false
set_option relaxedAutoImplicit false

namespace Stencil

/-- What the front of a text holds. -/
inductive Front
  /-- No tag begins anywhere in the text. -/
  | plain
  /-- A tag begins after `before` and is never closed. -/
  | unterminated (before : Text)
  /-- The first tag, with the text before it, its content and the text after it. -/
  | tag (before content after : Text)
deriving DecidableEq, Repr

namespace Front

def ofText (text : Text) : Front :=
  match Text.cut? Tag.opener text with
  | none => plain
  | some (before, rest) =>
    match Text.cut? Tag.closer rest with
    | none => unterminated before
    | some (content, after) => tag before content after

theorem eq_append_of_tag {text before content after : Text}
    (h : ofText text = tag before content after) :
    text = before ++ Tag.opener ++ content ++ Tag.closer ++ after := by
  simp only [ofText] at h
  split at h
  · simp at h
  · next hb =>
    split at h
    · simp at h
    · next hc =>
      cases h
      rw [Text.eq_append_of_cut? hb, Text.eq_append_of_cut? hc]
      simp

theorem length_lt_of_tag {text before content after : Text}
    (h : ofText text = tag before content after) : after.length < text.length := by
  rw [eq_append_of_tag h]
  simp [Tag.opener]
  omega

end Front

namespace Node

def ofLiteral (place : Position) (content : Text) : List Node :=
  if content = [] then [] else [literal place content]

/-- The body that a text stands for when it begins at `place` and blocks may nest `room` levels deep,
or the place of the first block that is too deep. -/
def ofText (template : Option Text) (room : Int) (place : Position) (text : Text) :
    Attempt Position (List Node) :=
  match _front : Front.ofText text with
  | .plain => pure (ofLiteral place text)
  | .unterminated before => do
    Attempt.note (.unterminated template (place.past before))
    pure (ofLiteral place text)
  | .tag before content after => do
    let tagPlace := place.past before
    let afterPlace := tagPlace.past (Tag.opener ++ content ++ Tag.closer)
    let content := Text.trim content
    match Tag.ofContent content with
    | .reference => do
      let others ← ofText template room afterPlace after
      pure (ofLiteral place before ++ reference tagPlace content :: others)
    | .closing _ => do
      Attempt.note (.stray template tagPlace content)
      let others ← ofText template room afterPlace after
      pure (ofLiteral place before ++ others)
    | .opening kind =>
      match _inside : kind.inside? after with
      | none => do
        Attempt.note (.unmatched template tagPlace kind content)
        let others ← ofText template room afterPlace after
        pure (ofLiteral place before ++ reference tagPlace content :: others)
      | some (inner, rest) =>
        if room ≤ 0 then throw tagPlace
        else do
          let path := Text.trim (content.drop kind.directive.length)
          let body ← ofText template (room - 1) afterPlace inner
          let others ← ofText template room (afterPlace.past (inner ++ kind.closer)) rest
          pure (ofLiteral place before ++ block kind tagPlace path body :: others)
termination_by text.length
decreasing_by
  · exact Front.length_lt_of_tag _front
  · exact Front.length_lt_of_tag _front
  · exact Front.length_lt_of_tag _front
  · exact Nat.lt_trans (BlockKind.length_inner_lt _inside) (Front.length_lt_of_tag _front)
  · exact Nat.lt_trans (BlockKind.length_rest_lt _inside) (Front.length_lt_of_tag _front)

end Node

end Stencil
