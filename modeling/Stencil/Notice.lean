import Stencil.Number.Integer
import Stencil.Template.Position
import Stencil.Template.Tag
import Stencil.Text.Quoted

/-!
Notices.  Nothing in a template or in a value stops the work unless strictness asks for it, so what
was passed over in silence is noted: tags that could not be used as written, paths that led nowhere,
and properties that could not be read.
-/

set_option autoImplicit false
set_option relaxedAutoImplicit false

namespace Stencil

/-- The name under which messages mention a template: its own, unless that is missing or empty. -/
def shownName : Option Text → Text
  | some (c :: name) => c :: name
  | _ => "<template>".toList

inductive Stage
  | parsing
  | rendering
  | reading
deriving DecidableEq, Repr

/-- What was passed over, and where. -/
inductive Notice
  /-- A tag that is never closed is kept as text. -/
  | unterminated (template : Option Text) (place : Position)
  /-- A block without an end is read as a reference. -/
  | unmatched (template : Option Text) (place : Position) (kind : BlockKind) (content : Text)
  /-- A closing tag that ends no block is dropped. -/
  | stray (template : Option Text) (place : Position) (content : Text)
  /-- A reference whose path leads nowhere puts in nothing. -/
  | unresolvedPath (path : Text) (line : Nat)
  /-- An iteration whose path leads nowhere has no elements. -/
  | unresolvedCollection (path : Text) (line : Nat)
  /-- A property whose reading fails counts as missing. -/
  | unreadable (property typeName fault message : Text)
deriving DecidableEq, Repr

namespace Notice

def stage : Notice → Stage
  | unterminated .. | unmatched .. | stray .. => .parsing
  | unresolvedPath .. | unresolvedCollection .. => .rendering
  | unreadable .. => .reading

def whereabouts (template : Option Text) (place : Position) : Text :=
  shownName template ++ ':' :: natText place.line ++ ':' :: natText place.column

def text : Notice → Text
  | unterminated template place =>
    "Unterminated tag at ".toList ++ whereabouts template place ++ " emitted as text".toList
  | unmatched template place kind content =>
    "No matching ".toList ++ kind.closer ++ " for tag at ".toList ++ whereabouts template place ++
      "; treating '".toList ++ content ++ "' as a variable".toList
  | stray template place content =>
    "Stray closing tag '".toList ++ content ++ "' at ".toList ++ whereabouts template place ++
      " dropped".toList
  | unresolvedPath path line =>
    "Unresolved path '".toList ++ path ++ "' at line ".toList ++ natText line
  | unresolvedCollection path line =>
    "Unresolved collection '".toList ++ path ++ "' at line ".toList ++ natText line
  | unreadable property typeName fault message =>
    "Reading '".toList ++ property ++ "' on ".toList ++ typeName ++ " failed: ".toList ++ fault ++
      '(' :: Quoted.text message ++ [')']

end Notice

end Stencil
