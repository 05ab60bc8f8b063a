import Stencil.Template.Position
import Stencil.Template.Tag

/-!
The tree of a template.  A body is a list of nodes: literal text, a reference to a value, or a block
with a body of its own.  Every node carries the place in the source where it begins.
-/

set_option autoImplicit false
set_option relaxedAutoImplicit false

namespace Stencil

/-- One piece of a template body. -/
inductive Node
  /-- Text that stands for itself. -/
  | literal (place : Position) (content : Text)
  /-- The value at a path, put in its place. -/
  | reference (place : Position) (path : Text)
  /-- A body governed by the value at a path. -/
  | block (kind : BlockKind) (place : Position) (path : Text) (body : List Node)
deriving Repr

def Node.place : Node → Position
  | literal place _ => place
  | reference place _ => place
  | block _ place _ _ => place

/-- A parsed template: the name it goes by, if it has one, and its body. -/
structure Template where
  name : Option Text
  body : List Node
deriving Repr

end Stencil
