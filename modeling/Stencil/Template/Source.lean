import Stencil.Diagnostic.Failure
import Stencil.Template.Parse

/-!
Templates from their source.  The only failure is a block nested more deeply than the limit allows; it
names the line of that block and shows the excerpt of the source around it.
-/

set_option autoImplicit false
set_option relaxedAutoImplicit false

namespace Stencil

def Snippet.at (source : Text) (place : Position) : Snippet :=
  ofSource source place.line usualContext (some place.column)

def NestingExceeded.ofPlace (name : Option Text) (limit : Int) (source : Text) (place : Position) :
    NestingExceeded :=
  ⟨limit, name, some place.line, some (Snippet.at source place)⟩

/-- The template that a source stands for when blocks may nest `limit` levels deep. -/
def Template.ofSource (name : Option Text) (limit : Int) (source : Text) :
    Attempt Failure Template := do
  let body ←
    ExceptT.adapt (fun place => .nesting (NestingExceeded.ofPlace name limit source place))
      (Node.ofText name limit Position.start source)
  pure ⟨name, body⟩

end Stencil
