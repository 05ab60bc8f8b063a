import Stencil.Number.Integer
import Stencil.Terminal.Color
import Stencil.Text.Lines

/-!
Excerpts of a template source around a line.  An excerpt holds the numbered lines near the line in
question, as far as they exist, and shows them with that line marked and a caret under a column.
-/

set_option autoImplicit false
set_option relaxedAutoImplicit false

namespace Stencil

/-- An excerpt of a source around one line. -/
structure Snippet where
  /-- The lines shown, each with its number. -/
  lines : List (Nat × Text)
  /-- The number of the line in question. -/
  errorLine : Int
  /-- The column in question. -/
  column : Option Int
deriving DecidableEq, Repr

def padded (text : Text) : Text :=
  List.replicate (3 - text.length) ' ' ++ text

/-- One numbered line; the line in question is marked and colored as such. -/
def sourceLine (colored : Bool) (number : Int) (content : Text) (isError : Bool) : Text :=
  let marker := if isError then '>' else ' '
  Role.lineNumber.paint colored (marker :: padded (intText number)) ++ " | ".toList ++
    (if isError then Role.errorLine else Role.dimmed).paint colored content

namespace Snippet

def usualContext : Int := 2

def numbered (source : Text) : List (Nat × Text) :=
  ((Text.lines source).zipIdx 1).map Prod.swap

/-- The excerpt around a line, with up to `context` lines before and after it. -/
def ofSource (source : Text) (errorLine context : Int) (column : Option Int) : Snippet :=
  let first := (errorLine - 1 - context).toNat
  let past := (errorLine + context).toNat
  ⟨((numbered source).take past).drop first, errorLine, column⟩

def border (colored : Bool) : Text :=
  Role.dimmed.paint colored "   |".toList

/-- The line with the caret, which stands two places to the right of its column. -/
def caretLine (colored : Bool) (column : Int) : Text :=
  border colored ++ ' ' ::
    Role.errorLine.paint colored (List.replicate (column + 2).toNat ' ' ++ ['^'])

def shownLines (snippet : Snippet) (colored : Bool) : List Text :=
  border colored ::
    snippet.lines.map (fun line =>
      sourceLine colored line.1 line.2 (decide ((line.1 : Int) = snippet.errorLine))) ++
    (snippet.column.map (caretLine colored)).toList ++ [border colored]

def shown (snippet : Snippet) (colored : Bool) : Text :=
  Text.joined ['\n'] (snippet.shownLines colored)

end Snippet

end Stencil
