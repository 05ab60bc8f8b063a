import Stencil.Diagnostic.Failure
import Stencil.Template.Source
import Stencil.Value.Path
import Stencil.Value.Text
import Stencil.Value.Truth

/-!
Rendering.  A tree is rendered against a value into pieces of text, each with the node it comes from.
A condition renders its body against the same value, an iteration once for each element against that
element alone.  A reference whose path leads nowhere is noted and renders nothing, or under
strictness ends the work; conditions and iterations are content with nothing.
-/

set_option autoImplicit false
set_option relaxedAutoImplicit false

namespace Stencil

/-- What is known about the template being rendered, for the sake of messages. -/
structure Frame where
  name : Option Text
  source : Option Text
deriving DecidableEq, Repr

/-- A piece of output and the node it comes from. -/
structure Piece where
  node : Node
  text : Text

def Piece.join (pieces : List Piece) : Text :=
  pieces.flatMap Piece.text

def Frame.snippetAt (frame : Option Frame) (place : Position) : Option Snippet :=
  match frame.bind Frame.source with
  | some (c :: source) => some (Snippet.at (c :: source) place)
  | _ => none

namespace Heap

/-- The value whose keys are offered when a path leads nowhere: the one that the path without its last
segment leads to, and the whole context when nothing else is left of the path. -/
def parent {n : Nat} (heap : Heap n) (path : Text) (value : Value n) : Logged (Value n) :=
  match Text.beforeLast '.' path with
  | [] => pure value
  | c :: parentPath => heap.resolve (c :: parentPath) value

/-- The failure of a reference at a place whose path leads nowhere. -/
def undefinedAt {n : Nat} (heap : Heap n) (frame : Option Frame) (place : Position) (path : Text)
    (value : Value n) : Logged UndefinedVariable := do
  let parent ← heap.parent path value
  pure ⟨path, frame.bind Frame.name, some place.line, (heap.textKeys? parent).getD [],
    Frame.snippetAt frame place⟩

end Heap

def Node.renderReference {n : Nat} (heap : Heap n) (strict : Bool) (frame : Option Frame)
    (value : Value n) (place : Position) (path : Text) : Attempt Failure (List Piece) := do
  let found ← heap.resolve path value
  if found = .undefined then
    Attempt.note (.unresolvedPath path place.line)
    if strict then
      let failure ← heap.undefinedAt frame place path value
      throw (.undefined failure)
    else pure []
  else pure [⟨.reference place path, heap.shown found⟩]

def Node.elementsFor {n : Nat} (heap : Heap n) (value : Value n) (place : Position) (path : Text) :
    Logged (List (Value n)) := do
  let found ← heap.resolve path value
  match heap.elements? found with
  | some items => pure items
  | none =>
    if found = .undefined then
      Logged.note (.unresolvedCollection path place.line)
    pure []

mutual

def Node.render {n : Nat} (heap : Heap n) (strict : Bool) (frame : Option Frame) (value : Value n) :
    Node → Attempt Failure (List Piece)
  | .literal place content => pure [⟨.literal place content, content⟩]
  | .reference place path => Node.renderReference heap strict frame value place path
  | .block .condition _ path body => do
    let found ← heap.resolve path value
    if heap.isTrue found then Node.renderAll heap strict frame value body else pure []
  | .block .iteration place path body => do
    let items ← Node.elementsFor heap value place path
    Attempt.gather (fun item => Node.renderAll heap strict frame item body) items

def Node.renderAll {n : Nat} (heap : Heap n) (strict : Bool) (frame : Option Frame)
    (value : Value n) : List Node → Attempt Failure (List Piece)
  | [] => pure []
  | node :: nodes => do
    let first ← Node.render heap strict frame value node
    let rest ← Node.renderAll heap strict frame value nodes
    pure (first ++ rest)

end

def Template.render (template : Template) (strict : Bool) (frame : Option Frame)
    (context : Context) : Attempt Failure Text := do
  let pieces ← Node.renderAll context.heap strict frame context.root template.body
  pure (Piece.join pieces)

end Stencil
