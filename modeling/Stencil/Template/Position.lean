import Stencil.Text.Basic

/-!
Places in a template source.  Lines are counted from one and end at line feeds only; columns are
counted from zero.  A place moves over a text one character at a time, so moving over two texts in a
row is moving over their concatenation.
-/

set_option autoImplicit false
set_option relaxedAutoImplicit false

namespace Stencil

/-- A line, counted from one, and a column in it, counted from zero. -/
structure Position where
  line : Nat
  column : Nat
deriving DecidableEq, Repr

namespace Position

def start : Position := ⟨1, 0⟩

def step (place : Position) (c : Char) : Position :=
  if c = '\n' then ⟨place.line + 1, 0⟩ else ⟨place.line, place.column + 1⟩

def past (place : Position) (text : Text) : Position :=
  text.foldl step place

@[simp] theorem past_nil (place : Position) : place.past [] = place := rfl

@[simp] theorem past_cons (place : Position) (c : Char) (text : Text) :
    place.past (c :: text) = (place.step c).past text := rfl

theorem past_append (place : Position) (first second : Text) :
    place.past (first ++ second) = (place.past first).past second := by
  simp [past, List.foldl_append]

end Position

end Stencil
