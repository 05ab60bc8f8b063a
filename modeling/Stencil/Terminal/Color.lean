import Stencil.Text.Basic

/-!
Colors on a terminal.  A text is colored by putting the escape sequences of its colors in front of it
and the sequence that ends all colors behind it.  Each part of a message has a role, and the role
fixes its colors.  Whether colors are used at all is one decision: forcing them wins over refusing
them, and without either they are used only on a terminal.
-/

set_option autoImplicit false
set_option relaxedAutoImplicit false

namespace Stencil

def escapeChar : Char := '\x1b'

/-- A color or another way of display. -/
inductive Color
  | reset
  | bold
  | dim
  | cyan
  | yellow
  | green
  | brightRed
  | brightGreen
deriving DecidableEq, Repr

namespace Color

def selector : Color → Text
  | reset => "0".toList
  | bold => "1".toList
  | dim => "2".toList
  | cyan => "36".toList
  | yellow => "33".toList
  | green => "32".toList
  | brightRed => "91".toList
  | brightGreen => "92".toList

def sequence (color : Color) : Text :=
  escapeChar :: '[' :: color.selector ++ ['m']

def name : Color → Text
  | reset => "reset".toList
  | bold => "bold".toList
  | dim => "dim".toList
  | cyan => "cyan".toList
  | yellow => "yellow".toList
  | green => "green".toList
  | brightRed => "bright_red".toList
  | brightGreen => "bright_green".toList

def all : List Color :=
  [reset, bold, dim, cyan, yellow, green, brightRed, brightGreen]

def ofName? (name : Text) : Option Color :=
  all.find? fun color => color.name = name

end Color

/-- A text in colors, or as it is when colors are off or there are none. -/
def paint (colored : Bool) (colors : List Color) (text : Text) : Text :=
  if colored ∧ colors ≠ [] then colors.flatMap Color.sequence ++ text ++ Color.reset.sequence
  else text

inductive Role
  | errorCode
  | location
  | lineNumber
  | errorLine
  | hint
  | suggestion
  | dimmed
deriving DecidableEq, Repr

namespace Role

def colors : Role → List Color
  | errorCode => [.brightRed, .bold]
  | location => [.cyan]
  | lineNumber => [.yellow]
  | errorLine => [.brightRed]
  | hint => [.green]
  | suggestion => [.brightGreen, .bold]
  | dimmed => [.dim]

def paint (role : Role) (colored : Bool) (text : Text) : Text :=
  Stencil.paint colored role.colors text

end Role

/-- What is known about the place where messages are shown. -/
structure Terminal where
  /-- The wish for colors, if one is set. -/
  forceColor : Option Text
  /-- The wish for no colors, if one is set. -/
  noColor : Option Text
  /-- Whether messages are shown on a terminal. -/
  interactive : Bool
deriving DecidableEq, Repr

namespace Terminal

def isSet (wish : Option Text) : Bool :=
  !(wish.getD []).isEmpty

def usesColor (terminal : Terminal) : Bool :=
  if isSet terminal.forceColor then true
  else if isSet terminal.noColor then false
  else terminal.interactive

end Terminal

end Stencil
