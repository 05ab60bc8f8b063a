import Stencil.Number.Binary64

/-!
Structured data and its compact text.  A document is null, a truth value, a number, a text, an array or
an object.  The text has no blanks; in quoted text the quote, the backslash and the controls below the
space are escaped and nothing else is.
-/

set_option autoImplicit false
set_option relaxedAutoImplicit false

namespace Stencil

/-- A document of structured data. -/
inductive Json
  | null
  | bool (value : Bool)
  | int (value : Int)
  | float (value : Binary64)
  | text (value : Text)
  | array (items : List Json)
  | object (members : List (Text × Json))
deriving Repr

namespace Json

def hexDigit (n : Nat) : Char :=
  Nat.digitChar n

def escape (c : Char) : Text :=
  if c = '"' ∨ c = '\\' then ['\\', c]
  else if c = '\n' then ['\\', 'n']
  else if c = '\r' then ['\\', 'r']
  else if c = '\t' then ['\\', 't']
  else if c.toNat = 8 then ['\\', 'b']
  else if c.toNat = 12 then ['\\', 'f']
  else if c.toNat < 0x20 then
    ['\\', 'u', '0', '0', hexDigit (c.toNat / 16), hexDigit (c.toNat % 16)]
  else [c]

def quoted (content : Text) : Text :=
  '"' :: content.flatMap escape ++ ['"']

mutual

/-- The compact text of a document. -/
def print : Json → Text
  | null => "null".toList
  | bool true => "true".toList
  | bool false => "false".toList
  | int value => intText value
  | float value => value.text FloatLayout.structured
  | text value => quoted value
  | array items => '[' :: printItems items ++ [']']
  | object members => '{' :: printMembers members ++ ['}']

def printItems : List Json → Text
  | [] => []
  | item :: items => print item ++ printMoreItems items

def printMoreItems : List Json → Text
  | [] => []
  | item :: items => ',' :: print item ++ printMoreItems items

def printMember : Text × Json → Text
  | (key, value) => quoted key ++ ':' :: print value

def printMembers : List (Text × Json) → Text
  | [] => []
  | member :: members => printMember member ++ printMoreMembers members

def printMoreMembers : List (Text × Json) → Text
  | [] => []
  | member :: members => ',' :: printMember member ++ printMoreMembers members

end

end Json

end Stencil
