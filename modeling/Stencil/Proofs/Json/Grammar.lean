import Stencil.Json.Basic
import Mathlib.Data.List.Forall2

/-!
The grammar of structured text.  A document is a sequence of tokens: six marks, the names of null and of
the truth values, numbers and quoted texts.  Each token may be spelled in several ways, and blanks may
stand between tokens and at both ends.  How a number with a fraction or an exponent is rounded is left
open.
-/

set_option autoImplicit false
set_option relaxedAutoImplicit false

namespace Stencil

namespace Json

inductive Mark
  | openArray
  | closeArray
  | openObject
  | closeObject
  | comma
  | colon
deriving DecidableEq

def Mark.char : Mark → Char
  | openArray => '['
  | closeArray => ']'
  | openObject => '{'
  | closeObject => '}'
  | comma => ','
  | colon => ':'

inductive Leaf
  | null
  | bool (value : Bool)
  | int (value : Int)
  | float (value : Binary64)
  | text (value : Text)

def Leaf.document : Leaf → Json
  | null => .null
  | bool value => .bool value
  | int value => .int value
  | float value => .float value
  | text value => .text value

inductive Token
  | mark (mark : Mark)
  | leaf (leaf : Leaf)

mutual

def tokens : Json → List Token
  | null => [.leaf .null]
  | bool value => [.leaf (.bool value)]
  | int value => [.leaf (.int value)]
  | float value => [.leaf (.float value)]
  | text value => [.leaf (.text value)]
  | array items => .mark .openArray :: itemTokens items ++ [.mark .closeArray]
  | object members => .mark .openObject :: memberTokens members ++ [.mark .closeObject]

def itemTokens : List Json → List Token
  | [] => []
  | item :: items => tokens item ++ moreItemTokens items

def moreItemTokens : List Json → List Token
  | [] => []
  | item :: items => .mark .comma :: tokens item ++ moreItemTokens items

def memberToken : Text × Json → List Token
  | (key, value) => .leaf (.text key) :: .mark .colon :: tokens value

def memberTokens : List (Text × Json) → List Token
  | [] => []
  | member :: members => memberToken member ++ moreMemberTokens members

def moreMemberTokens : List (Text × Json) → List Token
  | [] => []
  | member :: members => .mark .comma :: memberToken member ++ moreMemberTokens members

end

def isSpace (c : Char) : Bool :=
  c = ' ' || c = '\t' || c = '\n' || c = '\r'

def shortEscapes : List (Char × Char) :=
  [('"', '"'), ('\\', '\\'), ('/', '/'), ('b', Char.ofNat 8), ('f', Char.ofNat 12), ('n', '\n'),
    ('r', '\r'), ('t', '\t')]

def hexValue? (c : Char) : Option Nat :=
  if '0' ≤ c ∧ c ≤ '9' then some (c.toNat - '0'.toNat)
  else if 'a' ≤ c ∧ c ≤ 'f' then some (c.toNat - 'a'.toNat + 10)
  else if 'A' ≤ c ∧ c ≤ 'F' then some (c.toNat - 'A'.toNat + 10)
  else none

def unitOf? (a b c d : Char) : Option Nat := do
  let a ← hexValue? a
  let b ← hexValue? b
  let c ← hexValue? c
  let d ← hexValue? d
  pure (((a * 16 + b) * 16 + c) * 16 + d)

def isHighHalf (unit : Nat) : Bool :=
  0xD800 ≤ unit && unit < 0xDC00

def isLowHalf (unit : Nat) : Bool :=
  0xDC00 ≤ unit && unit < 0xE000

def ofHalves (high low : Nat) : Char :=
  Char.ofNat (0x10000 + (high - 0xD800) * 0x400 + (low - 0xDC00))

inductive CharSpelling : Char → Text → Prop
  | plain {c : Char} (visible : 0x20 ≤ c.toNat) (quote : c ≠ '"') (slash : c ≠ '\\') :
    CharSpelling c [c]
  | short {letter c : Char} (pair : (letter, c) ∈ shortEscapes) : CharSpelling c ['\\', letter]
  | unit {p q r s : Char} {unit : Nat} (digits : unitOf? p q r s = some unit)
    (high : isHighHalf unit = false) (low : isLowHalf unit = false) :
    CharSpelling (Char.ofNat unit) ['\\', 'u', p, q, r, s]
  | halves {p q r s p' q' r' s' : Char} {high low : Nat} (digits : unitOf? p q r s = some high)
    (digits' : unitOf? p' q' r' s' = some low) (isHigh : isHighHalf high = true)
    (isLow : isLowHalf low = true) :
    CharSpelling (ofHalves high low) ['\\', 'u', p, q, r, s, '\\', 'u', p', q', r', s']

def IsDigits (digits : Text) : Prop :=
  digits ≠ [] ∧ ∀ c ∈ digits, c.isDigit = true

/-- The digits of a whole number, which has no zero in front of other digits. -/
def IsWhole (digits : Text) : Prop :=
  IsDigits digits ∧ (digits.head? = some '0' → digits = ['0'])

/-- A point and the digits behind it, or nothing. -/
def IsFraction (fraction : Text) : Prop :=
  fraction = [] ∨ ∃ digits, fraction = '.' :: digits ∧ IsDigits digits

/-- A letter, a sign if there is one, and the digits of an exponent, or nothing. -/
def IsExponent (exponent : Text) : Prop :=
  exponent = [] ∨ ∃ letter sign digits, exponent = letter :: (sign ++ digits) ∧
    letter ∈ ['e', 'E'] ∧ sign ∈ [[], ['+'], ['-']] ∧ IsDigits digits

def minus (negative : Bool) : Text :=
  if negative then ['-'] else []

def signedNumber (negative : Bool) (digits : Text) : Int :=
  if negative then -(Nat.ofDigitChars 10 digits 0 : Int) else Nat.ofDigitChars 10 digits 0

section Spelling

variable (real : Text → Binary64)

inductive LeafSpelling : Leaf → Text → Prop
  | null : LeafSpelling .null "null".toList
  | true : LeafSpelling (.bool Bool.true) "true".toList
  | false : LeafSpelling (.bool Bool.false) "false".toList
  | int {negative : Bool} {digits : Text} (whole : IsWhole digits) :
    LeafSpelling (.int (signedNumber negative digits)) (minus negative ++ digits)
  | float {negative : Bool} {digits fraction exponent : Text} (whole : IsWhole digits)
    (isFraction : IsFraction fraction) (isExponent : IsExponent exponent)
    (more : fraction ++ exponent ≠ []) :
    LeafSpelling (.float (real (minus negative ++ digits ++ fraction ++ exponent)))
      (minus negative ++ digits ++ fraction ++ exponent)
  | text {content : Text} {spellings : List Text}
    (each : List.Forall₂ CharSpelling content spellings) :
    LeafSpelling (.text content) ('"' :: spellings.flatten ++ ['"'])

inductive TokenSpelling : Token → Text → Prop
  | mark (mark : Mark) : TokenSpelling (.mark mark) [mark.char]
  | leaf {leaf : Leaf} {spelling : Text} (spells : LeafSpelling real leaf spelling) :
    TokenSpelling (.leaf leaf) spelling

inductive Spells : List Token → Text → Prop
  | nil {blanks : Text} (blank : ∀ c ∈ blanks, isSpace c = true) : Spells [] blanks
  | cons {token : Token} {tokens : List Token} {blanks spelling rest : Text}
    (blank : ∀ c ∈ blanks, isSpace c = true) (first : TokenSpelling real token spelling)
    (others : Spells tokens rest) : Spells (token :: tokens) (blanks ++ spelling ++ rest)

/-- Whether a text is well-formed and stands for a document. -/
def Denotes (source : Text) (document : Json) : Prop :=
  Spells real document.tokens source

end Spelling

end Json

end Stencil
