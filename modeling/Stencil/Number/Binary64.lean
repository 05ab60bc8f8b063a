import Stencil.Number.Shortest

/-!
Numbers of double precision and their text.  A number is finite, an infinity or not a number; a finite
one is a sign, a significand and a power of two, so both zeros are kept apart.  Its text has the
digits of the shortest decimal that reads back, in positional or in exponent form; the decisions of
the form stand in one record.
-/

set_option autoImplicit false
set_option relaxedAutoImplicit false

namespace Stencil

/-- A binary number of double precision. -/
inductive Binary64
  | nan
  | infinite (negative : Bool)
  | finite (negative : Bool) (significand : Nat) (exponent : Int)
deriving DecidableEq, Repr

/-- How numbers of double precision are written. -/
structure FloatLayout where
  /-- The least decimal exponent that is still written positionally. -/
  leastPositional : Int
  /-- The least decimal exponent above it that is not. -/
  pastPositional : Int
  /-- The least number of digits of a written exponent. -/
  exponentWidth : Nat
  /-- What follows the digits of a whole number. -/
  wholeEnding : Text
  /-- The text of what is not a number. -/
  nan : Text
  /-- The text of the positive infinity. -/
  infinity : Text

namespace FloatLayout

/-- Numbers that stand by themselves: whole numbers end in a point and a zero. -/
def plain : FloatLayout :=
  ⟨-4, 16, 2, ['.', '0'], "nan".toList, "inf".toList⟩

/-- Numbers inside structured data: only the names of the special numbers differ. -/
def structured : FloatLayout :=
  { plain with nan := "NaN".toList, infinity := "Infinity".toList }

/-- Parts of complex numbers: whole numbers end in their last digit. -/
def part : FloatLayout :=
  { plain with wholeEnding := [] }

def decimal (layout : FloatLayout) (number : ShortDecimal) : Text :=
  let digits := natText number.digits
  let point := digits.length + number.exponent
  if point - 1 < layout.leastPositional ∨ layout.pastPositional ≤ point - 1 then
    let fraction := digits.drop 1
    let exponent := natText (point - 1).natAbs
    digits.take 1 ++ (if fraction = [] then [] else '.' :: fraction) ++
      'e' :: (if point - 1 < 0 then '-' else '+') ::
      List.replicate (layout.exponentWidth - exponent.length) '0' ++ exponent
  else if point ≤ 0 then ['0', '.'] ++ List.replicate (-point).toNat '0' ++ digits
  else if digits.length ≤ point then
    digits ++ List.replicate (point.toNat - digits.length) '0' ++ layout.wholeEnding
  else digits.take point.toNat ++ '.' :: digits.drop point.toNat

end FloatLayout

namespace Binary64

/-- The number that a word of 64 bits encodes: a sign bit, eleven bits of exponent and fifty-two of
fraction. -/
def ofBits (word : Nat) : Binary64 :=
  let negative : Bool := word / Nat.pow 2 63 % 2 = 1
  let exponent : Nat := word / Nat.pow 2 52 % Nat.pow 2 11
  let fraction : Nat := word % Nat.pow 2 52
  if exponent = Nat.pow 2 11 - 1 then
    if fraction = 0 then infinite negative else nan
  else if exponent = 0 then finite negative fraction (-1074)
  else finite negative (fraction + Nat.pow 2 52) ((exponent : Int) - 1075)

def zero : Binary64 :=
  finite false 0 (-1074)

def isZero : Binary64 → Bool
  | finite _ significand _ => significand = 0
  | _ => false

def isNegative : Binary64 → Bool
  | nan => false
  | infinite negative => negative
  | finite negative _ _ => negative

def unsignedText (layout : FloatLayout) : Binary64 → Text
  | nan => layout.nan
  | infinite _ => layout.infinity
  | finite _ significand exponent =>
    if significand = 0 then '0' :: layout.wholeEnding
    else
      let narrow := significand = Nat.pow 2 52 ∧ -1074 < exponent
      layout.decimal (BinaryNumber.shortest ⟨significand, exponent, narrow⟩)

def text (layout : FloatLayout) (number : Binary64) : Text :=
  if number.isNegative then '-' :: number.unsignedText layout else number.unsignedText layout

/-! One tenth, the least number above zero, the first whole number and the last fraction that need an
exponent, the last one that does not, and the negative zero. -/

end Binary64

structure ComplexNumber where
  real : Binary64
  imaginary : Binary64
deriving DecidableEq, Repr

namespace ComplexNumber

def isZero (number : ComplexNumber) : Bool :=
  number.real.isZero && number.imaginary.isZero

/-- The text of the number: the imaginary part alone when the real part is the positive zero, and
both parts between parentheses otherwise. -/
def text (number : ComplexNumber) : Text :=
  let imaginary := number.imaginary.text FloatLayout.part
  if number.real = Binary64.zero then imaginary ++ ['j']
  else
    '(' :: number.real.text FloatLayout.part ++
      (if number.imaginary.isNegative then [] else ['+']) ++ imaginary ++ ['j', ')']

end ComplexNumber

end Stencil
