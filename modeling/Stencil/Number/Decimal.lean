import Stencil.Number.Integer

/-!
Decimal numbers of any precision.  A finite one is a sign, a coefficient and a power of ten, so
trailing zeros and both zeros are kept; the special ones are the infinities and two kinds of what is
not a number.  `text` is the scientific string of the number, and `ofText?` reads it.
-/

set_option autoImplicit false
set_option relaxedAutoImplicit false

namespace Stencil

/-- A decimal number. -/
inductive Decimal
  | finite (negative : Bool) (coefficient : Nat) (exponent : Int)
  | infinite (negative : Bool)
  | nan (negative signaling : Bool) (payload : Nat)
deriving DecidableEq, Repr

namespace Decimal

def zero : Decimal :=
  finite false 0 0

def isZero : Decimal → Bool
  | finite _ coefficient _ => coefficient = 0
  | _ => false

/-- The text of an unsigned finite number: positional while the exponent is not positive and at most
six zeros stand before the first digit, and with an exponent otherwise. -/
def finiteText (coefficient : Nat) (exponent : Int) : Text :=
  let digits := natText coefficient
  let leading := exponent + digits.length
  let point := if exponent ≤ 0 ∧ -6 < leading then leading else 1
  let mantissa :=
    if point ≤ 0 then ['0', '.'] ++ List.replicate (-point).toNat '0' ++ digits
    else if digits.length ≤ point then
      digits ++ List.replicate (point.toNat - digits.length) '0'
    else digits.take point.toNat ++ '.' :: digits.drop point.toNat
  if leading = point then mantissa
  else mantissa ++ 'E' :: (if leading - point < 0 then '-' else '+') ::
    natText (leading - point).natAbs

def text (number : Decimal) : Text :=
  match number with
  | finite negative coefficient exponent =>
    (if negative then ['-'] else []) ++ finiteText coefficient exponent
  | infinite negative => (if negative then ['-'] else []) ++ "Infinity".toList
  | nan negative signaling payload =>
    (if negative then ['-'] else []) ++ (if signaling then "sNaN".toList else "NaN".toList) ++
      if payload = 0 then [] else natText payload

def readSigned? : Text → Option Int
  | '-' :: digits => (readDigits? digits).map fun n => -(n : Int)
  | '+' :: digits => (readDigits? digits).map Int.ofNat
  | digits => (readDigits? digits).map Int.ofNat

def readFinite? (negative : Bool) (text : Text) : Option Decimal := do
  let (mantissa, exponent) ←
    match Text.cut? ['E'] text with
    | none => some (text, (0 : Int))
    | some (mantissa, exponent) => (readSigned? exponent).map fun n => (mantissa, n)
  let (whole, fraction) := (Text.cut? ['.'] mantissa).getD (mantissa, [])
  let coefficient ← readDigits? (whole ++ fraction)
  some (finite negative coefficient (exponent - fraction.length))

def readNan? (negative signaling : Bool) (payload : Text) : Option Decimal :=
  if payload = [] then some (nan negative signaling 0)
  else (readDigits? payload).map (nan negative signaling)

def readUnsigned? (negative : Bool) (text : Text) : Option Decimal :=
  if text = "Infinity".toList then some (infinite negative)
  else
    match Text.past? "sNaN".toList text, Text.past? "NaN".toList text with
    | some payload, _ => readNan? negative true payload
    | none, some payload => readNan? negative false payload
    | none, none => readFinite? negative text

def ofText? : Text → Option Decimal
  | '-' :: text => readUnsigned? true text
  | text => readUnsigned? false text

end Decimal

end Stencil
