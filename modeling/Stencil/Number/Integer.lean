import Stencil.Text.Basic

/-!
The decimal text of a number: its digits without leading zeros, after a minus sign if it is negative.
`readDigits?` reads the digits back.
-/

set_option autoImplicit false
set_option relaxedAutoImplicit false

namespace Stencil

def natText (n : Nat) : Text :=
  Nat.toDigits 10 n

def intText : Int → Text
  | .ofNat n => natText n
  | .negSucc n => '-' :: natText (n + 1)

/-- The number that a non-empty run of decimal digits stands for. -/
def readDigits? (text : Text) : Option Nat :=
  if text ≠ [] ∧ text.all Char.isDigit then some (Nat.ofDigitChars 10 text 0) else none

end Stencil
