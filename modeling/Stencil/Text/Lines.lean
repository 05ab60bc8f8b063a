import Stencil.Text.Basic

/-!
The lines of a text.  A line ends at a line feed, a carriage return, both in this order, or one of
the other characters that Unicode and the ASCII controls set apart as line boundaries.  The last line
needs no end, and an end that stands last starts no further line.
-/

set_option autoImplicit false
set_option relaxedAutoImplicit false

namespace Stencil

def endsLine (c : Char) : Bool :=
  (0x000A ≤ c.toNat && c.toNat ≤ 0x000D) || (0x001C ≤ c.toNat && c.toNat ≤ 0x001E) ||
    c.toNat = 0x0085 || c.toNat = 0x2028 || c.toNat = 0x2029

namespace Text

/-- The lines of a text without their ends. -/
def lines : Text → List Text
  | [] => []
  | '\r' :: '\n' :: text => [] :: lines text
  | c :: text =>
    if endsLine c then [] :: lines text
    else
      match lines text with
      | [] => [[c]]
      | first :: others => (c :: first) :: others

end Text

end Stencil
