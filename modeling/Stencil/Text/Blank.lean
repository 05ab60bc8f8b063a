import Stencil.Text.Basic

/-!
Blank characters and trimming.  A character is blank when it separates words or lines: the spaces of
every width, the line and paragraph separators, and the controls that act as separators.  `trim`
takes the blanks off both ends of a text and leaves those inside it.
-/

set_option autoImplicit false
set_option relaxedAutoImplicit false

namespace Stencil

/-- The first and last code point of each run of blank characters. -/
def blankRuns : List (Nat × Nat) :=
  [(0x0009, 0x000D), (0x001C, 0x0020), (0x0085, 0x0085), (0x00A0, 0x00A0), (0x1680, 0x1680),
    (0x2000, 0x200A), (0x2028, 0x2029), (0x202F, 0x202F), (0x205F, 0x205F), (0x3000, 0x3000)]

def isBlank (c : Char) : Bool :=
  blankRuns.any fun run => run.1 ≤ c.toNat && c.toNat ≤ run.2

namespace Text

def trimEnd (text : Text) : Text :=
  (text.reverse.dropWhile isBlank).reverse

def trim (text : Text) : Text :=
  trimEnd (text.dropWhile isBlank)

end Text

end Stencil
