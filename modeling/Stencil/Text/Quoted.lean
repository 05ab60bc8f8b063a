import Stencil.Text.Hidden

/-!
Quoted forms, in which a message shows a text or a run of bytes unambiguously.  The delimiter is a
single quote unless the content holds single quotes and no double quote.  The backslash and the
delimiter are escaped by a backslash, tab, line feed and carriage return by their letters, and what
cannot be shown as itself by its code in hexadecimal digits.  In a byte array that can still change the
single quote is escaped under either delimiter.
-/

set_option autoImplicit false
set_option relaxedAutoImplicit false

namespace Stencil

def hexDigits (width n : Nat) : Text :=
  let digits := Nat.toDigits 16 n
  List.replicate (width - digits.length) '0' ++ digits

namespace Quoted

def code (c : Char) : Text :=
  if c.toNat < 0x100 then ['\\', 'x'] ++ hexDigits 2 c.toNat
  else if c.toNat < 0x10000 then ['\\', 'u'] ++ hexDigits 4 c.toNat
  else ['\\', 'U'] ++ hexDigits 8 c.toNat

def delimiter (content : Text) : Char :=
  if content.contains '\'' && !content.contains '"' then '"' else '\''

/-- One character inside a quoted form, where `mark` is the quote that is escaped. -/
def escape (hidden : Char → Bool) (mark c : Char) : Text :=
  if c = mark ∨ c = '\\' then ['\\', c]
  else if c = '\t' then ['\\', 't']
  else if c = '\n' then ['\\', 'n']
  else if c = '\r' then ['\\', 'r']
  else if hidden c then code c
  else [c]

/-- A content between delimiters, with the characters that `hidden` names shown by their codes. -/
def between (hidden : Char → Bool) (mark : Char) (content : Text) : Text :=
  delimiter content :: content.flatMap (escape hidden mark) ++ [delimiter content]

def text (content : Text) : Text :=
  between isHidden (delimiter content) content

def charsOf (content : List UInt8) : Text :=
  content.map fun byte => Char.ofNat byte.toNat

def isHiddenByte (c : Char) : Bool :=
  c.toNat < 0x20 || 0x7E < c.toNat

def bytes (content : List UInt8) : Text :=
  'b' :: between isHiddenByte (delimiter (charsOf content)) (charsOf content)

def byteArray (content : List UInt8) : Text :=
  "bytearray(b".toList ++ between isHiddenByte '\'' (charsOf content) ++ [')']

end Quoted

end Stencil
