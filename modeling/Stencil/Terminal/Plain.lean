import Stencil.Terminal.Color

/-!
Taking escape sequences out of a text.  A short sequence is the escape character and one character of
its own range; a long one begins with a bracket, and goes on with parameters, then intermediate
characters, up to its final character.  Sequences are taken out in one pass from left to right.
-/

set_option autoImplicit false
set_option relaxedAutoImplicit false

namespace Stencil

namespace Escape

def isShort (c : Char) : Bool :=
  (0x40 ≤ c.toNat && c.toNat ≤ 0x5A) || (0x5C ≤ c.toNat && c.toNat ≤ 0x5F)

def isParameter (c : Char) : Bool :=
  0x30 ≤ c.toNat && c.toNat ≤ 0x3F

def isIntermediate (c : Char) : Bool :=
  0x20 ≤ c.toNat && c.toNat ≤ 0x2F

def isFinal (c : Char) : Bool :=
  0x40 ≤ c.toNat && c.toNat ≤ 0x7E

/-- What follows the rest of a long sequence, from its parameters on. -/
def pastLong? (text : Text) : Option Text :=
  match (text.dropWhile isParameter).dropWhile isIntermediate with
  | c :: rest => if isFinal c then some rest else none
  | [] => none

def past? : Text → Option Text
  | first :: c :: text =>
    if first = escapeChar then
      if c = '[' then pastLong? text else if isShort c then some text else none
    else none
  | _ => none

theorem length_pastLong?_lt {text rest : Text} (h : pastLong? text = some rest) :
    rest.length < text.length := by
  simp only [pastLong?] at h
  split at h
  · next c after heq =>
    have outer : ((text.dropWhile isParameter).dropWhile isIntermediate).length ≤
        (text.dropWhile isParameter).length := (List.dropWhile_suffix _).length_le
    have inner : (text.dropWhile isParameter).length ≤ text.length :=
      (List.dropWhile_suffix _).length_le
    rw [heq, List.length_cons] at outer
    split at h
    · cases h
      omega
    · simp at h
  · simp at h

theorem length_past?_lt {text rest : Text} (h : past? text = some rest) :
    rest.length < text.length := by
  unfold past? at h
  split at h
  · next first c text =>
    simp only [List.length_cons]
    split at h
    · split at h
      · have := length_pastLong?_lt h
        omega
      · split at h
        · cases h
          omega
        · simp at h
    · simp at h
  · simp at h

def strip : Text → Text
  | [] => []
  | c :: text =>
    match _sequence : past? (c :: text) with
    | some rest => strip rest
    | none => c :: strip text
termination_by text => text.length
decreasing_by
  · exact length_past?_lt _sequence
  · simp

end Escape

end Stencil
