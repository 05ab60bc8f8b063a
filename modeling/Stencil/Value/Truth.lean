import Stencil.Value.Basic

/-!
Truth of values.  What is missing or null is false, a truth value is itself, a text is true when it
has a character, a number when it is not zero, and what holds elements or entries when it holds one.
Everything else is true, whatever it might say about itself.  Lengths are counted without a bound, so a
range is true however long it is, also where a machine word cannot hold its length.
-/

set_option autoImplicit false
set_option relaxedAutoImplicit false

namespace Stencil

def Scalar.isTrue : Scalar → Bool
  | undefined => false
  | null => false
  | bool value => value
  | text value => !value.isEmpty
  | int value => value ≠ 0
  | float value => !value.isZero
  | decimal value => !value.isZero
  | fraction value => value ≠ 0
  | complex value => !value.isZero
  | range start stop step => 0 < rangeCount start stop step
  | set elements => !elements.isEmpty
  | frozenSet elements => !elements.isEmpty
  | bytes _ => true
  | byteArray _ => true

def Object.isTrue {n : Nat} : Object n → Bool
  | list items => !items.isEmpty
  | tuple items => !items.isEmpty
  | namedTuple _ fields => !fields.isEmpty
  | map entries => !entries.isEmpty
  | record .. => true

def Heap.isTrue {n : Nat} (heap : Heap n) : Value n → Bool
  | .scalar value => value.isTrue
  | .object address => (heap.object address).isTrue

end Stencil
