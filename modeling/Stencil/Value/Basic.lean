import Stencil.Number.Binary64
import Stencil.Number.Decimal

/-!
The values a template is rendered against.  A scalar holds no other value.  Sequences, maps and records
are objects with an identity: they live in a heap and are meant by their address, so a value can be
shared and can contain itself.  The keys of a map are finite trees of their own, because a key cannot
be changed and so cannot contain itself.
-/

set_option autoImplicit false
set_option relaxedAutoImplicit false

namespace Stencil

/-- A value that holds no other value. -/
inductive Scalar
  /-- What a path that leads nowhere stands for. -/
  | undefined
  | null
  | bool (value : Bool)
  | text (value : Text)
  | int (value : Int)
  | float (value : Binary64)
  | decimal (value : Decimal)
  | fraction (value : Rat)
  | complex (value : ComplexNumber)
  /-- The integers from `start` on in steps of `step`, without `stop` and what lies past it. -/
  | range (start stop step : Int)
  | set (elements : List Int)
  | frozenSet (elements : List Int)
  | bytes (content : List UInt8)
  | byteArray (content : List UInt8)
deriving DecidableEq

/-- A key of a map. -/
inductive Key
  | scalar (value : Scalar)
  | sequence (items : List Key)
  | record (shown : Text)

/-- A value in a heap of `n` objects. -/
inductive Value (n : Nat)
  | scalar (value : Scalar)
  | object (address : Fin n)
deriving DecidableEq

/-- What reading a public name of a record leads to. -/
inductive Member (n : Nat)
  /-- A value. -/
  | field (value : Value n)
  /-- Something to be called, which is no value. -/
  | method
  /-- A failure: its kind and its message, and whether it only says that the name is missing. -/
  | failing (missing : Bool) (fault message : Text)
deriving DecidableEq

inductive Object (n : Nat)
  | list (items : List (Value n))
  | tuple (items : List (Value n))
  | namedTuple (typeName : Text) (fields : List (Text × Value n))
  | map (entries : List (Key × Value n))
  | record (typeName shown : Text) (members : List (Text × Member n))

/-- A heap of `n` objects. -/
structure Heap (n : Nat) where
  object : Fin n → Object n

/-- A value together with the heap that it lives in. -/
structure Context where
  size : Nat
  heap : Heap size
  root : Value size

def Value.undefined {n : Nat} : Value n :=
  scalar .undefined

/-- The integers of a range, counted: how many steps fit between `start` and `stop`. -/
def rangeCount (start stop step : Int) : Nat :=
  if 0 < step then ((stop - start + step - 1) / step).toNat
  else if step < 0 then ((start - stop - step - 1) / -step).toNat
  else 0

def rangeItems (start stop step : Int) : List Int :=
  (List.range (rangeCount start stop step)).map fun (i : Nat) => start + i * step

namespace Object

def items? {n : Nat} : Object n → Option (List (Value n))
  | list items => some items
  | tuple items => some items
  | namedTuple _ fields => some (fields.map Prod.snd)
  | map _ => none
  | record .. => none

end Object

namespace Heap

/-- The elements of a sequence in order, and nothing for a value that is no sequence.  Texts, bytes
and sets are no sequences. -/
def elements? {n : Nat} (heap : Heap n) : Value n → Option (List (Value n))
  | .scalar (.range start stop step) =>
    some ((rangeItems start stop step).map fun i => .scalar (.int i))
  | .scalar _ => none
  | .object address => (heap.object address).items?

def isSequence {n : Nat} (heap : Heap n) : Value n → Bool
  | .scalar (.range ..) => true
  | .scalar _ => false
  | .object address => (heap.object address).items?.isSome

end Heap

end Stencil
