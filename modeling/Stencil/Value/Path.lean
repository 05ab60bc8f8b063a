import Stencil.Logged
import Stencil.Value.Basic

/-!
Paths into values.  A path is a list of segments separated by points.  Each segment is looked up among
the text keys of a map and read as a property of any other value; what is not there is the undefined
value, from which every further segment leads to itself.  So following a path is following its parts
in turn, and only a property whose reading fails is noted.
-/

set_option autoImplicit false
set_option relaxedAutoImplicit false

namespace Stencil

def Scalar.property (value : Scalar) (name : Text) : Scalar :=
  let real := name = "real".toList
  let imaginary := name = "imag".toList
  let numerator := name = "numerator".toList
  let denominator := name = "denominator".toList
  match value with
  | .int n =>
    if real ∨ numerator then .int n else if imaginary then .int 0
    else if denominator then .int 1 else .undefined
  | .bool b =>
    if real ∨ numerator then .int (if b then 1 else 0) else if imaginary then .int 0
    else if denominator then .int 1 else .undefined
  | .float x => if real then .float x else if imaginary then .float .zero else .undefined
  | .complex z =>
    if real then .float z.real else if imaginary then .float z.imaginary else .undefined
  | .decimal x => if real then .decimal x else if imaginary then .decimal .zero else .undefined
  | .fraction x =>
    if real then .fraction x else if imaginary then .int 0
    else if numerator then .int x.num else if denominator then .int x.den else .undefined
  | .range start stop step =>
    if name = "start".toList then .int start else if name = "stop".toList then .int stop
    else if name = "step".toList then .int step else .undefined
  | _ => .undefined

def Member.read {n : Nat} (typeName name : Text) : Option (Member n) → Logged (Value n)
  | some (.field value) => pure value
  | some (.failing false fault message) => do
    Logged.note (.unreadable name typeName fault message)
    pure .undefined
  | _ => pure .undefined

namespace Heap

/-- Reads a public property of a value that is no map.  A name that begins with an underscore is
private and leads nowhere. -/
def readProperty {n : Nat} (heap : Heap n) (value : Value n) (name : Text) : Logged (Value n) :=
  if name.head? = some '_' then pure .undefined
  else
    match value with
    | .scalar value => pure (.scalar (value.property name))
    | .object address =>
      match heap.object address with
      | .namedTuple _ fields => pure ((fields.lookup name).getD .undefined)
      | .record typeName _ members => Member.read typeName name (members.lookup name)
      | _ => pure .undefined

def lookup? {n : Nat} (name : Text) : List (Key × Value n) → Option (Value n)
  | [] => none
  | (.scalar (.text key), value) :: entries => if key = name then some value else lookup? name entries
  | _ :: entries => lookup? name entries

def follow {n : Nat} (heap : Heap n) (value : Value n) (name : Text) : Logged (Value n) :=
  match value with
  | .scalar _ => heap.readProperty value name
  | .object address =>
    match heap.object address with
    | .map entries => pure ((lookup? name entries).getD .undefined)
    | _ => heap.readProperty value name

def walk {n : Nat} (heap : Heap n) (value : Value n) : List Text → Logged (Value n)
  | [] => pure value
  | name :: names => do
    let next ← heap.follow value name
    heap.walk next names

/-- The value that a path leads to. -/
def resolve {n : Nat} (heap : Heap n) (path : Text) (value : Value n) : Logged (Value n) :=
  heap.walk value (Text.pieces '.' path)

def textKeys? {n : Nat} (heap : Heap n) : Value n → Option (List Text)
  | .scalar _ => none
  | .object address =>
    match heap.object address with
    | .map entries =>
      some (entries.filterMap fun entry =>
        match entry.1 with
        | .scalar (.text key) => some key
        | _ => none)
    | _ => none

end Heap

end Stencil
