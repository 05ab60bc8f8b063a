import Stencil.Json.Basic

/-!
Members under construction.  An object has one member for each key: putting a second value under a key
keeps the place of the first and takes the value of the second.
-/

set_option autoImplicit false
set_option relaxedAutoImplicit false

namespace Stencil

namespace Json

/-- Puts a value under a key: in the place of that key if it is there, at the end otherwise. -/
def put {α : Type} (key : Text) (value : α) : List (Text × α) → List (Text × α)
  | [] => [(key, value)]
  | member :: members =>
    if member.1 = key then (key, value) :: members else member :: put key value members

def collect {α : Type} (entries : List (Text × α)) : List (Text × α) :=
  entries.foldl (fun members entry => put entry.1 entry.2 members) []

end Json

end Stencil
