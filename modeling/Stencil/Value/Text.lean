import Stencil.Json.Members
import Stencil.Text.Quoted
import Stencil.Value.Basic

/-!
The text of a value.  What is missing or null has no text, texts stand for themselves, and sequences
and maps are written as structured data.  For that the heap is unfolded into a tree from the value on;
an object met again among its own ancestors is replaced by a mark, so the tree is finite although the
heap may hold cycles, and an object met twice on different paths is written twice.  An integer is
written with all its digits and a tree to its full depth; no limit on either is modelled.
-/

set_option autoImplicit false
set_option relaxedAutoImplicit false

namespace Stencil

def setText (elements : List Int) : Text :=
  '{' :: Text.joined [',', ' '] (elements.map intText) ++ ['}']

def fractionText (value : Rat) : Text :=
  if value.den = 1 then intText value.num else intText value.num ++ '/' :: natText value.den

namespace Scalar

/-- How the undefined value is called where a name for it is needed. -/
def undefinedName : Text :=
  "Undefined".toList

def shown : Scalar → Text
  | undefined => []
  | null => []
  | bool true => "true".toList
  | bool false => "false".toList
  | text value => value
  | int value => intText value
  | float value => value.text FloatLayout.plain
  | decimal value => value.text
  | fraction value => fractionText value
  | complex value => value.text
  | range start stop step => (Json.array ((rangeItems start stop step).map Json.int)).print
  | set elements => if elements = [] then "set()".toList else setText elements
  | frozenSet elements =>
    if elements = [] then "frozenset()".toList
    else "frozenset(".toList ++ setText elements ++ [')']
  | bytes content => Quoted.bytes content
  | byteArray content => Quoted.byteArray content

/-- A scalar inside structured data: what has no form of its own there becomes its text. -/
def toJson : Scalar → Json
  | null => .null
  | bool value => .bool value
  | text value => .text value
  | int value => .int value
  | float value => .float value
  | range start stop step => .array ((rangeItems start stop step).map .int)
  | other => .text other.shown

end Scalar

namespace Key

mutual

def toJson : Key → Json
  | scalar value => value.toJson
  | sequence items => .array (toJsonItems items)
  | record shown => .text shown

def toJsonItems : List Key → List Json
  | [] => []
  | item :: items => toJson item :: toJsonItems items

end

/-- The text of a key, under which its value is filed. -/
def shown : Key → Text
  | scalar value => value.shown
  | sequence items => (toJson (sequence items)).print
  | record shown => shown

end Key

def sequenceMark : Json :=
  .text "[...]".toList

def mapMark : Json :=
  .text ['{', '.', '.', '.', '}']

def freeCount {n : Nat} (ancestors : List (Fin n)) : List (Fin n) → Nat
  | [] => 0
  | address :: others =>
    (if address ∈ ancestors then 0 else 1) + freeCount ancestors others

theorem freeCount_cons_le {n : Nat} (address : Fin n) (ancestors addresses : List (Fin n)) :
    freeCount (address :: ancestors) addresses ≤ freeCount ancestors addresses := by
  induction addresses with
  | nil => simp [freeCount]
  | cons first others ih => grind [freeCount]

theorem freeCount_cons_lt {n : Nat} {address : Fin n} {ancestors : List (Fin n)}
    (fresh : address ∉ ancestors) {addresses : List (Fin n)} (here : address ∈ addresses) :
    freeCount (address :: ancestors) addresses < freeCount ancestors addresses := by
  induction addresses with
  | nil => simp at here
  | cons first others ih => grind [freeCount, freeCount_cons_le]

/-- What an object shows of itself: a text, elements, or values filed under texts. -/
inductive Content (n : Nat)
  | leaf (shown : Text)
  | items (items : List (Value n))
  | entries (entries : List (Text × Value n))

def Object.content {n : Nat} : Object n → Content n
  | list items => .items items
  | tuple items => .items items
  | namedTuple _ fields => .items (fields.map Prod.snd)
  | map entries => .entries (entries.map fun entry => (entry.1.shown, entry.2))
  | record _ shown _ => .leaf shown

namespace Heap

/-- The tree of a value whose ancestors are given, from the nearest on. -/
def unfold {n : Nat} (heap : Heap n) (ancestors : List (Fin n)) : Value n → Json
  | .scalar value => value.toJson
  | .object address =>
    match (heap.object address).content with
    | .leaf shown => .text shown
    | .items items =>
      if address ∈ ancestors then sequenceMark
      else .array (items.map fun item => unfold heap (address :: ancestors) item)
    | .entries entries =>
      if address ∈ ancestors then mapMark
      else .object (Json.collect (entries.map fun entry =>
        (entry.1, unfold heap (address :: ancestors) entry.2)))
termination_by freeCount ancestors (List.finRange n)
decreasing_by
  all_goals exact freeCount_cons_lt (by assumption) (List.mem_finRange address)

def shown {n : Nat} (heap : Heap n) : Value n → Text
  | .scalar value => value.shown
  | .object address =>
    match (heap.object address).content with
    | .leaf shown => shown
    | _ => (heap.unfold [] (.object address)).print

end Heap

end Stencil
