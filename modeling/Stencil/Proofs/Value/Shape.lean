import Stencil.Proofs.Json.Grammar
import Stencil.Proofs.Json.Members
import Stencil.Value.Text
import Mathlib.Data.List.Zip
import Mathlib.Data.Nat.Init

/-!
Shapes of values and of documents.  A whole is a leaf, a row of parts, or parts filed under texts.  Both
the values of a heap and documents have a shape, so both can be walked along the same paths, and what
shows at a path can be compared.  A path is the numbers of the parts that it goes through.
-/

set_option autoImplicit false
set_option relaxedAutoImplicit false

namespace Stencil

/-- What a whole is made of. -/
inductive Shape (α : Type)
  | leaf (content : Json.Leaf)
  | sequence (items : List α)
  | map (members : List (Text × α))

namespace Shape

variable {α β : Type}

def parts : Shape α → List α
  | leaf _ => []
  | sequence items => items
  | map members => members.map Prod.snd

def onParts (f : α → β) : Shape α → Shape β
  | leaf content => leaf content
  | sequence items => sequence (items.map f)
  | map members => map (members.map fun member => (member.1, f member.2))

/-- What shows of a whole without its parts: a leaf, how many items, or the texts in order. -/
def face (shape : Shape α) : Shape Unit :=
  shape.onParts fun _ => ()

def mark : Shape α → Json.Leaf
  | leaf content => content
  | sequence _ => .text "[...]".toList
  | map _ => .text ['{', '.', '.', '.', '}']

def at? (shape : α → Shape α) : List Nat → α → Option α
  | [], whole => some whole
  | i :: path, whole => (shape whole).parts[i]?.bind (at? shape path)

@[simp]
theorem parts_onParts (f : α → β) (shape : Shape α) :
    (shape.onParts f).parts = shape.parts.map f := by
  cases shape with
  | leaf content => rfl
  | sequence items => rfl
  | map members => simp [onParts, parts]

@[simp]
theorem face_onParts (f : α → β) (shape : Shape α) : (shape.onParts f).face = shape.face := by
  cases shape with
  | leaf content => rfl
  | sequence items => simp only [face, onParts, List.map_map, Function.comp_def]
  | map members => simp only [face, onParts, List.map_map, Function.comp_def]

theorem ext {first second : Shape α} (faces : first.face = second.face)
    (same : first.parts = second.parts) : first = second := by
  cases first with
  | leaf content =>
    cases second <;> cases faces
    rfl
  | sequence items =>
    cases second with
    | sequence items' => exact congrArg sequence same
    | leaf content => cases faces
    | map members => cases faces
  | map members =>
    cases second with
    | map members' =>
      have keys : members.map Prod.fst = members'.map Prod.fst := by
        have unfiled := congrArg (List.map Prod.fst) (Shape.map.inj faces)
        simpa only [List.map_map, Function.comp_def] using unfiled
      exact congrArg map ((List.zip_of_prod keys same).trans (List.zip_of_prod rfl rfl).symm)
    | leaf content => cases faces
    | sequence items => cases faces

theorem at?_append (shape : α → Shape α) (front behind : List Nat) (whole : α) :
    at? shape (front ++ behind) whole = (at? shape front whole).bind (at? shape behind) := by
  induction front generalizing whole with
  | nil => rfl
  | cons i front ih =>
    rw [List.cons_append, at?, at?, Option.bind_assoc]
    exact Option.bind_congr fun part _ => ih part

theorem of_at? {shape : α → Shape α} {holds : α → Prop}
    (onwards : ∀ whole, holds whole → ∀ part ∈ (shape whole).parts, holds part) {path : List Nat}
    {whole part : α} (leads : at? shape path whole = some part) (first : holds whole) :
    holds part := by
  induction path generalizing whole with
  | nil =>
    cases leads
    exact first
  | cons i path ih =>
    obtain ⟨next, found, rest⟩ := Option.bind_eq_some_iff.1 leads
    exact ih rest (onwards whole first next (List.mem_of_getElem? found))

theorem at?_cons_of_mem {shape : α → Shape α} {whole part : α} (member : part ∈ (shape whole).parts) :
    ∃ i, ∀ path, at? shape (i :: path) whole = at? shape path part := by
  obtain ⟨i, found⟩ := List.mem_iff_getElem?.1 member
  refine ⟨i, fun path => ?_⟩
  rw [at?, found]
  rfl

end Shape

namespace Json

def shape : Json → Shape Json
  | null => .leaf .null
  | bool value => .leaf (.bool value)
  | int value => .leaf (.int value)
  | float value => .leaf (.float value)
  | text value => .leaf (.text value)
  | array items => .sequence items
  | object members => .map members

theorem shape_injective {first second : Json} (same : first.shape = second.shape) :
    first = second := by
  cases first <;> cases second <;> cases same <;> rfl

def face? (document : Json) (path : List Nat) : Option (Shape Unit) :=
  (Shape.at? shape path document).map fun part => part.shape.face

theorem sizeOf_lt_of_mem_parts {part document : Json} (member : part ∈ document.shape.parts) :
    sizeOf part < sizeOf document := by
  cases document with
  | array items =>
    have smaller : sizeOf part < sizeOf items := List.sizeOf_lt_of_mem member
    rw [Json.array.sizeOf_spec]
    omega
  | object members =>
    obtain ⟨⟨key, part'⟩, filed, rfl⟩ := List.mem_map.1 member
    have smaller := List.sizeOf_lt_of_mem filed
    rw [Prod.mk.sizeOf_spec] at smaller
    rw [Json.object.sizeOf_spec]
    dsimp only
    omega
  | _ => cases member

/-- Documents that show the same at every path are the same. -/
theorem eq_of_face? {first second : Json} (same : ∀ path, first.face? path = second.face? path) :
    first = second := by
  -- The parts are not arguments of a constructor, so the induction is on the size.
  induction size : sizeOf first using Nat.strong_induction_on generalizing first second with
  | _ size' ih =>
  subst size
  have faces : first.shape.face = second.shape.face := Option.some.inj (same [])
  have at_part (i : Nat) : first.shape.parts[i]? = second.shape.parts[i]? := by
    have deeper (path : List Nat) := same (i :: path)
    simp only [face?, Shape.at?] at deeper
    cases here : first.shape.parts[i]? with
    | none =>
      cases there : second.shape.parts[i]? with
      | none => rfl
      | some part =>
        rw [here, there] at deeper
        cases deeper []
    | some part =>
      cases there : second.shape.parts[i]? with
      | none =>
        rw [here, there] at deeper
        cases deeper []
      | some part' =>
        rw [here, there] at deeper
        have smaller := sizeOf_lt_of_mem_parts (List.mem_of_getElem? here)
        rw [ih _ smaller deeper rfl]
  exact shape_injective (Shape.ext faces (List.ext_getElem? at_part))

end Json

end Stencil
