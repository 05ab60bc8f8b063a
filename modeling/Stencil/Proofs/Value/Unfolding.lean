import Stencil.Proofs.Value.Shape
import Mathlib

/-!
The tree that a value unfolds into.  What shows of the tree at a path is told from the heap alone: the
path is followed through the heap, and the objects that it passes are the ancestors of what it leads to.
An object among its own ancestors shows as a mark, and everything else shows as it is, however often it
was met elsewhere.  Where nothing is led to again from itself, no mark is met at all.
-/

set_option autoImplicit false
set_option relaxedAutoImplicit false

namespace Stencil

/-- The leaf of a scalar that is no sequence: null, truth values, numbers and texts as themselves, and
the text of anything else. -/
def Scalar.leaf : Scalar → Json.Leaf
  | .null => .null
  | .bool value => .bool value
  | .int value => .int value
  | .float value => .float value
  | .text value => .text value
  | other => .text other.shown

def Value.addresses {n : Nat} : Value n → List (Fin n)
  | .scalar _ => []
  | .object address => [address]

def Value.isAmong {n : Nat} (addresses : List (Fin n)) : Value n → Bool
  | .scalar _ => false
  | .object address => addresses.contains address

theorem Value.isAmong_iff {n : Nat} {addresses : List (Fin n)} {value : Value n} :
    value.isAmong addresses = true ↔ ∃ address ∈ addresses, value = .object address := by
  cases value with
  | scalar value => simp [isAmong]
  | object address => simp [isAmong]

namespace Heap

variable {n : Nat} (heap : Heap n)

def shape : Value n → Shape (Value n)
  | .scalar (.range start stop step) =>
    .sequence ((rangeItems start stop step).map fun i => .scalar (.int i))
  | .scalar value => .leaf value.leaf
  | .object address =>
    match (heap.object address).content with
    | .leaf shown => .leaf (.text shown)
    | .items items => .sequence items
    | .entries entries => .map (Json.collect entries)

/-- The objects that a path passes before it comes to its end, from the last on. -/
def trail : List Nat → Value n → List (Fin n)
  | [], _ => []
  | i :: path, value => (heap.shape value).parts[i]?.elim [] (trail path) ++ value.addresses

def face (ancestors : List (Fin n)) (value : Value n) : Shape Unit :=
  if value.isAmong ancestors then .leaf (heap.shape value).mark
  else (heap.shape value).face

/-- What shows of the unfolded value at a path.  No path goes on from an object that stands below
itself. -/
def unfolded? (value : Value n) (path : List Nat) : Option (Shape Unit) :=
  if (heap.trail path value).Nodup then
    (Shape.at? heap.shape path value).map (heap.face (heap.trail path value))
  else none

theorem shape_unfold_again {ancestors : List (Fin n)} {value : Value n}
    (again : value.isAmong ancestors = true) :
    (heap.unfold ancestors value).shape = .leaf (heap.shape value).mark := by
  obtain ⟨address, above, rfl⟩ := Value.isAmong_iff.1 again
  rw [unfold, shape]
  cases (heap.object address).content with
  | leaf shown => rfl
  | items items => exact congrArg Json.shape (if_pos above)
  | entries entries => exact congrArg Json.shape (if_pos above)

theorem shape_unfold_scalar (ancestors : List (Fin n)) (value : Scalar) :
    (heap.unfold ancestors (.scalar value)).shape =
      (heap.shape (.scalar value)).onParts (heap.unfold ancestors) := by
  rw [unfold]
  cases value with
  | range start stop step =>
    have item (i : Int) : heap.unfold ancestors (.scalar (.int i)) = .int i := by
      rw [unfold]
      rfl
    simp only [shape, Shape.onParts, List.map_map, Function.comp_def, item]
    rfl
  | _ => rfl

theorem shape_unfold {ancestors : List (Fin n)} {value : Value n}
    (first : ¬value.isAmong ancestors = true) :
    (heap.unfold ancestors value).shape =
      (heap.shape value).onParts (heap.unfold (value.addresses ++ ancestors)) := by
  cases value with
  | scalar value => exact heap.shape_unfold_scalar ancestors value
  | object address =>
    have fresh : address ∉ ancestors := fun above =>
      first (Value.isAmong_iff.2 ⟨address, above, rfl⟩)
    rw [unfold, shape]
    cases (heap.object address).content with
    | leaf shown => rfl
    | items items => exact congrArg Json.shape (if_neg fresh)
    | entries entries =>
      refine (congrArg Json.shape (if_neg fresh)).trans ?_
      rw [Json.collect_map]
      rfl

theorem face_unfold (ancestors : List (Fin n)) (value : Value n) :
    (heap.unfold ancestors value).shape.face = heap.face ancestors value := by
  rw [face]
  split
  · next again => rw [heap.shape_unfold_again again]; rfl
  · next first => rw [heap.shape_unfold first, Shape.face_onParts]

/-- The part of an unfolded value at a path is unfolded with everything on the path as ancestors. -/
theorem at?_unfold (path : List Nat) {ancestors : List (Fin n)} (distinct : ancestors.Nodup)
    (value : Value n) :
    Shape.at? Json.shape path (heap.unfold ancestors value) =
      if (heap.trail path value ++ ancestors).Nodup then
        (Shape.at? heap.shape path value).map (heap.unfold (heap.trail path value ++ ancestors))
      else none := by
  induction path generalizing value ancestors with
  | nil => exact (if_pos distinct).symm
  | cons i path ih =>
    rw [Shape.at?, Shape.at?, trail, List.append_assoc]
    by_cases again : value.isAmong ancestors = true
    · have repeated : ¬(value.addresses ++ ancestors).Nodup := by
        obtain ⟨address, above, rfl⟩ := Value.isAmong_iff.1 again
        intro nodup
        exact (List.nodup_cons.1 nodup).1 above
      rw [heap.shape_unfold_again again, if_neg]
      · rfl
      · intro nodup
        exact repeated (List.nodup_append.1 nodup).2.1
    · -- The part is unfolded with the whole as a further ancestor, and the trail of the rest of the
      -- path ends where these ancestors begin.
      have fresh : (value.addresses ++ ancestors).Nodup := by
        cases value with
        | scalar value => exact distinct
        | object address =>
          refine List.nodup_cons.2 ⟨?_, distinct⟩
          exact fun above => again (Value.isAmong_iff.2 ⟨address, above, rfl⟩)
      rw [heap.shape_unfold again, Shape.parts_onParts, List.getElem?_map]
      cases (heap.shape value).parts[i]? with
      | none => exact (if_pos fresh).symm
      | some part => exact ih fresh part

theorem face?_unfold (value : Value n) (path : List Nat) :
    (heap.unfold [] value).face? path = heap.unfolded? value path := by
  rw [Json.face?, heap.at?_unfold path List.nodup_nil, List.append_nil, unfolded?]
  split
  · rw [Option.map_map]
    exact congrArg (Option.map · _) (funext (heap.face_unfold _))
  · rfl

theorem exists_of_unfolded? {value : Value n} {path : List Nat} {shown : Shape Unit}
    (shows : heap.unfolded? value path = some shown) :
    (heap.trail path value).Nodup ∧ ∃ part, Shape.at? heap.shape path value = some part ∧
      heap.face (heap.trail path value) part = shown := by
  rw [unfolded?] at shows
  split at shows
  · next distinct => exact ⟨distinct, Option.map_eq_some_iff.1 shows⟩
  · cases shows

/-- What shows of a value at a path, however often the path comes back to an object. -/
def face? (value : Value n) (path : List Nat) : Option (Shape Unit) :=
  (Shape.at? heap.shape path value).map fun part => (heap.shape part).face

/-- Whether no value that a path leads to is led to again from itself. -/
def IsAcyclic (value : Value n) : Prop :=
  ∀ path part, Shape.at? heap.shape path value = some part →
    ∀ cycle, cycle ≠ [] → Shape.at? heap.shape cycle part ≠ some part

def IsContainer (value : Value n) : Prop :=
  ∀ content, heap.shape value ≠ .leaf content

variable {heap} {value : Value n}

theorem exists_of_mem_trail {address : Fin n} {path : List Nat}
    (passed : address ∈ heap.trail path value) :
    ∃ front behind, path = front ++ behind ∧ behind ≠ [] ∧
      Shape.at? heap.shape front value = some (.object address) := by
  induction path generalizing value with
  | nil => cases passed
  | cons i path ih =>
    rcases List.mem_append.1 passed with later | own
    · cases found : (heap.shape value).parts[i]? with
      | none =>
        rw [found] at later
        cases later
      | some part =>
        rw [found] at later
        obtain ⟨front, behind, rfl, more, leads⟩ := ih later
        refine ⟨i :: front, behind, rfl, more, ?_⟩
        rw [Shape.at?, found]
        exact leads
    · cases value with
      | scalar value => cases own
      | object address' =>
        cases List.mem_singleton.1 own
        exact ⟨[], i :: path, rfl, List.cons_ne_nil _ _, rfl⟩

theorem IsAcyclic.not_mem_trail (acyclic : heap.IsAcyclic value) {path : List Nat} {address : Fin n}
    (leads : Shape.at? heap.shape path value = some (.object address)) :
    address ∉ heap.trail path value := by
  intro passed
  obtain ⟨front, behind, rfl, more, earlier⟩ := exists_of_mem_trail passed
  rw [Shape.at?_append, earlier] at leads
  exact acyclic front _ earlier behind more leads

theorem IsAcyclic.nodup_trail (acyclic : heap.IsAcyclic value) (path : List Nat) :
    (heap.trail path value).Nodup := by
  induction path generalizing value with
  | nil => exact List.nodup_nil
  | cons i path ih =>
    have own : value.addresses.Nodup := by
      cases value with
      | scalar value => exact List.nodup_nil
      | object address => exact List.nodup_singleton address
    rw [trail]
    cases found : (heap.shape value).parts[i]? with
    | none => exact own
    | some part =>
      have acyclic_part : heap.IsAcyclic part := by
        intro path' part' leads
        refine acyclic (i :: path') part' ?_
        rw [Shape.at?, found]
        exact leads
      refine List.nodup_append.2 ⟨ih acyclic_part, own, ?_⟩
      rintro address later address' here rfl
      cases value with
      | scalar value => cases here
      | object address' =>
        cases List.mem_singleton.1 here
        obtain ⟨front, behind, -, -, leads⟩ := exists_of_mem_trail later
        refine acyclic [] _ rfl (i :: front) (List.cons_ne_nil _ _) ?_
        rw [Shape.at?, found]
        exact leads

theorem IsAcyclic.unfolded?_eq (acyclic : heap.IsAcyclic value) (path : List Nat) :
    heap.unfolded? value path = heap.face? value path := by
  rw [unfolded?, if_pos (acyclic.nodup_trail path), face?]
  refine Option.map_congr fun part leads => ?_
  rw [face, if_neg]
  intro again
  obtain ⟨address, passed, rfl⟩ := Value.isAmong_iff.1 again
  exact acyclic.not_mem_trail leads passed

theorem parts_of_mem_scalar {value : Scalar} {part : Value n}
    (member : part ∈ (heap.shape (.scalar value)).parts) : (heap.shape part).parts = [] := by
  cases value with
  | range start stop step =>
    obtain ⟨i, -, rfl⟩ := List.mem_map.1 member
    rfl
  | _ => cases member

theorem length_le_of_at? {path : List Nat} {part : Value n}
    (leads : Shape.at? heap.shape path value = some part) :
    path.length ≤ (heap.trail path value).length + 1 := by
  induction path generalizing value with
  | nil => exact Nat.zero_le _
  | cons i path ih =>
    rw [Shape.at?] at leads
    obtain ⟨next, found, onwards⟩ := Option.bind_eq_some_iff.1 leads
    rw [trail, found, List.length_append, List.length_cons]
    cases value with
    | object address => exact Nat.add_le_add_right (ih onwards) 1
    | scalar value =>
      cases path with
      | nil => exact Nat.le_add_left 1 _
      | cons j path =>
        rw [Shape.at?, parts_of_mem_scalar (List.mem_of_getElem? found)] at onwards
        cases onwards

theorem shown_eq_print (container : heap.IsContainer value) :
    heap.shown value = (heap.unfold [] value).print := by
  cases value with
  | scalar value =>
    rw [shown, unfold]
    cases value with
    | range start stop step => rfl
    | _ => exact absurd rfl (container _)
  | object address =>
    rw [shown]
    cases found : (heap.object address).content with
    | leaf shown =>
      have leaf : heap.shape (.object address) = .leaf (.text shown) := by rw [shape, found]
      exact absurd leaf (container _)
    | items items => rfl
    | entries entries => rfl

theorem IsContainer.of_face? {m : Nat} {other : Heap m} {copy : Value m}
    (container : heap.IsContainer value)
    (same : ∀ path, other.face? copy path = heap.face? value path) : other.IsContainer copy := by
  intro content leaf
  have faces : (other.shape copy).face = (heap.shape value).face := Option.some.inj (same [])
  rw [leaf] at faces
  cases shape_eq : heap.shape value with
  | leaf content' => exact container content' shape_eq
  | sequence items =>
    rw [shape_eq] at faces
    cases faces
  | map members =>
    rw [shape_eq] at faces
    cases faces

/-- A number that falls from a whole to its parts where objects come before those that they hold. -/
private def height : Value n → Nat
  | .scalar (.range ..) => 1
  | .scalar _ => 0
  | .object address => n + 1 - address

private theorem height_lt
    (later : ∀ address, ∀ part ∈ (heap.shape (.object address)).parts, ∀ address' ∈ part.addresses,
      address < address') {whole part : Value n} (member : part ∈ (heap.shape whole).parts) :
    height part < height whole := by
  cases whole with
  | scalar value =>
    cases value with
    | range start stop step =>
      obtain ⟨i, -, rfl⟩ := List.mem_map.1 member
      exact Nat.zero_lt_one
    | _ => cases member
  | object address =>
    have positive : 1 < height (.object address) := by
      rw [height]
      omega
    cases part with
    | scalar value =>
      have small : height (.scalar value : Value n) ≤ 1 := by cases value <;> simp [height]
      exact Nat.lt_of_le_of_lt small positive
    | object address' =>
      have further : address < address' := later address _ member address' (List.mem_singleton_self _)
      rw [height, height]
      omega

theorem isAcyclic_of_later
    (later : ∀ address, ∀ part ∈ (heap.shape (.object address)).parts, ∀ address' ∈ part.addresses,
      address < address') (value : Value n) : heap.IsAcyclic value := by
  have bound (path : List Nat) : ∀ whole part, Shape.at? heap.shape path whole = some part →
      path.length + height part ≤ height whole := by
    induction path with
    | nil =>
      intro whole part leads
      cases leads
      exact Nat.le_of_eq (Nat.zero_add _)
    | cons i path ih =>
      intro whole part leads
      obtain ⟨next, found, onwards⟩ := Option.bind_eq_some_iff.1 leads
      have first := height_lt later (List.mem_of_getElem? found)
      have others := ih next part onwards
      rw [List.length_cons]
      omega
  intro path part _ cycle more again
  have positive := List.length_pos_iff.2 more
  have falls := bound cycle part part again
  omega

/-- The text of a sequence or a map is that of the tree it unfolds into, an object below itself being
replaced by a mark and nothing else.  The tree is no deeper than there are objects, and of a value
without cycles it shows everything, wherever its objects lie. -/
theorem shown_unfolded (heap : Heap n) {value : Value n} (container : heap.IsContainer value) :
    ∃ tree : Json, heap.shown value = tree.print ∧
      (∀ path, tree.face? path = heap.unfolded? value path) ∧
      (∀ other : Json, (∀ path, other.face? path = heap.unfolded? value path) → other = tree) ∧
      (∀ path, (tree.face? path).isSome = true → path.length ≤ n + 1) ∧
      (heap.IsAcyclic value → (∀ path, tree.face? path = heap.face? value path) ∧
        ∀ {m : Nat} (other : Heap m) (copy : Value m), other.IsAcyclic copy →
          (∀ path, other.face? copy path = heap.face? value path) →
          other.shown copy = heap.shown value) := by
  have unfolds := heap.face?_unfold value
  refine ⟨heap.unfold [] value, shown_eq_print container, unfolds, ?_, ?_, ?_⟩
  · intro other same
    exact Json.eq_of_face? fun path => (same path).trans (unfolds path).symm
  · intro path seen
    rw [unfolds] at seen
    obtain ⟨shown, shows⟩ := Option.isSome_iff_exists.1 seen
    obtain ⟨distinct, part, leads, -⟩ := heap.exists_of_unfolded? shows
    have passed := distinct.length_le_card
    rw [Fintype.card_fin] at passed
    have bound := length_le_of_at? leads
    omega
  · intro acyclic
    have whole (path : List Nat) : (heap.unfold [] value).face? path = heap.face? value path :=
      (unfolds path).trans (acyclic.unfolded?_eq path)
    refine ⟨whole, ?_⟩
    intro m other copy acyclic_copy same
    have trees : other.unfold [] copy = heap.unfold [] value := by
      refine Json.eq_of_face? fun path => ?_
      rw [whole, ← same, other.face?_unfold, acyclic_copy.unfolded?_eq]
    rw [shown_eq_print container, shown_eq_print (container.of_face? same), trees]

/-- A map and a tuple that hold each other, and a list that holds the map twice. -/
private def knot : Heap 3 where
  object
    | 0 => .tuple [.object 1]
    | 1 => .map [(.scalar (.text ['a']), .object 0)]
    | 2 => .list [.object 1, .object 1]

private theorem shown_knot : knot.shown (.object 0) = "[\x7b\"a\":\"[...]\"\x7d]".toList := by
  cbv

private theorem shown_knot_twice : knot.shown (.object 2) =
    "[\x7b\"a\":[\"\x7b...\x7d\"]\x7d,\x7b\"a\":[\"\x7b...\x7d\"]\x7d]".toList := by
  cbv

private def diamond : Heap 3 where
  object
    | 0 => .list [.object 1, .object 1]
    | 1 => .tuple [.object 2]
    | 2 => .list []

private theorem shown_diamond : diamond.shown (.object 0) = "[[[]],[[]]]".toList := by
  cbv

theorem shown_unfolded_knot :
    (∃ tree : Json, knot.shown (.object 0) = tree.print ∧
        ∀ path, tree.face? path = knot.unfolded? (.object 0) path) ∧
      knot.shown (.object 0) = "[\x7b\"a\":\"[...]\"\x7d]".toList ∧
      knot.shown (.object 2) =
        "[\x7b\"a\":[\"\x7b...\x7d\"]\x7d,\x7b\"a\":[\"\x7b...\x7d\"]\x7d]".toList ∧
      (∃ tree : Json, diamond.shown (.object 0) = tree.print ∧
        ∀ path, tree.face? path = diamond.face? (.object 0) path) ∧
      diamond.shown (.object 0) = "[[[]],[[]]]".toList := by
  refine ⟨?_, shown_knot, shown_knot_twice, ?_, shown_diamond⟩
  · have container : knot.IsContainer (.object 0) := by
      intro content leaf
      cases leaf
    obtain ⟨tree, printed, unfolds, -⟩ := shown_unfolded knot container
    exact ⟨tree, printed, unfolds⟩
  · have container : diamond.IsContainer (.object 0) := by
      intro content leaf
      cases leaf
    have acyclic : diamond.IsAcyclic (.object 0) := isAcyclic_of_later (by decide) _
    obtain ⟨tree, printed, -, -, -, whole⟩ := shown_unfolded diamond container
    exact ⟨tree, printed, (whole acyclic).1⟩

end Heap

end Stencil
