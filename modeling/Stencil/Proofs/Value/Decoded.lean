import Stencil.Proofs.Json.Decode
import Stencil.Proofs.Json.Printed
import Stencil.Proofs.Value.Unfolding

/-!
Decoding the texts of values.  Without floating-point numbers the text of a sequence or a map is decoded
to the tree that the value unfolds into, and where a value is nothing but structured data without
cycles that tree is the value again.
-/

set_option autoImplicit false
set_option relaxedAutoImplicit false

namespace Stencil

namespace Json

theorem exists_mem_of_mem_itemTokens {content : Leaf} {items : List Json}
    (member : .leaf content ∈ itemTokens items) :
    ∃ item ∈ items, .leaf content ∈ item.tokens := by
  rcases List.eq_nil_or_concat items with rfl | ⟨before, last, rfl⟩
  · cases member
  · rw [List.concat_eq_append, itemTokens_concat, List.mem_append] at member
    rw [List.concat_eq_append]
    rcases member with early | late
    · obtain ⟨item, among, here⟩ := List.mem_flatMap.1 early
      have inside : .leaf content ∈ item.tokens := by simpa using here
      exact ⟨item, List.mem_append_left _ among, inside⟩
    · exact ⟨last, List.mem_append_right _ (List.mem_singleton_self _), late⟩

theorem mem_memberToken_iff {value : Binary64} {member : Text × Json} :
    .leaf (.float value) ∈ memberToken member ↔ .leaf (.float value) ∈ member.2.tokens := by
  cases member
  simp [memberToken]

theorem exists_mem_of_mem_memberTokens {value : Binary64} {members : List (Text × Json)}
    (member : .leaf (.float value) ∈ memberTokens members) :
    ∃ member ∈ members, .leaf (.float value) ∈ member.2.tokens := by
  rcases List.eq_nil_or_concat members with rfl | ⟨before, last, rfl⟩
  · cases member
  · rw [List.concat_eq_append, memberTokens_concat, List.mem_append] at member
    rw [List.concat_eq_append]
    rcases member with early | late
    · obtain ⟨first, among, here⟩ := List.mem_flatMap.1 early
      have inside : .leaf (.float value) ∈ memberToken first := by simpa using here
      exact ⟨first, List.mem_append_left _ among, mem_memberToken_iff.1 inside⟩
    · exact ⟨last, List.mem_append_right _ (List.mem_singleton_self _), mem_memberToken_iff.1 late⟩

theorem exists_at?_float {value : Binary64} {document : Json}
    (member : .leaf (.float value) ∈ document.tokens) :
    ∃ path, Shape.at? shape path document = some (.float value) := by
  induction size : sizeOf document using Nat.strong_induction_on generalizing document with
  | _ size' ih =>
  subst size
  have inside (part : Json) (isPart : part ∈ document.shape.parts)
      (member : .leaf (.float value) ∈ part.tokens) :
      ∃ path, Shape.at? shape path document = some (.float value) := by
    obtain ⟨path, leads⟩ := ih _ (sizeOf_lt_of_mem_parts isPart) member rfl
    obtain ⟨i, through⟩ := Shape.at?_cons_of_mem isPart
    exact ⟨i :: path, (through path).trans leads⟩
  cases document with
  | array items =>
    simp only [tokens, List.mem_append, List.mem_cons, reduceCtorEq, false_or, List.not_mem_nil,
      or_false] at member
    obtain ⟨item, among, further⟩ := exists_mem_of_mem_itemTokens member
    exact inside item among further
  | object members =>
    simp only [tokens, List.mem_append, List.mem_cons, reduceCtorEq, false_or, List.not_mem_nil,
      or_false] at member
    obtain ⟨part, among, further⟩ := exists_mem_of_mem_memberTokens member
    exact inside part.2 (List.mem_map_of_mem among) further
  | float value' =>
    cases List.mem_singleton.1 member
    exact ⟨[], rfl⟩
  | null => cases List.mem_singleton.1 member
  | bool value => cases List.mem_singleton.1 member
  | int value => cases List.mem_singleton.1 member
  | text value => cases List.mem_singleton.1 member

end Json

namespace Heap

variable {n : Nat} (heap : Heap n)

def IsExact (value : Value n) : Prop :=
  ∀ path number, Shape.at? heap.shape path value ≠ some (.scalar (.float number))

/-- Whether a value is of the kinds that structured data has, apart from its parts. -/
inductive IsPlain : Value n → Prop
  | null : IsPlain (.scalar .null)
  | bool (value : Bool) : IsPlain (.scalar (.bool value))
  | int (value : Int) : IsPlain (.scalar (.int value))
  | text (value : Text) : IsPlain (.scalar (.text value))
  | list {address : Fin n} {items : List (Value n)} (found : heap.object address = .list items) :
    IsPlain (.object address)
  | map {address : Fin n} {members : List (Text × Value n)}
    (found : heap.object address =
      .map (members.map fun member => (.scalar (.text member.1), member.2)))
    (distinct : (members.map Prod.fst).Nodup) : IsPlain (.object address)

inductive Is : Value n → Json → Prop
  | null : Is (.scalar .null) .null
  | bool (value : Bool) : Is (.scalar (.bool value)) (.bool value)
  | int (value : Int) : Is (.scalar (.int value)) (.int value)
  | text (value : Text) : Is (.scalar (.text value)) (.text value)
  | list {address : Fin n} {items : List (Value n)} {documents : List Json}
    (found : heap.object address = .list items) (each : List.Forall₂ Is items documents) :
    Is (.object address) (.array documents)
  | map {address : Fin n} {entries : List (Key × Value n)} {members : List (Text × Json)}
    (found : heap.object address = .map entries)
    (keys : entries.map Prod.fst = members.map fun member => .scalar (.text member.1))
    (each : List.Forall₂ Is (entries.map Prod.snd) (members.map Prod.snd)) :
    Is (.object address) (.object members)

theorem mark_ne_float (address : Fin n) (number : Binary64) :
    (heap.shape (.object address)).mark ≠ .float number := by
  rw [shape]
  cases (heap.object address).content <;> intro same <;> cases same

variable {heap} {value : Value n}

theorem eq_of_shape_float {number : Binary64}
    (shows : heap.shape value = .leaf (.float number)) : value = .scalar (.float number) := by
  cases value with
  | scalar value =>
    cases value <;> cases shows
    rfl
  | object address =>
    have mark := heap.mark_ne_float address number
    rw [shows] at mark
    exact absurd rfl mark

theorem eq_of_face_float {ancestors : List (Fin n)} {number : Binary64}
    (shows : heap.face ancestors value = .leaf (.float number)) :
    value = .scalar (.float number) := by
  rw [face] at shows
  split at shows
  · next again =>
    obtain ⟨address, -, rfl⟩ := Value.isAmong_iff.1 again
    exact absurd (Shape.leaf.inj shows) (heap.mark_ne_float address number)
  · cases shape_eq : heap.shape value with
    | leaf content =>
      rw [shape_eq] at shows
      cases shows
      exact eq_of_shape_float shape_eq
    | sequence items => rw [shape_eq] at shows; cases shows
    | map members => rw [shape_eq] at shows; cases shows

theorem IsExact.unfold (exact : heap.IsExact value) :
    Json.IsExact (heap.unfold [] value).tokens := by
  intro number member
  obtain ⟨path, leads⟩ := Json.exists_at?_float member
  have shows : (heap.unfold [] value).face? path = some (.leaf (.float number)) := by
    rw [Json.face?, leads]
    rfl
  rw [heap.face?_unfold] at shows
  obtain ⟨-, part, found, face_eq⟩ := heap.exists_of_unfolded? shows
  rw [eq_of_face_float face_eq] at found
  exact exact path number found

theorem nodup_keys_shape {members : List (Text × Value n)}
    (shows : heap.shape value = .map members) : (members.map Prod.fst).Nodup := by
  cases value with
  | scalar value => cases value <;> cases shows
  | object address =>
    rw [shape] at shows
    cases found : (heap.object address).content with
    | leaf shown => rw [found] at shows; cases shows
    | items items => rw [found] at shows; cases shows
    | entries entries =>
      rw [found] at shows
      cases shows
      exact Json.nodup_collect entries

theorem nodup_keys_face {ancestors : List (Fin n)} {members : List (Text × Unit)}
    (shows : heap.face ancestors value = .map members) : (members.map Prod.fst).Nodup := by
  rw [face] at shows
  split at shows
  · cases shows
  · cases shape_eq : heap.shape value with
    | leaf content => rw [shape_eq] at shows; cases shows
    | sequence items => rw [shape_eq] at shows; cases shows
    | map parts =>
      rw [shape_eq] at shows
      cases shows
      have distinct := nodup_keys_shape shape_eq
      simpa only [List.map_map, Function.comp_def] using distinct

theorem nodup_keys_unfold {path : List Nat} {members : List (Text × Json)}
    (leads : Shape.at? Json.shape path (heap.unfold [] value) = some (.object members)) :
    (members.map Prod.fst).Nodup := by
  have shows : (heap.unfold [] value).face? path =
      some (.map (members.map fun member => (member.1, ()))) := by
    rw [Json.face?, leads]
    rfl
  rw [heap.face?_unfold] at shows
  obtain ⟨-, part, -, face_eq⟩ := heap.exists_of_unfolded? shows
  have distinct := nodup_keys_face face_eq
  simpa only [List.map_map, Function.comp_def] using distinct

theorem shape_of_list {address : Fin n} {items : List (Value n)}
    (found : heap.object address = .list items) :
    heap.shape (.object address) = .sequence items := by
  rw [shape, found]
  rfl

theorem shape_of_texts {address : Fin n} {members : List (Text × Value n)}
    (found : heap.object address =
      .map (members.map fun member => (.scalar (.text member.1), member.2)))
    (distinct : (members.map Prod.fst).Nodup) : heap.shape (.object address) = .map members := by
  rw [shape, found]
  have entries : (members.map fun member =>
      ((.scalar (.text member.1) : Key), member.2)).map
        (fun entry => (entry.1.shown, entry.2)) = members := by
    rw [List.map_map]
    exact List.map_id _
  simp only [Object.content, entries, Json.collect_of_nodup distinct]

theorem is_unfold_list {ancestors : List (Fin n)} {address : Fin n} {items : List (Value n)}
    (found : heap.object address = .list items) (fresh : ¬(Value.object address).isAmong ancestors = true)
    (each : ∀ item ∈ items, heap.Is item (heap.unfold (address :: ancestors) item)) :
    heap.Is (.object address) (heap.unfold ancestors (.object address)) := by
  have shows := heap.shape_unfold fresh
  rw [shape_of_list found] at shows
  have tree : heap.unfold ancestors (.object address) =
      .array (items.map (heap.unfold (address :: ancestors))) := Json.shape_injective shows
  rw [tree]
  refine .list found ?_
  rw [List.forall₂_map_right_iff, List.forall₂_same]
  exact each

theorem is_unfold_map {ancestors : List (Fin n)} {address : Fin n} {members : List (Text × Value n)}
    (found : heap.object address =
      .map (members.map fun member => (.scalar (.text member.1), member.2)))
    (distinct : (members.map Prod.fst).Nodup)
    (fresh : ¬(Value.object address).isAmong ancestors = true)
    (each : ∀ member ∈ members, heap.Is member.2 (heap.unfold (address :: ancestors) member.2)) :
    heap.Is (.object address) (heap.unfold ancestors (.object address)) := by
  have shows := heap.shape_unfold fresh
  rw [shape_of_texts found distinct] at shows
  have tree : heap.unfold ancestors (.object address) =
      .object (members.map fun member =>
        (member.1, heap.unfold (address :: ancestors) member.2)) := Json.shape_injective shows
  rw [tree]
  refine .map found ?_ ?_
  · simp only [List.map_map, Function.comp_def]
  · simp only [List.map_map, Function.comp_def]
    rw [List.forall₂_map_left_iff, List.forall₂_map_right_iff, List.forall₂_same]
    exact each

theorem addresses_fresh_of_mem_parts {ancestors : List (Fin n)} {part : Value n}
    (member : part ∈ (heap.shape value).parts) (acyclic : heap.IsAcyclic value)
    (apart : ∀ path address, Shape.at? heap.shape path value = some (.object address) →
      address ∉ ancestors) (path : List Nat) (address : Fin n)
    (leads : Shape.at? heap.shape path part = some (.object address)) :
    address ∉ value.addresses ++ ancestors := by
  obtain ⟨i, through⟩ := Shape.at?_cons_of_mem member
  intro among
  rcases List.mem_append.1 among with own | above
  · cases value with
    | scalar value => cases own
    | object address' =>
      cases List.mem_singleton.1 own
      exact acyclic [] _ rfl (i :: path) (List.cons_ne_nil _ _) ((through path).trans leads)
  · exact apart (i :: path) address ((through path).trans leads) above

/-- Where structured data has no cycles, the tree it unfolds into is the data again. -/
theorem is_unfold {ancestors : List (Fin n)} (acyclic : heap.IsAcyclic value)
    (plain : ∀ path part, Shape.at? heap.shape path value = some part → heap.IsPlain part)
    (apart : ∀ path address, Shape.at? heap.shape path value = some (.object address) →
      address ∉ ancestors) : heap.Is value (heap.unfold ancestors value) := by
  -- The objects of a heap come in no order, but the tree of a part is smaller than that of its whole.
  induction size : sizeOf (heap.unfold ancestors value) using Nat.strong_induction_on
    generalizing ancestors value with
  | _ size' ih =>
  subst size
  have fresh : ¬value.isAmong ancestors = true := by
    intro again
    obtain ⟨address, above, rfl⟩ := Value.isAmong_iff.1 again
    exact apart [] address rfl above
  have parts (part : Value n) (member : part ∈ (heap.shape value).parts) :
      heap.Is part (heap.unfold (value.addresses ++ ancestors) part) := by
    have smaller : sizeOf (heap.unfold (value.addresses ++ ancestors) part) <
        sizeOf (heap.unfold ancestors value) := by
      apply Json.sizeOf_lt_of_mem_parts
      rw [heap.shape_unfold fresh, Shape.parts_onParts]
      exact List.mem_map_of_mem member
    obtain ⟨i, through⟩ := Shape.at?_cons_of_mem member
    refine ih _ smaller ?_ ?_ (addresses_fresh_of_mem_parts member acyclic apart) rfl
    · intro path part' leads
      exact acyclic (i :: path) part' ((through path).trans leads)
    · intro path part' leads
      exact plain (i :: path) part' ((through path).trans leads)
  cases plain [] value rfl with
  | null => rw [Heap.unfold]; exact .null
  | bool value => rw [Heap.unfold]; exact .bool value
  | int value => rw [Heap.unfold]; exact .int value
  | text value => rw [Heap.unfold]; exact .text value
  | @list address items found =>
    rw [shape_of_list found] at parts
    exact is_unfold_list found fresh parts
  | @map address members found distinct =>
    rw [shape_of_texts found distinct] at parts
    exact is_unfold_map found distinct fresh fun member among =>
      parts _ (List.mem_map_of_mem among)

/-- Without floating-point numbers the text of a sequence or a map is well-formed, has no control below
the space, and is decoded to the tree that the value unfolds into, whose objects have distinct keys.
Where the value is structured data without cycles, it is what that tree says. -/
theorem decode?_shown (heap : Heap n) {value : Value n} (container : heap.IsContainer value)
    (exact : heap.IsExact value) (real : Text → Binary64) :
    ∃ tree : Json, Json.decode? real (heap.shown value) = some tree ∧
      (∀ document, Json.Denotes real (heap.shown value) document ↔ document = tree) ∧
      (∀ c ∈ heap.shown value, 0x20 ≤ c.toNat) ∧
      (∀ path, tree.face? path = heap.unfolded? value path) ∧
      (∀ path members, Shape.at? Json.shape path tree = some (.object members) →
        (members.map Prod.fst).Nodup) ∧
      (heap.IsAcyclic value →
        (∀ path part, Shape.at? heap.shape path value = some part → heap.IsPlain part) →
        heap.Is value tree) := by
  have exact_tree := exact.unfold
  have text := shown_eq_print container
  have denotes : Json.Denotes real (heap.shown value) (heap.unfold [] value) := by
    rw [text]
    exact Json.denotes_print real exact_tree
  have decoded := Json.decode?_eq_some_iff.2 denotes
  refine ⟨heap.unfold [] value, decoded, ?_, ?_, heap.face?_unfold value,
    fun _ _ leads => nodup_keys_unfold leads, ?_⟩
  · intro document
    rw [← Json.decode?_eq_some_iff, decoded, Option.some_inj]
    exact eq_comm
  · rw [text]
    exact Json.isVisible_print exact_tree
  · intro acyclic plain
    exact is_unfold acyclic plain fun _ _ _ => List.not_mem_nil

private def note : Heap 5 where
  object
    | 0 => .list [.object 1, .object 2]
    | 1 => .map [(.scalar (.text ['a']), .scalar (.int (-1))), (.scalar (.text ['b']), .object 3)]
    | 2 => .list [.scalar .null, .scalar (.bool true), .scalar (.text ['\n']), .object 4]
    | 3 => .list []
    | 4 => .map []

private theorem isPlain_note {path : List Nat} {part : Value 5}
    (leads : Shape.at? note.shape path (.object 0) = some part) : note.IsPlain part := by
  have reached : part ∈ [.object 0, .object 1, .object 2, .object 3, .object 4,
      .scalar (.int (-1)), .scalar .null, .scalar (.bool true), .scalar (.text ['\n'])] :=
    Shape.of_at? (by decide) leads (by decide)
  simp only [List.mem_cons, List.not_mem_nil, or_false] at reached
  rcases reached with rfl | rfl | rfl | rfl | rfl | rfl | rfl | rfl | rfl
  · exact .list rfl
  · have distinct : ([(['a'], .scalar (.int (-1))), (['b'], .object 3)] :
        List (Text × Value 5)).map Prod.fst |>.Nodup := by
      decide
    exact .map rfl distinct
  · exact .list rfl
  · exact .list rfl
  · have distinct : (([] : List (Text × Value 5)).map Prod.fst).Nodup := List.nodup_nil
    exact .map rfl distinct
  · exact .int _
  · exact .null
  · exact .bool _
  · exact .text _

theorem decode?_shown_note :
    ∃ tree : Json, Json.decode? (fun _ => .zero) (note.shown (.object 0)) = some tree ∧
      note.Is (.object 0) tree := by
  have container : note.IsContainer (.object 0) := by
    intro content leaf
    cases leaf
  have exact : note.IsExact (.object 0) := by
    intro path number leads
    have plain := isPlain_note leads
    cases plain
  have acyclic : note.IsAcyclic (.object 0) := isAcyclic_of_later (by decide) _
  obtain ⟨tree, decoded, -, -, -, -, plain⟩ := decode?_shown note container exact fun _ => .zero
  exact ⟨tree, decoded, plain acyclic fun _ _ leads => isPlain_note leads⟩

end Heap

end Stencil
