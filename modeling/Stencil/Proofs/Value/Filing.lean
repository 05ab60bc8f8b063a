import Stencil.Proofs.Json.Filing
import Stencil.Proofs.Value.Unfolding

/-!
What maps show.  A map shows an object in which its entries are filed under the texts of their keys, and
so does every map that is shown within a value.  The text of a key is the one that the key has as a value
by itself, so keys that are told apart in the map can fall together in the object.
-/

set_option autoImplicit false
set_option relaxedAutoImplicit false

namespace Stencil

namespace Heap

variable {n : Nat} (heap : Heap n)

inductive IsKey : Key → Value n → Prop
  | scalar (value : Scalar) : IsKey (.scalar value) (.scalar value)
  | sequence {address : Fin n} {keys : List Key} {items : List (Value n)}
    (found : (heap.object address).items? = some items) (each : List.Forall₂ IsKey keys items) :
    IsKey (.sequence keys) (.object address)
  | record {address : Fin n} {typeName shown : Text} {members : List (Text × Member n)}
    (found : heap.object address = .record typeName shown members) :
    IsKey (.record shown) (.object address)

variable {heap}

theorem content_of_items? {address : Fin n} {items : List (Value n)}
    (found : (heap.object address).items? = some items) :
    (heap.object address).content = .items items := by
  cases held : heap.object address with
  | map => rw [held] at found; cases found
  | record => rw [held] at found; cases found
  | _ => rw [held] at found; cases found; rfl

theorem map_of_content {address : Fin n} {shown : List (Text × Value n)}
    (found : (heap.object address).content = .entries shown) :
    ∃ entries, heap.object address = .map entries ∧
      shown = entries.map fun entry => (entry.1.shown, entry.2) := by
  cases held : heap.object address with
  | map entries => rw [held] at found; cases found; exact ⟨entries, rfl, rfl⟩
  | _ => rw [held] at found; cases found

mutual

theorem eq_of_isKey : ∀ (key key' : Key) (value : Value n), heap.IsKey key value →
    heap.IsKey key' value → key = key'
  | .scalar _, _, _, .scalar _, .scalar _ => rfl
  | .sequence keys, _, _, @IsKey.sequence _ _ _ _ items found each, also => by
    cases also with
    | @sequence _ keys' _ found' each' =>
      cases found.symm.trans found'
      exact congrArg Key.sequence (eq_of_areKeys keys keys' items each each')
    | record found' =>
      rw [found'] at found
      cases found
  | .record _, _, _, .record found, also => by
    cases also with
    | sequence found' _ =>
      rw [found] at found'
      cases found'
    | record found' =>
      rw [found] at found'
      cases found'
      rfl

theorem eq_of_areKeys : ∀ (keys keys' : List Key) (items : List (Value n)),
    List.Forall₂ heap.IsKey keys items → List.Forall₂ heap.IsKey keys' items → keys = keys'
  | [], _, _, .nil, .nil => rfl
  | key :: keys, _, _, each, also => by
    cases each with
    | @cons _ item _ items first rest =>
      cases also with
      | @cons key' _ keys' _ first' rest' =>
        rw [eq_of_isKey key key' item first first', eq_of_areKeys keys keys' items rest rest']

end

mutual

theorem unfold_of_isKey : ∀ (key : Key) (value : Value n) (ancestors : List (Fin n)),
    heap.IsKey key value →
    (∀ address ∈ ancestors, ∀ outer, heap.IsKey outer (.object address) →
      sizeOf key < sizeOf outer) →
    heap.unfold ancestors value = key.toJson
  | .scalar value, _, ancestors, .scalar _, _ => by
    rw [unfold, Key.toJson]
  | .sequence keys, _, ancestors, @IsKey.sequence _ _ address _ items found each, apart => by
    have key := IsKey.sequence found each
    have fresh : address ∉ ancestors := fun above =>
      Nat.lt_irrefl _ (apart address above _ key)
    have inner : ∀ address' ∈ address :: ancestors, ∀ outer,
        heap.IsKey outer (.object address') → sizeOf keys < sizeOf outer := by
      intro address' among outer is
      have smaller : sizeOf keys < sizeOf (Key.sequence keys) := by
        rw [Key.sequence.sizeOf_spec]
        omega
      rcases List.mem_cons.1 among with rfl | above
      · rwa [eq_of_isKey outer _ _ is key]
      · exact smaller.trans (apart address' above outer is)
    rw [unfold, content_of_items? found]
    simp only [if_neg fresh]
    rw [unfold_of_areKeys keys items (address :: ancestors) each inner, Key.toJson]
  | .record shown, _, ancestors, .record found, _ => by
    rw [unfold, found, Key.toJson]
    rfl

theorem unfold_of_areKeys : ∀ (keys : List Key) (items : List (Value n))
    (ancestors : List (Fin n)), List.Forall₂ heap.IsKey keys items →
    (∀ address ∈ ancestors, ∀ outer, heap.IsKey outer (.object address) →
      sizeOf keys < sizeOf outer) →
    items.map (heap.unfold ancestors) = Key.toJsonItems keys
  | [], _, _, .nil, _ => rfl
  | key :: keys, item :: items, ancestors, .cons first rest, apart => by
    have total : sizeOf (key :: keys) = 1 + sizeOf key + sizeOf keys := List.cons.sizeOf_spec key keys
    rw [List.map_cons, Key.toJsonItems]
    congr 1
    · refine unfold_of_isKey key item ancestors first fun address above outer is => ?_
      have bound := apart address above outer is
      omega
    · refine unfold_of_areKeys keys items ancestors rest fun address above outer is => ?_
      have bound := apart address above outer is
      omega

end

theorem shown_of_isKey {key : Key} {value : Value n} (is : heap.IsKey key value) :
    heap.shown value = key.shown := by
  cases is with
  | scalar value => rw [shown, Key.shown]
  | @sequence address keys items found each =>
    have tree := unfold_of_isKey _ _ [] (.sequence found each) fun _ above =>
      absurd above List.not_mem_nil
    rw [shown, content_of_items? found, Key.shown, ← tree]
  | record found => rw [shown, found, Key.shown]; rfl

theorem unfold_eq_object_iff {ancestors : List (Fin n)} {value : Value n}
    {members : List (Text × Json)} :
    heap.unfold ancestors value = .object members ↔
      ∃ address entries, value = .object address ∧ heap.object address = .map entries ∧
        address ∉ ancestors ∧ Json.Filed (entries.map fun entry =>
          (entry.1.shown, heap.unfold (address :: ancestors) entry.2)) members := by
  constructor
  · intro tree
    cases value with
    | scalar value =>
      rw [unfold] at tree
      cases value <;> cases tree
    | object address =>
      rw [unfold] at tree
      cases held : (heap.object address).content with
      | leaf shown =>
        rw [held] at tree
        cases tree
      | items items =>
        rw [held] at tree
        simp only at tree
        split at tree <;> cases tree
      | entries shownEntries =>
        obtain ⟨entries, map, rfl⟩ := map_of_content held
        rw [held] at tree
        simp only [List.map_map, Function.comp_def] at tree
        split at tree
        · cases tree
        · next fresh =>
          cases tree
          exact ⟨address, entries, rfl, map, fresh, Json.filed_collect _⟩
  · rintro ⟨address, entries, rfl, held, fresh, filed⟩
    rw [unfold, held]
    simp only [Object.content, if_neg fresh, List.map_map, Function.comp_def]
    exact congrArg Json.object ((Json.filed_collect _).unique filed)

/-- A map shows an object in which its entries are filed under the texts of their keys, and entries can
be filed in one way only.  The text of a key is the text of the key as a value.  Wherever an object
stands in what a value shows, it is such an object of a map to which the same path leads, and every map
to which a path leads stands there as its object, unless it is one of its own ancestors. -/
theorem shown_filed (heap : Heap n) :
    (∀ address entries, heap.object address = .map entries → ∃ members,
      heap.shown (.object address) = (Json.object members).print ∧
      Json.Filed (entries.map fun entry => (entry.1.shown, heap.unfold [address] entry.2)) members) ∧
    (∀ entries : List (Text × Json), ∃! members, Json.Filed entries members) ∧
    (∀ key value, heap.IsKey key value → key.shown = heap.shown value) ∧
    ∀ value, heap.IsContainer value → ∃ tree : Json, heap.shown value = tree.print ∧
      ∀ path members, Shape.at? Json.shape path tree = some (.object members) ↔
        ∃ address entries, Shape.at? heap.shape path value = some (.object address) ∧
          heap.object address = .map entries ∧ (address :: heap.trail path value).Nodup ∧
          Json.Filed (entries.map fun entry =>
            (entry.1.shown, heap.unfold (address :: heap.trail path value) entry.2)) members := by
  refine ⟨?_, ?_, fun key value is => (shown_of_isKey is).symm, ?_⟩
  · intro address entries held
    have shape : heap.unfold [] (.object address) = .object (Json.collect (entries.map fun entry =>
        (entry.1.shown, heap.unfold [address] entry.2))) :=
      unfold_eq_object_iff.2
        ⟨address, entries, rfl, held, List.not_mem_nil, Json.filed_collect _⟩
    refine ⟨_, ?_, Json.filed_collect _⟩
    rw [shown, held, ← shape]
    rfl
  · intro entries
    exact ⟨_, Json.filed_collect entries, fun other filed => filed.unique (Json.filed_collect entries)⟩
  · intro value container
    refine ⟨_, shown_eq_print container, fun path members => ?_⟩
    rw [heap.at?_unfold path List.nodup_nil, List.append_nil]
    constructor
    · intro stands
      split at stands
      · next distinct =>
        obtain ⟨part, leads, tree⟩ := Option.map_eq_some_iff.1 stands
        obtain ⟨address, entries, rfl, held, fresh, filed⟩ := unfold_eq_object_iff.1 tree
        exact ⟨address, entries, leads, held, List.nodup_cons.2 ⟨fresh, distinct⟩, filed⟩
      · cases stands
    · rintro ⟨address, entries, leads, held, distinct, filed⟩
      obtain ⟨fresh, passed⟩ := List.nodup_cons.1 distinct
      rw [if_pos passed, leads, Option.map_some]
      exact congrArg some (unfold_eq_object_iff.2 ⟨address, entries, rfl, held, fresh, filed⟩)

/-- A map whose keys share three texts, and a map in it whose keys share one. -/
private def sharedTexts (whole tuple inner : Fin 3) : Heap 3 where
  object
    | 0 => .map [(.scalar .null, .scalar (.int 1)), (.scalar (.bool true), .object inner),
        (.scalar (.text "[1]".toList), .scalar (.int 2)), (.scalar (.text []), .scalar (.int 3)),
        (.scalar (.text "true".toList), .scalar (.int 4)), (.scalar .undefined, .object whole),
        (.sequence [.scalar (.int 1)], .object inner)]
    | 1 => .tuple [.scalar (.int 1)]
    | 2 => .map [(.scalar (.int 1), .scalar .null), (.scalar (.text ['1']), .object tuple)]

theorem shown_filed_sharedTexts :
    (sharedTexts 0 1 2).shown (.object 0) =
      "\x7b\"\":\"\x7b...\x7d\",\"true\":4,\"[1]\":\x7b\"1\":[1]\x7d\x7d".toList ∧
    (∃ members, (sharedTexts 0 1 2).shown (.object 0) = (Json.object members).print ∧
      members = [([], .text ['{', '.', '.', '.', '}']), ("true".toList, .int 4),
        ("[1]".toList, .object [(['1'], .array [.int 1])])]) ∧
    (Key.sequence [.scalar (.int 1)]).shown = (sharedTexts 0 1 2).shown (.object 1) := by
  obtain ⟨maps, -, keys, -⟩ := shown_filed (sharedTexts 0 1 2)
  obtain ⟨members, printed, filed⟩ := maps 0 _ rfl
  have tuple : (sharedTexts 0 1 2).IsKey (.sequence [.scalar (.int 1)]) (.object 1) :=
    .sequence rfl (.cons (.scalar (.int 1)) .nil)
  refine ⟨by cbv, ⟨members, printed, ?_⟩, keys _ _ tuple⟩
  rw [filed.unique (Json.filed_collect _)]
  cbv

end Heap

end Stencil
