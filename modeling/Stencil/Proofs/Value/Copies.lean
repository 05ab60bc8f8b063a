import Stencil.Proofs.Value.Twins
import Stencil.Proofs.Value.Unfolding

/-!
Copies of a value.  Two values that hold the same data, as far as data can be read, have the same text.
Their objects need not be shared in the same way; it is enough that an object comes back to itself
along the same paths in both, for then the same marks are set when the values are unfolded.
-/

set_option autoImplicit false
set_option relaxedAutoImplicit false

namespace Stencil

inductive Shape.Alike {α β : Type} (alike : α → β → Prop) : Shape α → Shape β → Prop
  | leaf (content : Json.Leaf) : Alike alike (.leaf content) (.leaf content)
  | sequence {items : List α} {items' : List β} (each : List.Forall₂ alike items items') :
    Alike alike (.sequence items) (.sequence items')
  | map {members : List (Text × α)} {members' : List (Text × β)}
    (each : List.Forall₂ (FiledAlike alike) members members') :
    Alike alike (.map members) (.map members')

theorem rel_getElem? {α β : Type} {alike : α → β → Prop} {items : List α} {items' : List β}
    (each : List.Forall₂ alike items items') (i : Nat) : Option.Rel alike items[i]? items'[i]? := by
  induction each generalizing i with
  | nil => exact .none
  | cons one _ ih =>
    cases i with
    | zero => exact .some one
    | succ i => exact ih i

namespace Shape

variable {α β : Type} {alike : α → β → Prop} {first : Shape α} {second : Shape β}

theorem Alike.parts (same : first.Alike alike second) :
    List.Forall₂ alike first.parts second.parts := by
  cases same with
  | leaf content => exact .nil
  | sequence each => exact each
  | map each => exact forall₂_filed_snd each

theorem Alike.mark_eq (same : first.Alike alike second) : first.mark = second.mark := by
  cases same <;> rfl

theorem Alike.face_eq (same : first.Alike alike second) : first.face = second.face := by
  cases same with
  | leaf content => rfl
  | sequence each =>
    refine congrArg Shape.sequence ?_
    rw [List.map_const', List.map_const', each.length_eq]
  | map each =>
    refine congrArg Shape.map ?_
    induction each with
    | nil => rfl
    | cons one _ ih => rw [List.map_cons, List.map_cons, one.1, ih]

theorem rel_at? {shape : α → Shape α} {shape' : β → Shape β}
    (onwards : ∀ whole whole', alike whole whole' → (shape whole).Alike alike (shape' whole'))
    (path : List Nat) {whole : α} {whole' : β} (same : alike whole whole') :
    Option.Rel alike (at? shape path whole) (at? shape' path whole') := by
  induction path generalizing whole whole' with
  | nil => exact .some same
  | cons i path ih =>
    rw [at?, at?]
    have next := rel_getElem? (onwards whole whole' same).parts i
    generalize (shape whole).parts[i]? = part at next ⊢
    generalize (shape' whole').parts[i]? = part' at next ⊢
    cases next with
    | none => exact .none
    | some same => exact ih same

end Shape

theorem Json.forall₂_put {α β : Type} {alike : α → β → Prop} (key : Text) {value : α} {value' : β}
    (same : alike value value') {members : List (Text × α)} {members' : List (Text × β)}
    (each : List.Forall₂ (FiledAlike alike) members members') :
    List.Forall₂ (FiledAlike alike) (put key value members) (put key value' members') := by
  induction each with
  | nil => exact .cons ⟨rfl, same⟩ .nil
  | cons one others ih =>
    rw [put, put, ← one.1]
    split
    · exact .cons ⟨rfl, same⟩ others
    · exact .cons one ih

theorem Json.forall₂_collect {α β : Type} {alike : α → β → Prop} {entries : List (Text × α)}
    {entries' : List (Text × β)} (each : List.Forall₂ (FiledAlike alike) entries entries') :
    List.Forall₂ (FiledAlike alike) (collect entries) (collect entries') := by
  have step (members : List (Text × α)) (members' : List (Text × β))
      (before : List.Forall₂ (FiledAlike alike) members members') :
      List.Forall₂ (FiledAlike alike)
        (entries.foldl (fun members entry => put entry.1 entry.2 members) members)
        (entries'.foldl (fun members entry => put entry.1 entry.2 members) members') := by
    induction each generalizing members members' with
    | nil => exact before
    | cons one _ ih =>
      rw [List.foldl_cons, List.foldl_cons, ← one.1]
      exact ih _ _ (forall₂_put _ one.2 before)
  exact step [] [] .nil

namespace Heap

variable {n m : Nat} {left : Heap n} {right : Heap m} {twins : Fin n → Fin m → Prop}

/-- Whether paired objects come back to themselves along the same paths. -/
def SameCycles (left : Heap n) (right : Heap m) (twins : Fin n → Fin m → Prop) : Prop :=
  ∀ address address', twins address address' → ∀ path, path ≠ [] →
    (Shape.at? left.shape path (.object address) = some (.object address) ↔
      Shape.at? right.shape path (.object address') = some (.object address'))

/-- Whether two values hold the same data as far as it can be read, and come back to themselves along
the same paths. -/
def SameData (left : Heap n) (right : Heap m) (value : Value n) (value' : Value m) : Prop :=
  ∃ twins, left.Twinned .exact right twins ∧ left.SameCycles right twins ∧
    value.Alike .exact twins value'

theorem alike_shape (twinned : left.Twinned .exact right twins) {value : Value n} {value' : Value m}
    (alike : value.Alike .exact twins value') :
    (left.shape value).Alike (Value.Alike .exact twins) (right.shape value') := by
  cases alike with
  | @scalar first second alike =>
    obtain rfl := alike.eq_of_exact
    cases first with
    | range start stop step =>
      refine .sequence ?_
      rw [List.forall₂_map_left_iff, List.forall₂_map_right_iff, List.forall₂_same]
      exact fun i _ => .scalar (.same (.int i))
    | _ => exact .leaf _
  | @object address address' paired =>
    have objects := twinned address address' paired
    rw [shape, shape]
    generalize left.object address = object at objects ⊢
    generalize right.object address' = object' at objects ⊢
    cases objects with
    | list each => exact .sequence each
    | tuple each => exact .sequence each
    | namedTuple typeName each => exact .sequence (forall₂_filed_snd each)
    | map each =>
      refine .map (Json.forall₂_collect ?_)
      rw [List.forall₂_map_left_iff, List.forall₂_map_right_iff]
      exact each.imp fun _ _ one => ⟨congrArg Key.shown one.1, one.2⟩
    | record typeName face readable =>
      cases face
      exact .leaf _

theorem mem_trail_iff (heap : Heap n) {address : Fin n} {path : List Nat} {value : Value n} :
    address ∈ heap.trail path value ↔ ∃ front behind, path = front ++ behind ∧ behind ≠ [] ∧
      Shape.at? heap.shape front value = some (.object address) := by
  constructor
  · exact exists_of_mem_trail
  · rintro ⟨front, behind, rfl, more, leads⟩
    induction front generalizing value with
    | nil =>
      cases leads
      cases behind with
      | nil => exact absurd rfl more
      | cons i behind => exact List.mem_append_right _ (List.mem_singleton_self address)
    | cons i front ih =>
      obtain ⟨part, found, onwards⟩ := Option.bind_eq_some_iff.1 leads
      rw [List.cons_append, trail, found]
      exact List.mem_append_left _ (ih onwards)

section Cycles

variable (twinned : left.Twinned .exact right twins) (cycles : left.SameCycles right twins)
include twinned cycles

theorem mem_trail_iff_of_alike {path : List Nat} {value : Value n} {value' : Value m}
    (alike : value.Alike .exact twins value') {address : Fin n} {address' : Fin m}
    (leads : Shape.at? left.shape path value = some (.object address))
    (leads' : Shape.at? right.shape path value' = some (.object address')) :
    address ∈ left.trail path value ↔ address' ∈ right.trail path value' := by
  rw [mem_trail_iff, mem_trail_iff]
  refine exists_congr fun front => exists_congr fun behind => ?_
  refine and_congr_right fun split => and_congr_right fun more => ?_
  have reached := Shape.rel_at? (fun _ _ => alike_shape twinned) front alike
  rw [split, Shape.at?_append] at leads leads'
  generalize Shape.at? left.shape front value = part at reached leads ⊢
  generalize Shape.at? right.shape front value' = part' at reached leads' ⊢
  cases reached with
  | none => cases leads
  | some reached =>
    cases reached with
    | scalar _ => simp
    | @object earlier earlier' paired =>
      have same := cycles earlier earlier' paired behind more
      rw [Option.bind_some] at leads leads'
      rw [leads, leads'] at same
      exact eq_comm.trans (same.trans eq_comm)

theorem nodup_trail_iff_of_alike (path : List Nat) {value : Value n} {value' : Value m}
    (alike : value.Alike .exact twins value') :
    (left.trail path value).Nodup ↔ (right.trail path value').Nodup := by
  induction path generalizing value value' with
  | nil => simp [trail]
  | cons i path ih =>
    have next := rel_getElem? (alike_shape twinned alike).parts i
    rw [trail, trail]
    cases found : (left.shape value).parts[i]? with
    | none =>
      cases found' : (right.shape value').parts[i]? with
      | some part' => rw [found, found'] at next; cases next
      | none => cases alike <;> simp [Value.addresses]
    | some part =>
      cases found' : (right.shape value').parts[i]? with
      | none => rw [found, found'] at next; cases next
      | some part' =>
        rw [found, found'] at next
        cases next with | some same =>
        have onwards := ih same
        cases alike with
        | scalar _ => simpa [Value.addresses] using onwards
        | @object address address' paired =>
          have returns : address ∈ left.trail path part ↔ address' ∈ right.trail path part' := by
            rw [mem_trail_iff, mem_trail_iff]
            refine exists_congr fun front => exists_congr fun behind => ?_
            refine and_congr_right fun _ => and_congr_right fun _ => ?_
            have round := cycles address address' paired (i :: front) (List.cons_ne_nil _ _)
            rw [Shape.at?, Shape.at?, found, found'] at round
            exact round
          simp only [Value.addresses, Option.elim_some, ← List.concat_eq_append, List.nodup_concat]
          exact and_congr (not_congr returns) onwards

/-- The same shows of both values at every path of their unfolding. -/
theorem unfolded?_eq_of_alike {value : Value n} {value' : Value m}
    (alike : value.Alike .exact twins value') (path : List Nat) :
    left.unfolded? value path = right.unfolded? value' path := by
  have reached := Shape.rel_at? (fun _ _ => alike_shape twinned) path alike
  rw [unfolded?, unfolded?, if_congr (nodup_trail_iff_of_alike twinned cycles path alike) rfl rfl]
  split
  · cases leads : Shape.at? left.shape path value with
    | none =>
      cases leads' : Shape.at? right.shape path value' with
      | none => rfl
      | some part' => rw [leads, leads'] at reached; cases reached
    | some part =>
      cases leads' : Shape.at? right.shape path value' with
      | none => rw [leads, leads'] at reached; cases reached
      | some part' =>
        rw [leads, leads'] at reached
        cases reached with | some same =>
        have shapes := alike_shape twinned same
        have among : part.isAmong (left.trail path value) = part'.isAmong (right.trail path value') := by
          cases same with
          | scalar _ => rfl
          | object paired =>
            have passed := mem_trail_iff_of_alike twinned cycles alike leads leads'
            rw [Value.isAmong, Value.isAmong, Bool.eq_iff_iff, List.contains_iff_mem,
              List.contains_iff_mem]
            exact passed
        rw [Option.map_some, Option.map_some, face, face, among, shapes.mark_eq, shapes.face_eq]
  · rfl

theorem shown_eq_of_alike {value : Value n} {value' : Value m}
    (alike : value.Alike .exact twins value') : left.shown value = right.shown value' := by
  have trees : left.unfold [] value = right.unfold [] value' := by
    refine Json.eq_of_face? fun path => ?_
    rw [left.face?_unfold, right.face?_unfold]
    exact unfolded?_eq_of_alike twinned cycles alike path
  cases alike with
  | scalar alike =>
    rw [alike.eq_of_exact]
    rfl
  | @object address address' paired =>
    have objects := twinned address address' paired
    rw [shown, shown, trees]
    generalize left.object address = object at objects ⊢
    generalize right.object address' = object' at objects ⊢
    cases objects with
    | record typeName face readable => exact face
    | _ => rfl

end Cycles

theorem alike_self (value : Value n) : value.Alike .exact Eq value := by
  cases value with
  | scalar scalar => exact .scalar (.same scalar)
  | object address => exact .object rfl

theorem twinned_self (heap : Heap n) : heap.Twinned .exact heap Eq := by
  rintro address _ rfl
  have filed {κ : Type} (entry : κ × Value n) : FiledAlike (Value.Alike .exact Eq) entry entry :=
    ⟨rfl, alike_self entry.2⟩
  cases heap.object address with
  | list items => exact .list (List.forall₂_same.2 fun item _ => alike_self item)
  | tuple items => exact .tuple (List.forall₂_same.2 fun item _ => alike_self item)
  | namedTuple typeName fields =>
    exact .namedTuple typeName (List.forall₂_same.2 fun field _ => filed field)
  | map entries => exact .map (List.forall₂_same.2 fun entry _ => filed entry)
  | record typeName shown members =>
    refine .record typeName rfl fun name _ => ?_
    rcases members.lookup name with _ | value | _ | ⟨missing, fault, message⟩
    · exact .none
    · exact .some (.field (alike_self value))
    · exact .none
    · exact .some (.failing missing fault message)

theorem sameData_self (heap : Heap n) (value : Value n) : heap.SameData heap value value := by
  refine ⟨Eq, heap.twinned_self, ?_, alike_self value⟩
  rintro address _ rfl path _
  exact Iff.rfl

theorem sameData_scalar (left : Heap n) (right : Heap m) (value : Scalar) :
    left.SameData right (.scalar value) (.scalar value) :=
  ⟨fun _ _ => False, fun _ _ none => none.elim, fun _ _ none => none.elim, .scalar (.same value)⟩

theorem sameCycles_of_unique (twinned : left.Twinned .exact right twins)
    (one : ∀ address first second, twins address first → twins address second → first = second)
    (other : ∀ first second address, twins first address → twins second address → first = second) :
    left.SameCycles right twins := by
  intro address address' paired path _
  have reached := Shape.rel_at? (fun _ _ => alike_shape twinned) path (.object paired)
  constructor
  · intro leads
    rw [leads] at reached
    generalize Shape.at? right.shape path (.object address') = part' at reached ⊢
    cases reached with | some same =>
    cases same with | object again => rw [one _ _ _ again paired]
  · intro leads
    rw [leads] at reached
    generalize Shape.at? left.shape path (.object address) = part at reached ⊢
    cases reached with | some same =>
    cases same with | object again => rw [other _ _ _ again paired]

theorem sameCycles_of_isAcyclic
    (acyclic : ∀ address address', twins address address' →
      left.IsAcyclic (.object address) ∧ right.IsAcyclic (.object address')) :
    left.SameCycles right twins := by
  intro address address' paired path more
  obtain ⟨first, second⟩ := acyclic address address' paired
  constructor
  · intro leads
    exact absurd leads (first [] _ rfl path more)
  · intro leads
    exact absurd leads (second [] _ rfl path more)

end Heap

end Stencil
