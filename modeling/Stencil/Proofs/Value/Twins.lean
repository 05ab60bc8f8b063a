import Stencil.Value.Path
import Stencil.Value.Truth
import Mathlib.Data.List.Forall2

/-!
Values of two heaps that differ only so far.  The objects of the heaps are paired, and paired objects
are of one kind and hold paired parts in the same order and under the same names.  Of records only what
can be read is compared, so private names and names of something to be called are free to differ.
What rendering asks of a value then has one answer for both: where a path leads and what is noted on
the way, whether a value counts as true, and which elements and text keys it has.
-/

set_option autoImplicit false
set_option relaxedAutoImplicit false

namespace Stencil

/-- How far two values may differ: in the contents of texts, and in what records show of themselves.
A text without characters never stands for one with characters. -/
structure Tolerance where
  texts : Text → Text → Prop
  shown : Text → Text → Prop
  empty_iff : ∀ {first second : Text}, texts first second → (first = [] ↔ second = [])

def Tolerance.exact : Tolerance :=
  ⟨Eq, Eq, fun same => by rw [same]⟩

def Tolerance.contents : Tolerance :=
  ⟨fun first second => (first = [] ↔ second = []), fun _ _ => True, id⟩

inductive Scalar.Alike (tolerance : Tolerance) : Scalar → Scalar → Prop
  | same (value : Scalar) : Alike tolerance value value
  | text {first second : Text} (alike : tolerance.texts first second) :
    Alike tolerance (.text first) (.text second)

inductive Value.Alike {n m : Nat} (tolerance : Tolerance) (twins : Fin n → Fin m → Prop) :
    Value n → Value m → Prop
  | scalar {first second : Scalar} (alike : first.Alike tolerance second) :
    Alike tolerance twins (.scalar first) (.scalar second)
  | object {address : Fin n} {address' : Fin m} (paired : twins address address') :
    Alike tolerance twins (.object address) (.object address')

inductive Member.Alike {n m : Nat} (alike : Value n → Value m → Prop) : Member n → Member m → Prop
  | field {value : Value n} {value' : Value m} (same : alike value value') :
    Alike alike (.field value) (.field value')
  | failing (missing : Bool) (fault message : Text) :
    Alike alike (.failing missing fault message) (.failing missing fault message)

/-- The member of a name as far as it can be read: something to be called is as good as nothing. -/
def Member.readable? {n : Nat} : Option (Member n) → Option (Member n)
  | some .method => none
  | member => member

def FiledAlike {κ α β : Type} (alike : α → β → Prop) (first : κ × α) (second : κ × β) : Prop :=
  first.1 = second.1 ∧ alike first.2 second.2

/-- Whether two objects are of one kind and have alike parts, given when values are alike and when
two records may show what they show. -/
inductive Object.Alike {n m : Nat} (shows : Text → Text → Prop) (alike : Value n → Value m → Prop) :
    Object n → Object m → Prop
  | list {items : List (Value n)} {items' : List (Value m)}
    (each : List.Forall₂ alike items items') : Alike shows alike (.list items) (.list items')
  | tuple {items : List (Value n)} {items' : List (Value m)}
    (each : List.Forall₂ alike items items') : Alike shows alike (.tuple items) (.tuple items')
  | namedTuple (typeName : Text) {fields : List (Text × Value n)} {fields' : List (Text × Value m)}
    (each : List.Forall₂ (FiledAlike alike) fields fields') :
    Alike shows alike (.namedTuple typeName fields) (.namedTuple typeName fields')
  | map {entries : List (Key × Value n)} {entries' : List (Key × Value m)}
    (each : List.Forall₂ (FiledAlike alike) entries entries') :
    Alike shows alike (.map entries) (.map entries')
  | record (typeName : Text) {shown shown' : Text} {members : List (Text × Member n)}
    {members' : List (Text × Member m)} (face : shows shown shown')
    (readable : ∀ name : Text, name.head? ≠ some '_' →
      Option.Rel (Member.Alike alike) (Member.readable? (members.lookup name))
        (Member.readable? (members'.lookup name))) :
    Alike shows alike (.record typeName shown members) (.record typeName shown' members')

/-- Whether paired objects of two heaps differ no further than a tolerance allows. -/
def Heap.Twinned {n m : Nat} (tolerance : Tolerance) (left : Heap n) (right : Heap m)
    (twins : Fin n → Fin m → Prop) : Prop :=
  ∀ address address', twins address address' →
    (left.object address).Alike tolerance.shown (Value.Alike tolerance twins)
      (right.object address')

structure Logged.Alike {α β : Type} (alike : α → β → Prop) (first : Logged α) (second : Logged β) :
    Prop where
  notices : first.notices = second.notices
  value : alike first.value second.value

namespace Logged.Alike

variable {α β γ δ : Type} {alike : α → β → Prop} {alike' : γ → δ → Prop}

theorem pure {first : α} {second : β} (same : alike first second) :
    (Pure.pure first : Logged α).Alike alike (Pure.pure second : Logged β) :=
  ⟨rfl, same⟩

theorem bind {first : Logged α} {second : Logged β} {next : α → Logged γ} {next' : β → Logged δ}
    (before : first.Alike alike second)
    (onwards : ∀ value value', alike value value' → (next value).Alike alike' (next' value')) :
    (first >>= next).Alike alike' (second >>= next') := by
  have behind := onwards _ _ before.value
  constructor
  · rw [Logged.notices_bind, Logged.notices_bind, before.notices, behind.notices]
  · exact behind.value

end Logged.Alike

section Scalars

variable {tolerance : Tolerance} {first second : Scalar}

theorem Scalar.Alike.property (alike : first.Alike tolerance second) (name : Text) :
    (first.property name).Alike tolerance (second.property name) := by
  cases alike with
  | same value => exact .same _
  | text alike => exact .same .undefined

theorem Scalar.Alike.isTrue_eq (alike : first.Alike tolerance second) :
    first.isTrue = second.isTrue := by
  cases alike with
  | same value => rfl
  | text alike =>
    have same := tolerance.empty_iff alike
    rw [Scalar.isTrue, Scalar.isTrue, Bool.eq_iff_iff]
    simp [same]

theorem Scalar.Alike.eq_of_exact (alike : first.Alike .exact second) : first = second := by
  cases alike with
  | same value => rfl
  | text alike => exact congrArg Scalar.text alike

end Scalars

theorem forall₂_filed_snd {κ α β : Type} {alike : α → β → Prop} {entries : List (κ × α)}
    {entries' : List (κ × β)} (each : List.Forall₂ (FiledAlike alike) entries entries') :
    List.Forall₂ alike (entries.map Prod.snd) (entries'.map Prod.snd) := by
  rw [List.forall₂_map_left_iff, List.forall₂_map_right_iff]
  exact each.imp fun _ _ one => one.2

theorem rel_lookup {α β : Type} {alike : α → β → Prop} {fields : List (Text × α)}
    {fields' : List (Text × β)}
    (each : List.Forall₂ (FiledAlike alike) fields fields') (name : Text) :
    Option.Rel alike (fields.lookup name) (fields'.lookup name) := by
  induction each with
  | nil => exact .none
  | @cons field field' fields fields' one _ ih =>
    obtain ⟨filed, same⟩ := one
    rw [List.lookup_cons, List.lookup_cons, ← filed]
    split
    · exact .some same
    · exact ih

section Filed

variable {n m : Nat} {alike : Value n → Value m → Prop}

theorem Heap.lookup?_cons_of_ne {key : Key} (other : ∀ text, key ≠ .scalar (.text text)) (name : Text)
    (value : Value n) (entries : List (Key × Value n)) :
    Heap.lookup? name ((key, value) :: entries) = Heap.lookup? name entries := by
  rw [Heap.lookup?.eq_def]
  split
  · next impossible => cases impossible
  · next text _ _ found =>
    cases found
    exact absurd rfl (other text)
  · next found =>
    cases found
    rfl

theorem Heap.rel_lookup? {entries : List (Key × Value n)} {entries' : List (Key × Value m)}
    (each : List.Forall₂ (FiledAlike alike) entries entries') (name : Text) :
    Option.Rel alike (Heap.lookup? name entries) (Heap.lookup? name entries') := by
  induction each with
  | nil => exact .none
  | @cons entry entry' entries entries' one _ ih =>
    obtain ⟨key, value⟩ := entry
    obtain ⟨key', value'⟩ := entry'
    obtain ⟨filed, same⟩ := one
    cases filed
    by_cases isText : ∃ text, key = .scalar (.text text)
    · obtain ⟨text, rfl⟩ := isText
      rw [Heap.lookup?, Heap.lookup?]
      split
      · exact .some same
      · exact ih
    · have other (text : Text) : key ≠ .scalar (.text text) := fun here => isText ⟨text, here⟩
      rw [Heap.lookup?_cons_of_ne other, Heap.lookup?_cons_of_ne other]
      exact ih

theorem alike_getD {found : Option (Value n)} {found' : Option (Value m)}
    (same : Option.Rel alike found found') (nothing : alike .undefined .undefined) :
    alike (found.getD .undefined) (found'.getD .undefined) := by
  cases same with
  | some same => exact same
  | none => exact nothing

end Filed

theorem Member.rel_readable? {n m : Nat} {alike : Value n → Value m → Prop} {member : Option (Member n)}
    {member' : Option (Member m)} (same : Option.Rel (Member.Alike alike) member member') :
    Option.Rel (Member.Alike alike) (readable? member) (readable? member') := by
  cases same with
  | none => exact .none
  | some same =>
    cases same with
    | field same => exact .some (.field same)
    | failing missing fault message => exact .some (.failing missing fault message)

theorem Member.alike_read {n m : Nat} {alike : Value n → Value m → Prop}
    (nothing : alike .undefined .undefined) (typeName name : Text) {member : Option (Member n)}
    {member' : Option (Member m)}
    (same : Option.Rel (Member.Alike alike) (readable? member) (readable? member')) :
    (Member.read typeName name member).Alike alike (Member.read typeName name member') := by
  have through (k : Nat) (member : Option (Member k)) :
      Member.read typeName name member = Member.read typeName name (readable? member) := by
    rcases member with _ | _ | _ | _ <;> rfl
  rw [through n, through m]
  generalize readable? member = one at same ⊢
  generalize readable? member' = two at same ⊢
  cases same with
  | none => exact .pure nothing
  | some same =>
    cases same with
    | field same => exact .pure same
    | failing missing fault message =>
      cases missing with
      | true => exact .pure nothing
      | false => exact ⟨rfl, nothing⟩

namespace Heap

variable {n m : Nat} {tolerance : Tolerance} {left : Heap n} {right : Heap m}
variable {twins : Fin n → Fin m → Prop} {value : Value n} {value' : Value m}

theorem alike_undefined : (Value.undefined : Value n).Alike tolerance twins (.undefined : Value m) :=
  .scalar (.same .undefined)

theorem eq_undefined_iff_of_alike (alike : value.Alike tolerance twins value') :
    value = .undefined ↔ value' = .undefined := by
  cases alike with
  | object paired => simp [Value.undefined]
  | scalar alike =>
    cases alike with
    | same value => simp [Value.undefined]
    | text alike => simp [Value.undefined]

section Reading

variable (twinned : left.Twinned tolerance right twins) (alike : value.Alike tolerance twins value')
include twinned alike

theorem alike_readProperty (name : Text) :
    (left.readProperty value name).Alike (Value.Alike tolerance twins)
      (right.readProperty value' name) := by
  rw [readProperty.eq_def, readProperty.eq_def]
  by_cases hidden : name.head? = some '_'
  · rw [if_pos hidden, if_pos hidden]
    exact .pure alike_undefined
  · rw [if_neg hidden, if_neg hidden]
    cases alike with
    | scalar alike => exact .pure (.scalar (alike.property name))
    | @object address address' paired =>
      have objects := twinned address address' paired
      dsimp only
      generalize left.object address = object at objects ⊢
      generalize right.object address' = object' at objects ⊢
      cases objects with
      | namedTuple typeName each =>
        exact .pure (alike_getD (rel_lookup each name) alike_undefined)
      | record typeName face readable =>
        exact Member.alike_read alike_undefined typeName name (readable name hidden)
      | _ => exact .pure alike_undefined

theorem alike_follow (name : Text) :
    (left.follow value name).Alike (Value.Alike tolerance twins) (right.follow value' name) := by
  have property := alike_readProperty twinned alike name
  cases alike with
  | scalar alike => exact property
  | @object address address' paired =>
    have objects := twinned address address' paired
    rw [follow, follow]
    generalize left.object address = object at objects ⊢
    generalize right.object address' = object' at objects ⊢
    cases objects with
    | map each => exact .pure (alike_getD (rel_lookup? each name) alike_undefined)
    | _ => exact property

theorem alike_walk (names : List Text) :
    (left.walk value names).Alike (Value.Alike tolerance twins) (right.walk value' names) := by
  induction names generalizing value value' with
  | nil => exact .pure alike
  | cons name names ih =>
    rw [walk, walk]
    exact (alike_follow twinned alike name).bind fun _ _ next => ih next

theorem alike_resolve (path : Text) :
    (left.resolve path value).Alike (Value.Alike tolerance twins) (right.resolve path value') :=
  alike_walk twinned alike _

theorem isTrue_eq_of_alike : left.isTrue value = right.isTrue value' := by
  cases alike with
  | scalar alike => exact alike.isTrue_eq
  | @object address address' paired =>
    have isEmpty_eq {α β : Type} {related : α → β → Prop} {items : List α} {items' : List β}
        (each : List.Forall₂ related items items') : (!items.isEmpty) = !items'.isEmpty := by
      cases each <;> rfl
    have objects := twinned address address' paired
    rw [isTrue, isTrue]
    generalize left.object address = object at objects ⊢
    generalize right.object address' = object' at objects ⊢
    cases objects with
    | list each => exact isEmpty_eq each
    | tuple each => exact isEmpty_eq each
    | namedTuple typeName each => exact isEmpty_eq each
    | map each => exact isEmpty_eq each
    | record typeName face readable => rfl

theorem rel_elements? :
    Option.Rel (List.Forall₂ (Value.Alike tolerance twins)) (left.elements? value)
      (right.elements? value') := by
  cases alike with
  | @scalar first second alike =>
    cases alike with
    | text alike => exact .none
    | same =>
      cases first with
      | range start stop step =>
        refine .some ?_
        rw [List.forall₂_map_left_iff, List.forall₂_map_right_iff, List.forall₂_same]
        exact fun i _ => .scalar (.same (.int i))
      | _ => exact .none
  | @object address address' paired =>
    have objects := twinned address address' paired
    rw [elements?, elements?]
    generalize left.object address = object at objects ⊢
    generalize right.object address' = object' at objects ⊢
    cases objects with
    | list each => exact .some each
    | tuple each => exact .some each
    | namedTuple typeName each => exact .some (forall₂_filed_snd each)
    | map each => exact .none
    | record typeName face readable => exact .none

theorem textKeys?_eq_of_alike : left.textKeys? value = right.textKeys? value' := by
  cases alike with
  | scalar alike => rfl
  | @object address address' paired =>
    have objects := twinned address address' paired
    rw [textKeys?, textKeys?]
    generalize left.object address = object at objects ⊢
    generalize right.object address' = object' at objects ⊢
    cases objects with
    | map each =>
      refine congrArg some ?_
      induction each with
      | nil => rfl
      | cons one _ ih => rw [List.filterMap_cons, List.filterMap_cons, one.1, ih]
    | _ => rfl

end Reading

end Heap

end Stencil
