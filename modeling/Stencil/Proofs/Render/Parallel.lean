import Stencil.Proofs.Render.Outcome
import Stencil.Proofs.Template.Order
import Stencil.Proofs.Template.Reading
import Stencil.Proofs.Value.Twins
import Mathlib

/-!
Two runs side by side.  A source is rendered against two contexts whose objects are paired.  The runs go
through the same nodes against alike values, so they note the same, fail in the same way or not at all,
and put out pieces of the same nodes.  Only the text of a reference may tell the contexts apart.
-/

set_option autoImplicit false
set_option relaxedAutoImplicit false

namespace Stencil

inductive Outcome.Alike {ε δ α β : Type} (failures : ε → δ → Prop) (values : α → β → Prop) :
    Except ε α → Except δ β → Prop
  | ok {value : α} {value' : β} (same : values value value') :
    Alike failures values (.ok value) (.ok value')
  | error {failure : ε} {failure' : δ} (same : failures failure failure') :
    Alike failures values (.error failure) (.error failure')

namespace Outcome.Alike

variable {ε δ α β : Type} {failures : ε → δ → Prop} {values : α → β → Prop}
variable {outcome : Except ε α} {outcome' : Except δ β}

theorem ok_or_error (same : Outcome.Alike failures values outcome outcome') :
    (∃ value value', outcome = .ok value ∧ outcome' = .ok value' ∧ values value value') ∨
      ∃ failure failure', outcome = .error failure ∧ outcome' = .error failure' ∧
        failures failure failure' := by
  cases same with
  | ok same => exact .inl ⟨_, _, rfl, rfl, same⟩
  | error same => exact .inr ⟨_, _, rfl, rfl, same⟩

theorem bind {γ η : Type} {values' : γ → η → Prop} {next : α → Except ε γ} {next' : β → Except δ η}
    (before : Outcome.Alike failures values outcome outcome')
    (onwards : ∀ value value', values value value' →
      Outcome.Alike failures values' (next value) (next' value')) :
    Outcome.Alike failures values' (outcome.bind next) (outcome'.bind next') := by
  cases before with
  | ok same => exact onwards _ _ same
  | error same => exact .error same

end Outcome.Alike

/-- Whether two attempts note the same, and then fail in the same way or come to values that go
together. -/
def Attempt.Alike {ε α β : Type} (values : α → β → Prop) (first : Attempt ε α)
    (second : Attempt ε β) : Prop :=
  first.run.Alike (Outcome.Alike Eq values) second.run

namespace Attempt.Alike

variable {ε α β γ δ : Type} {values : α → β → Prop} {values' : γ → δ → Prop}

theorem pure {value : α} {value' : β} (same : values value value') :
    Attempt.Alike values (Pure.pure value : Attempt ε α) (Pure.pure value' : Attempt ε β) :=
  ⟨rfl, .ok same⟩

theorem throw (failure : ε) :
    Attempt.Alike values (MonadExcept.throw failure : Attempt ε α)
      (MonadExcept.throw failure : Attempt ε β) :=
  ⟨rfl, .error rfl⟩

theorem note (notice : Notice) :
    Attempt.Alike Eq (Attempt.note notice : Attempt ε Unit) (Attempt.note notice) :=
  ⟨rfl, .ok rfl⟩

theorem lift {work : Logged α} {work' : Logged β} (same : work.Alike values work') :
    Attempt.Alike values (liftM work : Attempt ε α) (liftM work' : Attempt ε β) :=
  ⟨same.notices, .ok same.value⟩

theorem bind {work : Attempt ε α} {work' : Attempt ε β} {next : α → Attempt ε γ}
    {next' : β → Attempt ε δ} (before : Attempt.Alike values work work')
    (onwards : ∀ value value', values value value' →
      Attempt.Alike values' (next value) (next' value')) :
    Attempt.Alike values' (work >>= next) (work' >>= next') := by
  rw [Attempt.Alike, ExceptT.run_bind, ExceptT.run_bind]
  refine Logged.Alike.bind before ?_
  intro outcome outcome' same
  cases same with
  | ok same => exact onwards _ _ same
  | error same => exact ⟨rfl, .error same⟩

theorem gather {piece : γ → δ → Prop} {step : α → Attempt ε (List γ)}
    {step' : β → Attempt ε (List δ)} {items : List α} {items' : List β}
    (each : List.Forall₂ values items items')
    (steps : ∀ item item', values item item' →
      Attempt.Alike (List.Forall₂ piece) (step item) (step' item')) :
    Attempt.Alike (List.Forall₂ piece) (Attempt.gather step items)
      (Attempt.gather step' items') := by
  induction each with
  | nil => exact pure .nil
  | cons one _ ih =>
    rw [Attempt.gather, Attempt.gather]
    refine bind (steps _ _ one) fun _ _ first => ?_
    exact bind ih fun _ _ rest => pure (List.rel_append first rest)

end Attempt.Alike

/-- Whether two pieces come from one node, with one text if that is literal, and otherwise with texts
that go together. -/
inductive Piece.Alike (texts : Text → Text → Prop) : Piece → Piece → Prop
  | literal (place : Position) (content : Text) :
    Alike texts ⟨.literal place content, content⟩ ⟨.literal place content, content⟩
  | reference (place : Position) (path : Text) {first second : Text} (same : texts first second) :
    Alike texts ⟨.reference place path, first⟩ ⟨.reference place path, second⟩

section Render

variable {n m : Nat} {tolerance : Tolerance} {left : Heap n} {right : Heap m}
variable {twins : Fin n → Fin m → Prop} {value : Value n} {value' : Value m}

section Reading

variable (twinned : left.Twinned tolerance right twins) (alike : value.Alike tolerance twins value')
include twinned alike

theorem Heap.alike_parent (path : Text) :
    (left.parent path value).Alike (Value.Alike tolerance twins) (right.parent path value') := by
  rw [parent, parent]
  split
  · exact .pure alike
  · exact alike_resolve twinned alike _

theorem Heap.alike_undefinedAt (frame : Option Frame) (place : Position) (path : Text) :
    (left.undefinedAt frame place path value).Alike Eq
      (right.undefinedAt frame place path value') := by
  rw [undefinedAt, undefinedAt]
  refine (alike_parent twinned alike path).bind fun parent parent' same => ?_
  rw [textKeys?_eq_of_alike twinned same]
  exact .pure rfl

theorem Node.alike_elementsFor (place : Position) (path : Text) :
    (Node.elementsFor left value place path).Alike (List.Forall₂ (Value.Alike tolerance twins))
      (Node.elementsFor right value' place path) := by
  rw [elementsFor, elementsFor]
  refine (Heap.alike_resolve twinned alike path).bind fun found found' same => ?_
  have elements := Heap.rel_elements? twinned same
  generalize left.elements? found = items at elements ⊢
  generalize right.elements? found' = items' at elements ⊢
  cases elements with
  | some each => exact .pure each
  | none =>
    dsimp only
    by_cases missing : found = .undefined
    · rw [if_pos missing, if_pos ((Heap.eq_undefined_iff_of_alike same).1 missing)]
      exact ⟨rfl, .nil⟩
    · rw [if_neg missing, if_neg (mt (Heap.eq_undefined_iff_of_alike same).2 missing)]
      exact ⟨rfl, .nil⟩

end Reading

theorem Node.alike_renderReference {texts : Text → Text → Prop}
    (twinned : left.Twinned tolerance right twins)
    (shown : ∀ {value value'}, value.Alike tolerance twins value' →
      texts (left.shown value) (right.shown value'))
    (strict : Bool) (frame : Option Frame) (place : Position) (path : Text)
    (alike : value.Alike tolerance twins value') :
    Attempt.Alike (List.Forall₂ (Piece.Alike texts))
      (Node.renderReference left strict frame value place path)
      (Node.renderReference right strict frame value' place path) := by
  rw [renderReference, renderReference]
  refine (Attempt.Alike.lift (Heap.alike_resolve twinned alike path)).bind ?_
  intro found found' same
  by_cases missing : found = .undefined
  · rw [if_pos missing, if_pos ((Heap.eq_undefined_iff_of_alike same).1 missing)]
    refine (Attempt.Alike.note _).bind fun _ _ _ => ?_
    cases strict with
    | false => exact .pure .nil
    | true =>
      have explained := Heap.alike_undefinedAt twinned alike frame place path
      refine (Attempt.Alike.lift explained).bind ?_
      rintro failure _ rfl
      exact .throw _
  · rw [if_neg missing, if_neg (mt (Heap.eq_undefined_iff_of_alike same).2 missing)]
    exact .pure (.cons (.reference place path (shown same)) .nil)

mutual

theorem Node.alike_render {texts : Text → Text → Prop} (twinned : left.Twinned tolerance right twins)
    (shown : ∀ {value value'}, value.Alike tolerance twins value' →
      texts (left.shown value) (right.shown value'))
    (strict : Bool) (frame : Option Frame) {value : Value n} {value' : Value m}
    (alike : value.Alike tolerance twins value') (node : Node) :
    Attempt.Alike (List.Forall₂ (Piece.Alike texts)) (Node.render left strict frame value node)
      (Node.render right strict frame value' node) := by
  cases node with
  | literal place content => exact .pure (.cons (.literal place content) .nil)
  | reference place path =>
    exact Node.alike_renderReference twinned shown strict frame place path alike
  | block kind place path body =>
    cases kind with
    | condition =>
      rw [Node.render, Node.render]
      refine (Attempt.Alike.lift (Heap.alike_resolve twinned alike path)).bind ?_
      intro found found' same
      rw [Heap.isTrue_eq_of_alike twinned same]
      split
      · exact Node.alike_renderAll twinned shown strict frame alike body
      · exact .pure .nil
    | iteration =>
      rw [Node.render, Node.render]
      refine (Attempt.Alike.lift (Node.alike_elementsFor twinned alike place path)).bind ?_
      intro items items' each
      exact .gather each fun item item' same =>
        Node.alike_renderAll twinned shown strict frame same body

/-- Nodes one after another are rendered alike against alike values. -/
theorem Node.alike_renderAll {texts : Text → Text → Prop}
    (twinned : left.Twinned tolerance right twins)
    (shown : ∀ {value value'}, value.Alike tolerance twins value' →
      texts (left.shown value) (right.shown value'))
    (strict : Bool) (frame : Option Frame) {value : Value n} {value' : Value m}
    (alike : value.Alike tolerance twins value') (nodes : List Node) :
    Attempt.Alike (List.Forall₂ (Piece.Alike texts)) (Node.renderAll left strict frame value nodes)
      (Node.renderAll right strict frame value' nodes) := by
  cases nodes with
  | nil => exact .pure .nil
  | cons node nodes =>
    rw [Node.renderAll, Node.renderAll]
    refine (Node.alike_render twinned shown strict frame alike node).bind fun _ _ first => ?_
    refine (Node.alike_renderAll twinned shown strict frame alike nodes).bind fun _ _ rest => ?_
    exact .pure (List.rel_append first rest)

end

end Render

section Origin

variable {n : Nat} (heap : Heap n) (strict : Bool) (frame : Option Frame)

theorem Attempt.mem_of_gather {ε α β : Type} {step : α → Attempt ε (List β)} {items : List α}
    {pieces : List β} (ended : (Attempt.gather step items).run.value = .ok pieces) {piece : β}
    (member : piece ∈ pieces) :
    ∃ item part, (step item).run.value = .ok part ∧ piece ∈ part := by
  induction items generalizing pieces with
  | nil =>
    cases ended
    cases member
  | cons item items ih =>
    obtain ⟨first, one, others⟩ := Attempt.outcome_bind_eq_ok ended
    obtain ⟨rest, behind, last⟩ := Attempt.outcome_bind_eq_ok others
    cases last
    rcases List.mem_append.1 member with early | late
    · exact ⟨item, first, one, early⟩
    · exact ih behind late

mutual

theorem Node.mem_inOrder_of_render (around : Nat) {value : Value n} {pieces : List Piece}
    (node : Node) (ended : (Node.render heap strict frame value node).run.value = .ok pieces)
    {piece : Piece} (member : piece ∈ pieces) :
    ∃ inside, (inside, piece.node) ∈ Node.inOrder around node := by
  cases node with
  | literal place content =>
    cases ended
    cases List.mem_singleton.1 member
    exact ⟨around, List.mem_singleton_self _⟩
  | reference place path =>
    rw [Node.outcome_render_reference] at ended
    split at ended
    · split at ended
      · cases ended
      · cases ended
        cases member
    · cases ended
      cases List.mem_singleton.1 member
      exact ⟨around, List.mem_singleton_self _⟩
  | block kind place path body =>
    rw [Node.inOrder]
    cases kind with
    | condition =>
      rw [Node.outcome_render_condition] at ended
      split at ended
      · obtain ⟨inside, here⟩ := Node.mem_allInOrder_of_renderAll (around + 1) body ended member
        exact ⟨inside, List.mem_cons_of_mem _ here⟩
      · cases ended
        cases member
    | iteration =>
      rw [Node.outcome_render_iteration] at ended
      obtain ⟨item, part, ended, member⟩ := Attempt.mem_of_gather ended member
      obtain ⟨inside, here⟩ := Node.mem_allInOrder_of_renderAll (around + 1) body ended member
      exact ⟨inside, List.mem_cons_of_mem _ here⟩

theorem Node.mem_allInOrder_of_renderAll (around : Nat) {value : Value n} {pieces : List Piece}
    (nodes : List Node)
    (ended : (Node.renderAll heap strict frame value nodes).run.value = .ok pieces)
    {piece : Piece} (member : piece ∈ pieces) :
    ∃ inside, (inside, piece.node) ∈ Node.allInOrder around nodes := by
  cases nodes with
  | nil =>
    cases ended
    cases member
  | cons node nodes =>
    rw [Node.allInOrder]
    rw [Node.renderAll] at ended
    obtain ⟨first, one, others⟩ := Attempt.outcome_bind_eq_ok ended
    obtain ⟨rest, behind, last⟩ := Attempt.outcome_bind_eq_ok others
    cases last
    rcases List.mem_append.1 member with early | late
    · obtain ⟨inside, here⟩ := Node.mem_inOrder_of_render around node one early
      exact ⟨inside, List.mem_append_left _ here⟩
    · obtain ⟨inside, here⟩ := Node.mem_allInOrder_of_renderAll around nodes behind late
      exact ⟨inside, List.mem_append_right _ here⟩

end

end Origin

/-- Whether two contexts have one shape: they differ only in the contents of texts, and there only in
texts with characters, and in what their records show of themselves. -/
def Context.SameShape (first second : Context) : Prop :=
  ∃ twins, first.heap.Twinned .contents second.heap twins ∧
    first.root.Alike .contents twins second.root

/-- What is put in is never read as a template.  A source rendered against two contexts of one shape
gives the same notices, and fails with the same failure or puts out pieces of the same nodes of its
tree, of which the literal ones are the same. -/
theorem render_of_sameShape (engine : Engine) (name : Option Text) (source : Text)
    {first second : Context} (shape : first.SameShape second) :
    (engine.render name source first).run.notices =
        (engine.render name source second).run.notices ∧
      ((∃ failure, (engine.render name source first).run.value = .error failure ∧
          (engine.render name source second).run.value = .error failure) ∨
        ∃ template pieces pieces', (engine.parse name source).run.value = .ok template ∧
          (Node.renderAll first.heap engine.rendersStrictly (some ⟨name, some source⟩) first.root
            template.body).run.value = .ok pieces ∧
          (Node.renderAll second.heap engine.rendersStrictly (some ⟨name, some source⟩) second.root
            template.body).run.value = .ok pieces' ∧
          (engine.render name source first).run.value = .ok (Piece.join pieces) ∧
          (engine.render name source second).run.value = .ok (Piece.join pieces') ∧
          List.Forall₂ (Piece.Alike fun _ _ => True) pieces pieces' ∧
          ∀ piece ∈ pieces, ∃ around, (around, piece.node) ∈ Node.allInOrder 0 template.body) := by
  obtain ⟨twins, twinned, alike⟩ := shape
  rw [Engine.render, Engine.render]
  cases parsed : (engine.parse name source).run.value with
  | error failure =>
    rw [Attempt.run_bind_of_error _ parsed, Attempt.run_bind_of_error _ parsed]
    exact ⟨rfl, .inl ⟨failure, rfl, rfl⟩⟩
  | ok template =>
    rw [Attempt.run_bind_of_ok _ parsed, Attempt.run_bind_of_ok _ parsed, Template.render,
      Template.render]
    have runs : Attempt.Alike (List.Forall₂ (Piece.Alike fun _ _ => True)) _ _ :=
      Node.alike_renderAll twinned (fun _ => trivial) engine.rendersStrictly
        (some ⟨name, some source⟩) alike template.body
    rcases runs.value.ok_or_error with ⟨pieces, pieces', one, two, same⟩ | ⟨failure, _, one, two, rfl⟩
    · rw [Attempt.run_bind_of_ok _ one, Attempt.run_bind_of_ok _ two, runs.notices]
      refine ⟨rfl, .inr ⟨template, pieces, pieces', rfl, one, two, rfl, rfl, same, ?_⟩⟩
      intro piece member
      exact Node.mem_allInOrder_of_renderAll _ _ _ 0 template.body one member
    · rw [Attempt.run_bind_of_error _ one, Attempt.run_bind_of_error _ two, runs.notices]
      exact ⟨rfl, .inl ⟨failure, rfl, rfl⟩⟩

/-- A map of a text and a list, which holds a text and a record with a text and a failing name. -/
private def notesHeap (list record : Fin 3) (a b c shown : Text) : Heap 3 where
  object
    | 0 => .map [(.scalar (.text ['a']), .scalar (.text a)), (.scalar (.text ['b']), .object list)]
    | 1 => .list [.scalar (.text b), .object record]
    | 2 => .record ['R'] shown
      [(['c'], .field (.scalar (.text c))), (['d'], .failing false ['E'] [])]

private def notes (map list record : Fin 3) (a b c shown : Text) : Context :=
  ⟨3, notesHeap list record a b c shown, .object map⟩

private theorem notes_sameShape {a b c a' b' c' : Text} (first : a = [] ↔ a' = [])
    (second : b = [] ↔ b' = []) (third : c = [] ↔ c' = []) (shown shown' : Text) :
    (notes 0 1 2 a b c shown).SameShape (notes 0 1 2 a' b' c' shown') := by
  have texts {text text' : Text} (same : text = [] ↔ text' = []) :
      (Value.scalar (.text text) : Value 3).Alike .contents Eq (Value.scalar (.text text') : Value 3) :=
    .scalar (.text same)
  have twinned : (notesHeap 1 2 a b c shown).Twinned .contents (notesHeap 1 2 a' b' c' shown') Eq := by
    rintro address _ rfl
    match address with
    | 0 => exact .map (.cons ⟨rfl, texts first⟩ (.cons ⟨rfl, .object rfl⟩ .nil))
    | 1 => exact .list (.cons (texts second) (.cons (.object rfl) .nil))
    | 2 =>
      refine .record _ trivial fun name _ => Member.rel_readable? (rel_lookup ?_ name)
      exact .cons ⟨rfl, .field (texts third)⟩ (.cons ⟨rfl, .failing false ['E'] []⟩ .nil)
  exact ⟨Eq, twinned, .object rfl⟩

private def notesSource : Text :=
  Tag.written "a" ++ Tag.written "#each b" ++ ['|'] ++ Tag.written "c" ++ Tag.written "d" ++
    Tag.written "/each"

theorem render_of_sameShape_tags :
    (notes 0 1 2 ['x'] ['y'] ['z'] []).SameShape
        (notes 0 1 2 (Tag.written "c") (Tag.written "/each") Tag.closer ['R']) ∧
      (Engine.usual.render none notesSource (notes 0 1 2 ['x'] ['y'] ['z'] [])).run.notices =
        (Engine.usual.render none notesSource
          (notes 0 1 2 (Tag.written "c") (Tag.written "/each") Tag.closer ['R'])).run.notices ∧
      ∃ pieces pieces', List.Forall₂ (Piece.Alike fun _ _ => True) pieces pieces' ∧
        Piece.join pieces = "x||z".toList ∧
        Piece.join pieces' = Tag.written "c" ++ ['|', '|'] ++ Tag.closer := by
  have shape : (notes 0 1 2 ['x'] ['y'] ['z'] []).SameShape
      (notes 0 1 2 (Tag.written "c") (Tag.written "/each") Tag.closer ['R']) :=
    notes_sameShape (by decide) (by decide) (by decide) _ _
  have plain : (Engine.usual.render none notesSource (notes 0 1 2 ['x'] ['y'] ['z'] [])).run.value =
      .ok "x||z".toList := by cbv
  have tagged : (Engine.usual.render none notesSource
      (notes 0 1 2 (Tag.written "c") (Tag.written "/each") Tag.closer ['R'])).run.value =
      .ok (Tag.written "c" ++ ['|', '|'] ++ Tag.closer) := by cbv
  obtain ⟨noted, ended⟩ := render_of_sameShape Engine.usual none notesSource shape
  rw [plain, tagged] at ended
  refine ⟨shape, noted, ?_⟩
  rcases ended with ⟨failure, impossible, -⟩ | ⟨_, pieces, pieces', -, -, -, one, two, same, -⟩
  · cases impossible
  · exact ⟨pieces, pieces', same, (Except.ok.inj one).symm, (Except.ok.inj two).symm⟩

end Stencil
