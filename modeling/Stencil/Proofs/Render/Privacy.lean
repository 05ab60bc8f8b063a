import Stencil.Proofs.Render.Parallel
import Stencil.Proofs.Value.Copies

/-!
What stays private.  A template sees of a record only what can be read under a public name, and the text
that the record shows of itself.  Two values that agree in this, whatever else their records hold and
under which names something is to be called, are rendered in one and the same way.
-/

set_option autoImplicit false
set_option relaxedAutoImplicit false

namespace Stencil

theorem Piece.eq_of_alike {pieces pieces' : List Piece}
    (each : List.Forall₂ (Piece.Alike Eq) pieces pieces') : pieces = pieces' := by
  induction each with
  | nil => rfl
  | cons one _ ih =>
    cases one with
    | literal place content => rw [ih]
    | reference place path same => rw [ih, same]

theorem Attempt.Alike.run_eq {ε : Type} {first second : Attempt ε (List Piece)}
    (same : Attempt.Alike (List.Forall₂ (Piece.Alike Eq)) first second) :
    first.run = second.run := by
  obtain ⟨noted, ended⟩ := same
  refine Logged.ext noted ?_
  generalize first.run.value = outcome at ended ⊢
  generalize second.run.value = outcome' at ended ⊢
  cases ended with
  | ok each => rw [Piece.eq_of_alike each]
  | error same => rw [same]

section

variable {n m : Nat} {left : Heap n} {right : Heap m}

theorem Node.alike_renderAll_of_exact {twins : Fin n → Fin m → Prop}
    (twinned : left.Twinned .exact right twins) (cycles : left.SameCycles right twins)
    (strict : Bool) (frame : Option Frame) {value : Value n} {value' : Value m}
    (alike : value.Alike .exact twins value') (nodes : List Node) :
    Attempt.Alike (List.Forall₂ (Piece.Alike Eq)) (Node.renderAll left strict frame value nodes)
      (Node.renderAll right strict frame value' nodes) :=
  Node.alike_renderAll twinned (fun same => Heap.shown_eq_of_alike twinned cycles same) strict frame
    alike nodes

end

/-- No template can reveal what is private in its context or to be called, or depend on it.  A source
rendered against two contexts that hold the same data, as far as it can be read, gives the same text or
the same failure, and the same notices. -/
theorem render_of_sameData (engine : Engine) (name : Option Text) (source : Text)
    (first second : Context)
    (same : first.heap.SameData second.heap first.root second.root) :
    (engine.render name source first).run = (engine.render name source second).run := by
  obtain ⟨twins, twinned, cycles, alike⟩ := same
  have pieces (template : Template) :
      Node.renderAll first.heap engine.rendersStrictly (some ⟨name, some source⟩) first.root
          template.body =
        Node.renderAll second.heap engine.rendersStrictly (some ⟨name, some source⟩) second.root
          template.body :=
    (Node.alike_renderAll_of_exact twinned cycles _ _ alike _).run_eq
  rw [Engine.render, Engine.render]
  simp only [Template.render, pieces]

/-- A map that holds itself and a record, which holds the map under a public name. -/
private def secretsHeap (map record : Fin 2) (members : List (Text × Member 2)) : Heap 2 where
  object
    | 0 => .map [(.scalar (.text ['m']), .object map), (.scalar (.text ['r']), .object record)]
    | 1 => .record ['R'] ['s']
      ((['b'], .field (.object map)) :: (['f'], .failing false ['E'] []) :: members)

private theorem secrets_sameData {members members' : List (Text × Member 2)}
    (hidden : ∀ name : Text, name.head? ≠ some '_' →
      Option.Rel (Member.Alike (Value.Alike .exact Eq)) (Member.readable? (members.lookup name))
        (Member.readable? (members'.lookup name))) :
    (secretsHeap 0 1 members).SameData (secretsHeap 0 1 members') (.object 0) (.object 0) := by
  have twinned : (secretsHeap 0 1 members).Twinned .exact (secretsHeap 0 1 members') Eq := by
    rintro address _ rfl
    match address with
    | 0 => exact .map (.cons ⟨rfl, .object rfl⟩ (.cons ⟨rfl, .object rfl⟩ .nil))
    | 1 =>
      refine .record _ rfl fun name visible => ?_
      rw [List.lookup_cons, List.lookup_cons, List.lookup_cons, List.lookup_cons]
      split
      · exact .some (.field (.object rfl))
      · split
        · exact .some (.failing false ['E'] [])
        · exact hidden name visible
  refine ⟨Eq, twinned, Heap.sameCycles_of_unique twinned ?_ ?_, .object rfl⟩
  · rintro address _ _ rfl same
    exact same
  · rintro _ _ address rfl same
    exact same.symm

private def secretsSource : Text :=
  Tag.written "r._k" ++ Tag.written "r.c" ++ Tag.written "r.b.r.f" ++ Tag.written "m"

theorem render_of_sameData_secrets :
    (secretsHeap 0 1 [(['c'], .method), (['_', 'k'], .field (.scalar (.int 7)))]).SameData
        (secretsHeap 0 1 [(['_', 'k'], .failing false ['F'] ['k'])]) (.object 0) (.object 0) ∧
      (Engine.usual.render none secretsSource
        ⟨2, secretsHeap 0 1 [(['_', 'k'], .failing false ['F'] ['k'])], .object 0⟩).run.value =
        .ok "\x7b\"m\":\"\x7b...\x7d\",\"r\":\"s\"\x7d".toList := by
  have same : (secretsHeap 0 1 [(['c'], .method), (['_', 'k'], .field (.scalar (.int 7)))]).SameData
      (secretsHeap 0 1 [(['_', 'k'], .failing false ['F'] ['k'])]) (.object 0) (.object 0) := by
    refine secrets_sameData fun name visible => ?_
    have other : (name == ['_', 'k']) = false := by
      rw [beq_eq_false_iff_ne]
      rintro rfl
      exact visible rfl
    rw [List.lookup_cons, List.lookup_cons, List.lookup_cons, other]
    split <;> exact .none
  refine ⟨same, ?_⟩
  rw [← render_of_sameData Engine.usual none secretsSource
    ⟨2, secretsHeap 0 1 [(['c'], .method), (['_', 'k'], .field (.scalar (.int 7)))], .object 0⟩ _ same]
  cbv

end Stencil
