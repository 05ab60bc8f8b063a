import Stencil.Proofs.Template.Nesting
import Stencil.Proofs.Template.Parts

/-!
A part of a source taken alone.  What a part stands for is what its text stands for as a source of its
own, with the limit lowered by the blocks around the part and every place moved by the offset at which
the part begins.  A whole source is the part from its beginning to its end, with no block around it.
-/

set_option autoImplicit false
set_option relaxedAutoImplicit false

namespace Stencil

/-- The place in a source of what has a place in its part from `start` to `stop` taken alone. -/
def Position.inSource (source : Text) (start stop : Nat) (place : Position) : Position :=
  .ofOffset source (start + place.offsetIn (source.between start stop))

namespace Position

variable {source : Text} {start stop : Nat}

theorem inSource_ofOffset (inside : stop ≤ source.length) {offset : Nat}
    (within : start + offset ≤ stop) :
    inSource source start stop (.ofOffset (source.between start stop) offset) =
      .ofOffset source (start + offset) := by
  have length : (source.between start stop).length = stop - start := Text.length_between inside
  rw [inSource, offsetIn_ofOffset (by omega)]

theorem carries_inSource (order : start ≤ stop) (inside : stop ≤ source.length) :
    Carries (inSource source start stop) .start (source.between start stop) source start := by
  rintro front ⟨back, split⟩
  have length : (source.between start stop).length = stop - start := Text.length_between inside
  have shorter := congrArg List.length split
  rw [List.length_append] at shorter
  have place : past .start front = .ofOffset (source.between start stop) front.length := by
    rw [start_eq_after, past_after, List.nil_append, ← split, ofOffset_append]
  rw [place, inSource_ofOffset inside (by omega)]

theorem carries_id (order : start ≤ stop) (inside : stop ≤ source.length) :
    Carries id (.ofOffset source start) (source.between start stop) source start := by
  rintro front ⟨back, split⟩
  have whole : source = source.take start ++ front ++ (back ++ source.drop stop) := by
    have taken : source.take start ++ source.between start stop = source.take stop := by
      have again : source.take start = (source.take stop).take start := by
        rw [List.take_take, Nat.min_eq_left order]
      rw [again, Text.between, List.take_append_drop]
    rw [← List.append_assoc, List.append_assoc (source.take start), split, taken,
      List.take_append_drop]
  have length : (source.take start ++ front).length = start + front.length := by
    rw [List.length_append, List.length_take_of_le (order.trans inside)]
  have there := ofOffset_append (source.take start ++ front) (back ++ source.drop stop)
  rw [← whole, length] at there
  rw [id, there, ofOffset_eq_after (order.trans inside), past_after]

end Position

mutual

theorem Node.moved_id (node : Node) : node.moved id = node := by
  cases node with
  | literal => rfl
  | reference => rfl
  | block kind place path body => rw [moved, Node.allMoved_id body, id]

theorem Node.allMoved_id (nodes : List Node) : Node.allMoved id nodes = nodes := by
  cases nodes with
  | nil => rfl
  | cons node nodes => rw [Node.allMoved, Node.moved_id node, Node.allMoved_id nodes]

end

theorem Notice.moved_id (notice : Notice) : notice.moved id = notice := by
  cases notice <;> rfl

theorem Attempt.changed_id {δ : Type} (onFailure : Position → δ)
    (work : Attempt Position (List Node)) :
    work.changed (Notice.moved id) onFailure (Node.allMoved id) = ExceptT.adapt onFailure work := by
  apply ExceptT.ext
  apply Logged.ext
  · have same : Notice.moved id = id := funext Notice.moved_id
    rw [Attempt.changed, ExceptT.run_mk, Attempt.notices_adapt, same, List.map_id]
  · rw [Attempt.changed, ExceptT.run_mk, Attempt.outcome_adapt]
    cases work.run.value with
    | ok nodes => exact congrArg Except.ok (Node.allMoved_id nodes)
    | error place => rfl

theorem Node.ofPart_eq_adapt (name : Option Text) (limit depth : Int) {source : Text}
    {start stop : Nat} (order : start ≤ stop) (inside : stop ≤ source.length) :
    ofPart name limit source depth start stop =
      ExceptT.adapt (NestingExceeded.ofPlace name limit source)
        (ofText name (limit - depth) (.ofOffset source start) (source.between start stop)) := by
  rw [ofPart_eq_ofTextMoved order inside (Position.carries_id order inside), ofTextMoved,
    Attempt.changed_id]
  rfl

theorem Attempt.adapt_adapt {ε δ γ α : Type} (first : ε → δ) (second : δ → γ)
    (work : Attempt ε α) :
    ExceptT.adapt second (ExceptT.adapt first work) =
      ExceptT.adapt (fun failure => second (first failure)) work := by
  apply ExceptT.ext
  apply Logged.ext
  · rfl
  · rw [outcome_adapt, outcome_adapt, outcome_adapt]
    cases work.run.value <;> rfl

/-- The parse of a source is that of the part from its beginning to its end. -/
theorem Template.ofSource_eq_ofPart (name : Option Text) (limit : Int) (source : Text) :
    ofSource name limit source = (do
      let body ← ExceptT.adapt Failure.nesting (Node.ofPart name limit source 0 0 source.length)
      pure ⟨name, body⟩) := by
  have whole : source.between 0 source.length = source := by
    rw [Text.between, List.take_length, List.drop_zero]
  have begins : Position.ofOffset source 0 = .start := by
    rw [Position.ofOffset_eq_after (Nat.zero_le _), List.take_zero, Position.start_eq_after]
  rw [Node.ofPart_eq_adapt name limit 0 (Nat.zero_le _) (Nat.le_refl _), whole, begins, Int.sub_zero,
    Attempt.adapt_adapt, ofSource]

theorem Template.notices_ofSource (name : Option Text) (limit : Int) (source : Text) :
    (ofSource name limit source).run.notices =
      (Node.ofText name limit .start source).run.notices := by
  rw [ofSource, Attempt.notices_bind, Attempt.notices_adapt]
  split
  · rw [Attempt.notices_pure, List.append_nil]
  · rw [List.append_nil]

theorem NestingExceeded.ofPlace_injective (name : Option Text) (limit : Int) (source : Text) :
    Function.Injective (ofPlace name limit source) := by
  intro place other same
  have lines : place.line = other.line := by
    simpa [ofPlace] using congrArg NestingExceeded.line same
  have columns : place.column = other.column := by
    have shown := congrArg NestingExceeded.snippet same
    simpa [ofPlace, Snippet.at, Snippet.ofSource] using congrArg (Option.map Snippet.column) shown
  cases place
  cases other
  exact congrArg₂ Position.mk lines columns

/-- Parsing a part of a source with `depth` blocks around it is parsing the text of the part alone with
the limit lowered by `depth`: the notices and the nodes are the same at the places of the source, and
where the one fails the other does, for the same block at its place in the source, with the limit and the
excerpt of the source.  A source is parsed as the part that is the whole of it. -/
theorem ofPart_alone (name : Option Text) (limit depth : Int) {source : Text} {start stop : Nat}
    (order : start ≤ stop) (inside : stop ≤ source.length) :
    (∀ offset, start + offset ≤ stop →
      Position.inSource source start stop (.ofOffset (source.between start stop) offset) =
        .ofOffset source (start + offset)) ∧
    (Node.ofPart name limit source depth start stop).run.notices =
      (Template.ofSource name (limit - depth) (source.between start stop)).run.notices.map
        (Notice.moved (.inSource source start stop)) ∧
    (match (Template.ofSource name (limit - depth) (source.between start stop)).run.value with
      | .ok template =>
        (Node.ofPart name limit source depth start stop).run.value =
          .ok (Node.allMoved (.inSource source start stop) template.body)
      | .error failure => ∃ place,
        failure = .nesting (.ofPlace name (limit - depth) (source.between start stop) place) ∧
        (Node.ofPart name limit source depth start stop).run.value =
          .error (.ofPlace name limit source (.inSource source start stop place))) ∧
    Template.ofSource name limit source = (do
      let body ← ExceptT.adapt Failure.nesting (Node.ofPart name limit source 0 0 source.length)
      pure ⟨name, body⟩) := by
  have part : Node.ofPart name limit source depth start stop = _ :=
    Node.ofPart_eq_ofTextMoved order inside (Position.carries_inSource order inside)
  refine ⟨fun offset => Position.inSource_ofOffset inside, ?_, ?_,
    Template.ofSource_eq_ofPart name limit source⟩
  · rw [Template.notices_ofSource, part]
    rfl
  · rw [Template.outcome_ofSource, part, Node.ofTextMoved, Attempt.changed, ExceptT.run_mk]
    cases (Node.ofText name (limit - depth) .start (source.between start stop)).run.value with
    | ok body => rfl
    | error place => exact ⟨place, rfl, rfl⟩

/-- A block on the second line with a line end, a block and the opening tag of an iteration in it; the
iteration ends behind the block. -/
private def framed : Text :=
  ['a', '\n'] ++ Tag.written "#if x" ++ ['b', '\n'] ++ Tag.written "#each y" ++ Tag.written "#if z" ++
    Tag.written "/if" ++ Tag.written "/if" ++ Tag.written "/each"

theorem ofPart_alone_framed :
    11 ≤ 40 ∧ 40 ≤ framed.length ∧
    (Node.ofPart none 2 framed 1 11 40).run =
      ⟨[.unmatched none ⟨3, 0⟩ .iteration "#each y".toList],
        .ok [.literal ⟨2, 9⟩ ['b', '\n'], .reference ⟨3, 0⟩ "#each y".toList,
          .block .condition ⟨3, 11⟩ ['z'] []]⟩ ∧
    (Node.ofPart none 1 framed 1 11 40).run.value =
      .error (.ofPlace none 1 framed ⟨3, 11⟩) := by
  have order : 11 ≤ 40 := by decide
  have inside : 40 ≤ framed.length := by decide
  have alone : (Template.ofSource none (2 - 1) (framed.between 11 40)).run =
      ⟨[.unmatched none ⟨2, 0⟩ .iteration "#each y".toList],
        .ok ⟨none, [.literal ⟨1, 0⟩ ['b', '\n'], .reference ⟨2, 0⟩ "#each y".toList,
          .block .condition ⟨2, 11⟩ ['z'] []]⟩⟩ := by cbv
  have refused : (Node.ofText none (1 - 1) .start (framed.between 11 40)).run.value =
      .error ⟨2, 11⟩ := by cbv
  obtain ⟨-, notices, value, -⟩ := ofPart_alone none 2 1 order inside
  obtain ⟨-, -, failed, -⟩ := ofPart_alone none 1 1 order inside
  rw [alone] at notices value
  rw [Template.outcome_ofSource, refused] at failed
  refine ⟨order, inside, Logged.ext (notices.trans ?_) (value.trans ?_), ?_⟩
  · cbv
  · cbv
  · obtain ⟨place, same, raised⟩ := failed
    have there : (⟨2, 11⟩ : Position) = place :=
      NestingExceeded.ofPlace_injective none (1 - 1) (framed.between 11 40) (Failure.nesting.inj same)
    rw [raised, ← there]
    cbv

end Stencil
