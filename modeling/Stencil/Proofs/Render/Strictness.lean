import Stencil.Proofs.Render.Outcome
import Mathlib

/-!
Strictness against its absence.  A strict run and a lenient run of the same tree go through the same
nodes with the same values, and give the same notices, until the first reference whose path leads
nowhere.  There the strict run fails and names that path and its line; when there is no such reference
the two runs are the same.  Conditions and iterations never end a run by themselves.
-/

set_option autoImplicit false
set_option relaxedAutoImplicit false

namespace Stencil

def Notice.isUnresolvedPath : Notice → Bool
  | .unresolvedPath .. => true
  | _ => false

/-- Whether a body is not rendered at all, given the value at the path of its block. -/
def BlockKind.Skips {n : Nat} (kind : BlockKind) (heap : Heap n) (found : Value n) : Prop :=
  match kind with
  | .condition => heap.isTrue found = false
  | .iteration => (heap.elements? found).getD [] = []

theorem BlockKind.skips_undefined {n : Nat} (kind : BlockKind) (heap : Heap n) :
    kind.Skips heap .undefined := by
  cases kind <;> rfl

/-- How a strict run goes with a lenient one: they are the same run when no reference was noted as
unresolved, and otherwise the strict run fails with the first of these references, after the notices
up to and including the one about it. -/
inductive StrictRun {α : Type} (lenient strict : Logged (Except Failure α)) : Prop
  | same (resolved : ∀ notice ∈ lenient.notices, notice.isUnresolvedPath = false)
    (strict_eq : strict = lenient)
  | fails (before after more : List Notice) (failure : UndefinedVariable) (line : Nat)
    (resolved : ∀ notice ∈ before, notice.isUnresolvedPath = false)
    (lenient_notices : lenient.notices = before ++ .unresolvedPath failure.path line :: after)
    (strict_notices : strict.notices = before ++ .unresolvedPath failure.path line :: more)
    (failed : strict.value = .error (.undefined failure))
    (line_eq : failure.line = some (line : Int))

namespace StrictRun

variable {α β : Type}

theorem of_resolved {run : Logged (Except Failure α)}
    (resolved : ∀ notice ∈ run.notices, notice.isUnresolvedPath = false) : StrictRun run run :=
  .same resolved rfl

theorem pure (value : α) :
    StrictRun (Pure.pure value : Attempt Failure α).run (Pure.pure value : Attempt Failure α).run :=
  of_resolved fun _ member => absurd member List.not_mem_nil

theorem bind {work work' : Attempt Failure α} {next next' : α → Attempt Failure β}
    (first : StrictRun work.run work'.run)
    (second : ∀ value, StrictRun (next value).run (next' value).run) :
    StrictRun (work >>= next).run (work' >>= next').run := by
  cases first with
  | fails before after more failure line resolved lenient_notices strict_notices failed line_eq =>
    rw [Attempt.run_bind_of_error next' failed]
    have noted := Attempt.notices_bind work next
    rw [lenient_notices, List.append_assoc, List.cons_append] at noted
    exact .fails before _ more failure line resolved noted strict_notices rfl line_eq
  | same resolved strict_eq =>
    cases ended : work.run.value with
    | error failure =>
      have ended' : work'.run.value = .error failure := by rw [strict_eq, ended]
      rw [Attempt.run_bind_of_error next ended, Attempt.run_bind_of_error next' ended', strict_eq]
      exact .same resolved rfl
    | ok value =>
      have ended' : work'.run.value = .ok value := by rw [strict_eq, ended]
      rw [Attempt.run_bind_of_ok next ended, Attempt.run_bind_of_ok next' ended', strict_eq]
      cases second value with
      | same later strict_later =>
        rw [strict_later]
        exact .same (List.forall_mem_append.2 ⟨resolved, later⟩) rfl
      | fails before after more failure line later lenient_notices strict_notices failed line_eq =>
        rw [lenient_notices, strict_notices]
        exact .fails (work.run.notices ++ before) after more failure line
          (List.forall_mem_append.2 ⟨resolved, later⟩) (List.append_assoc _ _ _).symm
          (List.append_assoc _ _ _).symm failed line_eq

theorem gather {step step' : α → Attempt Failure (List β)}
    (each : ∀ item, StrictRun (step item).run (step' item).run) (items : List α) :
    StrictRun (Attempt.gather step items).run (Attempt.gather step' items).run := by
  induction items with
  | nil => exact pure []
  | cons item items ih =>
    rw [Attempt.gather, Attempt.gather]
    exact bind (each item) fun _ => bind ih fun _ => pure _

end StrictRun

section Reading

variable {n : Nat} (heap : Heap n)

private theorem reading_of_member (typeName name : Text) (member : Option (Member n)) :
    ∀ notice ∈ (Member.read typeName name member).notices, notice.stage = .reading := by
  rw [Member.read.eq_def]
  split
  · simp
  · rw [Logged.notices_bind, Logged.notices_pure, List.append_nil]
    exact List.forall_mem_singleton.2 rfl
  · simp

theorem Heap.reading_of_readProperty (value : Value n) (name : Text) :
    ∀ notice ∈ (heap.readProperty value name).notices, notice.stage = .reading := by
  rw [readProperty.eq_def]
  split
  · simp
  · split
    · simp
    · split
      · simp
      · exact reading_of_member _ _ _
      · simp

theorem Heap.reading_of_follow (value : Value n) (name : Text) :
    ∀ notice ∈ (heap.follow value name).notices, notice.stage = .reading := by
  rw [follow.eq_def]
  split
  · exact heap.reading_of_readProperty _ name
  · split
    · simp
    · exact heap.reading_of_readProperty _ name

theorem Heap.reading_of_walk (value : Value n) (names : List Text) :
    ∀ notice ∈ (heap.walk value names).notices, notice.stage = .reading := by
  induction names generalizing value with
  | nil => simp [walk]
  | cons name names ih =>
    rw [walk, Logged.notices_bind]
    exact List.forall_mem_append.2 ⟨heap.reading_of_follow value name, ih _⟩

theorem Notice.resolved_of_reading {notice : Notice} (reading : notice.stage = .reading) :
    notice.isUnresolvedPath = false := by
  cases notice with
  | unresolvedPath path line => cases reading
  | _ => rfl

theorem Heap.resolved_of_resolve (path : Text) (value : Value n) :
    ∀ notice ∈ (heap.resolve path value).notices, notice.isUnresolvedPath = false :=
  fun notice member => Notice.resolved_of_reading (heap.reading_of_walk _ _ notice member)

theorem Node.resolved_of_elementsFor (value : Value n) (place : Position) (path : Text) :
    ∀ notice ∈ (Node.elementsFor heap value place path).notices,
      notice.isUnresolvedPath = false := by
  rw [elementsFor, Logged.notices_bind]
  refine List.forall_mem_append.2 ⟨heap.resolved_of_resolve path value, ?_⟩
  split
  · simp
  · split
    · rw [Logged.notices_bind, Logged.notices_pure, List.append_nil]
      exact List.forall_mem_singleton.2 rfl
    · simp

end Reading

section Render

variable {n : Nat} (heap : Heap n) (frame : Option Frame)

theorem Node.strictRun_renderReference (value : Value n) (place : Position) (path : Text) :
    StrictRun (Node.renderReference heap false frame value place path).run
      (Node.renderReference heap true frame value place path).run := by
  rw [renderReference, renderReference]
  refine StrictRun.bind (.of_resolved (heap.resolved_of_resolve path value)) ?_
  intro found
  split
  · -- What is looked up for the sake of the failure is noted after the path itself.
    refine .fails [] [] (heap.undefinedAt frame place path value).notices
      (heap.undefinedAt frame place path value).value place.line (by simp) rfl ?_ rfl rfl
    rw [Attempt.notices_bind]
    show [Notice.unresolvedPath path place.line] ++ (ExceptT.run (do
      let failure ← heap.undefinedAt frame place path value
      throw (.undefined failure) : Attempt Failure (List Piece))).notices = _
    rw [Attempt.notices_bind, Attempt.notices_lift, Attempt.outcome_lift]
    exact congrArg _ (List.append_nil _)
  · exact .pure _

mutual

theorem Node.strictRun_render (value : Value n) (node : Node) :
    StrictRun (Node.render heap false frame value node).run
      (Node.render heap true frame value node).run := by
  cases node with
  | literal place content => exact .pure _
  | reference place path => exact Node.strictRun_renderReference heap frame value place path
  | block kind place path body =>
    cases kind with
    | condition =>
      rw [Node.render, Node.render]
      refine StrictRun.bind (.of_resolved (heap.resolved_of_resolve path value)) ?_
      intro found
      split
      · exact Node.strictRun_renderAll value body
      · exact .pure _
    | iteration =>
      rw [Node.render, Node.render]
      refine StrictRun.bind (.of_resolved (Node.resolved_of_elementsFor heap value place path)) ?_
      intro items
      exact StrictRun.gather (fun item => Node.strictRun_renderAll item body) items

/-- A strict run of nodes one after another goes with the lenient one. -/
theorem Node.strictRun_renderAll (value : Value n) (nodes : List Node) :
    StrictRun (Node.renderAll heap false frame value nodes).run
      (Node.renderAll heap true frame value nodes).run := by
  cases nodes with
  | nil => exact .pure _
  | cons node nodes =>
    rw [Node.renderAll, Node.renderAll]
    exact StrictRun.bind (Node.strictRun_render value node) fun _ =>
      StrictRun.bind (Node.strictRun_renderAll value nodes) fun _ => .pure _

end

theorem Node.outcome_render_of_skips (strict : Bool) {value : Value n} {kind : BlockKind} {path : Text}
    (skips : kind.Skips heap (heap.resolve path value).value) (place : Position)
    (body : List Node) :
    (Node.render heap strict frame value (.block kind place path body)).run.value = .ok [] := by
  cases kind with
  | condition =>
    rw [Node.outcome_render_condition, if_neg]
    rw [Bool.not_eq_true]
    exact skips
  | iteration =>
    have empty : (heap.elements? (heap.resolve path value).value).getD [] = [] := skips
    rw [Node.outcome_render_iteration, empty]
    rfl

end Render

theorem Template.strictRun_render (template : Template) (frame : Option Frame) (context : Context) :
    StrictRun (template.render false frame context).run (template.render true frame context).run :=
  StrictRun.bind (Node.strictRun_renderAll context.heap frame context.root template.body)
    fun _ => .pure _

private theorem first_unresolved_unique {before before' after after' : List Notice}
    {path path' : Text} {line line' : Nat}
    (same : before ++ .unresolvedPath path line :: after =
      before' ++ .unresolvedPath path' line' :: after')
    (resolved : ∀ notice ∈ before, notice.isUnresolvedPath = false)
    (resolved' : ∀ notice ∈ before', notice.isUnresolvedPath = false) :
    before = before' ∧ path = path' ∧ line = line' := by
  have passes : ∀ notice ∈ before, (!notice.isUnresolvedPath) = true := by
    intro notice member
    rw [resolved notice member, Bool.not_false]
  have passes' : ∀ notice ∈ before', (!notice.isUnresolvedPath) = true := by
    intro notice member
    rw [resolved' notice member, Bool.not_false]
  have fronts := congrArg (List.takeWhile fun notice => !notice.isUnresolvedPath) same
  have backs := congrArg (List.dropWhile fun notice => !notice.isUnresolvedPath) same
  rw [List.takeWhile_append_of_pos passes, List.takeWhile_append_of_pos passes',
    List.takeWhile_cons_of_neg Bool.false_ne_true, List.takeWhile_cons_of_neg Bool.false_ne_true,
    List.append_nil, List.append_nil] at fronts
  rw [List.dropWhile_append_of_pos passes, List.dropWhile_append_of_pos passes',
    List.dropWhile_cons_of_neg Bool.false_ne_true,
    List.dropWhile_cons_of_neg Bool.false_ne_true] at backs
  cases backs
  exact ⟨fronts, rfl, rfl⟩

/-- A tree rendered with strictness and without it, against the same value and within the same frame.
When no reference is noted as unresolved, both runs give the same text and the same notices.  Otherwise
the strict run fails with the path and the line of the first such reference, after the same notices up
to and including the one about it.  So it fails in no other case, and a block whose path leads nowhere,
or whose body is not rendered, does not fail whatever its body holds. -/
theorem render_strict_of_lenient (template : Template) (frame : Option Frame) (context : Context) :
    ((∀ notice ∈ (template.render false frame context).run.notices,
        notice.isUnresolvedPath = false) →
      (template.render true frame context).run = (template.render false frame context).run ∧
        ∃ text, (template.render true frame context).run.value = .ok text) ∧
    (∀ (before : List Notice) (path : Text) (line : Nat) (after : List Notice),
      (template.render false frame context).run.notices =
        before ++ .unresolvedPath path line :: after →
      (∀ notice ∈ before, notice.isUnresolvedPath = false) →
      ∃ failure more,
        (template.render true frame context).run =
          ⟨before ++ .unresolvedPath path line :: more, .error (.undefined failure)⟩ ∧
        failure.path = path ∧ failure.line = some (line : Int)) ∧
    ((∃ failure, (template.render true frame context).run.value = .error failure) ↔
      ∃ notice ∈ (template.render false frame context).run.notices,
        notice.isUnresolvedPath = true) ∧
    ∀ (value : Value context.size) (kind : BlockKind) (place : Position) (path : Text)
      (body : List Node),
      ((context.heap.resolve path value).value = .undefined ∨
        kind.Skips context.heap (context.heap.resolve path value).value) →
      (Node.render context.heap true frame value (.block kind place path body)).run.value =
        .ok [] := by
  have lenient := outcome_render_lenient template frame context
  have runs := Template.strictRun_render template frame context
  refine ⟨?_, ?_, ?_, ?_⟩
  · intro resolved
    cases runs with
    | same _ strict_eq => exact ⟨strict_eq, _, strict_eq ▸ lenient⟩
    | fails before after more failure line _ noted _ _ _ =>
      have unresolved := resolved (.unresolvedPath failure.path line) (by simp [noted])
      cases unresolved
  · intro before path line after noted resolved
    cases runs with
    | same all_resolved _ =>
      have unresolved := all_resolved (.unresolvedPath path line) (by simp [noted])
      cases unresolved
    | fails before' after' more failure line' resolved' noted' strict_noted failed line_eq =>
      obtain ⟨rfl, rfl, rfl⟩ := first_unresolved_unique (noted.symm.trans noted') resolved resolved'
      exact ⟨failure, more, Logged.ext strict_noted failed, rfl, line_eq⟩
  · cases runs with
    | same resolved strict_eq =>
      rw [strict_eq, lenient]
      constructor
      · rintro ⟨failure, impossible⟩
        cases impossible
      · rintro ⟨notice, member, unresolved⟩
        rw [resolved notice member] at unresolved
        cases unresolved
    | fails before after more failure line _ noted _ failed _ =>
      constructor
      · intro _
        exact ⟨.unresolvedPath failure.path line, by simp [noted], rfl⟩
      · intro _
        exact ⟨_, failed⟩
  · rintro value kind place path body (missing | skips)
    · apply Node.outcome_render_of_skips
      rw [missing]
      exact kind.skips_undefined context.heap
    · exact Node.outcome_render_of_skips context.heap frame true skips place body

/-- Elements of which the first has the name that is asked for and the second fails to be read. -/
private def unevenElements : Context :=
  ⟨4, ⟨fun
    | 0 => .map [(.scalar (.text ['x']), .object 1)]
    | 1 => .list [.object 2, .object 3]
    | 2 => .map [(.scalar (.text ['a']), .object 0)]
    | 3 => .record ['R'] [] [(['a'], .failing false ['E'] [])]⟩, .object 0⟩

private def unevenTemplate : Template :=
  ⟨none, [.block .condition ⟨1, 0⟩ ['n'] [.reference ⟨2, 0⟩ ['n']],
    .block .iteration ⟨3, 0⟩ ['x'] [.reference ⟨4, 2⟩ "a.x".toList]]⟩

theorem render_strict_uneven :
    (unevenTemplate.render false none unevenElements).run.notices =
      [.unreadable ['a'] ['R'] ['E'] [], .unresolvedPath "a.x".toList 4] ∧
    ∃ failure more,
      (unevenTemplate.render true none unevenElements).run =
        ⟨.unreadable ['a'] ['R'] ['E'] [] :: .unresolvedPath "a.x".toList 4 :: more,
          .error (.undefined failure)⟩ ∧
      failure.path = "a.x".toList ∧ failure.line = some 4 := by
  have noted : (unevenTemplate.render false none unevenElements).run.notices =
      [.unreadable ['a'] ['R'] ['E'] [], .unresolvedPath "a.x".toList 4] := by cbv
  obtain ⟨-, first, -⟩ := render_strict_of_lenient unevenTemplate none unevenElements
  exact ⟨noted, first [.unreadable ['a'] ['R'] ['E'] []] _ 4 [] noted
    (List.forall_mem_singleton.2 rfl)⟩

end Stencil
