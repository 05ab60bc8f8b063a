import Stencil.Logged

/-!
What attempts lead to.  An attempt is known by the notices it gives and by the value or the failure it
ends in.  Both are worked out along its steps: a failure ends the work, and until then the notices of
one step stand before those of the next.
-/

set_option autoImplicit false
set_option relaxedAutoImplicit false

namespace Stencil

namespace Attempt

variable {ε δ α β : Type}

@[simp] theorem outcome_pure (value : α) : (pure value : Attempt ε α).run.value = .ok value := rfl

@[simp] theorem notices_pure (value : α) : (pure value : Attempt ε α).run.notices = [] := rfl

@[simp] theorem outcome_throw (failure : ε) :
    (throw failure : Attempt ε α).run.value = .error failure := rfl

@[simp] theorem notices_throw (failure : ε) : (throw failure : Attempt ε α).run.notices = [] := rfl

@[simp] theorem outcome_lift (work : Logged α) :
    (liftM work : Attempt ε α).run.value = .ok work.value := rfl

@[simp] theorem notices_lift (work : Logged α) :
    (liftM work : Attempt ε α).run.notices = work.notices := rfl

@[simp] theorem outcome_note (notice : Notice) :
    (note notice : Attempt ε Unit).run.value = .ok () := rfl

@[simp] theorem notices_note (notice : Notice) :
    (note notice : Attempt ε Unit).run.notices = [notice] := rfl

theorem outcome_bind (work : Attempt ε α) (next : α → Attempt ε β) :
    (work >>= next).run.value = work.run.value.bind fun value => (next value).run.value := by
  rw [ExceptT.run_bind, Logged.value_bind]
  cases work.run.value with
  | ok value => rfl
  | error failure => rfl

theorem outcome_note_bind (notice : Notice) (next : Unit → Attempt ε β) :
    (note notice >>= next).run.value = (next ()).run.value := rfl

theorem notices_bind (work : Attempt ε α) (next : α → Attempt ε β) :
    (work >>= next).run.notices = work.run.notices ++
      match work.run.value with
      | .ok value => (next value).run.notices
      | .error _ => [] := by
  rw [ExceptT.run_bind, Logged.notices_bind]
  cases work.run.value with
  | ok value => rfl
  | error failure => rfl

theorem run_bind_of_ok {work : Attempt ε α} {value : α} (next : α → Attempt ε β)
    (ended : work.run.value = .ok value) :
    (work >>= next).run =
      ⟨work.run.notices ++ (next value).run.notices, (next value).run.value⟩ := by
  apply Logged.ext
  · rw [notices_bind, ended]
  · rw [outcome_bind, ended]
    rfl

theorem run_bind_of_error {work : Attempt ε α} {failure : ε} (next : α → Attempt ε β)
    (ended : work.run.value = .error failure) :
    (work >>= next).run = ⟨work.run.notices, .error failure⟩ := by
  apply Logged.ext
  · rw [notices_bind, ended, List.append_nil]
  · rw [outcome_bind, ended]
    rfl

theorem outcome_bind_eq_ok {work : Attempt ε α} {next : α → Attempt ε β} {result : β}
    (ended : (work >>= next).run.value = .ok result) :
    ∃ value, work.run.value = .ok value ∧ (next value).run.value = .ok result := by
  rw [outcome_bind] at ended
  cases first : work.run.value with
  | ok value =>
    rw [first] at ended
    exact ⟨value, rfl, ended⟩
  | error failure =>
    rw [first] at ended
    cases ended

theorem run_bind_eq_ok_iff {work : Attempt ε α} {next : α → Attempt ε β} {notices : List Notice}
    {result : β} :
    (work >>= next).run = ⟨notices, .ok result⟩ ↔
      ∃ before value after, work.run = ⟨before, .ok value⟩ ∧
        (next value).run = ⟨after, .ok result⟩ ∧ notices = before ++ after := by
  constructor
  · intro h
    have outcome := congrArg Logged.value h
    have noted := congrArg Logged.notices h
    rw [outcome_bind] at outcome
    rw [notices_bind] at noted
    cases hw : work.run.value with
    | error failure =>
      rw [hw] at outcome
      cases outcome
    | ok value =>
      rw [hw] at outcome noted
      exact ⟨work.run.notices, value, (next value).run.notices, Logged.ext rfl hw,
        Logged.ext rfl outcome, noted.symm⟩
  · rintro ⟨before, value, after, hw, hn, rfl⟩
    apply Logged.ext
    · simp only [notices_bind, hw, hn]
    · simp only [outcome_bind, hw, hn, Except.bind]

theorem run_pure_eq_ok_iff {value result : α} {notices : List Notice} :
    (pure value : Attempt ε α).run = ⟨notices, .ok result⟩ ↔ notices = [] ∧ value = result := by
  constructor
  · intro h
    cases h
    exact ⟨rfl, rfl⟩
  · rintro ⟨rfl, rfl⟩
    rfl

theorem run_note_bind_eq_ok_iff {notice : Notice} {next : Unit → Attempt ε β}
    {notices : List Notice} {result : β} :
    (note notice >>= next).run = ⟨notices, .ok result⟩ ↔
      ∃ after, (next ()).run = ⟨after, .ok result⟩ ∧ notices = notice :: after := by
  rw [run_bind_eq_ok_iff]
  constructor
  · rintro ⟨before, value, after, hw, hn, rfl⟩
    cases hw
    exact ⟨after, hn, rfl⟩
  · rintro ⟨after, hn, rfl⟩
    exact ⟨[notice], (), after, rfl, hn, rfl⟩

theorem outcome_adapt (change : ε → δ) (work : Attempt ε α) :
    (ExceptT.adapt change work).run.value = work.run.value.mapError change := rfl

theorem notices_adapt (change : ε → δ) (work : Attempt ε α) :
    (ExceptT.adapt change work).run.notices = work.run.notices := rfl

end Attempt

end Stencil
