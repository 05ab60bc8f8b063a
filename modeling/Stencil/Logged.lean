import Stencil.Notice

/-!
Work that gives notices.  A `Logged` value is a value with the notices given on the way to it, in
order; an `Attempt` may end in a failure instead, and keeps the notices given up to then.  Both are
lawful monads in which the notices of the first step come before those of the second.
-/

set_option autoImplicit false
set_option relaxedAutoImplicit false

namespace Stencil

/-- A value and the notices given while it was found. -/
structure Logged (α : Type) where
  notices : List Notice
  value : α
deriving DecidableEq, Repr

/-- Notices after others.  Where none are added the others stay as they are, without a copy. -/
def Notice.followedBy (first : List Notice) : List Notice → List Notice
  | [] => first
  | notice :: rest => first ++ notice :: rest

@[simp] theorem Notice.followedBy_eq_append (first rest : List Notice) :
    Notice.followedBy first rest = first ++ rest := by
  cases rest <;> simp [Notice.followedBy]

namespace Logged

instance : Monad Logged where
  pure value := ⟨[], value⟩
  bind work next :=
    let rest := next work.value
    ⟨Notice.followedBy work.notices rest.notices, rest.value⟩

def note (notice : Notice) : Logged Unit :=
  ⟨[notice], ()⟩

@[simp] theorem notices_pure {α : Type} (value : α) :
    (pure value : Logged α).notices = [] := rfl

@[simp] theorem value_pure {α : Type} (value : α) : (pure value : Logged α).value = value := rfl

@[simp] theorem notices_bind {α β : Type} (work : Logged α) (next : α → Logged β) :
    (work >>= next).notices = work.notices ++ (next work.value).notices :=
  Notice.followedBy_eq_append _ _

@[simp] theorem value_bind {α β : Type} (work : Logged α) (next : α → Logged β) :
    (work >>= next).value = (next work.value).value := rfl

@[ext] theorem ext {α : Type} {first second : Logged α} (notices : first.notices = second.notices)
    (value : first.value = second.value) : first = second := by
  cases first
  cases second
  simp_all

instance : LawfulMonad Logged :=
  LawfulMonad.mk' Logged
    (fun work => by ext1 <;> simp [Functor.map])
    (fun value next => by ext1 <;> simp)
    (fun work next last => by ext1 <;> simp [List.append_assoc])

end Logged

/-- Work that gives notices and may fail. -/
abbrev Attempt (ε α : Type) := ExceptT ε Logged α

namespace Attempt

def note {ε : Type} (notice : Notice) : Attempt ε Unit :=
  ExceptT.lift (Logged.note notice)

/-- Runs one step for every element and puts the results one after another. -/
def gather {ε α β : Type} (step : α → Attempt ε (List β)) : List α → Attempt ε (List β)
  | [] => pure []
  | a :: others => do
    let first ← step a
    let rest ← gather step others
    pure (first ++ rest)

end Attempt

end Stencil
