import Stencil.Render

/-!
Engines.  An engine holds the choices under which sources are parsed and rendered.  Its strictness in
rendering is fixed when it is made; the strictness it shows and its nesting limit can be assigned
later, and then the limit is taken as it is.
-/

set_option autoImplicit false
set_option relaxedAutoImplicit false

namespace Stencil

/-- The choices under which sources are parsed and rendered. -/
structure Engine where
  /-- The strictness that the engine shows. -/
  strict : Bool
  /-- How many levels deep blocks may nest. -/
  limit : Int
  /-- The strictness with which the engine renders. -/
  rendersStrictly : Bool
deriving DecidableEq, Repr

structure NegativeLimit where
  limit : Int
deriving DecidableEq, Repr

def NegativeLimit.message (failure : NegativeLimit) : Text :=
  "max_nesting_depth must be >= 0, got ".toList ++ intText failure.limit

namespace Engine

def usualLimit : Int := 100

def make (strict : Bool) (limit : Int) : Except NegativeLimit Engine :=
  if limit < 0 then .error ⟨limit⟩ else .ok ⟨strict, limit, strict⟩

/-- The engine that stands in where none is named. -/
def usual : Engine :=
  ⟨false, usualLimit, false⟩

def shown (engine : Engine) : Text :=
  "<Environment strict=".toList ++ (if engine.strict then "True".toList else "False".toList) ++
    " max_nesting_depth=".toList ++ intText engine.limit ++ ['>']

def parse (engine : Engine) (name : Option Text) (source : Text) : Attempt Failure Template :=
  Template.ofSource name engine.limit source

def render (engine : Engine) (name : Option Text) (source : Text) (context : Context) :
    Attempt Failure Text := do
  let template ← engine.parse name source
  template.render engine.rendersStrictly (some ⟨name, some source⟩) context

end Engine

end Stencil
