import Stencil.Engine

/-!
Sessions.  A session keeps engines and parsed templates under names and a stack of frames, of which
the innermost is current.  Each step changes the session and gives an answer.  A source is rendered
within a frame of its own, which is left again whether the rendering fails or not; a template that was
kept is rendered within whatever frame is current.
-/

set_option autoImplicit false
set_option relaxedAutoImplicit false

namespace Stencil

/-- What a session keeps. -/
structure Session where
  engines : List (Text × Engine)
  templates : List (Text × Template)
  /-- The frames entered and not yet left, from the innermost on. -/
  frames : List Frame

inductive Step
  | makeEngine (engine : Text) (strict : Bool) (limit : Int)
  | setStrict (engine : Text) (strict : Bool)
  | setLimit (engine : Text) (limit : Int)
  /-- Renders a source, by the usual engine and without a name when no engine is named. -/
  | render (engine : Option Text) (name : Option Text) (source : Text) (context : Context)
  /-- Parses a source, by the usual engine when none is named, and keeps the template. -/
  | parse (engine : Option Text) (tree : Text) (name : Option Text) (source : Text)
  /-- Renders a template that was kept, within the current frame. -/
  | renderTree (tree : Text) (strict : Bool) (context : Context)
  | enter (frame : Frame)
  | leave
  | look

inductive Answer
  | engine (engine : Engine)
  | text (text : Text)
  | template (template : Template)
  | done
  | rejected (failure : NegativeLimit)
  | failed (failure : Failure)
  /-- Nothing is kept under the name. -/
  | unknown (name : Text)

namespace Session

def empty : Session :=
  ⟨[], [], []⟩

/-- The innermost frame not yet left. -/
def current (session : Session) : Option Frame :=
  session.frames.head?

def engine? (session : Session) (name : Text) : Option Engine :=
  session.engines.lookup name

def template? (session : Session) (name : Text) : Option Template :=
  session.templates.lookup name

/-- Keeps an engine under a name, in front of any that was kept there before. -/
def keepEngine (session : Session) (name : Text) (engine : Engine) : Session :=
  { session with engines := (name, engine) :: session.engines }

def keepTemplate (session : Session) (name : Text) (template : Template) : Session :=
  { session with templates := (name, template) :: session.templates }

def make (session : Session) (name : Text) (strict : Bool) (limit : Int) : Session × Answer :=
  match Engine.make strict limit with
  | .ok engine => (session.keepEngine name engine, .engine engine)
  | .error failure => (session, .rejected failure)

def change (session : Session) (name : Text) (new : Engine → Engine) : Session × Answer :=
  match session.engine? name with
  | some engine => (session.keepEngine name (new engine), .engine (new engine))
  | none => (session, .unknown name)

def answerText : Except Failure Text → Answer
  | .ok text => .text text
  | .error failure => .failed failure

def enter (session : Session) (frame : Frame) : Session :=
  { session with frames := frame :: session.frames }

def leave (session : Session) : Session :=
  { session with frames := session.frames.drop 1 }

def renderTemplate (session : Session) (template : Template) (strict : Bool) (context : Context) :
    Logged Answer := do
  let outcome ← (template.render strict session.current context).run
  pure (answerText outcome)

/-- Renders a source by an engine, within a frame that is left at the end. -/
def renderBy (session : Session) (engine : Engine) (name : Option Text) (source : Text)
    (context : Context) : Logged (Session × Answer) := do
  let outcome ← (engine.parse name source).run
  match outcome with
  | .error failure => pure (session, .failed failure)
  | .ok template =>
    let entered := session.enter ⟨name, some source⟩
    let answer ← entered.renderTemplate template engine.rendersStrictly context
    pure (entered.leave, answer)

def render (session : Session) (engine name : Option Text) (source : Text) (context : Context) :
    Logged (Session × Answer) :=
  match engine with
  | none => session.renderBy Engine.usual none source context
  | some engine =>
    match session.engine? engine with
    | none => pure (session, .unknown engine)
    | some engine => session.renderBy engine name source context

def parseBy (session : Session) (engine : Engine) (tree : Text) (name : Option Text)
    (source : Text) : Logged (Session × Answer) := do
  let outcome ← (engine.parse name source).run
  match outcome with
  | .ok template => pure (session.keepTemplate tree template, .template template)
  | .error failure => pure (session, .failed failure)

def parse (session : Session) (engine : Option Text) (tree : Text) (name : Option Text)
    (source : Text) : Logged (Session × Answer) :=
  match engine with
  | none => session.parseBy Engine.usual tree name source
  | some engine =>
    match session.engine? engine with
    | none => pure (session, .unknown engine)
    | some engine => session.parseBy engine tree name source

def renderTree (session : Session) (tree : Text) (strict : Bool) (context : Context) :
    Logged Answer :=
  match session.template? tree with
  | none => pure (.unknown tree)
  | some template => session.renderTemplate template strict context

def step (session : Session) : Step → Logged (Session × Answer)
  | .makeEngine name strict limit => pure (session.make name strict limit)
  | .setStrict name strict => pure (session.change name fun engine => { engine with strict })
  | .setLimit name limit => pure (session.change name fun engine => { engine with limit })
  | .render engine name source context => session.render engine name source context
  | .parse engine tree name source => session.parse engine tree name source
  | .renderTree tree strict context => do
    let answer ← session.renderTree tree strict context
    pure (session, answer)
  | .enter frame => pure (session.enter frame, .done)
  | .leave => pure (session.leave, .done)
  | .look => pure (session, .done)

/-- Takes steps one after another and gives each answer with the frame that is current after it. -/
def run (session : Session) : List Step → Logged (List (Answer × Option Frame))
  | [] => pure []
  | first :: steps => do
    let (next, answer) ← session.step first
    let others ← next.run steps
    pure ((answer, next.current) :: others)

end Session

end Stencil
