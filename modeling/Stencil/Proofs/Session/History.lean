import Stencil.Proofs.Template.Reading
import Stencil.Session
import Mathlib

/-!
What a session owes to its history.  Of all the steps taken only the entering and leaving of frames
decide which frame is current, and only the making of an engine and the limits assigned to it decide
what a source is rendered to by it.  To parse a source, enter its frame, render the tree and leave is to
render the source.
-/

set_option autoImplicit false
set_option relaxedAutoImplicit false

namespace Stencil

namespace Step

/-- How many frames more are entered after a step than before it. -/
def rise : Step → Int
  | .enter _ => 1
  | .leave => -1
  | _ => 0

def rises (steps : List Step) : Int :=
  (steps.map rise).sum

/-- Whether steps enter `depth` frames that they do not leave, and leave none that they did not
enter. -/
structure RiseBy (depth : Nat) (steps : List Step) : Prop where
  stays : ∀ front, front <+: steps → 0 ≤ rises front
  net : rises steps = depth

instance (depth : Nat) (steps : List Step) : Decidable (RiseBy depth steps) :=
  decidable_of_iff ((∀ front ∈ steps.inits, 0 ≤ rises front) ∧ rises steps = depth) <| by
    constructor
    · rintro ⟨stays, net⟩
      exact ⟨fun front stretch => stays front ((List.mem_inits front steps).2 stretch), net⟩
    · rintro ⟨stays, net⟩
      exact ⟨fun front member => stays front ((List.mem_inits front steps).1 member), net⟩

theorem rises_concat (steps : List Step) (step : Step) :
    rises (steps ++ [step]) = rises steps + step.rise := by
  rw [rises, rises, List.map_append, List.sum_append, List.map_singleton, List.sum_singleton]

theorem riseBy_nil_iff {depth : Nat} : RiseBy depth [] ↔ depth = 0 := by
  constructor
  · rintro ⟨-, net⟩
    exact Int.ofNat_eq_zero.1 net.symm
  · rintro rfl
    refine ⟨?_, rfl⟩
    intro front stretch
    rw [List.prefix_nil.1 stretch]
    exact le_refl 0

theorem riseBy_concat_iff {depth : Nat} {steps : List Step} {step : Step} :
    RiseBy depth (steps ++ [step]) ↔ ∃ before : Nat, RiseBy before steps ∧ before + step.rise = depth := by
  constructor
  · rintro ⟨stays, net⟩
    have part : ∀ front, front <+: steps → 0 ≤ rises front := by
      intro front stretch
      exact stays front (stretch.trans (List.prefix_append steps [step]))
    have level := part steps (List.prefix_refl steps)
    rw [rises_concat] at net
    exact ⟨(rises steps).toNat, ⟨part, by omega⟩, by omega⟩
  · rintro ⟨before, ⟨stays, net⟩, sum⟩
    have total : rises (steps ++ [step]) = depth := by
      rw [rises_concat, net, sum]
    refine ⟨?_, total⟩
    intro front stretch
    rcases List.prefix_concat_iff.1 stretch with rfl | shorter
    · omega
    · exact stays front shorter

theorem entered_concat_iff {depth : Nat} {frame : Frame} {steps : List Step} {step : Step} :
    (∃ earlier later, steps ++ [step] = earlier ++ .enter frame :: later ∧ RiseBy depth later) ↔
      step = .enter frame ∧ depth = 0 ∨ ∃ before : Nat, before + step.rise = depth ∧
        ∃ earlier later, steps = earlier ++ .enter frame :: later ∧ RiseBy before later := by
  constructor
  · rintro ⟨earlier, later, whole, riseBy⟩
    rcases List.eq_nil_or_concat' later with rfl | ⟨later, last, rfl⟩
    · obtain ⟨-, same⟩ := List.append_inj' whole rfl
      exact Or.inl ⟨List.singleton_inj.1 same, riseBy_nil_iff.1 riseBy⟩
    · rw [← List.cons_append, ← List.append_assoc] at whole
      obtain ⟨steps_eq, same⟩ := List.append_inj' whole rfl
      cases List.singleton_inj.1 same
      obtain ⟨before, riseBy, sum⟩ := riseBy_concat_iff.1 riseBy
      exact Or.inr ⟨before, sum, earlier, later, steps_eq, riseBy⟩
  · rintro (⟨rfl, rfl⟩ | ⟨before, sum, earlier, later, rfl, riseBy⟩)
    · exact ⟨steps, [], rfl, riseBy_nil_iff.2 rfl⟩
    · refine ⟨earlier, later ++ [step], ?_, riseBy_concat_iff.2 ⟨before, riseBy, sum⟩⟩
      rw [List.append_assoc, List.cons_append]

def strictness? (engine : Text) : Step → Option Bool
  | .makeEngine name strict limit => if name = engine ∧ 0 ≤ limit then some strict else none
  | _ => none

/-- The nesting limit that a step gives to an engine, in making it or afterwards. -/
def limit? (engine : Text) : Step → Option Int
  | .makeEngine name _ limit => if name = engine ∧ 0 ≤ limit then some limit else none
  | .setLimit name limit => if name = engine then some limit else none
  | _ => none

def lastStrictness? (engine : Text) (steps : List Step) : Option Bool :=
  (steps.filterMap (strictness? engine)).getLast?

def lastLimit? (engine : Text) (steps : List Step) : Option Int :=
  (steps.filterMap (limit? engine)).getLast?

section Last

variable {engine : Text} {steps : List Step} {step : Step}

private theorem getLast?_filterMap_concat {α : Type} (given : Step → Option α) :
    ((steps ++ [step]).filterMap given).getLast? =
      (given step).or (steps.filterMap given).getLast? := by
  rw [List.filterMap_append, List.getLast?_append]
  cases last : given step with
  | none => rw [List.filterMap_cons_none last]; rfl
  | some value => rw [List.filterMap_cons_some last]; rfl

theorem lastStrictness?_concat : lastStrictness? engine (steps ++ [step]) =
    (strictness? engine step).or (lastStrictness? engine steps) :=
  getLast?_filterMap_concat (strictness? engine)

theorem lastLimit?_concat : lastLimit? engine (steps ++ [step]) =
    (limit? engine step).or (lastLimit? engine steps) :=
  getLast?_filterMap_concat (limit? engine)

end Last

end Step

theorem Engine.render_congr {first second : Engine} (limit : first.limit = second.limit)
    (strict : first.rendersStrictly = second.rendersStrictly) (name : Option Text) (source : Text)
    (context : Context) : first.render name source context = second.render name source context := by
  rw [render, render, parse, parse, limit, strict]

theorem Engine.outcome_render_of_parse_ok {engine : Engine} {name : Option Text} {source : Text}
    {template : Template} (parsed : (engine.parse name source).run.value = .ok template)
    (context : Context) :
    (engine.render name source context).run.value =
      (template.render engine.rendersStrictly (some ⟨name, some source⟩) context).run.value := by
  rw [render, Attempt.outcome_bind, parsed]
  rfl

theorem Engine.outcome_render_of_parse_error {engine : Engine} {name : Option Text} {source : Text}
    {failure : Failure} (parsed : (engine.parse name source).run.value = .error failure)
    (context : Context) : (engine.render name source context).run.value = .error failure := by
  rw [render, Attempt.outcome_bind, parsed]
  rfl

namespace Session

def after (session : Session) (steps : List Step) : Session :=
  steps.foldl (fun session step => (session.step step).value.1) session

def answerTo (before : List Step) (step : Step) : Answer :=
  ((empty.after before).step step).value.2

theorem after_append (session : Session) (before steps : List Step) :
    session.after (before ++ steps) = (session.after before).after steps :=
  List.foldl_append

theorem after_concat (session : Session) (steps : List Step) (step : Step) :
    session.after (steps ++ [step]) = ((session.after steps).step step).value.1 :=
  after_append session steps [step]

theorem value_run_cons (session : Session) (first : Step) (steps : List Step) :
    (session.run (first :: steps)).value =
      ((session.step first).value.2, (session.after [first]).current) ::
        ((session.after [first]).run steps).value := rfl

theorem value_run_getElem? (session : Session) (before : List Step) (step : Step)
    (rest : List Step) :
    (session.run (before ++ step :: rest)).value[before.length]? =
      some (((session.after before).step step).value.2,
        (session.after (before ++ [step])).current) := by
  induction before generalizing session with
  | nil => rfl
  | cons first before ih =>
    rw [List.cons_append, value_run_cons, List.length_cons, List.getElem?_cons_succ, ih]
    rfl

section Step

variable (session : Session)

theorem leave_enter (frame : Frame) : (session.enter frame).leave = session := rfl

theorem current_enter (frame : Frame) : (session.enter frame).current = some frame := rfl

theorem template?_keepTemplate (tree : Text) (template : Template) :
    (session.keepTemplate tree template).template? tree = some template := List.lookup_cons_self

theorem value_renderBy (engine : Engine) (name : Option Text) (source : Text) (context : Context) :
    (session.renderBy engine name source context).value =
      (session, answerText (engine.render name source context).run.value) := by
  rw [renderBy, Logged.value_bind]
  cases parsed : (engine.parse name source).run.value with
  | error failure =>
    rw [Engine.outcome_render_of_parse_error parsed]
    rfl
  | ok template =>
    rw [Engine.outcome_render_of_parse_ok parsed, ← session.current_enter ⟨name, some source⟩]
    show ((session.enter ⟨name, some source⟩).leave, _) = _
    rw [leave_enter]
    rfl

theorem value_parseBy (engine : Engine) (tree : Text) (name : Option Text) (source : Text) :
    (session.parseBy engine tree name source).value =
      match (engine.parse name source).run.value with
      | .ok template => (session.keepTemplate tree template, .template template)
      | .error failure => (session, .failed failure) := by
  rw [parseBy, Logged.value_bind]
  cases (engine.parse name source).run.value with
  | ok template => rfl
  | error failure => rfl

theorem session_render (engine name : Option Text) (source : Text) (context : Context) :
    (session.render engine name source context).value.1 = session := by
  cases engine with
  | none =>
    rw [render, value_renderBy]
  | some engine =>
    rw [render]
    split
    · rfl
    · rw [value_renderBy]

theorem session_parse (engine : Option Text) (tree : Text) (name : Option Text) (source : Text) :
    (session.parse engine tree name source).value.1.frames = session.frames ∧
      (session.parse engine tree name source).value.1.engines = session.engines := by
  have parsed : ∀ engine : Engine,
      (session.parseBy engine tree name source).value.1.frames = session.frames ∧
        (session.parseBy engine tree name source).value.1.engines = session.engines := by
    intro engine
    rw [value_parseBy]
    split <;> exact ⟨rfl, rfl⟩
  cases engine with
  | none => exact parsed Engine.usual
  | some engine =>
    rw [parse]
    split
    · exact ⟨rfl, rfl⟩
    · exact parsed _

theorem frames_make (name : Text) (strict : Bool) (limit : Int) :
    (session.make name strict limit).1.frames = session.frames := by
  rw [make]
  split <;> rfl

theorem frames_change (name : Text) (new : Engine → Engine) :
    (session.change name new).1.frames = session.frames := by
  rw [change]
  split <;> rfl

theorem frames_step_of_rise {step : Step} (still : step.rise = 0) :
    (session.step step).value.1.frames = session.frames := by
  cases step with
  | makeEngine name strict limit => exact session.frames_make name strict limit
  | setStrict name strict => exact session.frames_change name _
  | setLimit name limit => exact session.frames_change name _
  | render engine name source context =>
    exact congrArg frames (session.session_render engine name source context)
  | parse engine tree name source => exact (session.session_parse engine tree name source).1
  | renderTree tree strict context => rfl
  | enter frame => cases still
  | leave => cases still
  | look => rfl

theorem frames_step_getElem? (step : Step) (depth : Nat) (frame : Frame) :
    (session.step step).value.1.frames[depth]? = some frame ↔
      step = .enter frame ∧ depth = 0 ∨
        ∃ before : Nat, before + step.rise = depth ∧ session.frames[before]? = some frame := by
  by_cases still : step.rise = 0
  · rw [session.frames_step_of_rise still, still]
    constructor
    · intro found
      exact Or.inr ⟨depth, by omega, found⟩
    · rintro (⟨rfl, -⟩ | ⟨before, sum, found⟩)
      · cases still
      · rwa [show depth = before by omega]
  · cases step with
    | enter entered =>
      have up : Step.rise (.enter entered) = 1 := rfl
      show (entered :: session.frames)[depth]? = some frame ↔ _
      cases depth with
      | zero =>
        constructor
        · intro found
          cases found
          exact Or.inl ⟨rfl, rfl⟩
        · rintro (⟨same, -⟩ | ⟨before, sum, -⟩)
          · cases same
            rfl
          · omega
      | succ depth =>
        rw [List.getElem?_cons_succ]
        constructor
        · intro found
          exact Or.inr ⟨depth, rfl, found⟩
        · rintro (⟨-, deep⟩ | ⟨before, sum, found⟩)
          · cases deep
          · rwa [show depth = before by omega]
    | leave =>
      have down : Step.rise .leave = -1 := rfl
      show (session.frames.drop 1)[depth]? = some frame ↔ _
      rw [List.getElem?_drop]
      constructor
      · intro found
        exact Or.inr ⟨1 + depth, by omega, found⟩
      · rintro (⟨same, -⟩ | ⟨before, sum, found⟩)
        · cases same
        · rwa [show 1 + depth = before by omega]
    | _ => exact absurd rfl still

theorem engine?_keepEngine (name engine : Text) (kept : Engine) :
    (session.keepEngine name kept).engine? engine =
      if name = engine then some kept else session.engine? engine := by
  rw [engine?, keepEngine, List.lookup_cons]
  by_cases same : name = engine
  · rw [if_pos same, beq_iff_eq.2 same.symm]
  · rw [if_neg same, beq_eq_false_iff_ne.2 (Ne.symm same)]
    rfl

theorem engine?_make (engine name : Text) (strict : Bool) (limit : Int) :
    (session.make name strict limit).1.engine? engine =
      if name = engine ∧ 0 ≤ limit then some ⟨strict, limit, strict⟩
      else session.engine? engine := by
  rw [make, Engine.make]
  by_cases negative : limit < 0
  · rw [if_pos negative, if_neg (by omega)]
  · rw [if_neg negative]
    show (session.keepEngine name _).engine? engine = _
    rw [engine?_keepEngine]
    have allowed : 0 ≤ limit := by omega
    simp only [allowed, and_true]

theorem engine?_change (engine name : Text) (new : Engine → Engine) :
    (session.change name new).1.engine? engine =
      if name = engine then (session.engine? engine).map new else session.engine? engine := by
  rw [change]
  split
  · next kept found =>
    rw [engine?_keepEngine]
    by_cases same : name = engine
    · rw [if_pos same, if_pos same, ← same, found]
      rfl
    · rw [if_neg same, if_neg same]
  · next absent =>
    by_cases same : name = engine
    · rw [if_pos same, ← same, absent]
      rfl
    · rw [if_neg same]

end Step

/-- Whether a session keeps an engine, if it was made at all, as the steps so far have set it. -/
structure Reflects (session : Session) (engine : Text) (steps : List Step) : Prop where
  strictness :
    (session.engine? engine).map Engine.rendersStrictly = Step.lastStrictness? engine steps
  limit : ∀ kept, session.engine? engine = some kept →
    Step.lastLimit? engine steps = some kept.limit

namespace Reflects

variable {session next : Session} {engine : Text} {steps : List Step} {step : Step}

theorem concat_of_quiet (reflects : session.Reflects engine steps)
    (strictness : Step.strictness? engine step = none) (limit : Step.limit? engine step = none)
    (same : next.engine? engine = session.engine? engine) :
    next.Reflects engine (steps ++ [step]) where
  strictness := by
    rw [Step.lastStrictness?_concat, strictness, same, reflects.strictness]
    rfl
  limit := by
    rw [Step.lastLimit?_concat, limit, same]
    exact reflects.limit

theorem concat_of_change (reflects : session.Reflects engine steps) {new : Engine → Engine}
    (changed : next.engine? engine = (session.engine? engine).map new)
    (strictly : ∀ kept, (new kept).rendersStrictly = kept.rendersStrictly)
    (strictness : Step.strictness? engine step = none)
    (limit : ∀ kept, session.engine? engine = some kept →
      Step.lastLimit? engine (steps ++ [step]) = some (new kept).limit) :
    next.Reflects engine (steps ++ [step]) where
  strictness := by
    have same : Engine.rendersStrictly ∘ new = Engine.rendersStrictly := funext strictly
    rw [Step.lastStrictness?_concat, strictness, changed, Option.map_map, same,
      reflects.strictness]
    rfl
  limit := by
    intro kept found
    obtain ⟨old, old_eq, rfl⟩ := Option.map_eq_some_iff.1 (changed.symm.trans found)
    exact limit old old_eq

theorem concat (reflects : session.Reflects engine steps) (step : Step) :
    (session.step step).value.1.Reflects engine (steps ++ [step]) := by
  cases step with
  | makeEngine name strict limit =>
    have kept := session.engine?_make engine name strict limit
    by_cases made : name = engine ∧ 0 ≤ limit
    · rw [if_pos made] at kept
      constructor
      · show ((session.make name strict limit).1.engine? engine).map _ = _
        rw [kept, Step.lastStrictness?_concat, Step.strictness?, if_pos made]
        rfl
      · intro found engine?_eq
        cases kept.symm.trans engine?_eq
        rw [Step.lastLimit?_concat, Step.limit?, if_pos made]
        rfl
    · rw [if_neg made] at kept
      exact reflects.concat_of_quiet (if_neg made) (if_neg made) kept
  | setStrict name strict =>
    have changed := session.engine?_change engine name fun engine => { engine with strict }
    by_cases named : name = engine
    · rw [if_pos named] at changed
      apply reflects.concat_of_change changed (fun _ => rfl) rfl
      intro kept found
      rw [Step.lastLimit?_concat]
      exact reflects.limit kept found
    · rw [if_neg named] at changed
      exact reflects.concat_of_quiet rfl rfl changed
  | setLimit name limit =>
    have changed := session.engine?_change engine name fun engine => { engine with limit }
    by_cases named : name = engine
    · rw [if_pos named] at changed
      apply reflects.concat_of_change changed (fun _ => rfl) rfl
      intro kept found
      rw [Step.lastLimit?_concat, Step.limit?, if_pos named]
      rfl
    · rw [if_neg named] at changed
      exact reflects.concat_of_quiet rfl (if_neg named) changed
  | render engine' name source context =>
    apply reflects.concat_of_quiet rfl rfl
    exact congrArg (engine? · engine) (session.session_render engine' name source context)
  | parse engine' tree name source =>
    apply reflects.concat_of_quiet rfl rfl
    exact congrArg (List.lookup engine) (session.session_parse engine' tree name source).2
  | renderTree tree strict context => exact reflects.concat_of_quiet rfl rfl rfl
  | enter frame => exact reflects.concat_of_quiet rfl rfl rfl
  | leave => exact reflects.concat_of_quiet rfl rfl rfl
  | look => exact reflects.concat_of_quiet rfl rfl rfl

end Reflects

theorem reflects_after (engine : Text) (steps : List Step) :
    (empty.after steps).Reflects engine steps := by
  induction steps using List.reverseRecOn with
  | nil =>
    refine ⟨rfl, ?_⟩
    intro kept absent
    cases absent
  | append_singleton steps step ih =>
    rw [after_concat]
    exact ih.concat step

/-- The frames that lie at a depth after the first steps are those entered before, with as many still to
be left first. -/
theorem frames_after_getElem? (steps : List Step) (depth : Nat) (frame : Frame) :
    (empty.after steps).frames[depth]? = some frame ↔
      ∃ earlier later, steps = earlier ++ .enter frame :: later ∧ Step.RiseBy depth later := by
  induction steps using List.reverseRecOn generalizing depth with
  | nil =>
    constructor
    · intro absent
      cases absent
    · rintro ⟨earlier, later, whole, -⟩
      exact absurd whole.symm (List.append_ne_nil_of_right_ne_nil _ (List.cons_ne_nil _ _))
  | append_singleton steps step ih =>
    rw [after_concat, frames_step_getElem?, Step.entered_concat_iff]
    simp only [ih]

theorem current_after_iff (steps : List Step) (frame : Frame) :
    (empty.after steps).current = some frame ↔
      ∃ earlier later, steps = earlier ++ .enter frame :: later ∧ Step.RiseBy 0 later := by
  rw [current, List.head?_eq_getElem?]
  exact frames_after_getElem? steps 0 frame

section Kept

variable {session : Session} {engine : Text} {kept : Engine} {before : List Step} {strict : Bool}

theorem value_render_of_engine? (found : session.engine? engine = some kept) (name : Option Text)
    (source : Text) (context : Context) :
    (session.render (some engine) name source context).value =
      (session, answerText (kept.render name source context).run.value) := by
  rw [render, found]
  exact session.value_renderBy kept name source context

theorem parse_of_engine? (found : session.engine? engine = some kept) (tree : Text)
    (name : Option Text) (source : Text) :
    session.parse (some engine) tree name source = session.parseBy kept tree name source := by
  rw [parse, found]

theorem exists_engine?_after (made : Step.lastStrictness? engine before = some strict) :
    ∃ kept, (empty.after before).engine? engine = some kept ∧ kept.rendersStrictly = strict ∧
      Step.lastLimit? engine before = some kept.limit := by
  have reflects := reflects_after engine before
  obtain ⟨kept, found, same⟩ := Option.map_eq_some_iff.1 (reflects.strictness.trans made)
  exact ⟨kept, found, same, reflects.limit kept found⟩

theorem answerTo_render {limit initial : Int}
    (made : Step.lastStrictness? engine before = some strict)
    (given : Step.lastLimit? engine before = some limit) (allowed : 0 ≤ initial) :
    ∃ fresh, Engine.make strict initial = .ok fresh ∧ ∀ name source context,
      answerTo before (.render (some engine) name source context) =
        answerText ({ fresh with limit }.render name source context).run.value := by
  refine ⟨⟨strict, initial, strict⟩, if_neg (by omega), ?_⟩
  intro name source context
  obtain ⟨kept, found, strictly, given'⟩ := exists_engine?_after made
  have same : kept.limit = limit := Option.some.inj (given'.symm.trans given)
  have alike : kept.render name source context =
      Engine.render ⟨strict, limit, strict⟩ name source context :=
    Engine.render_congr same strictly name source context
  rw [← alike]
  exact congrArg Prod.snd (value_render_of_engine? found name source context)

theorem answerTo_renderTree (made : Step.lastStrictness? engine before = some strict)
    (tree : Text) (name : Option Text) (source : Text) (context : Context) :
    (∃ failure, answerTo before (.parse (some engine) tree name source) = .failed failure ∧
      answerTo before (.render (some engine) name source context) = .failed failure) ∨
    ∃ template, answerTo before (.parse (some engine) tree name source) = .template template ∧
      answerTo (before ++ [.parse (some engine) tree name source, .enter ⟨name, some source⟩])
          (.renderTree tree strict context) =
        answerTo before (.render (some engine) name source context) := by
  obtain ⟨kept, found, rfl, -⟩ := exists_engine?_after made
  have rendered : answerTo before (.render (some engine) name source context) =
      answerText (kept.render name source context).run.value :=
    congrArg Prod.snd (value_render_of_engine? found name source context)
  have parsed : ((empty.after before).step (.parse (some engine) tree name source)).value =
      ((empty.after before).parseBy kept tree name source).value :=
    congrArg Logged.value (parse_of_engine? found tree name source)
  rw [value_parseBy] at parsed
  cases outcome : (kept.parse name source).run.value with
  | error failure =>
    rw [outcome] at parsed
    rw [rendered, Engine.outcome_render_of_parse_error outcome]
    exact Or.inl ⟨failure, congrArg Prod.snd parsed, rfl⟩
  | ok template =>
    rw [outcome] at parsed
    refine Or.inr ⟨template, congrArg Prod.snd parsed, ?_⟩
    have entered : empty.after
        (before ++ [.parse (some engine) tree name source, .enter ⟨name, some source⟩]) =
          ((empty.after before).keepTemplate tree template).enter ⟨name, some source⟩ := by
      rw [after_append]
      exact congrArg (Session.enter · ⟨name, some source⟩) (congrArg Prod.fst parsed)
    have found_tree : (((empty.after before).keepTemplate tree template).enter
        ⟨name, some source⟩).template? tree = some template :=
      template?_keepTemplate _ tree template
    rw [rendered, Engine.outcome_render_of_parse_ok outcome, answerTo, entered]
    show (renderTree _ tree kept.rendersStrictly context).value = _
    rw [renderTree, found_tree]
    rfl

end Kept

/-- A session answers by its history.  The current frame is the innermost one entered and not yet left,
and no other step moves it, whether it fails or not; a source is rendered by an engine as by a new one
with the strictness it was last made with and the limit it was last given; and to parse a source, enter
its frame, render the tree with that strictness and leave comes to the same as to render the source. -/
theorem answers_of_history :
    (∀ before step rest, (empty.run (before ++ step :: rest)).value[before.length]? =
      some (answerTo before step, (empty.after (before ++ [step])).current)) ∧
    (∀ steps frame, (empty.after steps).current = some frame ↔
      ∃ earlier later, steps = earlier ++ .enter frame :: later ∧ Step.RiseBy 0 later) ∧
    (∀ before step, Step.rise step = 0 →
      (empty.after (before ++ [step])).current = (empty.after before).current) ∧
    ∀ before engine strict, Step.lastStrictness? engine before = some strict →
      (∀ limit initial, Step.lastLimit? engine before = some limit → 0 ≤ initial →
        ∃ fresh, Engine.make strict initial = .ok fresh ∧ ∀ name source context,
          answerTo before (.render (some engine) name source context) =
            answerText ({ fresh with limit }.render name source context).run.value) ∧
      ∀ tree name source context,
        ((∃ failure, answerTo before (.parse (some engine) tree name source) = .failed failure ∧
            answerTo before (.render (some engine) name source context) = .failed failure) ∨
          ∃ template,
            answerTo before (.parse (some engine) tree name source) = .template template ∧
            answerTo (before ++ [.parse (some engine) tree name source, .enter ⟨name, some source⟩])
                (.renderTree tree strict context) =
              answerTo before (.render (some engine) name source context)) ∧
        (empty.after (before ++ [.parse (some engine) tree name source, .enter ⟨name, some source⟩,
            .renderTree tree strict context, .leave])).current = (empty.after before).current := by
  refine ⟨value_run_getElem? empty, current_after_iff, ?_, ?_⟩
  · intro before step still
    rw [after_concat]
    exact congrArg List.head? (frames_step_of_rise _ still)
  · intro before engine strict made
    refine ⟨fun limit initial given allowed => answerTo_render made given allowed, ?_⟩
    intro tree name source context
    refine ⟨answerTo_renderTree made tree name source context, ?_⟩
    rw [after_append]
    exact congrArg List.head? (frames_step_of_rise (empty.after before) rfl)

private def nowhere : Context :=
  ⟨0, ⟨fun object => object.elim0⟩, .scalar .null⟩

/-- Steps that make a strict engine, enter a frame, fail in a render, try to make the engine anew with a
negative limit, enter and leave another frame, and assign a strictness and a negative limit. -/
private def eventful : List Step :=
  [.makeEngine ['e'] true 5, .enter ⟨some ['o'], none⟩,
    .render (some ['e']) none (Tag.written "x") nowhere, .makeEngine ['e'] false (-1),
    .enter ⟨some ['i'], none⟩, .setStrict ['e'] false, .leave, .setLimit ['e'] (-3)]

theorem answers_of_history_eventful :
    Step.lastStrictness? ['e'] eventful = some true ∧
    Step.lastLimit? ['e'] eventful = some (-3) ∧
    (empty.after eventful).current = some ⟨some ['o'], none⟩ ∧
    (∃ fresh, Engine.make true 0 = .ok fresh ∧
      answerTo eventful (.render (some ['e']) (some ['t']) (Tag.written "x") nowhere) =
        answerText ({ fresh with limit := -3 }.render (some ['t']) (Tag.written "x")
          nowhere).run.value) ∧
    answerTo (eventful ++ [.parse (some ['e']) ['k'] (some ['t']) (Tag.written "x"),
        .enter ⟨some ['t'], some (Tag.written "x")⟩]) (.renderTree ['k'] true nowhere) =
      answerTo eventful (.render (some ['e']) (some ['t']) (Tag.written "x") nowhere) ∧
    answerTo eventful (.render (some ['e']) (some ['t']) (Tag.written "x") nowhere) =
      .failed (.undefined ⟨['x'], some ['t'], some 1, [],
        some (Snippet.at (Tag.written "x") ⟨1, 0⟩)⟩) := by
  have made : Step.lastStrictness? ['e'] eventful = some true := by decide
  have given : Step.lastLimit? ['e'] eventful = some (-3) := by decide
  obtain ⟨-, current, -, engines⟩ := answers_of_history
  obtain ⟨rendered, parsed⟩ := engines eventful ['e'] true made
  obtain ⟨fresh, new, same⟩ := rendered (-3) 0 given (by decide)
  have read : answerTo eventful (.parse (some ['e']) ['k'] (some ['t']) (Tag.written "x")) =
      .template ⟨some ['t'], [.reference ⟨1, 0⟩ ['x']]⟩ := by cbv
  refine ⟨made, given, ?_, ⟨fresh, new, same (some ['t']) (Tag.written "x") nowhere⟩, ?_, ?_⟩
  · rw [current]
    exact ⟨[.makeEngine ['e'] true 5], eventful.drop 2, rfl, by decide⟩
  · rcases (parsed ['k'] (some ['t']) (Tag.written "x") nowhere).1 with
      ⟨failure, failed, -⟩ | ⟨template, -, alike⟩
    · cases read.symm.trans failed
    · exact alike
  · rw [same]
    cases new
    cbv

end Session

end Stencil
