import Stencil.Diagnostic.Failure
import Stencil.Proofs.Json.Printed
import Stencil.Proofs.Terminal.Seams
import Stencil.Proofs.Text.Search

/-!
Messages with colors and without.  A message is put together from words of its own and from texts of a
template, which may hold anything, escape sequences that are cut off included.  At every seam stands a
character over which neither an escape sequence nor a code can reach.  So the colors, which are whole
sequences, can be taken out again, and whether a message mentions a code does not depend on them.
-/

set_option autoImplicit false
set_option relaxedAutoImplicit false

namespace Stencil

open Escape

def Fence (c : Char) : Prop :=
  ∀ code : Code, c ∉ code.text

theorem fence_iff {c : Char} :
    Fence c ↔ c ∉ Code.undefinedVariable.text ∧ c ∉ Code.nestingDepth.text := by
  constructor
  · intro fence
    exact ⟨fence _, fence _⟩
  · rintro ⟨first, second⟩ (_ | _)
    · exact first
    · exact second

instance (c : Char) : Decidable (Fence c) :=
  decidable_of_iff _ fence_iff.symm

/-- Whether no escape sequence and no code reaches from one text into the next. -/
structure Seam (first second : Text) : Prop where
  apart : Apart first second
  code_iff (code : Code) :
    code.text <:+: first ++ second ↔ code.text <:+: first ∨ code.text <:+: second

/-- Whether two texts say the same, and differ in colors at most. -/
structure Recolored (first second : Text) : Prop where
  strip_eq : strip first = strip second
  code_iff (code : Code) : code.text <:+: first ↔ code.text <:+: second

theorem Code.text_ne_nil (code : Code) : code.text ≠ [] := by
  cases code <;> decide

theorem fence_of_control {c : Char} (control : c.toNat < 0x20) : Fence c := by
  intro code member
  have visible : Json.IsVisible code.text := by cases code <;> decide
  exact absurd control (Nat.not_lt.2 (visible c member))

section Seams

variable {first second : Text} {c : Char}

theorem code_infix_append_cons_iff (fence : Fence c) (code : Code) :
    code.text <:+: first ++ c :: second ↔ code.text <:+: first ∨ code.text <:+: second :=
  Text.infix_append_cons_iff code.text_ne_nil (fence code)

theorem code_infix_cons_iff (fence : Fence c) (code : Code) :
    code.text <:+: c :: second ↔ code.text <:+: second := by
  have split := @code_infix_append_cons_iff [] second c fence code
  rwa [List.nil_append, List.infix_nil, or_iff_right code.text_ne_nil] at split

theorem seam_of_head (apart : Apart first (c :: second)) (fence : Fence c) :
    Seam first (c :: second) := by
  refine ⟨apart, ?_⟩
  intro code
  rw [code_infix_append_cons_iff fence, code_infix_cons_iff fence]

theorem seam_control (first : Text) (control : c.toNat < 0x20) (second : Text) :
    Seam first (c :: second) :=
  seam_of_head (apart_control first control second) (fence_of_control control)

theorem seam_of_last (settled : Settled first) (last : first.getLast? = some c) (fence : Fence c)
    (second : Text) : Seam first second := by
  refine ⟨settled.apart second, ?_⟩
  intro code
  obtain ⟨front, rfl⟩ := List.getLast?_eq_some_iff.1 last
  have alone : code.text <:+: front ++ [c] ↔ code.text <:+: front := by
    rw [code_infix_append_cons_iff fence, List.infix_nil, or_iff_left code.text_ne_nil]
  rw [List.append_assoc, List.singleton_append, code_infix_append_cons_iff fence, alone]

theorem seam_paint_true (role : Role) (text second : Text) :
    Seam (role.paint true text) second :=
  seam_of_last (settled_paint_true role text) (getLast?_paint_true role text) (by decide) second

end Seams

theorem code_infix_sequence_append_iff (color : Color) (rest : Text) (code : Code) :
    code.text <:+: color.sequence ++ rest ↔ code.text <:+: rest := by
  have fence : Fence 'm' := by decide
  have front : ¬code.text <:+: escapeChar :: '[' :: color.selector := by
    cases code <;> cases color <;> decide
  rw [Color.sequence, List.append_assoc, List.singleton_append, code_infix_append_cons_iff fence,
    or_iff_right front]

theorem code_infix_sequences_append_iff (colors : List Color) (rest : Text) (code : Code) :
    code.text <:+: colors.flatMap Color.sequence ++ rest ↔ code.text <:+: rest := by
  induction colors with
  | nil => rfl
  | cons color colors ih =>
    rw [List.flatMap_cons, List.append_assoc, code_infix_sequence_append_iff, ih]

theorem recolored_paint (role : Role) (text : Text) :
    Recolored (role.paint true text) (role.paint false text) := by
  refine ⟨strip_paint_true role text, ?_⟩
  intro code
  have closing : Seam text Color.reset.sequence := seam_control text (by decide) _
  have reset : ¬code.text <:+: Color.reset.sequence := by cases code <;> decide
  show _ ↔ code.text <:+: text
  rw [paint_true, List.append_assoc, code_infix_sequences_append_iff, closing.code_iff,
    or_iff_left reset]

namespace Recolored

variable {first first' second second' : Text}

theorem refl (text : Text) : Recolored text text :=
  ⟨rfl, fun _ => Iff.rfl⟩

theorem append (front : Recolored first first') (back : Recolored second second')
    (seam : Seam first second) (seam' : Seam first' second') :
    Recolored (first ++ second) (first' ++ second') := by
  refine ⟨?_, ?_⟩
  · rw [strip_append seam.apart, strip_append seam'.apart, front.strip_eq, back.strip_eq]
  · intro code
    rw [seam.code_iff, seam'.code_iff, front.code_iff, back.code_iff]

theorem paint_append (role : Role) {text : Text} (back : Recolored second second')
    (seam : Seam text second') :
    Recolored (role.paint true text ++ second) (role.paint false text ++ second') :=
  (recolored_paint role text).append back (seam_paint_true role text second) seam

theorem after {front : Text} {c : Char} (settled : Settled front) (last : front.getLast? = some c)
    (fence : Fence c) (back : Recolored second second') :
    Recolored (front ++ second) (front ++ second') :=
  (refl front).append back (seam_of_last settled last fence second)
    (seam_of_last settled last fence second')

theorem lines (front : Recolored first first') (back : Recolored second second') :
    Recolored (first ++ ['\n'] ++ second) (first' ++ ['\n'] ++ second') := by
  have control : '\n'.toNat < 0x20 := by decide
  have plain : Settled ['\n'] := settled_of_not_mem (by decide)
  have below : Recolored (['\n'] ++ second) (['\n'] ++ second') :=
    after plain rfl (fence_of_control control) back
  rw [List.append_assoc, List.append_assoc]
  exact front.append below (seam_control first control second) (seam_control first' control second')

theorem joined {texts texts' : List Text} (recolored : List.Forall₂ Recolored texts texts') :
    Recolored (Text.joined ['\n'] texts) (Text.joined ['\n'] texts') := by
  induction recolored with
  | nil => exact refl []
  | cons front back ih =>
    cases back with
    | nil => exact front
    | cons next rest => exact front.lines ih

end Recolored

section Pictures

theorem recolored_border : Recolored (Snippet.border true) (Snippet.border false) :=
  recolored_paint .dimmed _

theorem settled_of_isVisible {text : Text} (visible : Json.IsVisible text) : Settled text := by
  apply settled_of_not_mem
  intro member
  exact absurd (visible escapeChar member) (by decide)

theorem isVisible_padded {text : Text} (visible : Json.IsVisible text) :
    Json.IsVisible (padded text) := by
  refine Json.isVisible_append.2 ⟨?_, visible⟩
  intro c member
  rw [List.eq_of_mem_replicate member]
  decide

theorem recolored_sourceLine (number : Int) (content : Text) (isError : Bool) :
    Recolored (sourceLine true number content isError)
      (sourceLine false number content isError) := by
  have visible : Json.IsVisible ((if isError then '>' else ' ') :: padded (intText number)) := by
    refine List.forall_mem_cons.2 ⟨?_, isVisible_padded (Json.isVisible_intText number)⟩
    cases isError <;> decide
  have bar : Settled " | ".toList := settled_of_not_mem (by decide)
  unfold sourceLine
  rw [List.append_assoc, List.append_assoc]
  apply Recolored.paint_append
  · exact .after bar rfl (by decide) (recolored_paint _ content)
  · exact seam_of_head ((settled_of_isVisible visible).apart _) (by decide)

/-- A sequence that is cut off at the end of a line stays as it is. -/
example : strip (sourceLine true 3 "\x1b[3".toList true) = ">  3 | \x1b[3".toList := by cbv

theorem recolored_caretLine (column : Int) :
    Recolored (Snippet.caretLine true column) (Snippet.caretLine false column) := by
  have blank : Settled [' '] := settled_of_not_mem (by decide)
  have frame : Settled "   |".toList := settled_of_not_mem (by decide)
  apply Recolored.paint_append
  · exact .after blank rfl (by decide) (recolored_paint _ _)
  · exact seam_of_head (frame.apart _) (by decide)

theorem Snippet.recolored_shown (snippet : Snippet) :
    Recolored (snippet.shown true) (snippet.shown false) := by
  apply Recolored.joined
  apply List.rel_append
  · apply List.rel_append
    · refine .cons recolored_border ?_
      rw [List.forall₂_map_left_iff, List.forall₂_map_right_iff, List.forall₂_same]
      intro line _
      exact recolored_sourceLine line.1 line.2 _
    · cases snippet.column with
      | none => exact .nil
      | some column => exact .cons (recolored_caretLine column) .nil
  · exact .cons recolored_border .nil

end Pictures

theorem Text.joined_cons (mark text : Text) (others : List Text) :
    Text.joined mark (text :: others) = text ++ others.flatMap (mark ++ ·) := by
  induction others generalizing text with
  | nil => rw [Text.joined, List.flatMap_nil, List.append_nil]
  | cons next others ih =>
    rw [Text.joined, ih, List.flatMap_cons, List.append_assoc, List.append_assoc]
    exact List.cons_ne_nil _ _

theorem recolored_hint {second second' : Text} (back : Recolored second second') :
    Recolored ("  ".toList ++ Role.hint.paint true "Hint:".toList ++ second)
      ("  ".toList ++ Role.hint.paint false "Hint:".toList ++ second') := by
  have indent : Settled "  ".toList := settled_of_not_mem (by decide)
  have colon : Seam "Hint:".toList second' :=
    seam_of_last (settled_of_not_mem (by decide)) rfl (by decide) second'
  rw [List.append_assoc, List.append_assoc]
  exact .after indent rfl (by decide) (.paint_append .hint back colon)

namespace UndefinedVariable

variable (failure : UndefinedVariable)

theorem recolored_summary : Recolored (failure.summary true) (failure.summary false) := by
  -- The path can end within an escape sequence; the `n` ends it, whatever it is.
  have settled : Settled ("Undefined variable '".toList ++ failure.path ++ "' in ".toList) := by
    have ending : "' in ".toList = "' i".toList ++ ['n'] ++ [' '] := rfl
    rw [ending, ← List.append_assoc, ← List.append_assoc]
    exact (settled_append_final _ (by decide) (by decide)).append (settled_of_not_mem (by decide))
  have last : ("Undefined variable '".toList ++ failure.path ++ "' in ".toList).getLast? =
      some ' ' := by
    rw [List.getLast?_append]
    rfl
  exact .after settled last (by decide) (recolored_paint .location _)

theorem recolored_hintLines :
    List.Forall₂ Recolored (failure.hintLines true) (failure.hintLines false) := by
  unfold hintLines
  split
  · next c name _ =>
    have question : Settled " Did you mean '".toList := settled_of_not_mem (by decide)
    have closing : Seam (c :: name) "'?".toList := seam_of_head (apart_quote _ []) (by decide)
    have named := Recolored.paint_append .suggestion (.refl "'?".toList) closing
    have asked := recolored_hint (.after question rfl (by decide) named)
    rw [List.append_assoc, List.append_assoc, List.append_assoc _ _ "'?".toList,
      List.append_assoc _ _ (_ ++ "'?".toList)]
    exact .cons asked .nil
  · exact .nil

theorem recolored_details :
    List.Forall₂ Recolored (failure.details true) (failure.details false) := by
  apply List.rel_append ?_ failure.recolored_hintLines
  cases failure.snippet with
  | none => exact .nil
  | some snippet => exact .cons snippet.recolored_shown .nil

theorem message_eq_joined (colored : Bool) :
    failure.message colored =
      Text.joined ['\n'] (failure.summary colored :: failure.details colored) :=
  (Text.joined_cons ['\n'] _ _).symm

theorem recolored_message : Recolored (failure.message true) (failure.message false) := by
  rw [message_eq_joined, message_eq_joined]
  exact .joined (.cons failure.recolored_summary failure.recolored_details)

end UndefinedVariable

namespace NestingExceeded

variable (failure : NestingExceeded)

def summary (colored : Bool) : Text :=
  "Block nesting deeper than ".toList ++ intText failure.limit ++ " levels in ".toList ++
    Role.location.paint colored (shownLocation failure.template failure.line)

def details (colored : Bool) : List Text :=
  (failure.snippet.map fun snippet => snippet.shown colored).toList ++ [advice colored]

theorem message_eq_joined (colored : Bool) :
    failure.message colored =
      Text.joined ['\n'] (failure.summary colored :: failure.details colored) := by
  have advised : [advice colored].flatMap (['\n'] ++ ·) = '\n' :: advice colored := by
    rw [List.flatMap_singleton, List.singleton_append]
  rw [Text.joined_cons, details, List.flatMap_append, advised, ← List.append_assoc]
  unfold message summary
  cases failure.snippet with
  | none => rfl
  | some snippet =>
    rw [Option.map_some, Option.toList_some, List.flatMap_singleton, List.singleton_append]

theorem recolored_summary : Recolored (failure.summary true) (failure.summary false) := by
  have visible : Json.IsVisible
      ("Block nesting deeper than ".toList ++ intText failure.limit ++ " levels in ".toList) := by
    rw [Json.isVisible_append, Json.isVisible_append]
    exact ⟨⟨by decide, Json.isVisible_intText failure.limit⟩, by decide⟩
  have last : ("Block nesting deeper than ".toList ++ intText failure.limit ++
      " levels in ".toList).getLast? = some ' ' := by
    rw [List.getLast?_append]
    rfl
  exact .after (settled_of_isVisible visible) last (by decide) (recolored_paint .location _)

theorem recolored_details :
    List.Forall₂ Recolored (failure.details true) (failure.details false) := by
  have advised : List.Forall₂ Recolored [advice true] [advice false] :=
    .cons (recolored_hint (.refl _)) .nil
  apply List.rel_append ?_ advised
  cases failure.snippet with
  | none => exact .nil
  | some snippet => exact .cons snippet.recolored_shown .nil

theorem recolored_message : Recolored (failure.message true) (failure.message false) := by
  rw [message_eq_joined, message_eq_joined]
  exact .joined (.cons failure.recolored_summary failure.recolored_details)

end NestingExceeded

namespace Failure

theorem recolored_message (failure : Failure) :
    Recolored (failure.message true) (failure.message false) := by
  cases failure with
  | undefined failure => exact failure.recolored_message
  | nesting failure => exact failure.recolored_message
  | other message code => exact .refl message

theorem recolored_prefaced (code : Option Code) {first second : Text}
    (recolored : Recolored first second) :
    Recolored (prefaced code first) (prefaced code second) := by
  cases code with
  | none => exact recolored
  | some code =>
    have mentioned : Text.has code.text first = Text.has code.text second := by
      rw [Bool.eq_iff_iff, Text.has_iff, Text.has_iff, recolored.code_iff]
    have settled : Settled (code.text ++ ": ".toList) :=
      settled_of_not_mem (by cases code <;> decide)
    have last : (code.text ++ ": ".toList).getLast? = some ' ' := by
      cases code <;> rfl
    unfold prefaced
    dsimp only
    rw [mentioned]
    split
    · exact recolored
    · exact .after settled last (by decide) recolored

theorem recolored_errorHeader (code : Code) {first second : Text}
    (recolored : Recolored first second) :
    Recolored (errorHeader true code.text first) (errorHeader false code.text second) := by
  have colon : Settled ": ".toList := settled_of_not_mem (by decide)
  have plain : Settled code.text := settled_of_not_mem (by cases code <;> decide)
  rw [errorHeader, errorHeader, if_neg code.text_ne_nil, if_neg code.text_ne_nil,
    List.append_assoc, List.append_assoc]
  apply Recolored.paint_append .errorCode (.after colon rfl (by decide) recolored)
  exact seam_of_head (plain.apart _) (by decide)

theorem recolored_compact (failure : Failure) :
    Recolored (failure.compact true) (failure.compact false) := by
  cases failure with
  | undefined failure =>
    apply Recolored.joined
    exact .cons (recolored_errorHeader _ failure.recolored_summary) failure.recolored_details
  | nesting failure => exact recolored_prefaced (some .nestingDepth) failure.recolored_message
  | other message code => exact .refl _

end Failure

/-- With its escape sequences taken out, what a failure shows is the same with colors and without. -/
theorem strip_colored (failure : Failure) (snippet : Snippet) :
    strip (failure.message true) = strip (failure.message false) ∧
      strip (failure.compact true) = strip (failure.compact false) ∧
      strip (snippet.shown true) = strip (snippet.shown false) :=
  ⟨failure.recolored_message.strip_eq, failure.recolored_compact.strip_eq,
    snippet.recolored_shown.strip_eq⟩

end Stencil
