import Stencil.Proofs.Diagnostic.Window
import Stencil.Proofs.Template.Reading

/-!
Compact forms.  The compact form of a failure is its message behind its code.  For a missing value it is
that whatever texts the failure is about.  For blocks nested too deeply the code is left out if the
message mentions it already; the words of the message never do, so it does if the name of the template
or a line of the excerpt does.
-/

set_option autoImplicit false
set_option relaxedAutoImplicit false

namespace Stencil

section Mentions

variable {front text : Text}

theorem code_infix_append_iff (absent : 'C' ∉ front) (back : Text) (code : Code) :
    code.text <:+: front ++ back ↔ code.text <:+: back := by
  cases code <;> exact Text.cons_infix_append_iff absent

theorem code_absent (absent : 'C' ∉ text) (code : Code) : ¬ code.text <:+: text := by
  have nowhere := code_infix_append_iff absent [] code
  rw [List.append_nil, List.infix_nil] at nowhere
  exact fun stands => code.text_ne_nil (nowhere.1 stands)

theorem code_infix_joined_iff (texts : List Text) (code : Code) :
    code.text <:+: Text.joined ['\n'] texts ↔ ∃ text ∈ texts, code.text <:+: text := by
  have fence : Fence '\n' := fence_of_control (by decide)
  induction texts with
  | nil => simpa [Text.joined] using code.text_ne_nil
  | cons text others ih =>
    refine Iff.trans ?_ ((or_congr_right ih).trans (List.exists_mem_cons_iff _ _ _).symm)
    cases others with
    | nil =>
      have nowhere : ¬ code.text <:+: Text.joined ['\n'] [] := code_absent (by decide) code
      rw [or_iff_left nowhere, Text.joined]
    | cons next others =>
      rw [Text.joined, List.append_assoc, List.singleton_append, code_infix_append_cons_iff fence]
      exact List.cons_ne_nil _ _

theorem initial_not_mem_intText (number : Int) : 'C' ∉ intText number := by
  rw [Json.intText_eq, List.mem_append, not_or]
  constructor
  · cases decide (number < 0) <;> decide
  · intro digit
    exact absurd (Json.isDigit_of_mem_natText digit) (by decide)

theorem initial_not_mem_numberPart (number : Int) (isError : Bool) :
    'C' ∉ Snippet.numberPart number isError := by
  rw [Snippet.numberPart, padded, List.mem_append, List.mem_cons, List.mem_append, not_or, not_or,
    not_or]
  refine ⟨⟨?_, ?_, initial_not_mem_intText number⟩, by decide⟩
  · cases isError <;> decide
  · exact fun member => absurd (List.eq_of_mem_replicate member) (by decide)

end Mentions

theorem Snippet.code_infix_shown_iff (snippet : Snippet) (code : Code) :
    code.text <:+: snippet.shown false ↔ ∃ line ∈ snippet.lines, code.text <:+: line.2 := by
  rw [shown, code_infix_joined_iff]
  constructor
  · rintro ⟨row, among, mentions⟩
    rcases mem_shownLines_iff.1 among with rfl | ⟨line, member, rfl⟩ | ⟨column, -, rfl⟩
    · exact absurd mentions (code_absent (by decide) code)
    · rw [code_infix_append_iff (initial_not_mem_numberPart _ _)] at mentions
      exact ⟨line, member, mentions⟩
    · have initial : 'C' ∉ caretLine false column :=
        fun member => absurd (mem_frame_of_mem_caretLine member) (by decide)
      exact absurd mentions (code_absent initial code)
  · rintro ⟨line, member, mentions⟩
    refine ⟨_, mem_shownLines_iff.2 (Or.inr (Or.inl ⟨line, member, rfl⟩)), ?_⟩
    rw [code_infix_append_iff (initial_not_mem_numberPart _ _)]
    exact mentions

theorem code_infix_shownName_iff (template : Option Text) (code : Code) :
    code.text <:+: shownName template ↔ ∃ name, template = some name ∧ code.text <:+: name := by
  have standIn : ¬ code.text <:+: "<template>".toList := code_absent (by decide) code
  cases template with
  | none =>
    refine iff_of_false standIn ?_
    rintro ⟨name, impossible, -⟩
    cases impossible
  | some name =>
    have named : (∃ other, some name = some other ∧ code.text <:+: other) ↔ code.text <:+: name := by
      simp
    rw [named]
    cases name with
    | nil => exact iff_of_false standIn (code_absent List.not_mem_nil code)
    | cons c name => rfl

theorem code_infix_shownLocation_iff (template : Option Text) (line : Option Int) (code : Code) :
    code.text <:+: shownLocation template line ↔ code.text <:+: shownName template := by
  unfold shownLocation
  split
  · rw [List.append_nil]
  · split
    · rw [List.append_nil]
    · next line _ =>
      have fence : Fence ':' := by decide
      have digits := code_absent (initial_not_mem_intText line) code
      rw [code_infix_append_cons_iff fence, or_iff_left digits]

namespace NestingExceeded

variable (failure : NestingExceeded)

/-- Whether the name of the template or a line of the excerpt mentions a code. -/
def Mentions (code : Code) : Prop :=
  (∃ name, failure.template = some name ∧ code.text <:+: name) ∨
    ∃ snippet, failure.snippet = some snippet ∧ ∃ line ∈ snippet.lines, code.text <:+: line.2

theorem code_infix_summary_iff (code : Code) :
    code.text <:+: failure.summary false ↔
      ∃ name, failure.template = some name ∧ code.text <:+: name := by
  have words : 'C' ∉
      "Block nesting deeper than ".toList ++ intText failure.limit ++ " levels in ".toList := by
    rw [List.mem_append, List.mem_append, not_or, not_or]
    exact ⟨⟨by decide, initial_not_mem_intText failure.limit⟩, by decide⟩
  have place := code_infix_append_iff words (shownLocation failure.template failure.line) code
  exact place.trans ((code_infix_shownLocation_iff _ _ code).trans (code_infix_shownName_iff _ code))

/-- The message mentions a code if what it quotes does. -/
theorem code_infix_message_iff (code : Code) :
    code.text <:+: failure.message false ↔ failure.Mentions code := by
  have advised : ¬ code.text <:+: advice false := code_absent (by decide) code
  rw [message_eq_joined, code_infix_joined_iff, List.exists_mem_cons_iff, code_infix_summary_iff,
    Mentions, details]
  refine or_congr_right ?_
  cases failure.snippet with
  | none => simpa using advised
  | some snippet => simpa [advised] using snippet.code_infix_shown_iff code

end NestingExceeded

namespace Failure

theorem compact_undefined (failure : UndefinedVariable) :
    (undefined failure).compact false =
      Code.undefinedVariable.text ++ ": ".toList ++ (undefined failure).message false := by
  have header : errorHeader false Code.undefinedVariable.text (failure.summary false) =
      Code.undefinedVariable.text ++ ": ".toList ++ failure.summary false :=
    if_neg (Code.text_ne_nil _)
  rw [compact, message, header, failure.message_eq_joined, Text.joined_cons, Text.joined_cons,
    List.append_assoc]

theorem compact_of_mentions {failure : NestingExceeded} (mentions : failure.Mentions .nestingDepth) :
    (nesting failure).compact false = (nesting failure).message false :=
  if_pos (Text.has_iff.2 ((failure.code_infix_message_iff _).2 mentions))

theorem compact_of_not_mentions {failure : NestingExceeded}
    (silent : ¬ failure.Mentions .nestingDepth) :
    (nesting failure).compact false =
      Code.nestingDepth.text ++ ": ".toList ++ (nesting failure).message false :=
  if_neg fun mentioned => silent ((failure.code_infix_message_iff _).1 (Text.has_iff.1 mentioned))

theorem message_ne_append (code : Code) (message : Text) :
    message ≠ code.text ++ ": ".toList ++ message := by
  intro same
  have nothing := List.append_left_eq_self.1 same.symm
  cases code <;> cases nothing

end Failure

/-- The compact form is the message behind the code: always for a missing value, and for blocks nested too
deeply exactly if neither the name of the template nor a line of the excerpt mentions the code.  If one
does, it is the message alone. -/
theorem compact_eq_iff (missing : UndefinedVariable) (exceeded : NestingExceeded) :
    (Failure.undefined missing).compact false =
      Code.undefinedVariable.text ++ ": ".toList ++ (Failure.undefined missing).message false ∧
    ((Failure.nesting exceeded).compact false =
        Code.nestingDepth.text ++ ": ".toList ++ (Failure.nesting exceeded).message false ↔
      ¬ exceeded.Mentions .nestingDepth) ∧
    ((Failure.nesting exceeded).compact false = (Failure.nesting exceeded).message false ↔
      exceeded.Mentions .nestingDepth) := by
  have longer := Failure.message_ne_append .nestingDepth ((Failure.nesting exceeded).message false)
  refine ⟨Failure.compact_undefined missing, ?_⟩
  by_cases mentions : exceeded.Mentions .nestingDepth
  · rw [Failure.compact_of_mentions mentions]
    exact ⟨iff_of_false longer (not_not.2 mentions), iff_of_true rfl mentions⟩
  · rw [Failure.compact_of_not_mentions mentions]
    exact ⟨iff_of_true rfl mentions, iff_of_false longer.symm mentions⟩

/-- A block whose content is the code for nesting. -/
private def codedBlock : Text :=
  Tag.written "#if a" ++ "C-RUN-002".toList ++ Tag.written "/if"

/-- Where no block is allowed, this one fails with an excerpt that mentions the code, so the compact form
is without it. -/
theorem compact_of_codedBlock :
    ∃ failure, (Template.ofSource none 0 codedBlock).run.value = .error (.nesting failure) ∧
      (Failure.nesting failure).compact false = (Failure.nesting failure).message false ∧
      (Failure.nesting failure).compact false ≠
        Code.nestingDepth.text ++ ": ".toList ++ (Failure.nesting failure).message false := by
  have failed : (Template.ofSource none 0 codedBlock).run.value =
      .error (.nesting ⟨0, none, some 1, some ⟨[(1, codedBlock)], 1, some 0⟩⟩) := by cbv
  have bare := @Failure.compact_of_mentions
    ⟨0, none, some 1, some ⟨[(1, codedBlock)], 1, some 0⟩⟩
    (Or.inr ⟨_, rfl, _, List.mem_singleton_self _, Tag.written "#if a", Tag.written "/if", rfl⟩)
  refine ⟨_, failed, bare, ?_⟩
  rw [bare]
  exact Failure.message_ne_append _ _

end Stencil
