import Stencil.Proofs.Terminal.Seams

/-!
What one pass leaves.  A pass takes out every escape sequence of a text and joins what stood on its two
sides.  If the beginning of a sequence stood directly before a sequence, the text behind may now complete
it.  Nothing else leaves a sequence in the text, and only then does a second pass find something to do.
-/

set_option autoImplicit false
set_option relaxedAutoImplicit false

namespace Stencil

namespace Escape

inductive IsSequence : Text → Prop
  | short {c : Char} (completes : isShort c = true) : IsSequence [escapeChar, c]
  | long {parameters intermediates : Text} {c : Char}
    (first : ∀ d ∈ parameters, isParameter d = true)
    (second : ∀ d ∈ intermediates, isIntermediate d = true) (final : isFinal c = true) :
    IsSequence (escapeChar :: '[' :: (parameters ++ intermediates ++ [c]))

def Begins (text : Text) : Prop :=
  ∃ sequence, IsSequence sequence ∧ sequence <+: text

def Free (text : Text) : Prop :=
  ∀ sequence, IsSequence sequence → ¬ sequence <:+: text

section Form

variable {text rest : Text}

theorem isParameter_of_isIntermediate {c : Char} (intermediate : isIntermediate c = true) :
    isParameter c = false := by
  simp only [isIntermediate, isParameter, Bool.and_eq_true, Bool.and_eq_false_iff,
    decide_eq_true_eq, decide_eq_false_iff_not] at intermediate ⊢
  omega

theorem isFinal_apart {c : Char} (final : isFinal c = true) :
    isParameter c = false ∧ isIntermediate c = false := by
  simp only [isFinal, isParameter, isIntermediate, Bool.and_eq_true, Bool.and_eq_false_iff,
    decide_eq_true_eq, decide_eq_false_iff_not] at final ⊢
  omega

theorem pastLong?_eq_some_iff :
    pastLong? text = some rest ↔ ∃ parameters intermediates c,
      (∀ d ∈ parameters, isParameter d = true) ∧ (∀ d ∈ intermediates, isIntermediate d = true) ∧
        isFinal c = true ∧ text = parameters ++ intermediates ++ c :: rest := by
  constructor
  · intro past
    rw [pastLong?] at past
    split at past
    · next c behind runs =>
      split at past
      · next final =>
        cases past
        refine ⟨text.takeWhile isParameter, (text.dropWhile isParameter).takeWhile isIntermediate, c,
          fun d => List.mem_takeWhile_imp, fun d => List.mem_takeWhile_imp, final, ?_⟩
        rw [← runs, List.append_assoc, List.takeWhile_append_dropWhile,
          List.takeWhile_append_dropWhile]
      · cases past
    · cases past
  · rintro ⟨parameters, intermediates, c, first, second, final, rfl⟩
    obtain ⟨no_parameter, no_intermediate⟩ := isFinal_apart final
    -- The three kinds of characters exclude each other, so each run ends where the next one begins.
    have runs : (intermediates ++ c :: rest).dropWhile isParameter = intermediates ++ c :: rest := by
      cases intermediates with
      | nil => exact List.dropWhile_cons_of_neg (by simp [no_parameter])
      | cons d intermediates =>
        have other := isParameter_of_isIntermediate (second d List.mem_cons_self)
        exact List.dropWhile_cons_of_neg (by simp [other])
    rw [pastLong?, List.append_assoc, List.dropWhile_append_of_pos first, runs,
      List.dropWhile_append_of_pos second, List.dropWhile_cons_of_neg (by simp [no_intermediate])]
    exact if_pos final

theorem past?_eq_some_iff :
    past? text = some rest ↔ ∃ sequence, IsSequence sequence ∧ text = sequence ++ rest := by
  constructor
  · intro past
    rw [past?.eq_def] at past
    split at past
    · next c d body =>
      split at past
      · next begins =>
        subst begins
        split at past
        · next long =>
          subst long
          obtain ⟨parameters, intermediates, e, first, second, final, rfl⟩ :=
            pastLong?_eq_some_iff.1 past
          exact ⟨_, .long first second final, by simp⟩
        · split at past
          · next completes =>
            cases past
            exact ⟨_, .short completes, rfl⟩
          · cases past
      · cases past
    · cases past
  · rintro ⟨sequence, form, rfl⟩
    cases form with
    | @short c completes =>
      have single : c ≠ '[' := by
        rintro rfl
        cases completes
      show past? (escapeChar :: c :: rest) = some rest
      rw [past?, if_pos rfl, if_neg single, if_pos completes]
    | @long parameters intermediates c first second final =>
      show past? (escapeChar :: '[' :: (parameters ++ intermediates ++ [c] ++ rest)) = some rest
      rw [past?, if_pos rfl, if_pos rfl, pastLong?_eq_some_iff]
      exact ⟨parameters, intermediates, c, first, second, final, by simp⟩

theorem begins_iff : Begins text ↔ past? text ≠ none := by
  rw [Option.ne_none_iff_exists']
  constructor
  · rintro ⟨sequence, form, rest, rfl⟩
    exact ⟨rest, past?_eq_some_iff.2 ⟨sequence, form, rfl⟩⟩
  · rintro ⟨rest, past⟩
    obtain ⟨sequence, form, rfl⟩ := past?_eq_some_iff.1 past
    exact ⟨sequence, form, List.prefix_append sequence rest⟩

theorem exists_body_of_isSequence {sequence : Text} (form : IsSequence sequence) :
    ∃ body, sequence = escapeChar :: body ∧ escapeChar ∉ body := by
  cases form with
  | @short c completes =>
    refine ⟨[c], rfl, ?_⟩
    rw [List.mem_singleton]
    rintro rfl
    cases completes
  | @long parameters intermediates c first second final =>
    refine ⟨_, rfl, ?_⟩
    simp only [List.mem_cons, List.mem_append, List.not_mem_nil, or_false, not_or]
    refine ⟨by decide, ⟨fun member => ?_, fun member => ?_⟩, ?_⟩
    · exact absurd (first _ member) (by decide)
    · exact absurd (second _ member) (by decide)
    · rintro rfl
      cases final

theorem head?_of_begins (begins : Begins text) : ∃ body, text = escapeChar :: body := by
  obtain ⟨sequence, form, rest, rfl⟩ := begins
  obtain ⟨body, rfl, -⟩ := exists_body_of_isSequence form
  exact ⟨body ++ rest, rfl⟩

theorem forall_suffix_cons_iff {holds : Text → Prop} {c : Char} :
    (∀ tail, tail <:+ c :: text → holds tail) ↔
      holds (c :: text) ∧ ∀ tail, tail <:+ text → holds tail := by
  constructor
  · intro everywhere
    exact ⟨everywhere _ List.suffix_rfl, fun tail suffix =>
      everywhere tail (suffix.trans (List.suffix_cons c text))⟩
  · rintro ⟨here, everywhere⟩ tail suffix
    rcases List.suffix_cons_iff.1 suffix with rfl | inner
    · exact here
    · exact everywhere tail inner

theorem free_iff : Free text ↔ ∀ tail, tail <:+ text → ¬ Begins tail := by
  constructor
  · rintro free tail suffix ⟨sequence, form, stands⟩
    exact free sequence form (stands.isInfix.trans suffix.isInfix)
  · rintro nowhere sequence form ⟨before, after, rfl⟩
    refine nowhere (sequence ++ after) ?_ ⟨sequence, form, List.prefix_append sequence after⟩
    rw [List.append_assoc]
    exact List.suffix_append before _

theorem free_cons_iff {c : Char} : Free (c :: text) ↔ ¬ Begins (c :: text) ∧ Free text := by
  rw [free_iff, free_iff, forall_suffix_cons_iff]

theorem free_nil : Free [] := by
  rw [free_iff]
  rintro tail suffix begins
  obtain ⟨body, rfl⟩ := head?_of_begins begins
  exact absurd (List.suffix_nil.1 suffix) (List.cons_ne_nil _ _)

end Form

section Strip

variable {text begun rest : Text}

theorem strip_sublist (text : Text) : (strip text).Sublist text := by
  induction size : text.length using Nat.strong_induction_on generalizing text with
  | _ size' ih =>
  subst size
  cases text with
  | nil => rw [strip]
  | cons c text =>
    cases taken : past? (c :: text) with
    | some rest =>
      have shorter := length_past?_lt taken
      rw [strip_of_past? taken]
      exact (ih _ shorter rest rfl).trans (suffix_of_past? taken).sublist
    | none =>
      rw [strip_cons taken, List.cons_sublist_cons]
      exact ih _ (Nat.lt_succ_self _) text rfl

theorem strip_eq_self_iff : strip text = text ↔ Free text := by
  induction text with
  | nil =>
    rw [strip]
    exact iff_of_true rfl free_nil
  | cons c text ih =>
    cases taken : past? (c :: text) with
    | some rest =>
      have begins : Begins (c :: text) := begins_iff.2 (by simp [taken])
      have shorter := length_past?_lt taken
      have bound := (strip_sublist rest).length_le
      refine iff_of_false ?_ (fun free => (free_cons_iff.1 free).1 begins)
      intro same
      rw [strip_of_past? taken] at same
      rw [same] at bound
      omega
    | none =>
      have plain : ¬ Begins (c :: text) := fun begins => begins_iff.1 begins taken
      rw [strip_cons taken, List.cons.injEq, free_cons_iff, ih]
      simp [plain]

theorem exists_body_of_unfinished (unfinished : Unfinished begun) :
    ∃ body, begun = escapeChar :: body ∧ escapeChar ∉ body := by
  cases unfinished with
  | escape => exact ⟨[], rfl, List.not_mem_nil⟩
  | @long body runs =>
    refine ⟨_, rfl, ?_⟩
    rw [List.mem_cons, not_or]
    refine ⟨by decide, fun member => ?_⟩
    rcases mem_of_runs runs member with parameter | intermediate
    · exact absurd parameter (by decide)
    · exact absurd intermediate (by decide)

theorem free_of_not_mem (absent : escapeChar ∉ text) : Free text := by
  rw [free_iff]
  intro tail suffix begins
  obtain ⟨body, rfl⟩ := head?_of_begins begins
  exact absent (suffix.subset List.mem_cons_self)

theorem strip_of_unfinished (unfinished : Unfinished begun) : strip begun = begun := by
  have plain : ¬ Begins begun := fun begins =>
    begins_iff.1 begins (past?_of_unfinished unfinished)
  obtain ⟨body, rfl, absent⟩ := exists_body_of_unfinished unfinished
  exact strip_eq_self_iff.2 (free_cons_iff.2 ⟨plain, free_of_not_mem absent⟩)

theorem apart_escape (first body : Text) : Apart first (escapeChar :: body) :=
  apart_control first (by decide) body

/-- Whether the beginning of a sequence stands in front, directly before a sequence, and is completed by
what a pass leaves of the text behind it. -/
def Rejoins (text : Text) : Prop :=
  ∃ begun rest, text = begun ++ rest ∧ Unfinished begun ∧ Begins rest ∧ Begins (begun ++ strip rest)

theorem strip_unfinished_append (unfinished : Unfinished begun) (begins : Begins rest) :
    past? (begun ++ rest) = none ∧ strip (begun ++ rest) = begun ++ strip rest := by
  obtain ⟨body, rfl⟩ := head?_of_begins begins
  have apart := apart_escape begun body
  refine ⟨apart begun List.suffix_rfl unfinished, ?_⟩
  rw [strip_append apart, strip_of_unfinished unfinished]

theorem past?_of_rejoins (rejoins : Rejoins text) : past? text = none := by
  obtain ⟨begun, rest, rfl, unfinished, begins, -⟩ := rejoins
  exact (strip_unfinished_append unfinished begins).1

theorem suffix_of_rejoins {sequence tail : Text} (form : IsSequence sequence)
    (suffix : tail <:+ sequence ++ rest) (rejoins : Rejoins tail) : tail <:+ rest := by
  have kept := past?_of_rejoins rejoins
  have taken : past? (sequence ++ rest) = some rest := past?_eq_some_iff.2 ⟨sequence, form, rfl⟩
  obtain ⟨begun, behind, rfl, unfinished, -, -⟩ := rejoins
  obtain ⟨body, rfl, absent⟩ := exists_body_of_isSequence form
  rcases List.suffix_cons_iff.1 suffix with whole | ⟨front, split⟩
  · rw [whole] at kept
    cases kept.symm.trans taken
  · rcases List.append_eq_append_iff.1 split with ⟨part, inside, later⟩ | ⟨part, -, later⟩
    · -- The place would begin inside the sequence, with the escape character unless it begins behind.
      cases part with
      | nil => exact ⟨[], by rw [List.nil_append, later, List.nil_append]⟩
      | cons d part =>
        obtain ⟨_, rfl, -⟩ := exists_body_of_unfinished unfinished
        obtain ⟨rfl, -⟩ := List.cons.inj later
        exact absurd (by rw [inside]; exact List.mem_append_right _ List.mem_cons_self) absent
    · exact ⟨part, later.symm⟩

theorem unfinished_of_begins {other : Text} (nonempty : begun ≠ [])
    (kept : past? (begun ++ rest) = none) (begins : Begins (begun ++ other)) : Unfinished begun := by
  by_contra finished
  have whole := past?_append nonempty finished
  have here : past? begun = none := by
    rw [whole] at kept
    exact Option.map_eq_none_iff.1 kept
  have after := whole other
  rw [here] at after
  exact begins_iff.1 begins after

/-- A character that is kept begins a sequence after the pass exactly where others are joined. -/
theorem begins_cons_strip_iff {c : Char} (kept : past? (c :: text) = none) :
    Begins (c :: strip text) ↔ Rejoins (c :: text) := by
  constructor
  · intro begins
    obtain ⟨_, same⟩ := head?_of_begins begins
    obtain ⟨rfl, -⟩ := List.cons.inj same
    by_cases member : escapeChar ∈ text
    · -- The text up to the next escape character stays as it is.
      obtain ⟨front, behind, split, absent⟩ := List.eq_append_cons_of_mem member
      have joined : strip text = front ++ strip (escapeChar :: behind) := by
        rw [split, strip_append ((settled_of_not_mem absent).apart _),
          strip_eq_self_iff.2 (free_of_not_mem absent)]
      have completed : Begins (escapeChar :: front ++ strip (escapeChar :: behind)) := by
        rw [List.cons_append, ← joined]
        exact begins
      rw [split, ← List.cons_append] at kept
      have unfinished : Unfinished (escapeChar :: front) :=
        unfinished_of_begins (List.cons_ne_nil escapeChar front) kept completed
      have next : Begins (escapeChar :: behind) := by
        rw [begins_iff]
        intro plain
        rw [strip_cons plain] at completed
        exact begins_iff.1 completed (apart_escape _ _ _ List.suffix_rfl unfinished)
      exact ⟨escapeChar :: front, escapeChar :: behind, by rw [split, List.cons_append], unfinished,
        next, completed⟩
    · rw [strip_eq_self_iff.2 (free_of_not_mem member)] at begins
      exact absurd kept (begins_iff.1 begins)
  · rintro ⟨begun, rest, whole, unfinished, begins, completed⟩
    have joined := (strip_unfinished_append unfinished begins).2
    rw [← whole, strip_cons kept] at joined
    rw [joined]
    exact completed

theorem free_strip_iff_not_rejoins :
    Free (strip text) ↔ ∀ tail, tail <:+ text → ¬ Rejoins tail := by
  induction size : text.length using Nat.strong_induction_on generalizing text with
  | _ size' ih =>
  subst size
  cases text with
  | nil =>
    rw [strip]
    refine iff_of_true free_nil ?_
    rintro tail suffix ⟨begun, rest, rfl, unfinished, -, -⟩
    obtain ⟨_, rfl, -⟩ := exists_body_of_unfinished unfinished
    exact absurd (List.suffix_nil.1 suffix) (List.cons_ne_nil _ _)
  | cons c text =>
    cases taken : past? (c :: text) with
    | some rest =>
      obtain ⟨sequence, form, whole⟩ := past?_eq_some_iff.1 taken
      have shorter := length_past?_lt taken
      rw [strip_of_past? taken, ih _ shorter rfl, whole]
      constructor
      · intro nowhere tail suffix rejoins
        exact nowhere tail (suffix_of_rejoins form suffix rejoins) rejoins
      · intro nowhere tail suffix
        exact nowhere tail (suffix.trans (List.suffix_append sequence rest))
    | none =>
      rw [strip_cons taken, free_cons_iff, begins_cons_strip_iff taken, forall_suffix_cons_iff,
        ih _ (Nat.lt_succ_self text.length) rfl]

theorem free_iterate_strip {passes : Nat} (enough : text.length ≤ passes) :
    Free (strip^[passes] text) := by
  induction passes generalizing text with
  | zero =>
    have empty : text = [] := List.eq_nil_of_length_eq_zero (by omega)
    rw [empty]
    exact free_nil
  | succ passes ih =>
    rw [Function.iterate_succ_apply]
    by_cases free : Free text
    · have fixed := strip_eq_self_iff.2 free
      rw [fixed, Function.iterate_fixed fixed]
      exact free
    · have sublist := strip_sublist text
      have shorter : (strip text).length < text.length := by
        refine Nat.lt_of_le_of_ne sublist.length_le (fun same => ?_)
        exact free (strip_eq_self_iff.1 (sublist.eq_of_length same))
      exact ih (by omega)

end Strip

/-- One pass leaves a text without escape sequences, so that a second pass changes nothing, unless the
beginning of a sequence stands directly before a sequence and what is left behind it completes it.  Passes
repeated as often as the text has characters always do. -/
theorem free_strip_iff (text : Text) :
    (Free (strip text) ↔ ∀ tail, tail <:+ text → ¬ Rejoins tail) ∧
      (strip (strip text) = strip text ↔ Free (strip text)) ∧
      Free (strip^[text.length] text) :=
  ⟨free_strip_iff_not_rejoins, strip_eq_self_iff, free_iterate_strip (Nat.le_refl _)⟩

private def nested : Text :=
  escapeChar :: Color.reset.sequence ++ "[0m".toList

/-- The two halves of the outer sequence are joined when the inner one is taken out. -/
theorem strip_of_nested :
    (∃ sequence, IsSequence sequence ∧ sequence <:+: strip nested) ∧
      strip (strip nested) ≠ strip nested := by
  have left : strip nested = Color.reset.sequence := by cbv
  have form : IsSequence Color.reset.sequence :=
    @IsSequence.long ['0'] [] 'm' (List.forall_mem_singleton.mpr rfl) (List.forall_mem_nil _) rfl
  have emptied : strip Color.reset.sequence = [] := by cbv
  rw [left]
  exact ⟨⟨_, form, List.infix_rfl⟩, by rw [emptied]; exact (List.cons_ne_nil _ _).symm⟩

end Escape

end Stencil
