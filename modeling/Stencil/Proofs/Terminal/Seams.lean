import Stencil.Terminal.Plain
import Mathlib.Data.List.Infix
import Mathlib.Data.List.TakeWhile

/-!
Escape sequences at the seams of texts.  Taking the sequences out of two texts one after another is
taking them out of each, unless a sequence begins in the first and goes on in the second.  No sequence
goes on behind a character that ends one, and none goes on into a control character.  A painted text
ends and begins with such characters, so its colors leave no trace when the sequences are taken out.
-/

set_option autoImplicit false
set_option relaxedAutoImplicit false

namespace Stencil

namespace Escape

/-- Whether a text is the beginning of an escape sequence and not the whole of it. -/
inductive Unfinished : Text → Prop
  | escape : Unfinished [escapeChar]
  | long {body : Text} (runs : (body.dropWhile isParameter).dropWhile isIntermediate = []) :
    Unfinished (escapeChar :: '[' :: body)

/-- Whether no escape sequence that begins in the first text goes on in the second. -/
def Apart (first second : Text) : Prop :=
  ∀ tail, tail <:+ first → Unfinished tail → past? (tail ++ second) = none

/-- Whether no escape sequence goes on behind a text, whatever follows. -/
def Settled (text : Text) : Prop :=
  ∀ tail, tail <:+ text → ¬Unfinished tail

theorem strip_of_past? {text rest : Text} (sequence : past? text = some rest) :
    strip text = strip rest := by
  cases text with
  | nil => cases sequence
  | cons c text =>
    rw [strip]
    split
    · next found => rw [sequence] at found; rw [Option.some.inj found]
    · next found => rw [sequence] at found; cases found

theorem strip_cons {c : Char} {text : Text} (plain : past? (c :: text) = none) :
    strip (c :: text) = c :: strip text := by
  rw [strip]
  split
  · next found => rw [plain] at found; cases found
  · rfl

theorem suffix_of_past? {text rest : Text} (sequence : past? text = some rest) : rest <:+ text := by
  rw [past?.eq_def] at sequence
  split at sequence
  · next first c body =>
    have inner : body <:+ first :: c :: body := List.suffix_append [first, c] body
    split at sequence
    · split at sequence
      · rw [pastLong?] at sequence
        split at sequence
        · next d behind runs =>
          have outer : d :: behind <:+ body := by
            rw [← runs]
            exact (List.dropWhile_suffix _).trans (List.dropWhile_suffix _)
          split at sequence
          · cases sequence
            exact ((List.suffix_cons d _).trans outer).trans inner
          · cases sequence
        · cases sequence
      · split at sequence
        · cases sequence
          exact inner
        · cases sequence
    · cases sequence
  · cases sequence

theorem past?_of_unfinished {text : Text} (begun : Unfinished text) : past? text = none := by
  cases begun with
  | escape => rfl
  | long runs =>
    rw [past?, if_pos rfl, if_pos rfl, pastLong?, runs]

theorem dropWhile_append_of_ne_nil {p : Char → Bool} {text : Text} (more : text.dropWhile p ≠ [])
    (rest : Text) : (text ++ rest).dropWhile p = text.dropWhile p ++ rest := by
  rw [List.dropWhile_append, if_neg]
  rwa [List.isEmpty_iff]

theorem pastLong?_append {body : Text}
    (more : (body.dropWhile isParameter).dropWhile isIntermediate ≠ []) (rest : Text) :
    pastLong? (body ++ rest) = (pastLong? body).map (· ++ rest) := by
  have some_left : body.dropWhile isParameter ≠ [] := by
    intro none_left
    rw [none_left] at more
    exact more rfl
  rw [pastLong?, pastLong?, dropWhile_append_of_ne_nil some_left, dropWhile_append_of_ne_nil more]
  cases runs : (body.dropWhile isParameter).dropWhile isIntermediate with
  | nil => exact absurd runs more
  | cons c behind =>
    dsimp only [List.cons_append]
    split <;> rfl

theorem past?_append {text : Text} (nonempty : text ≠ []) (finished : ¬Unfinished text)
    (rest : Text) : past? (text ++ rest) = (past? text).map (· ++ rest) := by
  match text with
  | [] => exact absurd rfl nonempty
  | [c] =>
    have other : c ≠ escapeChar := by
      rintro rfl
      exact finished .escape
    cases rest with
    | nil => rfl
    | cons d rest => exact if_neg other
  | c :: d :: body =>
    rw [List.cons_append, List.cons_append, past?, past?]
    by_cases begins : c = escapeChar
    · subst begins
      rw [if_pos rfl, if_pos rfl]
      by_cases long : d = '['
      · subst long
        rw [if_pos rfl, if_pos rfl]
        exact pastLong?_append (fun runs => finished (.long runs)) rest
      · rw [if_neg long, if_neg long]
        split <;> rfl
    · rw [if_neg begins, if_neg begins]
      rfl

/-- Where no sequence crosses the seam, the sequences can be taken out on both sides of it. -/
theorem strip_append {first second : Text} (apart : Apart first second) :
    strip (first ++ second) = strip first ++ strip second := by
  induction size : first.length using Nat.strong_induction_on generalizing first with
  | _ size' ih =>
  subst size
  cases first with
  | nil => rw [List.nil_append, strip, List.nil_append]
  | cons c text =>
    have apart_text : Apart text second := fun tail suffix =>
      apart tail (suffix.trans (List.suffix_cons c text))
    have rest_eq := ih _ (Nat.lt_succ_self text.length) apart_text rfl
    by_cases begun : Unfinished (c :: text)
    · rw [List.cons_append, strip_cons (past?_of_unfinished begun), List.cons_append, ← rest_eq]
      exact strip_cons (apart _ (List.suffix_refl _) begun)
    · have whole := past?_append (List.cons_ne_nil c text) begun second
      cases sequence : past? (c :: text) with
      | none =>
        rw [sequence] at whole
        rw [List.cons_append, strip_cons sequence, List.cons_append, ← rest_eq]
        exact strip_cons whole
      | some rest =>
        rw [sequence] at whole
        have suffix := suffix_of_past? sequence
        have shorter := length_past?_lt sequence
        rw [strip_of_past? whole, strip_of_past? sequence]
        exact ih _ shorter (fun tail inside => apart tail (inside.trans suffix)) rfl

theorem Settled.apart {first : Text} (settled : Settled first) (second : Text) :
    Apart first second :=
  fun tail suffix begun => absurd begun (settled tail suffix)

theorem settled_of_not_mem {text : Text} (absent : escapeChar ∉ text) : Settled text := by
  intro tail suffix begun
  apply absent
  apply suffix.subset
  cases begun <;> exact List.mem_cons_self

theorem mem_of_runs {body : Text}
    (runs : (body.dropWhile isParameter).dropWhile isIntermediate = []) {c : Char}
    (member : c ∈ body) : isParameter c = true ∨ isIntermediate c = true := by
  rw [← List.takeWhile_append_dropWhile (p := isParameter) (l := body)] at member
  rcases List.mem_append.1 member with early | late
  · exact .inl (List.mem_takeWhile_imp early)
  · exact .inr (List.dropWhile_eq_nil_iff.1 runs c late)

theorem unfinished_of_append {first second : Text} (begun : Unfinished (first ++ second))
    (nonempty : first ≠ []) : Unfinished first := by
  match first with
  | [] => exact absurd rfl nonempty
  | [c] =>
    cases begun <;> exact .escape
  | c :: d :: body =>
    cases begun with
    | long runs =>
      have whole : ((body ++ second).dropWhile isParameter).dropWhile isIntermediate = [] := runs
      refine .long ?_
      by_contra more
      have some_left : body.dropWhile isParameter ≠ [] := by
        intro none_left
        rw [none_left] at more
        exact more rfl
      rw [dropWhile_append_of_ne_nil some_left, dropWhile_append_of_ne_nil more] at whole
      exact more (List.append_eq_nil_iff.1 whole).1

theorem Settled.append {first second : Text} (settled : Settled first)
    (settled' : Settled second) : Settled (first ++ second) := by
  rintro tail ⟨front, whole⟩ begun
  rcases List.append_eq_append_iff.1 whole with ⟨part, rfl, rfl⟩ | ⟨part, rfl, rfl⟩
  · by_cases nonempty : part = []
    · subst nonempty
      exact settled' second (List.suffix_refl second) begun
    · exact settled part (List.suffix_append front part) (unfinished_of_append begun nonempty)
  · exact settled' tail (List.suffix_append part tail) begun

theorem settled_append_final (text : Text) {c : Char} (final : isFinal c = true)
    (other : c ≠ '[') : Settled (text ++ [c]) := by
  rintro tail ⟨front, whole⟩ begun
  have nonempty : tail ≠ [] := by cases begun <;> exact List.cons_ne_nil _ _
  have last : tail.getLast? = some c := by
    rw [← List.getLast?_append_of_ne_nil front nonempty, whole, List.getLast?_concat]
  have no_run : isParameter c = false ∧ isIntermediate c = false := by
    simp only [isFinal, isParameter, isIntermediate, Bool.and_eq_true, Bool.and_eq_false_iff,
      decide_eq_true_eq, decide_eq_false_iff_not] at final ⊢
    omega
  cases begun with
  | escape =>
    cases last
    cases final
  | @long body runs =>
    cases body with
    | nil =>
      cases last
      exact other rfl
    | cons d body =>
      rw [List.getLast?_cons_cons, List.getLast?_cons_cons] at last
      have member := List.mem_of_getLast? last
      rcases mem_of_runs runs member with run | run
      · rw [run] at no_run
        cases no_run.1
      · rw [run] at no_run
        cases no_run.2

theorem pastLong?_append_of_runs {body : Text}
    (runs : (body.dropWhile isParameter).dropWhile isIntermediate = []) {c : Char}
    (other : isParameter c = false) (rest : Text) :
    pastLong? (body ++ c :: rest) = pastLong? (c :: rest) := by
  have parameters : (body ++ c :: rest).dropWhile isParameter =
      body.dropWhile isParameter ++ c :: rest := by
    rw [List.dropWhile_append, List.dropWhile_cons_of_neg (by simp [other])]
    split
    · next none_left => rw [List.isEmpty_iff.1 none_left, List.nil_append]
    · rfl
  rw [pastLong?, pastLong?, parameters, List.dropWhile_cons_of_neg (by simp [other]),
    List.dropWhile_append, if_pos (by rw [runs]; rfl)]

theorem apart_of_other (first : Text) {c : Char} {rest : Text} (bracket : c ≠ '[')
    (short : isShort c = false) (other : isParameter c = false)
    (stops : pastLong? (c :: rest) = none) : Apart first (c :: rest) := by
  intro tail _ begun
  cases begun with
  | escape =>
    show past? (escapeChar :: c :: rest) = none
    rw [past?, if_pos rfl, if_neg bracket, short]
    rfl
  | @long body runs =>
    show past? (escapeChar :: '[' :: (body ++ c :: rest)) = none
    rw [past?, if_pos rfl, if_pos rfl, pastLong?_append_of_runs runs other, stops]

theorem apart_control (first : Text) {c : Char} (control : c.toNat < 0x20) (rest : Text) :
    Apart first (c :: rest) := by
  have other : isParameter c = false ∧ isIntermediate c = false ∧ isFinal c = false ∧
      isShort c = false := by
    simp only [isParameter, isIntermediate, isFinal, isShort, Bool.or_eq_false_iff,
      Bool.and_eq_false_iff, decide_eq_false_iff_not]
    omega
  obtain ⟨parameter, intermediate, final, short⟩ := other
  refine apart_of_other first ?_ short parameter ?_
  · rintro rfl
    exact absurd control (by decide)
  · rw [pastLong?, List.dropWhile_cons_of_neg (by simp [parameter]),
      List.dropWhile_cons_of_neg (by simp [intermediate])]
    simp [final]

theorem apart_quote (first rest : Text) : Apart first ('\'' :: '?' :: rest) :=
  apart_of_other first (by decide) (by decide) (by decide) rfl

section Painted

variable (role : Role) (text : Text)

theorem strip_sequence (color : Color) (rest : Text) :
    strip (color.sequence ++ rest) = strip rest := by
  have sequence : past? (color.sequence ++ rest) = some rest := by cases color <;> rfl
  exact strip_of_past? sequence

theorem strip_sequences (colors : List Color) (rest : Text) :
    strip (colors.flatMap Color.sequence ++ rest) = strip rest := by
  induction colors with
  | nil => rfl
  | cons color colors ih => rw [List.flatMap_cons, List.append_assoc, strip_sequence, ih]

theorem paint_true :
    role.paint true text = role.colors.flatMap Color.sequence ++ text ++ Color.reset.sequence := by
  have colors : role.colors ≠ [] := by cases role <;> exact List.cons_ne_nil _ _
  rw [Role.paint, paint, if_pos ⟨rfl, colors⟩]

theorem getLast?_paint_true : (role.paint true text).getLast? = some 'm' := by
  rw [paint_true, List.getLast?_append]
  rfl

theorem settled_paint_true : Settled (role.paint true text) := by
  obtain ⟨front, painted⟩ := List.getLast?_eq_some_iff.1 (getLast?_paint_true role text)
  rw [painted]
  exact settled_append_final front (by decide) (by decide)

theorem strip_paint_true : strip (role.paint true text) = strip text := by
  have closing : Apart text Color.reset.sequence := apart_control text (by decide) _
  have reset : strip Color.reset.sequence = [] := by
    rw [← List.append_nil Color.reset.sequence, strip_sequence, strip]
  rw [paint_true, List.append_assoc, strip_sequences, strip_append closing, reset, List.append_nil]

end Painted

end Escape

end Stencil
