import Stencil.Proofs.Template.Segments
import Stencil.Text.Lines

/-!
Where lines stand.  Every line of a text begins at some offset, ends before the next one begins, and is
what the text has there.  A place counts line feeds only, and so it tells the line that a text ends on,
and the column in it, as long as every line before ends at a line feed.
-/

set_option autoImplicit false
set_option relaxedAutoImplicit false

namespace Stencil

namespace Text

/-- The lines of a text without their ends, each with the offset at which it begins. -/
def placedLines (start : Nat) : Text → List (Nat × Text)
  | [] => []
  | '\r' :: '\n' :: text => (start, []) :: placedLines (start + 2) text
  | c :: text =>
    if endsLine c then (start, []) :: placedLines (start + 1) text
    else
      match placedLines (start + 1) text with
      | [] => [(start, [c])]
      | first :: others => (start, c :: first.2) :: others

def lineEnds : Text → Nat
  | [] => 0
  | '\r' :: '\n' :: text => lineEnds text + 1
  | c :: text => (if endsLine c then 1 else 0) + lineEnds text

/-- Whether every line end of a text is a line feed, by itself or after a carriage return. -/
def FeedsEndLines (text : Text) : Prop :=
  ∀ before c after, text = before ++ c :: after → endsLine c = true →
    c = '\n' ∨ c = '\r' ∧ after.head? = some '\n'

def openLength (text : Text) : Nat :=
  (text.reverse.takeWhile fun c => !endsLine c).length

theorem map_snd_placedLines (start : Nat) (text : Text) :
    (placedLines start text).map Prod.snd = lines text := by
  fun_induction placedLines start text with
  | case1 start => rfl
  | case2 start text ih => rw [lines, List.map_cons, ih]
  | case3 start c text apart ends ih => rw [lines, if_pos ends, List.map_cons, ih]; exact apart
  | case4 start c text apart goes_on last ih =>
    rw [lines, if_neg goes_on, ← ih, last]
    · rfl
    · exact apart
  | case5 start c text apart goes_on first others more ih =>
    rw [lines, if_neg goes_on, ← ih, more]
    · rfl
    · exact apart

theorem exists_placedLines_cons (start : Nat) (c : Char) (text : Text) :
    ∃ content others, placedLines start (c :: text) = (start, content) :: others := by
  rw [placedLines.eq_def]
  split
  · next impossible => cases impossible
  · exact ⟨_, _, rfl⟩
  · next d rest _ same =>
    cases same
    split
    · exact ⟨_, _, rfl⟩
    · split
      · exact ⟨_, _, rfl⟩
      · exact ⟨_, _, rfl⟩

theorem placedLines_cons_of_not_end {start : Nat} {c : Char} {text : Text}
    (goes_on : endsLine c = false) {content : Text} {others : List (Nat × Text)}
    (more : placedLines (start + 1) text = (start + 1, content) :: others) :
    placedLines start (c :: text) = (start, c :: content) :: others := by
  have apart : ∀ rest, c = '\r' → text = '\n' :: rest → False := by
    rintro rest rfl
    cases goes_on
  rw [placedLines, if_neg (by rw [goes_on]; exact Bool.false_ne_true), more]
  exact apart

theorem placedLines_cons_of_end {start : Nat} {c : Char} {text : Text} (ends : endsLine c = true)
    (apart : ∀ rest, c = '\r' → text = '\n' :: rest → False) :
    placedLines start (c :: text) = (start, []) :: placedLines (start + 1) text := by
  rw [placedLines, if_pos ends]
  exact apart

theorem fst_of_placedLines_eq_cons {start : Nat} {text : Text} {first : Nat × Text}
    {others : List (Nat × Text)} (more : placedLines start text = first :: others) :
    first.1 = start := by
  cases text with
  | nil => cases more
  | cons c text =>
    obtain ⟨content, _, same⟩ := exists_placedLines_cons start c text
    rw [same] at more
    cases more
    rfl

theorem le_of_mem_placedLines {start : Nat} {text : Text} {line : Nat × Text}
    (member : line ∈ placedLines start text) : start ≤ line.1 := by
  fun_induction placedLines start text with
  | case1 start => cases member
  | case2 start text ih =>
    rcases List.mem_cons.1 member with rfl | later
    · exact Nat.le_refl _
    · exact (Nat.le_add_right start 2).trans (ih later)
  | case3 start c text apart ends ih =>
    rcases List.mem_cons.1 member with rfl | later
    · exact Nat.le_refl _
    · exact (Nat.le_add_right start 1).trans (ih later)
  | case4 start c text apart goes_on last ih =>
    cases List.mem_singleton.1 member
    exact Nat.le_refl _
  | case5 start c text apart goes_on first others more ih =>
    rw [more] at ih
    rcases List.mem_cons.1 member with rfl | later
    · exact Nat.le_refl _
    · exact (Nat.le_add_right start 1).trans (ih (List.mem_cons_of_mem _ later))

theorem pairwise_placedLines (start : Nat) (text : Text) :
    (placedLines start text).Pairwise fun one two => one.1 + one.2.length < two.1 := by
  fun_induction placedLines start text with
  | case1 start => exact List.Pairwise.nil
  | case2 start text ih =>
    refine List.pairwise_cons.2 ⟨fun line later => ?_, ih⟩
    have begins := le_of_mem_placedLines later
    show start + 0 < line.1
    omega
  | case3 start c text apart ends ih =>
    refine List.pairwise_cons.2 ⟨fun line later => ?_, ih⟩
    have begins := le_of_mem_placedLines later
    show start + 0 < line.1
    omega
  | case4 start c text apart goes_on last ih => exact List.pairwise_singleton _ _
  | case5 start c text apart goes_on first others more ih =>
    rw [more, List.pairwise_cons] at ih
    refine List.pairwise_cons.2 ⟨fun line later => ?_, ih.2⟩
    have begins := fst_of_placedLines_eq_cons more
    have apart_first := ih.1 line later
    show start + (first.2.length + 1) < line.1
    omega

theorem exists_placedLines_cons_of_not_end (start : Nat) {c : Char} (goes_on : endsLine c = false)
    (text : Text) :
    ∃ content others, placedLines start (c :: text) = (start, c :: content) :: others := by
  cases text with
  | nil =>
    refine ⟨[], [], ?_⟩
    rw [placedLines, if_neg (by rw [goes_on]; exact Bool.false_ne_true), placedLines]
    rintro rest - impossible
    cases impossible
  | cons d text =>
    obtain ⟨content, others, more⟩ := exists_placedLines_cons (start + 1) d text
    exact ⟨content, others, placedLines_cons_of_not_end goes_on more⟩

theorem openLength_cons_of_end {c : Char} (ends : endsLine c = true) (text : Text) :
    openLength (c :: text) = openLength text := by
  rw [openLength, openLength, List.reverse_cons, List.takeWhile_append]
  split
  · next whole =>
    rw [List.takeWhile_cons_of_neg (by simp [ends]), List.append_nil, whole]
  · rfl

theorem openLength_cons_of_not_end {c : Char} (goes_on : endsLine c = false) (text : Text) :
    openLength (c :: text) =
      if openLength text = text.length then text.length + 1 else openLength text := by
  rw [openLength, openLength, List.reverse_cons, List.takeWhile_append, List.length_reverse]
  split
  · rw [List.takeWhile_cons_of_pos (by simp [goes_on])]
    simp
  · rfl

theorem openLength_le (text : Text) : openLength text ≤ text.length :=
  (List.takeWhile_prefix _).length_le.trans_eq List.length_reverse

theorem openLength_eq_length_iff (text : Text) :
    openLength text = text.length ↔ lineEnds text = 0 := by
  fun_induction lineEnds text with
  | case1 => simp [openLength]
  | case2 text ih =>
    have ends : openLength ('\r' :: '\n' :: text) = openLength text := by
      rw [openLength_cons_of_end rfl, openLength_cons_of_end rfl]
    have short := openLength_le text
    rw [ends, List.length_cons, List.length_cons]
    omega
  | case3 c text apart ih =>
    have short := openLength_le text
    cases ends : endsLine c with
    | true =>
      rw [openLength_cons_of_end ends, if_pos rfl, List.length_cons]
      omega
    | false =>
      rw [openLength_cons_of_not_end ends, if_neg Bool.false_ne_true, Nat.zero_add, ← ih,
        List.length_cons]
      split <;> omega

theorem getElem?_placedLines_append {rest content : Text} {others : List (Nat × Text)}
    (apart : rest.head? ≠ some '\n') (start : Nat) (front : Text)
    (line : placedLines (start + front.length) rest =
      (start + front.length, content) :: others) :
    ∃ begins begun, begins + begun.length = start + front.length ∧
      begun.length = openLength front ∧
      (placedLines start (front ++ rest))[lineEnds front]? = some (begins, begun ++ content) := by
  fun_induction lineEnds front generalizing start with
  | case1 =>
    refine ⟨start, [], rfl, rfl, ?_⟩
    rw [List.nil_append]
    exact congrArg (fun lines => lines[0]?) line
  | case2 front ih =>
    obtain ⟨begins, begun, place, length, found⟩ :=
      ih (start + 2) (by simpa only [List.length_cons, Nat.add_assoc, Nat.add_comm 2] using line)
    refine ⟨begins, begun, ?_, ?_, ?_⟩
    · rw [place, List.length_cons, List.length_cons]
      omega
    · rw [length, openLength_cons_of_end rfl, openLength_cons_of_end rfl]
    · rw [List.cons_append, List.cons_append, placedLines, List.getElem?_cons_succ, found]
  | case3 c front unlinked ih =>
    obtain ⟨begins, begun, place, length, found⟩ :=
      ih (start + 1) (by simpa only [List.length_cons, Nat.add_assoc, Nat.add_comm 1] using line)
    have apart_all : ∀ text, c = '\r' → front ++ rest = '\n' :: text → False := by
      rintro text return_first feeds
      cases front with
      | nil => exact apart (by rw [← List.nil_append rest, feeds]; rfl)
      | cons d front =>
        cases feeds
        exact unlinked front return_first rfl
    cases ends : endsLine c with
    | true =>
      refine ⟨begins, begun, ?_, ?_, ?_⟩
      · rw [place, List.length_cons]
        omega
      · rw [length, openLength_cons_of_end ends]
      · rw [List.cons_append, placedLines_cons_of_end ends apart_all, if_pos rfl, Nat.add_comm 1,
          List.getElem?_cons_succ, found]
    | false =>
      rw [if_neg Bool.false_ne_true, Nat.zero_add, List.cons_append,
        openLength_cons_of_not_end ends]
      obtain ⟨first, later, more⟩ : ∃ first later,
          placedLines (start + 1) (front ++ rest) = (start + 1, first) :: later := by
        cases whole : placedLines (start + 1) (front ++ rest) with
        | nil => rw [whole] at found; cases found
        | cons head later => exact ⟨head.2, later, by rw [← fst_of_placedLines_eq_cons whole]⟩
      rw [more] at found
      rw [placedLines_cons_of_not_end ends more]
      by_cases unended : lineEnds front = 0
      · have whole := (openLength_eq_length_iff front).2 unended
        rw [unended] at found ⊢
        cases found
        refine ⟨start, c :: begun, ?_, ?_, rfl⟩
        · rw [List.length_cons, List.length_cons]
          omega
        · rw [if_pos whole, List.length_cons, length, whole]
      · have part := fun whole => unended ((openLength_eq_length_iff front).1 whole)
        refine ⟨begins, begun, ?_, ?_, ?_⟩
        · rw [place, List.length_cons]
          omega
        · rw [if_neg part, length]
        · obtain ⟨earlier, next⟩ := Nat.exists_eq_succ_of_ne_zero unended
          rw [next, List.getElem?_cons_succ] at found ⊢
          exact found

theorem feedsEndLines_nil : FeedsEndLines [] := by
  intro before c after split_eq
  cases before <;> cases split_eq

theorem feedsEndLines_cons_iff {c : Char} {text : Text} :
    FeedsEndLines (c :: text) ↔
      (endsLine c = true → c = '\n' ∨ c = '\r' ∧ text.head? = some '\n') ∧ FeedsEndLines text := by
  constructor
  · intro feeds
    refine ⟨feeds [] c text rfl, fun before d after split_eq => ?_⟩
    exact feeds (c :: before) d after (congrArg (c :: ·) split_eq)
  · rintro ⟨first, others⟩ before d after split_eq
    cases before with
    | nil =>
      cases split_eq
      exact first
    | cons e before =>
      cases split_eq
      exact others before d after rfl

theorem count_le_lineEnds (text : Text) : text.count '\n' ≤ lineEnds text := by
  fun_induction lineEnds text with
  | case1 => exact Nat.le_refl _
  | case2 text ih =>
    rw [List.count_cons_of_ne (by decide), List.count_cons_self]
    exact Nat.succ_le_succ ih
  | case3 c text apart ih =>
    by_cases feed : c = '\n'
    · subst feed
      rw [List.count_cons_self, if_pos (by rfl), Nat.add_comm]
      exact Nat.add_le_add_left ih 1
    · rw [List.count_cons_of_ne feed]
      exact ih.trans (Nat.le_add_left _ _)

/-- There are as many line ends as line feeds exactly when every line end is one. -/
theorem count_eq_lineEnds_iff (text : Text) :
    text.count '\n' = lineEnds text ↔ FeedsEndLines text := by
  fun_induction lineEnds text with
  | case1 => exact ⟨fun _ => feedsEndLines_nil, fun _ => rfl⟩
  | case2 text ih =>
    rw [feedsEndLines_cons_iff, feedsEndLines_cons_iff, List.count_cons_of_ne (by decide),
      List.count_cons_self, Nat.add_right_cancel_iff, ih]
    exact ⟨fun feeds => ⟨fun _ => Or.inr ⟨rfl, rfl⟩, fun _ => Or.inl rfl, feeds⟩,
      fun feeds => feeds.2.2⟩
  | case3 c text apart ih =>
    have least := count_le_lineEnds text
    have unlinked : ¬ (c = '\r' ∧ text.head? = some '\n') := by
      rintro ⟨return_first, feeds⟩
      cases text with
      | nil => cases feeds
      | cons d text =>
        cases feeds
        exact apart text return_first rfl
    rw [feedsEndLines_cons_iff, ← ih]
    by_cases feed : c = '\n'
    · subst feed
      rw [List.count_cons_self, if_pos (by rfl), Nat.add_comm, Nat.add_left_cancel_iff]
      exact ⟨fun same => ⟨fun _ => Or.inl rfl, same⟩, fun both => both.2⟩
    · rw [List.count_cons_of_ne feed]
      cases ends : endsLine c with
      | true =>
        rw [if_pos rfl]
        constructor
        · intro same
          omega
        · rintro ⟨first, -⟩
          exact ((first rfl).elim feed unlinked).elim
      | false =>
        rw [if_neg Bool.false_ne_true, Nat.zero_add]
        exact ⟨fun same => ⟨fun impossible => absurd impossible Bool.false_ne_true, same⟩,
          fun both => both.2⟩

theorem FeedsEndLines.of_append {front back : Text} (feeds : FeedsEndLines (front ++ back))
    (unfed : back.head? ≠ some '\n') : FeedsEndLines front := by
  rintro before c after rfl ends
  rcases feeds before c (after ++ back) (by rw [List.append_assoc, List.cons_append]) ends with
    feed | ⟨return_first, feed⟩
  · exact Or.inl feed
  · cases after with
    | nil => exact absurd feed unfed
    | cons d after => exact Or.inr ⟨return_first, feed⟩

theorem FeedsEndLines.openLength_eq {text : Text} (feeds : FeedsEndLines text) :
    openLength text = (text.reverse.takeWhile (· ≠ '\n')).length := by
  induction text using List.reverseRecOn with
  | nil => rfl
  | append_singleton text c ih =>
    rw [openLength, List.reverse_append, List.reverse_singleton, List.singleton_append]
    cases ends : endsLine c with
    | true =>
      obtain rfl : c = '\n' := by
        rcases feeds text c [] rfl ends with feed | ⟨-, impossible⟩
        · exact feed
        · cases impossible
      rfl
    | false =>
      have unfed : c ≠ '\n' := by
        rintro rfl
        cases ends
      rw [List.takeWhile_cons_of_pos (by simp [ends]),
        List.takeWhile_cons_of_pos (by simp [unfed]), List.length_cons, List.length_cons]
      refine congrArg (· + 1) (ih (feeds.of_append ?_))
      rw [List.head?_singleton, Ne, Option.some.injEq]
      exact unfed

end Text

end Stencil
