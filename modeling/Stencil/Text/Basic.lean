/-!
Texts and how they are searched.  A text is the list of its characters, so every offset, length and
column of the library counts code points.  `past?` takes a mark off the front of a text and `cut?`
splits a text around the first place where a mark stands; their statements say that nothing is lost
and that no earlier place was passed over.
-/

set_option autoImplicit false
set_option relaxedAutoImplicit false

namespace Stencil

/-- A text is the list of its characters. -/
abbrev Text := List Char

namespace Text

/-- What follows `mark` in a text that starts with it. -/
def past? : Text → Text → Option Text
  | [], text => some text
  | _ :: _, [] => none
  | m :: mark, c :: text => if m = c then past? mark text else none

/-- The text before the first occurrence of `mark`, and the text after it. -/
def cut? (mark : Text) : Text → Option (Text × Text)
  | [] => (past? mark []).map fun after => ([], after)
  | c :: text =>
    match past? mark (c :: text) with
    | some after => some ([], after)
    | none => (cut? mark text).map fun parts => (c :: parts.1, parts.2)

def has (mark text : Text) : Bool :=
  (cut? mark text).isSome

/-- The text cut at every occurrence of one character, which belongs to no part. -/
def pieces (mark : Char) : Text → List Text
  | [] => [[]]
  | c :: text =>
    if c = mark then [] :: pieces mark text
    else
      match pieces mark text with
      | [] => [[c]]
      | first :: others => (c :: first) :: others

/-- The part before the last occurrence of a character, empty when there is none. -/
def beforeLast (mark : Char) (text : Text) : Text :=
  ((text.reverse.dropWhile (· != mark)).drop 1).reverse

/-- The part after the last occurrence of a character, the whole text when there is none. -/
def afterLast (mark : Char) (text : Text) : Text :=
  (text.reverse.takeWhile (· != mark)).reverse

def joined (mark : Text) : List Text → Text
  | [] => []
  | [text] => text
  | text :: others => text ++ mark ++ joined mark others

theorem past?_eq_some_iff {mark text rest : Text} :
    past? mark text = some rest ↔ text = mark ++ rest := by
  induction mark generalizing text with
  | nil => simp [past?]
  | cons m mark ih =>
    cases text with
    | nil => simp [past?]
    | cons c text => grind [past?]

theorem eq_append_of_cut? {mark text before after : Text}
    (h : cut? mark text = some (before, after)) : text = before ++ mark ++ after := by
  induction text generalizing before with
  | nil =>
    simp only [cut?, Option.map_eq_some_iff] at h
    obtain ⟨rest, hr, he⟩ := h
    cases he
    simpa using past?_eq_some_iff.1 hr
  | cons c text ih =>
    simp only [cut?] at h
    split at h
    · next rest hr =>
      cases h
      simpa using past?_eq_some_iff.1 hr
    · next hr =>
      obtain ⟨⟨b, a⟩, hc, he⟩ := Option.map_eq_some_iff.1 h
      cases he
      simp [ih hc]

theorem cut?_isSome_of_append (mark before after : Text) :
    (cut? mark (before ++ mark ++ after)).isSome := by
  induction before with
  | nil =>
    cases hm : mark ++ after with
    | nil =>
      have : mark = [] ∧ after = [] := by simpa using hm
      simp [this.1, this.2, cut?, past?]
    | cons c text =>
      have hp : past? mark (c :: text) = some after := past?_eq_some_iff.2 hm.symm
      simp [hm, cut?, hp]
  | cons c before ih =>
    simp only [List.cons_append, cut?]
    split
    · rfl
    · simpa using ih

/-- A cut is made at the first occurrence: the mark stands nowhere earlier. -/
theorem length_le_of_cut? {mark text before after before' after' : Text}
    (h : cut? mark text = some (before, after)) (other : text = before' ++ mark ++ after') :
    before.length ≤ before'.length := by
  induction text generalizing before before' with
  | nil =>
    simp only [cut?, Option.map_eq_some_iff] at h
    obtain ⟨rest, _, he⟩ := h
    cases he
    simp
  | cons c text ih =>
    simp only [cut?] at h
    split at h
    · cases h
      simp
    · next hr =>
      obtain ⟨⟨b, a⟩, hc, he⟩ := Option.map_eq_some_iff.1 h
      cases he
      cases before' with
      | nil =>
        have : past? mark (c :: text) = some after' := past?_eq_some_iff.2 (by simpa using other)
        simp [this] at hr
      | cons d before' =>
        simp only [List.cons_append, List.cons.injEq] at other
        simpa using ih hc other.2

end Text

end Stencil
