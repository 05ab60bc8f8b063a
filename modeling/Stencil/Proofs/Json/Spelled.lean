import Stencil.Proofs.Json.Tokens
import Mathlib.Data.List.Chain

/-!
Reading what was spelled.  However a token is spelled, it is read back, as long as another number or name
does not follow at once.  In a document that never happens, because a mark stands between any two other
tokens.
-/

set_option autoImplicit false
set_option relaxedAutoImplicit false

namespace Stencil

namespace Json

section Quoted

theorem readUnit?_of_digits {p q r s : Char} {unit : Nat} (digits : unitOf? p q r s = some unit)
    (rest : Text) : readUnit? (p :: q :: r :: s :: rest) = some (unit, rest) := by
  rw [readUnit?, digits]
  rfl

theorem readChar?_of_spelling {c : Char} {spelling : Text} (spells : CharSpelling c spelling)
    (rest : Text) : readChar? (spelling ++ rest) = some (c, rest) := by
  cases spells with
  | plain visible quote slash =>
    rw [List.singleton_append, readChar?, if_neg slash, if_neg]
    rintro (control | same)
    · exact absurd visible (Nat.not_le_of_gt control)
    · exact quote same
  | @short letter _ pair =>
    simp only [shortEscapes, List.mem_cons, List.not_mem_nil, or_false, Prod.mk.injEq] at pair
    rcases pair with ⟨rfl, rfl⟩ | ⟨rfl, rfl⟩ | ⟨rfl, rfl⟩ | ⟨rfl, rfl⟩ | ⟨rfl, rfl⟩ | ⟨rfl, rfl⟩ |
      ⟨rfl, rfl⟩ | ⟨rfl, rfl⟩ <;> rfl
  | @unit p q r s number digits high low =>
    have one := readUnit?_of_digits digits rest
    have both : readUnits? (p :: q :: r :: s :: rest) = some (Char.ofNat number, rest) := by
      simp [readUnits?, one, high, low]
    exact both
  | @halves p q r s p' q' r' s' first second digits digits' isHigh isLow =>
    have one := readUnit?_of_digits digits ('\\' :: 'u' :: p' :: q' :: r' :: s' :: rest)
    have two := readUnit?_of_digits digits' rest
    have both : readUnits? (p :: q :: r :: s :: '\\' :: 'u' :: p' :: q' :: r' :: s' :: rest) =
        some (ofHalves first second, rest) := by
      simp [readUnits?, one, two, isHigh, isLow, Text.past?]
    exact both

theorem past?_quote_of_spelling {c : Char} {spelling : Text} (spells : CharSpelling c spelling)
    (rest : Text) : Text.past? ['"'] (spelling ++ rest) = none := by
  cases spells with
  | plain visible quote slash => exact if_neg (Ne.symm quote)
  | short pair => rfl
  | unit digits high low => rfl
  | halves digits digits' isHigh isLow => rfl

theorem readQuoted?_of_spellings {content : Text} {spellings : List Text}
    (each : List.Forall₂ CharSpelling content spellings) (rest : Text) :
    readQuoted? (spellings.flatten ++ '"' :: rest) = some (content, rest) := by
  induction each with
  | nil =>
    rw [readQuoted?]
    rfl
  | @cons c spelling content spellings spells each ih =>
    have one := readChar?_of_spelling spells (spellings.flatten ++ '"' :: rest)
    rw [List.flatten_cons, List.append_assoc, readQuoted?, past?_quote_of_spelling spells]
    dsimp only
    split
    · next failed =>
      rw [one] at failed
      cases failed
    · next found =>
      rw [one] at found
      cases found
      rw [ih]
      rfl

end Quoted

section Number

/-- Whether nothing, a blank or a mark comes next. -/
def Ends (rest : Text) : Prop :=
  ∀ c ∈ rest.head?, isSpace c = true ∨ ∃ mark : Mark, mark.char = c

def NoDigit (rest : Text) : Prop :=
  ∀ c ∈ rest.head?, c.isDigit = false

theorem NoDigit.cons {c : Char} (other : c.isDigit = false) (rest : Text) : NoDigit (c :: rest) := by
  intro d first
  cases first
  exact other

theorem Ends.apart {rest : Text} (follows : Ends rest) :
    ∀ c ∈ rest.head?, c.isDigit = false ∧ c ≠ '.' ∧ c ≠ 'e' ∧ c ≠ 'E' := by
  intro c first
  rcases follows c first with blank | ⟨mark, rfl⟩
  · simp only [isSpace, Bool.or_eq_true, decide_eq_true_eq] at blank
    rcases blank with ((rfl | rfl) | rfl) | rfl <;> decide
  · cases mark <;> decide

theorem NoDigit.span {digits rest : Text} (all : ∀ c ∈ digits, c.isDigit = true)
    (ends : NoDigit rest) : (digits ++ rest).takeWhile Char.isDigit = digits ∧
      (digits ++ rest).dropWhile Char.isDigit = rest := by
  have stops : rest.takeWhile Char.isDigit = [] ∧ rest.dropWhile Char.isDigit = rest := by
    cases rest with
    | nil => exact ⟨rfl, rfl⟩
    | cons c rest =>
      rw [List.takeWhile_cons, List.dropWhile_cons, ends c rfl]
      exact ⟨rfl, rfl⟩
  rw [List.takeWhile_append_of_pos all, List.dropWhile_append_of_pos all, stops.1, stops.2,
    List.append_nil]
  exact ⟨rfl, rfl⟩

theorem IsDigits.exists_cons {digits : Text} (isDigits : IsDigits digits) :
    ∃ c others, digits = c :: others ∧ c.isDigit = true := by
  obtain ⟨c, others, rfl⟩ := List.exists_cons_of_ne_nil isDigits.1
  exact ⟨c, others, rfl, isDigits.2 c List.mem_cons_self⟩

theorem ne_of_isDigit {c d : Char} (digit : c.isDigit = true) (other : d.isDigit = false) :
    c ≠ d := by
  rintro rfl
  rw [digit] at other
  cases other

theorem readMinus_of_digits (negative : Bool) {digits : Text} (isDigits : IsDigits digits)
    (rest : Text) : readMinus (minus negative ++ (digits ++ rest)) = (negative, digits ++ rest) := by
  cases negative with
  | true => rfl
  | false =>
    obtain ⟨c, others, rfl, digit⟩ := isDigits.exists_cons
    exact if_neg (ne_of_isDigit digit rfl)

theorem readSign_of_digits {sign digits : Text} (isSign : sign ∈ [[], ['+'], ['-']])
    (isDigits : IsDigits digits) (rest : Text) :
    readSign (sign ++ (digits ++ rest)) = (sign, digits ++ rest) := by
  simp only [List.mem_cons, List.not_mem_nil, or_false] at isSign
  rcases isSign with rfl | rfl | rfl
  · obtain ⟨c, others, rfl, digit⟩ := isDigits.exists_cons
    refine if_neg ?_
    rintro (same | same)
    · exact ne_of_isDigit digit rfl same
    · exact ne_of_isDigit digit rfl same
  · rfl
  · rfl

theorem readFraction_of_isFraction {fraction rest : Text} (isFraction : IsFraction fraction)
    (ends : NoDigit rest) (point : ∀ c ∈ rest.head?, c ≠ '.') :
    readFraction (fraction ++ rest) = (fraction, rest) := by
  rcases isFraction with rfl | ⟨digits, rfl, isDigits⟩
  · cases rest with
    | nil => rfl
    | cons c rest => exact if_neg fun found => point c rfl found.1
  · obtain ⟨digits_eq, behind⟩ := ends.span isDigits.2
    rw [List.cons_append, readFraction, digits_eq, behind, if_pos ⟨rfl, isDigits.1⟩]

theorem readExponent_of_isExponent {exponent rest : Text} (isExponent : IsExponent exponent)
    (ends : NoDigit rest) (letter : ∀ c ∈ rest.head?, c ≠ 'e' ∧ c ≠ 'E') :
    readExponent (exponent ++ rest) = (exponent, rest) := by
  rcases isExponent with rfl | ⟨e, sign, digits, rfl, isLetter, isSign, isDigits⟩
  · cases rest with
    | nil => rfl
    | cons c rest =>
      refine if_neg ?_
      rintro ⟨same | same, -⟩
      · exact (letter c rfl).1 same
      · exact (letter c rfl).2 same
  · obtain ⟨digits_eq, behind⟩ := ends.span isDigits.2
    have isLetter' : e = 'e' ∨ e = 'E' := by simpa using isLetter
    rw [List.cons_append, List.append_assoc, readExponent, readSign_of_digits isSign isDigits]
    dsimp only
    rw [digits_eq, behind, if_pos ⟨isLetter', isDigits.1⟩]

theorem readNumber?_of_parts (real : Text → Binary64) (negative : Bool)
    {digits fraction exponent rest : Text} (whole : IsWhole digits) (isFraction : IsFraction fraction)
    (isExponent : IsExponent exponent) (follows : Ends rest) :
    readNumber? real (minus negative ++ digits ++ fraction ++ exponent ++ rest) =
      if fraction ++ exponent = [] then some (.int (signedNumber negative digits), rest)
      else some (.float (real (minus negative ++ digits ++ fraction ++ exponent)), rest) := by
  have noDigit : NoDigit rest := fun c first => (follows.apart c first).1
  have behindFraction : NoDigit (exponent ++ rest) ∧ ∀ c ∈ (exponent ++ rest).head?, c ≠ '.' := by
    rcases isExponent with rfl | ⟨e, sign, others, rfl, isLetter, -⟩
    · exact ⟨noDigit, fun c first => (follows.apart c first).2.1⟩
    · simp only [List.mem_cons, List.not_mem_nil, or_false] at isLetter
      rcases isLetter with rfl | rfl
      · exact ⟨.cons rfl _, fun c first => by cases first; decide⟩
      · exact ⟨.cons rfl _, fun c first => by cases first; decide⟩
  have behindDigits : NoDigit (fraction ++ (exponent ++ rest)) := by
    rcases isFraction with rfl | ⟨others, rfl, -⟩
    · exact behindFraction.1
    · exact .cons rfl _
  obtain ⟨digits_eq, behind⟩ := behindDigits.span whole.1.2
  rw [List.append_assoc, List.append_assoc, List.append_assoc, readNumber?,
    readMinus_of_digits negative whole.1]
  dsimp only
  rw [digits_eq, behind, readFraction_of_isFraction isFraction behindFraction.1 behindFraction.2]
  dsimp only
  have letter : ∀ c ∈ rest.head?, c ≠ 'e' ∧ c ≠ 'E' := fun c first => (follows.apart c first).2.2
  rw [readExponent_of_isExponent isExponent noDigit letter, if_pos whole]

end Number

section Token

variable {real : Text → Binary64}

theorem past?_of_ne {c d : Char} (other : c ≠ d) (mark text : Text) :
    Text.past? (c :: mark) (d :: text) = none :=
  if_neg other

theorem exists_cons_of_number (negative : Bool) {digits : Text} (isDigits : IsDigits digits)
    (rest : Text) : ∃ c text, minus negative ++ digits ++ rest = c :: text ∧
      ∀ d, d ≠ '-' → d.isDigit = false → d ≠ c := by
  obtain ⟨c, others, rfl, digit⟩ := isDigits.exists_cons
  cases negative with
  | true => exact ⟨'-', _, rfl, fun d sign _ => sign⟩
  | false => exact ⟨c, _, rfl, fun d _ other => (ne_of_isDigit digit other).symm⟩

theorem readToken?_of_number {negative : Bool} {digits rest : Text} (isDigits : IsDigits digits)
    {content : Leaf} {behind : Text}
    (read : readNumber? real (minus negative ++ digits ++ rest) = some (content, behind)) :
    ∃ c text, minus negative ++ digits ++ rest = c :: text ∧ isSpace c = false ∧
      readToken? real (c :: text) = some (.leaf content, behind) := by
  obtain ⟨c, text, begins, apart⟩ := exists_cons_of_number negative isDigits rest
  rw [begins] at read
  have notMark : Mark.ofChar? c = none := by
    rw [Mark.ofChar?, List.find?_eq_none]
    intro mark _
    rw [decide_eq_true_eq]
    cases mark <;> exact apart _ (by decide) rfl
  have notName : readName? (c :: text) = none := by
    rw [readName?, List.findSome?_eq_none_iff]
    intro name known
    simp only [names, List.mem_cons, List.not_mem_nil, or_false] at known
    rw [Option.map_eq_none_iff]
    rcases known with rfl | rfl | rfl <;> exact past?_of_ne (apart _ (by decide) rfl) _ _
  have visible : isSpace c = false := by
    simp [isSpace, (apart _ _ _).symm]
  refine ⟨c, text, begins, visible, ?_⟩
  rw [readToken?, notMark, readLeaf?, past?_of_ne (apart _ (by decide) rfl), notName, read]
  rfl

theorem readToken?_of_leafSpelling {content : Leaf} {spelling rest : Text}
    (spells : LeafSpelling real content spelling) (follows : Ends rest) :
    ∃ c text, spelling ++ rest = c :: text ∧ isSpace c = false ∧
      readToken? real (c :: text) = some (.leaf content, rest) := by
  cases spells with
  | null => exact ⟨'n', _, rfl, rfl, rfl⟩
  | true => exact ⟨'t', _, rfl, rfl, rfl⟩
  | false => exact ⟨'f', _, rfl, rfl, rfl⟩
  | @int negative digits whole =>
    have read := readNumber?_of_parts real negative whole (Or.inl rfl) (Or.inl rfl) follows
    rw [List.append_nil, List.append_nil] at read
    exact readToken?_of_number whole.1 read
  | @float negative digits fraction exponent whole isFraction isExponent more =>
    have read := readNumber?_of_parts real negative whole isFraction isExponent follows
    rw [if_neg more, List.append_assoc, List.append_assoc] at read
    rw [List.append_assoc, List.append_assoc]
    exact readToken?_of_number whole.1 read
  | @text content spellings each =>
    have read := readQuoted?_of_spellings each rest
    refine ⟨'"', spellings.flatten ++ '"' :: rest, ?_, rfl, ?_⟩
    · simp
    · have notMark : Mark.ofChar? '"' = none := rfl
      simp [readToken?, notMark, readLeaf?, Text.past?, read]

end Token

section Tokens

variable {real : Text → Binary64}

/-- Whether of two neighbours at least one is a mark. -/
def Separated (tokens : List Token) : Prop :=
  tokens.IsChain fun first second => (∃ m, first = .mark m) ∨ ∃ m, second = .mark m

theorem Spells.ends {content : Leaf} {tokens : List Token} {rest : Text}
    (separated : Separated (.leaf content :: tokens)) (spells : Spells real tokens rest) :
    Ends rest := by
  intro c first
  cases spells with
  | nil blank => exact Or.inl (blank c (List.mem_of_mem_head? first))
  | @cons token tokens blanks spelling rest blank one others =>
    have neighbours := (List.isChain_cons_cons.1 separated).1
    rcases neighbours with ⟨m, same⟩ | ⟨m, rfl⟩
    · cases same
    · cases one
      cases blanks with
      | nil =>
        cases first
        exact Or.inr ⟨m, rfl⟩
      | cons d blanks =>
        cases first
        exact Or.inl (blank _ List.mem_cons_self)

/-- Separated tokens are read back however they are spelled. -/
theorem readTokens?_of_spells {tokens : List Token} {source : Text}
    (spells : Spells real tokens source) (separated : Separated tokens) :
    readTokens? real source = some tokens := by
  induction spells with
  | nil blank =>
    have nothing := List.dropWhile_eq_nil_iff.2 blank
    rw [readTokens?, if_pos nothing]
  | @cons token tokens blanks spelling rest blank first others ih =>
    have read : ∃ c text, spelling ++ rest = c :: text ∧ isSpace c = false ∧
        readToken? real (c :: text) = some (token, rest) := by
      -- A mark is read whatever follows; a leaf must not run on into what follows.
      cases first with
      | mark m => exact ⟨m.char, rest, rfl, by cases m <;> rfl, by cases m <;> rfl⟩
      | leaf spells => exact readToken?_of_leafSpelling spells (others.ends separated)
    obtain ⟨c, text, begins, visible, one⟩ := read
    have front : (blanks ++ spelling ++ rest).dropWhile isSpace = c :: text := by
      rw [List.append_assoc, begins, List.dropWhile_append_of_pos blank, List.dropWhile_cons, visible]
      rfl
    rw [readTokens?, front, if_neg (List.cons_ne_nil _ _)]
    split
    · next failed =>
      rw [one] at failed
      cases failed
    · next found =>
      rw [one] at found
      cases found
      rw [ih separated.tail]
      rfl

end Tokens

section Document

theorem Separated.cons_mark {tokens : List Token} (separated : Separated tokens) (m : Mark) :
    Separated (.mark m :: tokens) :=
  List.isChain_cons.2 ⟨fun _ _ => Or.inl ⟨m, rfl⟩, separated⟩

def Marked (tokens : List Token) : Prop :=
  ∀ token ∈ tokens.head?, ∃ m, token = .mark m

theorem Marked.cons (m : Mark) (tokens : List Token) : Marked (.mark m :: tokens) := by
  intro token first
  cases first
  exact ⟨m, rfl⟩

theorem Separated.append {front behind : List Token} (first : Separated front)
    (second : Separated behind) (marked : Marked behind) : Separated (front ++ behind) :=
  List.isChain_append.2 ⟨first, second, fun _ _ next isNext => Or.inr (marked next isNext)⟩

theorem Separated.closed {front : List Token} (first : Separated front) (m : Mark) :
    Separated (front ++ [.mark m]) :=
  first.append (List.isChain_singleton _) (Marked.cons m [])

theorem marked_moreItemTokens (items : List Json) : Marked (moreItemTokens items) := by
  cases items with
  | nil => intro token first; cases first
  | cons item items => exact Marked.cons _ _

theorem marked_moreMemberTokens (members : List (Text × Json)) :
    Marked (moreMemberTokens members) := by
  cases members with
  | nil => intro token first; cases first
  | cons member members => exact Marked.cons _ _

mutual

theorem separated_tokens : ∀ document : Json, Separated document.tokens
  | null => List.isChain_singleton _
  | bool _ => List.isChain_singleton _
  | int _ => List.isChain_singleton _
  | float _ => List.isChain_singleton _
  | text _ => List.isChain_singleton _
  | array items => ((separated_itemTokens items).cons_mark _).closed _
  | object members => ((separated_memberTokens members).cons_mark _).closed _

theorem separated_itemTokens : ∀ items, Separated (itemTokens items)
  | [] => List.isChain_nil
  | item :: items =>
    (separated_tokens item).append (separated_moreItemTokens items) (marked_moreItemTokens items)

theorem separated_moreItemTokens : ∀ items, Separated (moreItemTokens items)
  | [] => List.isChain_nil
  | item :: items =>
    ((separated_tokens item).cons_mark _).append (separated_moreItemTokens items)
      (marked_moreItemTokens items)

theorem separated_memberToken : ∀ member, Separated (memberToken member)
  | (key, value) =>
    have key_first : Separated [.leaf (.text key)] := List.isChain_singleton _
    key_first.append ((separated_tokens value).cons_mark .colon) (Marked.cons _ _)

theorem separated_memberTokens : ∀ members, Separated (memberTokens members)
  | [] => List.isChain_nil
  | member :: members =>
    (separated_memberToken member).append (separated_moreMemberTokens members)
      (marked_moreMemberTokens members)

theorem separated_moreMemberTokens : ∀ members, Separated (moreMemberTokens members)
  | [] => List.isChain_nil
  | member :: members =>
    ((separated_memberToken member).cons_mark _).append (separated_moreMemberTokens members)
      (marked_moreMemberTokens members)

end

end Document

end Json

end Stencil
