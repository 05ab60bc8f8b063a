import Stencil.Proofs.Json.Grammar
import Mathlib.Data.List.Infix
import Mathlib.Data.List.TakeWhile

/-!
Reading tokens.  A text is cut into tokens from left to right; each is read off the front of what is
left, as far as it goes.  Whatever is read was spelled in the front of the text, which is why what
remains is shorter.
-/

set_option autoImplicit false
set_option relaxedAutoImplicit false

namespace Stencil

namespace Json

section Char

def readUnit? : Text → Option (Nat × Text)
  | p :: q :: r :: s :: rest => (unitOf? p q r s).map fun unit => (unit, rest)
  | _ => none

/-- Reads the character of one unit, or of two halves of which the second has an escape of its own. -/
def readUnits? (text : Text) : Option (Char × Text) := do
  let (unit, rest) ← readUnit? text
  if isHighHalf unit then
    let behind ← Text.past? ['\\', 'u'] rest
    let (low, rest) ← readUnit? behind
    if isLowHalf low then pure (ofHalves unit low, rest) else none
  else if isLowHalf unit then none
  else pure (Char.ofNat unit, rest)

def readEscape? : Text → Option (Char × Text)
  | [] => none
  | letter :: rest =>
    if letter = 'u' then readUnits? rest
    else (shortEscapes.find? fun pair => pair.1 = letter).map fun pair => (pair.2, rest)

def readChar? : Text → Option (Char × Text)
  | [] => none
  | c :: rest =>
    if c = '\\' then readEscape? rest
    else if c.toNat < 0x20 ∨ c = '"' then none
    else some (c, rest)

variable {text rest : Text} {c : Char}

private theorem digits_of_readUnit? {unit : Nat} (read : readUnit? text = some (unit, rest)) :
    ∃ p q r s, text = p :: q :: r :: s :: rest ∧ unitOf? p q r s = some unit := by
  rw [readUnit?.eq_def] at read
  split at read
  · next p q r s behind =>
    obtain ⟨found, digits, same⟩ := Option.map_eq_some_iff.1 read
    cases same
    exact ⟨p, q, r, s, rfl, digits⟩
  · cases read

private theorem spelling_of_readUnits? (read : readUnits? text = some (c, rest)) :
    ∃ spelling, text = spelling ++ rest ∧ CharSpelling c ('\\' :: 'u' :: spelling) := by
  obtain ⟨⟨unit, behind⟩, one, onwards⟩ := Option.bind_eq_some_iff.1 read
  obtain ⟨p, q, r, s, rfl, digits⟩ := digits_of_readUnit? one
  dsimp only at onwards
  split at onwards
  · next high =>
    obtain ⟨escaped, past, onwards⟩ := Option.bind_eq_some_iff.1 onwards
    obtain ⟨⟨low, rest'⟩, two, last⟩ := Option.bind_eq_some_iff.1 onwards
    obtain ⟨p', q', r', s', rfl, digits'⟩ := digits_of_readUnit? two
    dsimp only at last
    split at last
    · next isLow =>
      obtain ⟨rfl, rfl⟩ := Prod.mk.inj (Option.some.inj last)
      rw [Text.past?_eq_some_iff.1 past]
      exact ⟨[p, q, r, s, '\\', 'u', p', q', r', s'], rfl, .halves digits digits' high isLow⟩
    · cases last
  · next high =>
    split at onwards
    · cases onwards
    · next low =>
      obtain ⟨rfl, rfl⟩ := Prod.mk.inj (Option.some.inj onwards)
      exact ⟨[p, q, r, s], rfl,
        .unit digits (Bool.eq_false_iff.2 high) (Bool.eq_false_iff.2 low)⟩

theorem spelling_of_readChar? (read : readChar? text = some (c, rest)) :
    ∃ spelling, text = spelling ++ rest ∧ spelling ≠ [] ∧ CharSpelling c spelling := by
  cases text with
  | nil => cases read
  | cons d text =>
    rw [readChar?] at read
    split at read
    · next slash =>
      subst slash
      cases text with
      | nil => cases read
      | cons letter text =>
        rw [readEscape?] at read
        split at read
        · next isUnit =>
          subst isUnit
          obtain ⟨spelling, rfl, spells⟩ := spelling_of_readUnits? read
          exact ⟨_, rfl, List.cons_ne_nil _ _, spells⟩
        · obtain ⟨⟨letter', c'⟩, found, same⟩ := Option.map_eq_some_iff.1 read
          cases same
          have known := List.mem_of_find?_eq_some found
          have letter_eq := List.find?_some found
          rw [decide_eq_true_eq] at letter_eq
          subst letter_eq
          exact ⟨['\\', letter'], rfl, List.cons_ne_nil _ _, .short known⟩
    · next slash =>
      split at read
      · cases read
      · next visible =>
        cases read
        rw [not_or, Nat.not_lt] at visible
        exact ⟨[c], rfl, List.cons_ne_nil _ _, .plain visible.1 visible.2 slash⟩

theorem length_lt_of_readChar? (read : readChar? text = some (c, rest)) :
    rest.length < text.length := by
  obtain ⟨spelling, rfl, nonempty, -⟩ := spelling_of_readChar? read
  have positive := List.length_pos_iff.2 nonempty
  rw [List.length_append]
  omega

end Char

def readQuoted? (text : Text) : Option (Text × Text) :=
  match Text.past? ['"'] text with
  | some rest => some ([], rest)
  | none =>
    match _read : readChar? text with
    | none => none
    | some (c, rest) => (readQuoted? rest).map fun parts => (c :: parts.1, parts.2)
termination_by text.length
decreasing_by exact length_lt_of_readChar? _read

theorem spellings_of_readQuoted? {text content rest : Text}
    (read : readQuoted? text = some (content, rest)) :
    ∃ spellings, text = spellings.flatten ++ ['"'] ++ rest ∧
      List.Forall₂ CharSpelling content spellings := by
  induction hn : text.length using Nat.strong_induction_on generalizing text content with
  | _ n ih =>
  subst hn
  rw [readQuoted?] at read
  split at read
  · next behind past =>
    cases read
    exact ⟨[], Text.past?_eq_some_iff.1 past, .nil⟩
  · split at read
    · cases read
    · next c behind one =>
      obtain ⟨⟨others, rest'⟩, onwards, same⟩ := Option.map_eq_some_iff.1 read
      cases same
      obtain ⟨spellings, rfl, each⟩ := ih _ (length_lt_of_readChar? one) onwards rfl
      obtain ⟨spelling, rfl, -, spells⟩ := spelling_of_readChar? one
      refine ⟨spelling :: spellings, ?_, .cons spells each⟩
      simp only [List.flatten_cons, List.append_assoc]

section Number

instance (digits : Text) : Decidable (IsDigits digits) :=
  have : Decidable (∀ c ∈ digits, c.isDigit = true) := List.decidableBAll _ digits
  inferInstanceAs (Decidable (digits ≠ [] ∧ ∀ c ∈ digits, c.isDigit = true))

instance (digits : Text) : Decidable (IsWhole digits) :=
  inferInstanceAs (Decidable (IsDigits digits ∧ (digits.head? = some '0' → digits = ['0'])))

def readMinus : Text → Bool × Text
  | [] => (false, [])
  | c :: rest => if c = '-' then (true, rest) else (false, c :: rest)

def readFraction : Text → Text × Text
  | [] => ([], [])
  | c :: rest =>
    let digits := rest.takeWhile Char.isDigit
    if c = '.' ∧ digits ≠ [] then (c :: digits, rest.dropWhile Char.isDigit) else ([], c :: rest)

def readSign : Text → Text × Text
  | [] => ([], [])
  | c :: rest => if c = '+' ∨ c = '-' then ([c], rest) else ([], c :: rest)

def readExponent : Text → Text × Text
  | [] => ([], [])
  | c :: rest =>
    let (sign, behind) := readSign rest
    let digits := behind.takeWhile Char.isDigit
    if (c = 'e' ∨ c = 'E') ∧ digits ≠ [] then
      (c :: (sign ++ digits), behind.dropWhile Char.isDigit)
    else ([], c :: rest)

variable {text : Text}

theorem minus_readMinus (text : Text) :
    minus (readMinus text).1 ++ (readMinus text).2 = text := by
  cases text with
  | nil => rfl
  | cons c text =>
    rw [readMinus]
    split
    · next sign => rw [sign]; rfl
    · rfl

private theorem isDigits_takeWhile {text : Text} (nonempty : text.takeWhile Char.isDigit ≠ []) :
    IsDigits (text.takeWhile Char.isDigit) :=
  ⟨nonempty, fun _ member => List.mem_takeWhile_imp member⟩

theorem spells_readFraction (text : Text) :
    (readFraction text).1 ++ (readFraction text).2 = text ∧ IsFraction (readFraction text).1 := by
  cases text with
  | nil => exact ⟨rfl, Or.inl rfl⟩
  | cons c text =>
    rw [readFraction]
    split
    · next found =>
      obtain ⟨rfl, nonempty⟩ := found
      refine ⟨?_, Or.inr ⟨_, rfl, isDigits_takeWhile nonempty⟩⟩
      rw [List.cons_append, List.takeWhile_append_dropWhile]
    · exact ⟨rfl, Or.inl rfl⟩

theorem spells_readSign (text : Text) :
    (readSign text).1 ++ (readSign text).2 = text ∧ (readSign text).1 ∈ [[], ['+'], ['-']] := by
  cases text with
  | nil => exact ⟨rfl, List.mem_cons_self⟩
  | cons c text =>
    rw [readSign]
    split
    · next sign =>
      refine ⟨rfl, ?_⟩
      rcases sign with rfl | rfl <;> simp
    · exact ⟨rfl, List.mem_cons_self⟩

theorem spells_readExponent (text : Text) :
    (readExponent text).1 ++ (readExponent text).2 = text ∧ IsExponent (readExponent text).1 := by
  cases text with
  | nil => exact ⟨rfl, Or.inl rfl⟩
  | cons c text =>
    obtain ⟨whole, isSign⟩ := spells_readSign text
    rw [readExponent]
    dsimp only
    split
    · next found =>
      obtain ⟨letter, nonempty⟩ := found
      refine ⟨?_, Or.inr ⟨_, _, _, rfl, by simpa using letter, isSign, isDigits_takeWhile nonempty⟩⟩
      rw [List.cons_append, List.append_assoc, List.takeWhile_append_dropWhile, whole]
    · exact ⟨rfl, Or.inl rfl⟩

end Number

section Token

variable (real : Text → Binary64)

def readNumber? (text : Text) : Option (Leaf × Text) :=
  let (negative, front) := readMinus text
  let digits := front.takeWhile Char.isDigit
  let (fraction, behind) := readFraction (front.dropWhile Char.isDigit)
  let (exponent, rest) := readExponent behind
  if IsWhole digits then
    if fraction ++ exponent = [] then some (.int (signedNumber negative digits), rest)
    else some (.float (real (minus negative ++ digits ++ fraction ++ exponent)), rest)
  else none

def names : List (Text × Leaf) :=
  [("null".toList, .null), ("true".toList, .bool true), ("false".toList, .bool false)]

def readName? (text : Text) : Option (Leaf × Text) :=
  names.findSome? fun name => (Text.past? name.1 text).map fun rest => (name.2, rest)

def readLeaf? (text : Text) : Option (Leaf × Text) :=
  match Text.past? ['"'] text with
  | some rest => (readQuoted? rest).map fun parts => (.text parts.1, parts.2)
  | none => (readName? text).or (readNumber? real text)

def Mark.ofChar? (c : Char) : Option Mark :=
  [openArray, closeArray, openObject, closeObject, comma, colon].find? fun mark => mark.char = c

def readToken? : Text → Option (Token × Text)
  | [] => none
  | c :: rest =>
    match Mark.ofChar? c with
    | some mark => some (.mark mark, rest)
    | none => (readLeaf? real (c :: rest)).map fun parts => (.leaf parts.1, parts.2)

variable {real} {text rest : Text}

theorem spelling_of_readNumber? {leaf : Leaf} (read : readNumber? real text = some (leaf, rest)) :
    ∃ spelling, text = spelling ++ rest ∧ spelling ≠ [] ∧ LeafSpelling real leaf spelling := by
  have sign := minus_readMinus text
  have split_digits : (readMinus text).2.takeWhile Char.isDigit ++
      (readMinus text).2.dropWhile Char.isDigit = (readMinus text).2 :=
    List.takeWhile_append_dropWhile
  obtain ⟨fraction_eq, isFraction⟩ :=
    spells_readFraction ((readMinus text).2.dropWhile Char.isDigit)
  obtain ⟨exponent_eq, isExponent⟩ := spells_readExponent
    (readFraction ((readMinus text).2.dropWhile Char.isDigit)).2
  rw [readNumber?] at read
  dsimp only at read
  split at read
  · next whole =>
    have text_eq : text = minus (readMinus text).1 ++ (readMinus text).2.takeWhile Char.isDigit ++
        (readFraction ((readMinus text).2.dropWhile Char.isDigit)).1 ++
        (readExponent (readFraction ((readMinus text).2.dropWhile Char.isDigit)).2).1 ++
        (readExponent (readFraction ((readMinus text).2.dropWhile Char.isDigit)).2).2 := by
      rw [List.append_assoc, exponent_eq, List.append_assoc, fraction_eq, List.append_assoc,
        split_digits, sign]
    split at read
    · next whole_only =>
      cases read
      rw [List.append_eq_nil_iff] at whole_only
      refine ⟨_, ?_, ?_, .int whole⟩
      · rw [whole_only.1, whole_only.2, List.append_nil, List.append_nil] at text_eq
        exact text_eq
      · exact List.append_ne_nil_of_right_ne_nil _ whole.1.1
    · next more =>
      cases read
      refine ⟨_, text_eq, ?_, .float whole isFraction isExponent more⟩
      simp [whole.1.1]
  · cases read

theorem spelling_of_readName? {leaf : Leaf} (read : readName? text = some (leaf, rest)) :
    ∃ spelling, text = spelling ++ rest ∧ spelling ≠ [] ∧ LeafSpelling real leaf spelling := by
  obtain ⟨name, known, found⟩ := List.exists_of_findSome?_eq_some read
  obtain ⟨behind, past, same⟩ := Option.map_eq_some_iff.1 found
  cases same
  refine ⟨name.1, Text.past?_eq_some_iff.1 past, ?_⟩
  simp only [names, List.mem_cons, List.not_mem_nil, or_false] at known
  rcases known with rfl | rfl | rfl
  · exact ⟨by decide, .null⟩
  · exact ⟨by decide, .true⟩
  · exact ⟨by decide, .false⟩

theorem spelling_of_readLeaf? {leaf : Leaf} (read : readLeaf? real text = some (leaf, rest)) :
    ∃ spelling, text = spelling ++ rest ∧ spelling ≠ [] ∧ LeafSpelling real leaf spelling := by
  rw [readLeaf?] at read
  split at read
  · next behind past =>
    obtain ⟨⟨content, rest'⟩, quoted, same⟩ := Option.map_eq_some_iff.1 read
    cases same
    obtain ⟨spellings, rfl, each⟩ := spellings_of_readQuoted? quoted
    refine ⟨_, ?_, List.cons_ne_nil _ _, .text each⟩
    rw [Text.past?_eq_some_iff.1 past]
    simp
  · rcases Option.or_eq_some_iff.1 read with named | ⟨-, number⟩
    · exact spelling_of_readName? named
    · exact spelling_of_readNumber? number

theorem spelling_of_readToken? {token : Token} (read : readToken? real text = some (token, rest)) :
    ∃ spelling, text = spelling ++ rest ∧ spelling ≠ [] ∧ TokenSpelling real token spelling := by
  cases text with
  | nil => cases read
  | cons c text =>
    rw [readToken?] at read
    split at read
    · next mark found =>
      cases read
      have char_eq := List.find?_some found
      rw [decide_eq_true_eq] at char_eq
      subst char_eq
      exact ⟨[mark.char], rfl, List.cons_ne_nil _ _, .mark mark⟩
    · obtain ⟨⟨leaf, rest'⟩, one, same⟩ := Option.map_eq_some_iff.1 read
      cases same
      obtain ⟨spelling, whole, nonempty, spells⟩ := spelling_of_readLeaf? one
      exact ⟨spelling, whole, nonempty, .leaf spells⟩

theorem length_lt_of_readToken? {token : Token}
    (read : readToken? real text = some (token, rest)) : rest.length < text.length := by
  obtain ⟨spelling, rfl, nonempty, -⟩ := spelling_of_readToken? read
  have positive := List.length_pos_iff.2 nonempty
  rw [List.length_append]
  omega

end Token

section Tokens

variable (real : Text → Binary64)

def readTokens? (text : Text) : Option (List Token) :=
  if text.dropWhile isSpace = [] then some []
  else
    match _read : readToken? real (text.dropWhile isSpace) with
    | none => none
    | some (token, rest) => (readTokens? rest).map fun tokens => token :: tokens
termination_by text.length
decreasing_by
  exact Nat.lt_of_lt_of_le (length_lt_of_readToken? _read) (List.dropWhile_suffix _).length_le

variable {real}

/-- Tokens that are read were spelled one after another. -/
theorem spells_of_readTokens? {text : Text} {tokens : List Token}
    (read : readTokens? real text = some tokens) : Spells real tokens text := by
  induction hn : text.length using Nat.strong_induction_on generalizing text tokens with
  | _ n ih =>
  subst hn
  have blanks : ∀ c ∈ text.takeWhile isSpace, isSpace c = true :=
    fun _ member => List.mem_takeWhile_imp member
  have whole : text.takeWhile isSpace ++ text.dropWhile isSpace = text :=
    List.takeWhile_append_dropWhile
  rw [readTokens?] at read
  split at read
  · next empty =>
    cases read
    rw [empty, List.append_nil] at whole
    rw [← whole]
    exact .nil blanks
  · split at read
    · cases read
    · next token rest one =>
      obtain ⟨others, onwards, same⟩ := Option.map_eq_some_iff.1 read
      cases same
      obtain ⟨spelling, front, -, spells⟩ := spelling_of_readToken? one
      have shorter : rest.length < text.length :=
        Nat.lt_of_lt_of_le (length_lt_of_readToken? one) (List.dropWhile_suffix _).length_le
      rw [← whole, front, ← List.append_assoc]
      exact .cons blanks spells (ih _ shorter onwards rfl)

end Tokens

end Json

end Stencil
