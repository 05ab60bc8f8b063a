import Stencil.Json.Basic
import Stencil.Proofs.Json.Grammar
import Mathlib.Data.Nat.Init
import Mathlib.Tactic.SplitIfs

/-!
Printed documents.  The compact text of a document without floating-point numbers is one of the texts
that stand for it: its tokens stand one after another without blanks, and each is spelled as the grammar
allows.  What is printed has no control below the space.
-/

set_option autoImplicit false
set_option relaxedAutoImplicit false

namespace Stencil

namespace Json

section Quoted

private theorem unitOf?_control :
    ∀ n < 0x20, unitOf? '0' '0' (hexDigit (n / 16)) (hexDigit (n % 16)) = some n := by
  decide

theorem charSpelling_escape (c : Char) : CharSpelling c (escape c) := by
  have named (n : Nat) (same : c.toNat = n) : c = Char.ofNat n := by
    rw [← same, Char.ofNat_toNat]
  unfold escape
  split_ifs with special newline carriage tab backspace feed control
  · rcases special with rfl | rfl
    · exact .short (by decide)
    · exact .short (by decide)
  · subst newline
    exact .short (by decide)
  · subst carriage
    exact .short (by decide)
  · subst tab
    exact .short (by decide)
  · rw [named 8 backspace]
    exact .short (by decide)
  · rw [named 12 feed]
    exact .short (by decide)
  · have high : isHighHalf c.toNat = false := by
      simp only [isHighHalf]
      grind
    have low : isLowHalf c.toNat = false := by
      simp only [isLowHalf]
      grind
    have spells := CharSpelling.unit (unitOf?_control _ control) high low
    rw [Char.ofNat_toNat] at spells
    exact spells
  · rw [not_or] at special
    exact .plain (Nat.le_of_not_lt control) special.1 special.2

end Quoted

section Number

theorem isDigit_of_mem_natText {n : Nat} {c : Char} (digit : c ∈ natText n) : c.isDigit = true :=
  Nat.isDigit_of_mem_toDigits (by decide) (by decide) digit

theorem isWhole_natText (n : Nat) : IsWhole (natText n) := by
  refine ⟨⟨Nat.toDigits_ne_nil, fun c => isDigit_of_mem_natText⟩, ?_⟩
  induction n using Nat.strong_induction_on with
  | _ n ih =>
  intro zero
  rcases Nat.lt_or_ge n 10 with small | large
  · rw [natText, Nat.toDigits_of_lt_base small] at zero ⊢
    rw [Option.some.inj zero]
  · have shorter : n / 10 < n := by omega
    have digits : natText n = natText (n / 10) ++ [Nat.digitChar (n % 10)] :=
      Nat.toDigits_of_base_le (by decide) large
    have nonempty : natText (n / 10) ≠ [] := Nat.toDigits_ne_nil
    rw [digits, List.head?_append_of_ne_nil _ nonempty] at zero
    have front := ih _ shorter zero
    have value := congrArg (fun digits => Nat.ofDigitChars 10 digits 0) front
    rw [natText, Nat.ofDigitChars_toDigits (by decide) (by decide)] at value
    have : n / 10 = 0 := value
    omega

theorem intText_eq (n : Int) : intText n = minus (decide (n < 0)) ++ natText n.natAbs := by
  cases n with
  | ofNat n => simp [intText, minus]
  | negSucc n => simp [intText, minus]

theorem signedNumber_natText (n : Int) :
    signedNumber (decide (n < 0)) (natText n.natAbs) = n := by
  have value : Nat.ofDigitChars 10 (natText n.natAbs) 0 = n.natAbs :=
    Nat.ofDigitChars_toDigits (by decide) (by decide)
  rw [signedNumber, value]
  split
  · next negative => rw [decide_eq_true_eq] at negative; omega
  · next negative => rw [decide_eq_true_eq] at negative; omega

end Number

section Tokens

def Token.print : Token → Text
  | .mark m => [m.char]
  | .leaf l => l.document.print

mutual

theorem print_eq : ∀ document : Json, document.print = document.tokens.flatMap Token.print
  | null => rfl
  | bool true => rfl
  | bool false => rfl
  | int _ => (List.append_nil _).symm
  | float _ => (List.append_nil _).symm
  | text _ => (List.append_nil _).symm
  | array items => by
    rw [print, tokens, printItems_eq items]
    simp [Token.print, Mark.char]
  | object members => by
    rw [print, tokens, printMembers_eq members]
    simp [Token.print, Mark.char]

theorem printItems_eq : ∀ items, printItems items = (itemTokens items).flatMap Token.print
  | [] => rfl
  | item :: items => by
    rw [printItems, itemTokens, List.flatMap_append, print_eq item, printMoreItems_eq items]

theorem printMoreItems_eq :
    ∀ items, printMoreItems items = (moreItemTokens items).flatMap Token.print
  | [] => rfl
  | item :: items => by
    rw [printMoreItems, moreItemTokens, print_eq item, printMoreItems_eq items]
    simp [Token.print, Mark.char]

theorem printMember_eq : ∀ member, printMember member = (memberToken member).flatMap Token.print
  | (key, value) => by
    rw [printMember, memberToken, print_eq value]
    simp [Token.print, Leaf.document, print, Mark.char]

theorem printMembers_eq : ∀ members, printMembers members = (memberTokens members).flatMap Token.print
  | [] => rfl
  | member :: members => by
    rw [printMembers, memberTokens, List.flatMap_append, printMember_eq member,
      printMoreMembers_eq members]

theorem printMoreMembers_eq :
    ∀ members, printMoreMembers members = (moreMemberTokens members).flatMap Token.print
  | [] => rfl
  | member :: members => by
    rw [printMoreMembers, moreMemberTokens, printMember_eq member, printMoreMembers_eq members]
    simp [Token.print, Mark.char]

end

def IsExact (tokens : List Token) : Prop :=
  ∀ value, Token.leaf (.float value) ∉ tokens

theorem IsExact.head {token : Token} {tokens : List Token} (exact : IsExact (token :: tokens)) :
    ∀ value, token ≠ .leaf (.float value) := by
  rintro value rfl
  exact exact value List.mem_cons_self

theorem IsExact.tail {token : Token} {tokens : List Token} (exact : IsExact (token :: tokens)) :
    IsExact tokens :=
  fun value member => exact value (List.mem_cons_of_mem _ member)

variable (real : Text → Binary64)

theorem leafSpelling_text (content : Text) : LeafSpelling real (.text content) (quoted content) := by
  have each : List.Forall₂ CharSpelling content (content.map escape) := by
    rw [List.forall₂_map_right_iff, List.forall₂_same]
    exact fun c _ => charSpelling_escape c
  rw [quoted, List.flatMap_def]
  exact .text each

theorem leafSpelling_int (n : Int) : LeafSpelling real (.int n) (intText n) := by
  have spells : LeafSpelling real (.int (signedNumber (decide (n < 0)) (natText n.natAbs)))
      (minus (decide (n < 0)) ++ natText n.natAbs) := .int (isWhole_natText n.natAbs)
  rw [signedNumber_natText, ← intText_eq] at spells
  exact spells

theorem tokenSpelling_print {token : Token} (other : ∀ value, token ≠ .leaf (.float value)) :
    TokenSpelling real token token.print := by
  cases token with
  | mark m => exact .mark m
  | leaf content =>
    refine .leaf ?_
    cases content with
    | null => exact .null
    | bool value =>
      cases value with
      | true => exact .true
      | false => exact .false
    | int n => exact leafSpelling_int real n
    | float value => exact absurd rfl (other value)
    | text content => exact leafSpelling_text real content

theorem spells_flatMap_print {tokens : List Token} (exact : IsExact tokens) :
    Spells real tokens (tokens.flatMap Token.print) := by
  induction tokens with
  | nil => exact .nil (by simp)
  | cons token tokens ih =>
    have noBlanks : ∀ c ∈ ([] : Text), isSpace c = true := by simp
    exact .cons noBlanks (tokenSpelling_print real exact.head) (ih exact.tail)

/-- A document without floating-point numbers is printed as a text that stands for it. -/
theorem denotes_print {document : Json} (exact : IsExact document.tokens) :
    Denotes real document.print document := by
  rw [Denotes, print_eq]
  exact spells_flatMap_print real exact

end Tokens

section Visible

def IsVisible (text : Text) : Prop :=
  ∀ c ∈ text, 0x20 ≤ c.toNat

instance (text : Text) : Decidable (IsVisible text) :=
  List.decidableBAll (fun c : Char => 0x20 ≤ c.toNat) text

theorem isVisible_append {front behind : Text} :
    IsVisible (front ++ behind) ↔ IsVisible front ∧ IsVisible behind :=
  List.forall_mem_append

theorem isVisible_escape (c : Char) : IsVisible (escape c) := by
  have digits : ∀ n < 0x20,
      IsVisible ['\\', 'u', '0', '0', hexDigit (n / 16), hexDigit (n % 16)] := by
    decide
  unfold escape
  split_ifs with special newline carriage tab backspace feed control
  · rcases special with rfl | rfl <;> decide
  · decide
  · decide
  · decide
  · decide
  · decide
  · exact digits _ control
  · intro d same
    rw [List.mem_singleton.1 same]
    exact Nat.le_of_not_lt control

theorem isVisible_quoted (content : Text) : IsVisible (quoted content) := by
  rw [quoted, isVisible_append]
  refine ⟨?_, by decide⟩
  intro c member
  rcases List.mem_cons.1 member with rfl | inside
  · decide
  · obtain ⟨d, _, escaped⟩ := List.mem_flatMap.1 inside
    exact isVisible_escape d c escaped

theorem isVisible_intText (n : Int) : IsVisible (intText n) := by
  rw [intText_eq, isVisible_append]
  constructor
  · cases decide (n < 0) <;> decide
  · intro c member
    have digit : c.isDigit = true := isDigit_of_mem_natText member
    rw [Char.isDigit, Bool.and_eq_true, decide_eq_true_eq] at digit
    have least : 48 ≤ c.toNat := digit.1
    omega

theorem Token.isVisible_print {token : Token} (other : ∀ value, token ≠ .leaf (.float value)) :
    IsVisible token.print := by
  cases token with
  | mark m =>
    cases m <;> decide
  | leaf l =>
    cases l with
    | null => decide
    | bool value => cases value <;> decide
    | int value => exact isVisible_intText value
    | float value => exact absurd rfl (other value)
    | text value => exact isVisible_quoted value

theorem isVisible_print {document : Json} (exact : IsExact document.tokens) :
    IsVisible document.print := by
  rw [print_eq]
  intro c member
  obtain ⟨token, among, inside⟩ := List.mem_flatMap.1 member
  have other (value : Binary64) : token ≠ .leaf (.float value) := by
    rintro rfl
    exact exact value among
  exact Token.isVisible_print other c inside

end Visible

end Json

end Stencil
