import Stencil.Proofs.Attempt
import Stencil.Proofs.Text.Search
import Stencil.Template.Source

/-!
Readings of a text.  The front of a text decides how it is read: as literal text, or as a tag with what
stands before and after it.  A reading is a derivation along these cases, in which the inside of a block
and what follows the block are read in turn.  Parsing succeeds with some notices and some nodes exactly
when there is a reading that gives them.
-/

set_option autoImplicit false
set_option relaxedAutoImplicit false

namespace Stencil

namespace Front

variable {text before content after : Text}

theorem ofText_eq_plain_iff : ofText text = plain ↔ ¬ Tag.opener <:+: text := by
  rw [← Text.cut?_eq_none_iff]
  constructor
  · intro front
    simp only [ofText] at front
    split at front
    · assumption
    · split at front <;> cases front
  · intro absent
    simp only [ofText, absent]

theorem eq_append_of_unterminated (front : ofText text = unterminated before) :
    ∃ rest, text = before ++ Tag.opener ++ rest ∧ ¬ Tag.opener <:+: before ++ ['{'] ∧
      ¬ Tag.closer <:+: rest := by
  simp only [ofText] at front
  split at front
  · cases front
  · next rest cut =>
    split at front
    · next absent =>
      cases front
      exact ⟨rest, Text.eq_append_of_cut? cut, Text.not_infix_of_cut? (by decide) cut,
        Text.cut?_eq_none_iff.1 absent⟩
    · cases front

theorem cuts_of_tag (front : ofText text = tag before content after) :
    ∃ rest, Text.cut? Tag.opener text = some (before, rest) ∧
      Text.cut? Tag.closer rest = some (content, after) := by
  simp only [ofText] at front
  split at front
  · cases front
  · next rest opens =>
    split at front
    · cases front
    · next closes =>
      cases front
      exact ⟨rest, opens, closes⟩

theorem opener_first_of_tag (front : ofText text = tag before content after) :
    ¬ Tag.opener <:+: before ++ ['{'] := by
  obtain ⟨rest, opens, -⟩ := cuts_of_tag front
  exact Text.not_infix_of_cut? (by decide) opens

theorem closer_first_of_tag (front : ofText text = tag before content after) :
    ¬ Tag.closer <:+: content ++ ['}'] := by
  obtain ⟨rest, -, closes⟩ := cuts_of_tag front
  exact Text.not_infix_of_cut? (by decide) closes

theorem ofText_append (opens : ¬ Tag.opener <:+: before ++ ['{'])
    (closes : ¬ Tag.closer <:+: content ++ ['}']) :
    ofText (before ++ Tag.opener ++ (content ++ Tag.closer ++ after)) =
      tag before content after := by
  have first : Text.cut? Tag.opener (before ++ Tag.opener ++ (content ++ Tag.closer ++ after)) =
      some (before, content ++ Tag.closer ++ after) := Text.cut?_append (by decide) opens
  have second : Text.cut? Tag.closer (content ++ Tag.closer ++ after) = some (content, after) :=
    Text.cut?_append (by decide) closes
  simp only [ofText, first, second]

end Front

namespace Tag

variable {content : Text} {kind : BlockKind}

theorem ofContent_eq_opening_iff : ofContent content = .opening kind ↔ kind.directive <+: content := by
  constructor
  · intro tag
    simp only [ofContent] at tag
    split at tag
    · next named =>
      cases tag
      exact List.isPrefixOf_iff_prefix.1 named
    · split at tag
      · next named =>
        cases tag
        exact List.isPrefixOf_iff_prefix.1 named
      · split at tag <;> cases tag
  · rintro ⟨rest, rfl⟩
    cases kind with
    | condition => rfl
    | iteration => rfl

theorem head?_of_opening (tag : ofContent content = .opening kind) :
    content.head? ≠ some '/' := by
  obtain ⟨rest, rfl⟩ := ofContent_eq_opening_iff.1 tag
  simp [BlockKind.directive]

theorem head?_of_closing (tag : ofContent content = .closing kind) : content.head? = some '/' := by
  simp only [ofContent] at tag
  split at tag
  · cases tag
  · split at tag
    · cases tag
    · split at tag
      · next slash =>
        obtain ⟨rest, rfl⟩ := List.isPrefixOf_iff_prefix.1 slash
        rfl
      · cases tag

theorem ofContent_eq_reference_iff :
    ofContent content = .reference ↔
      (∀ kind : BlockKind, ¬ kind.directive <+: content) ∧ content.head? ≠ some '/' := by
  constructor
  · intro tag
    have unnamed : ∀ kind : BlockKind, ¬ kind.directive <+: content := by
      intro kind named
      rw [ofContent_eq_opening_iff.2 named] at tag
      cases tag
    refine ⟨unnamed, ?_⟩
    intro slash
    obtain ⟨rest, rfl⟩ := List.head?_eq_some_iff.1 slash
    simp only [ofContent] at tag
    split at tag
    · cases tag
    · split at tag
      · cases tag
      · rw [if_pos (by rfl)] at tag
        cases tag
  · rintro ⟨unnamed, no_slash⟩
    rw [ofContent, if_neg, if_neg, if_neg]
    · intro slash
      obtain ⟨rest, rfl⟩ := List.isPrefixOf_iff_prefix.1 slash
      exact no_slash rfl
    · rw [List.isPrefixOf_iff_prefix]
      exact unnamed .iteration
    · rw [List.isPrefixOf_iff_prefix]
      exact unnamed .condition

end Tag

def Tag.written (content : String) : Text :=
  opener ++ content.toList ++ closer

def BlockKind.pathIn (kind : BlockKind) (content : Text) : Text :=
  Text.trim (content.drop kind.directive.length)

theorem BlockKind.pathIn_directive {kind : BlockKind} {rest : Text} :
    kind.pathIn (kind.directive ++ rest) = Text.trim rest := by
  rw [pathIn, List.drop_left]

def Position.pastTag (place : Position) (before content : Text) : Position :=
  (place.past before).past (Tag.opener ++ content ++ Tag.closer)

/-- The ways to read a text that begins at a place while blocks may nest `room` levels deep: the notices
given and the nodes it stands for. -/
inductive Reading (name : Option Text) : Int → Position → Text → List Notice → List Node → Prop
  | plain {room : Int} {place : Position} {text : Text} (front : Front.ofText text = .plain) :
    Reading name room place text [] (Node.ofLiteral place text)
  | unterminated {room : Int} {place : Position} {text before : Text}
    (front : Front.ofText text = .unterminated before) :
    Reading name room place text [.unterminated name (place.past before)]
      (Node.ofLiteral place text)
  | reference {room : Int} {place : Position} {text before content after : Text}
    {notices : List Notice} {nodes : List Node}
    (front : Front.ofText text = .tag before content after)
    (tag : Tag.ofContent (Text.trim content) = .reference)
    (others : Reading name room (place.pastTag before content) after notices nodes) :
    Reading name room place text notices
      (Node.ofLiteral place before ++ .reference (place.past before) (Text.trim content) :: nodes)
  | stray {room : Int} {place : Position} {text before content after : Text} {kind : BlockKind}
    {notices : List Notice} {nodes : List Node}
    (front : Front.ofText text = .tag before content after)
    (tag : Tag.ofContent (Text.trim content) = .closing kind)
    (others : Reading name room (place.pastTag before content) after notices nodes) :
    Reading name room place text (.stray name (place.past before) (Text.trim content) :: notices)
      (Node.ofLiteral place before ++ nodes)
  | unmatched {room : Int} {place : Position} {text before content after : Text} {kind : BlockKind}
    {notices : List Notice} {nodes : List Node}
    (front : Front.ofText text = .tag before content after)
    (tag : Tag.ofContent (Text.trim content) = .opening kind)
    (inside : kind.inside? after = none)
    (others : Reading name room (place.pastTag before content) after notices nodes) :
    Reading name room place text
      (.unmatched name (place.past before) kind (Text.trim content) :: notices)
      (Node.ofLiteral place before ++ .reference (place.past before) (Text.trim content) :: nodes)
  | block {room : Int} {place : Position} {text before content after inner rest : Text}
    {kind : BlockKind} {notices notices' : List Notice} {body nodes : List Node}
    (front : Front.ofText text = .tag before content after)
    (tag : Tag.ofContent (Text.trim content) = .opening kind)
    (inside : kind.inside? after = some (inner, rest))
    (deep : 0 < room)
    (inwards : Reading name (room - 1) (place.pastTag before content) inner notices body)
    (others : Reading name room ((place.pastTag before content).past (inner ++ kind.closer)) rest
      notices' nodes) :
    Reading name room place text (notices ++ notices')
      (Node.ofLiteral place before ++
        .block kind (place.past before) (kind.pathIn (Text.trim content)) body :: nodes)

namespace Node

variable {name : Option Text} {room : Int} {place : Position}
variable {text before content after inner rest : Text} {kind : BlockKind}

theorem ofText_plain (front : Front.ofText text = .plain) :
    ofText name room place text = pure (ofLiteral place text) := by
  rw [ofText]
  split <;> simp_all

theorem ofText_unterminated (front : Front.ofText text = .unterminated before) :
    ofText name room place text = (do
      Attempt.note (.unterminated name (place.past before))
      pure (ofLiteral place text)) := by
  rw [ofText]
  split <;> simp_all

theorem ofText_reference (front : Front.ofText text = .tag before content after)
    (tag : Tag.ofContent (Text.trim content) = .reference) :
    ofText name room place text = (do
      let others ← ofText name room (place.pastTag before content) after
      pure (ofLiteral place before ++
        .reference (place.past before) (Text.trim content) :: others)) := by
  rw [ofText]
  split
  · simp_all
  · simp_all
  · next front' =>
    obtain ⟨rfl, rfl, rfl⟩ := Front.tag.inj (front.symm.trans front')
    simp only [tag]
    rfl

theorem ofText_stray (front : Front.ofText text = .tag before content after)
    (tag : Tag.ofContent (Text.trim content) = .closing kind) :
    ofText name room place text = (do
      Attempt.note (.stray name (place.past before) (Text.trim content))
      let others ← ofText name room (place.pastTag before content) after
      pure (ofLiteral place before ++ others)) := by
  rw [ofText]
  split
  · simp_all
  · simp_all
  · next front' =>
    obtain ⟨rfl, rfl, rfl⟩ := Front.tag.inj (front.symm.trans front')
    simp only [tag]
    rfl

theorem ofText_unmatched (front : Front.ofText text = .tag before content after)
    (tag : Tag.ofContent (Text.trim content) = .opening kind) (inside : kind.inside? after = none) :
    ofText name room place text = (do
      Attempt.note (.unmatched name (place.past before) kind (Text.trim content))
      let others ← ofText name room (place.pastTag before content) after
      pure (ofLiteral place before ++
        .reference (place.past before) (Text.trim content) :: others)) := by
  rw [ofText]
  split
  · simp_all
  · simp_all
  · next front' =>
    obtain ⟨rfl, rfl, rfl⟩ := Front.tag.inj (front.symm.trans front')
    simp only [tag]
    split
    · rfl
    · simp_all

theorem ofText_block (front : Front.ofText text = .tag before content after)
    (tag : Tag.ofContent (Text.trim content) = .opening kind)
    (inside : kind.inside? after = some (inner, rest)) :
    ofText name room place text =
      if room ≤ 0 then throw (place.past before)
      else (do
        let body ← ofText name (room - 1) (place.pastTag before content) inner
        let others ←
          ofText name room ((place.pastTag before content).past (inner ++ kind.closer)) rest
        pure (ofLiteral place before ++
          .block kind (place.past before) (kind.pathIn (Text.trim content)) body :: others)) := by
  rw [ofText]
  split
  · simp_all
  · simp_all
  · next front' =>
    obtain ⟨rfl, rfl, rfl⟩ := Front.tag.inj (front.symm.trans front')
    simp only [tag]
    split
    · simp_all
    · next inside' =>
      obtain ⟨rfl, rfl⟩ := Prod.mk.inj (Option.some.inj (inside.symm.trans inside'))
      rfl

theorem run_ofText_of_reading {notices : List Notice} {nodes : List Node}
    (reading : Reading name room place text notices nodes) :
    (ofText name room place text).run = ⟨notices, .ok nodes⟩ := by
  induction reading with
  | plain front => rw [ofText_plain front, Attempt.run_pure_eq_ok_iff]; exact ⟨rfl, rfl⟩
  | unterminated front =>
    rw [ofText_unterminated front, Attempt.run_note_bind_eq_ok_iff]
    exact ⟨[], rfl, rfl⟩
  | reference front tag _ ih =>
    rw [ofText_reference front tag, Attempt.run_bind_eq_ok_iff]
    exact ⟨_, _, [], ih, rfl, (List.append_nil _).symm⟩
  | stray front tag _ ih =>
    rw [ofText_stray front tag, Attempt.run_note_bind_eq_ok_iff]
    refine ⟨_, ?_, rfl⟩
    rw [Attempt.run_bind_eq_ok_iff]
    exact ⟨_, _, [], ih, rfl, (List.append_nil _).symm⟩
  | unmatched front tag inside _ ih =>
    rw [ofText_unmatched front tag inside, Attempt.run_note_bind_eq_ok_iff]
    refine ⟨_, ?_, rfl⟩
    rw [Attempt.run_bind_eq_ok_iff]
    exact ⟨_, _, [], ih, rfl, (List.append_nil _).symm⟩
  | block front tag inside deep _ _ body_ih others_ih =>
    rw [ofText_block front tag inside, if_neg (by omega), Attempt.run_bind_eq_ok_iff]
    refine ⟨_, _, _, body_ih, ?_, rfl⟩
    rw [Attempt.run_bind_eq_ok_iff]
    exact ⟨_, _, [], others_ih, rfl, (List.append_nil _).symm⟩

theorem reading_of_run_ofText {notices : List Notice} {nodes : List Node}
    (parsed : (ofText name room place text).run = ⟨notices, .ok nodes⟩) :
    Reading name room place text notices nodes := by
  induction hn : text.length using Nat.strong_induction_on
    generalizing room place text notices nodes with
  | _ n ih =>
  subst hn
  cases front : Front.ofText text with
  | plain =>
    rw [ofText_plain front, Attempt.run_pure_eq_ok_iff] at parsed
    obtain ⟨rfl, rfl⟩ := parsed
    exact .plain front
  | unterminated before =>
    rw [ofText_unterminated front, Attempt.run_note_bind_eq_ok_iff] at parsed
    obtain ⟨_, h, rfl⟩ := parsed
    cases h
    exact .unterminated front
  | tag before content after =>
    have shorter := Front.length_lt_of_tag front
    cases tag : Tag.ofContent (Text.trim content) with
    | reference =>
      rw [ofText_reference front tag, Attempt.run_bind_eq_ok_iff] at parsed
      obtain ⟨_, _, _, others, h, rfl⟩ := parsed
      cases h
      rw [List.append_nil]
      exact .reference front tag (ih _ shorter others rfl)
    | closing kind =>
      rw [ofText_stray front tag, Attempt.run_note_bind_eq_ok_iff] at parsed
      obtain ⟨_, parsed, rfl⟩ := parsed
      rw [Attempt.run_bind_eq_ok_iff] at parsed
      obtain ⟨_, _, _, others, h, rfl⟩ := parsed
      cases h
      rw [List.append_nil]
      exact .stray front tag (ih _ shorter others rfl)
    | opening kind =>
      cases inside : kind.inside? after with
      | none =>
        rw [ofText_unmatched front tag inside, Attempt.run_note_bind_eq_ok_iff] at parsed
        obtain ⟨_, parsed, rfl⟩ := parsed
        rw [Attempt.run_bind_eq_ok_iff] at parsed
        obtain ⟨_, _, _, others, h, rfl⟩ := parsed
        cases h
        rw [List.append_nil]
        exact .unmatched front tag inside (ih _ shorter others rfl)
      | some parts =>
        obtain ⟨inner, rest⟩ := parts
        rw [ofText_block front tag inside] at parsed
        split at parsed
        · cases parsed
        · next deep =>
          rw [Attempt.run_bind_eq_ok_iff] at parsed
          obtain ⟨_, _, _, inwards, parsed, rfl⟩ := parsed
          rw [Attempt.run_bind_eq_ok_iff] at parsed
          obtain ⟨_, _, _, others, h, rfl⟩ := parsed
          cases h
          rw [List.append_nil]
          exact .block front tag inside (by omega)
            (ih _ ((BlockKind.length_inner_lt inside).trans shorter) inwards rfl)
            (ih _ ((BlockKind.length_rest_lt inside).trans shorter) others rfl)

theorem run_ofText_eq_ok_iff {notices : List Notice} {nodes : List Node} :
    (ofText name room place text).run = ⟨notices, .ok nodes⟩ ↔
      Reading name room place text notices nodes :=
  ⟨reading_of_run_ofText, run_ofText_of_reading⟩

end Node

namespace Template

variable {name : Option Text} {limit : Int} {source : Text} {template : Template}

theorem run_ofSource_eq_ok_iff {notices : List Notice} :
    (ofSource name limit source).run = ⟨notices, .ok template⟩ ↔
      template.name = name ∧ Reading name limit .start source notices template.body := by
  rw [ofSource, Attempt.run_bind_eq_ok_iff, ← Node.run_ofText_eq_ok_iff]
  constructor
  · rintro ⟨before, body, after, parsed, made, rfl⟩
    cases made
    have outcome := congrArg Logged.value parsed
    have noted := congrArg Logged.notices parsed
    rw [Attempt.outcome_adapt] at outcome
    rw [Attempt.notices_adapt] at noted
    refine ⟨rfl, Logged.ext ?_ ?_⟩
    · rw [List.append_nil]
      exact noted
    · cases value : (Node.ofText name limit .start source).run.value with
      | error place => rw [value] at outcome; cases outcome
      | ok nodes => rw [value] at outcome; cases outcome; rfl
  · rintro ⟨rfl, parsed⟩
    refine ⟨notices, template.body, [], Logged.ext ?_ ?_, rfl, (List.append_nil _).symm⟩
    · rw [Attempt.notices_adapt, parsed]
    · rw [Attempt.outcome_adapt, parsed]
      rfl

theorem reading_of_ofSource (parsed : (ofSource name limit source).run.value = .ok template) :
    Reading name limit .start source (ofSource name limit source).run.notices template.body :=
  (run_ofSource_eq_ok_iff.1 (Logged.ext rfl parsed)).2

end Template

end Stencil
