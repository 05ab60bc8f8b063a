import Stencil.Proofs.Template.Offsets
import Stencil.Proofs.Template.Seeking

/-!
Parsing parts of a source.  A part is parsed where it stands: the source is searched between two offsets,
and places and excerpts are those of the whole source.  Nothing outside the part has an effect on what is
found in it, so the part stands for what its text alone stands for, up to the places.
-/

set_option autoImplicit false
set_option relaxedAutoImplicit false

namespace Stencil

def Attempt.changed {ε δ α β : Type} (onNotice : Notice → Notice) (onFailure : ε → δ)
    (onValue : α → β) (work : Attempt ε α) : Attempt δ β :=
  ExceptT.mk ⟨work.run.notices.map onNotice,
    match work.run.value with
    | .ok value => .ok (onValue value)
    | .error failure => .error (onFailure failure)⟩

namespace Attempt

variable {ε δ α β γ η : Type} {onNotice : Notice → Notice} {onFailure : ε → δ}
variable {onValue : α → β} {onResult : γ → η}

theorem changed_pure (value : α) :
    (pure value : Attempt ε α).changed onNotice onFailure onValue = pure (onValue value) := rfl

theorem changed_throw (failure : ε) :
    (throw failure : Attempt ε α).changed onNotice onFailure onValue = throw (onFailure failure) :=
  rfl

theorem changed_note (notice : Notice) :
    (note notice : Attempt ε Unit).changed onNotice onFailure id = note (onNotice notice) := rfl

theorem changed_bind {work : Attempt ε α} {next : α → Attempt ε γ} {next' : β → Attempt δ η}
    (onwards : ∀ value, (next value).changed onNotice onFailure onResult = next' (onValue value)) :
    (work >>= next).changed onNotice onFailure onResult =
      work.changed onNotice onFailure onValue >>= next' := by
  apply ExceptT.ext
  cases ended : work.run.value with
  | ok value =>
    have changed : (work.changed onNotice onFailure onValue).run.value = .ok (onValue value) := by
      rw [Attempt.changed, ExceptT.run_mk, ended]
    rw [run_bind_of_ok _ changed, ← onwards, Attempt.changed, ExceptT.run_mk, run_bind_of_ok _ ended,
      List.map_append]
    rfl
  | error failure =>
    have changed : (work.changed onNotice onFailure onValue).run.value =
        .error (onFailure failure) := by
      rw [Attempt.changed, ExceptT.run_mk, ended]
    rw [run_bind_of_error _ changed, Attempt.changed, ExceptT.run_mk, run_bind_of_error _ ended]
    rfl

theorem changed_note_bind (notice : Notice) (next : Unit → Attempt ε α) :
    (note notice >>= next).changed onNotice onFailure onValue =
      note (onNotice notice) >>= fun _ => (next ()).changed onNotice onFailure onValue := by
  rw [← changed_note]
  exact changed_bind fun _ => rfl

end Attempt

def Notice.moved (move : Position → Position) : Notice → Notice
  | unterminated template place => unterminated template (move place)
  | unmatched template place kind content => unmatched template (move place) kind content
  | stray template place content => stray template (move place) content
  | other => other

namespace Node

mutual

def moved (move : Position → Position) : Node → Node
  | literal place content => literal (move place) content
  | reference place path => reference (move place) path
  | block kind place path body => block kind (move place) path (allMoved move body)

def allMoved (move : Position → Position) : List Node → List Node
  | [] => []
  | node :: nodes => moved move node :: allMoved move nodes

end

theorem allMoved_append (move : Position → Position) (first rest : List Node) :
    allMoved move (first ++ rest) = allMoved move first ++ allMoved move rest := by
  induction first with
  | nil => rfl
  | cons node first ih => rw [List.cons_append, allMoved, allMoved, ih, List.cons_append]

theorem allMoved_ofLiteral (move : Position → Position) (place : Position) (content : Text) :
    allMoved move (ofLiteral place content) = ofLiteral (move place) content := by
  rw [ofLiteral, ofLiteral]
  split <;> rfl

def literalPart (source : Text) (start stop : Nat) : List Node :=
  if start < stop then [literal (.ofOffset source start) (source.between start stop)] else []

/-- The body that a part of a source stands for, with `depth` blocks around it, when blocks may nest
`limit` levels deep. -/
def ofPart (name : Option Text) (limit : Int) (source : Text) (depth : Int) (start stop : Nat) :
    Attempt NestingExceeded (List Node) :=
  match _opens : Text.find? Tag.opener (source.take stop) start with
  | none => pure (literalPart source start stop)
  | some first =>
    match _closes : Text.find? Tag.closer (source.take stop) (first + Tag.opener.length) with
    | none => do
      Attempt.note (.unterminated name (.ofOffset source first))
      pure (literalPart source start stop)
    | some last => do
      let place := Position.ofOffset source first
      let content := Text.trim (source.between (first + Tag.opener.length) last)
      let past := last + Tag.closer.length
      match Tag.ofContent content with
      | .reference => do
        let others ← ofPart name limit source depth past stop
        pure (literalPart source start first ++ reference place content :: others)
      | .closing _ => do
        Attempt.note (.stray name place content)
        let others ← ofPart name limit source depth past stop
        pure (literalPart source start first ++ others)
      | .opening kind =>
        match _ends : kind.seek? source stop 0 past with
        | none => do
          Attempt.note (.unmatched name place kind content)
          let others ← ofPart name limit source depth past stop
          pure (literalPart source start first ++ reference place content :: others)
        | some close =>
          if limit ≤ depth then throw (NestingExceeded.ofPlace name limit source place)
          else do
            let body ← ofPart name limit source (depth + 1) past close
            let others ← ofPart name limit source depth (close + kind.closer.length) stop
            pure (literalPart source start first ++
              block kind place (kind.pathIn content) body :: others)
termination_by stop - start
decreasing_by
  all_goals
    have opens := Text.bounds_of_find?_take _opens
    have closes := Text.bounds_of_find?_take _closes
    have marks : Tag.opener.length = 2 ∧ Tag.closer.length = 2 := ⟨rfl, rfl⟩
  · omega
  · omega
  · omega
  · have ends := BlockKind.bounds_of_seek? _ends
    have closed := kind.length_closer_pos
    omega
  · have ends := BlockKind.bounds_of_seek? _ends
    have closed := kind.length_closer_pos
    omega

section Equations

variable {name : Option Text} {limit depth : Int} {source content : Text}
variable {start stop first last close : Nat} {kind : BlockKind}

theorem ofPart_plain (opens : Text.find? Tag.opener (source.take stop) start = none) :
    ofPart name limit source depth start stop = pure (literalPart source start stop) := by
  rw [ofPart]
  split <;> simp_all

theorem ofPart_unterminated (opens : Text.find? Tag.opener (source.take stop) start = some first)
    (closes : Text.find? Tag.closer (source.take stop) (first + Tag.opener.length) = none) :
    ofPart name limit source depth start stop = (do
      Attempt.note (.unterminated name (.ofOffset source first))
      pure (literalPart source start stop)) := by
  rw [ofPart]
  split
  · simp_all
  · next opens' =>
    cases opens.symm.trans opens'
    split <;> simp_all

theorem ofPart_tag (opens : Text.find? Tag.opener (source.take stop) start = some first)
    (closes : Text.find? Tag.closer (source.take stop) (first + Tag.opener.length) = some last)
    (between : source.between (first + Tag.opener.length) last = content) :
    ofPart name limit source depth start stop =
      match Tag.ofContent (Text.trim content) with
      | .reference => do
        let others ← ofPart name limit source depth (last + Tag.closer.length) stop
        pure (literalPart source start first ++
          reference (.ofOffset source first) (Text.trim content) :: others)
      | .closing _ => do
        Attempt.note (.stray name (.ofOffset source first) (Text.trim content))
        let others ← ofPart name limit source depth (last + Tag.closer.length) stop
        pure (literalPart source start first ++ others)
      | .opening kind =>
        match kind.seek? source stop 0 (last + Tag.closer.length) with
        | none => do
          Attempt.note (.unmatched name (.ofOffset source first) kind (Text.trim content))
          let others ← ofPart name limit source depth (last + Tag.closer.length) stop
          pure (literalPart source start first ++
            reference (.ofOffset source first) (Text.trim content) :: others)
        | some close =>
          if limit ≤ depth then
            throw (NestingExceeded.ofPlace name limit source (.ofOffset source first))
          else (do
            let body ← ofPart name limit source (depth + 1) (last + Tag.closer.length) close
            let others ← ofPart name limit source depth (close + kind.closer.length) stop
            pure (literalPart source start first ++ block kind (.ofOffset source first)
              (kind.pathIn (Text.trim content)) body :: others)) := by
  rw [ofPart]
  split
  · simp_all
  · next opens' =>
    cases opens.symm.trans opens'
    split
    · simp_all
    · next closes' =>
      cases closes.symm.trans closes'
      subst between
      dsimp only
      cases Tag.ofContent (Text.trim (source.between (first + Tag.opener.length) last)) with
      | reference => rfl
      | closing kind => rfl
      | opening kind =>
        dsimp only
        split <;> simp_all

end Equations

theorem literalPart_eq {source content : Text} {start : Nat}
    (part : source.between start (start + content.length) = content) :
    literalPart source start (start + content.length) = ofLiteral (.ofOffset source start) content := by
  rw [literalPart, ofLiteral, part]
  cases content with
  | nil => simp
  | cons c content => simp

theorem literalPart_all {source : Text} {start stop : Nat} (order : start ≤ stop)
    (inside : stop ≤ source.length) :
    literalPart source start stop =
      ofLiteral (.ofOffset source start) (source.between start stop) := by
  have length : (source.between start stop).length = stop - start := Text.length_between inside
  have part := @literalPart_eq source (source.between start stop) start
  rw [length, Nat.add_sub_cancel' order] at part
  exact part rfl

end Node

/-- Where the first tag of a part of a source lies: its marks are at the offsets `first` and `last`. -/
structure Front.LiesAt (source : Text) (start stop : Nat) (before content after : Text)
    (first last : Nat) : Prop where
  opens : Text.find? Tag.opener (source.take stop) start = some first
  closes : Text.find? Tag.closer (source.take stop) (first + Tag.opener.length) = some last
  first_eq : first = start + before.length
  past_eq : last + Tag.closer.length =
    start + (before ++ (Tag.opener ++ content ++ Tag.closer)).length
  before_eq : source.between start first = before
  content_eq : source.between (first + Tag.opener.length) last = content
  after_eq : source.between (last + Tag.closer.length) stop = after

namespace Front

variable {source before content after : Text} {start stop : Nat}

theorem LiesAt.bounds {first last : Nat}
    (lies : LiesAt source start stop before content after first last) :
    start < last + Tag.closer.length ∧ last + Tag.closer.length ≤ stop := by
  have opened := Text.bounds_of_find?_take lies.opens
  have closed := Text.bounds_of_find?_take lies.closes
  have positive : 0 < Tag.closer.length := by decide
  omega

theorem exists_liesAt (order : start ≤ stop) (inside : stop ≤ source.length)
    (front : ofText (source.between start stop) = .tag before content after) :
    ∃ first last, LiesAt source start stop before content after first last := by
  obtain ⟨rest, opens, closes⟩ := cuts_of_tag front
  have found := Text.find?_take_of_cut? order inside opens
  have bounds := Text.bounds_of_find?_take found
  have whole := Text.eq_append_of_cut? opens
  have behind := Text.between_of_eq_append whole
  rw [List.length_append, ← Nat.add_assoc] at behind
  rw [List.append_assoc] at whole
  rw [← behind] at closes
  have split := Text.eq_append_of_cut? closes
  have rest_eq := Text.between_of_eq_append split
  rw [List.length_append, ← Nat.add_assoc] at rest_eq
  rw [List.append_assoc] at split
  refine ⟨start + before.length, start + before.length + Tag.opener.length + content.length, found,
    Text.find?_take_of_cut? bounds.2 inside closes, rfl, ?_, Text.between_of_append whole,
    Text.between_of_append split, rest_eq⟩
  simp only [List.length_append, Nat.add_assoc]

theorem LiesAt.literalPart_eq {first last : Nat}
    (lies : LiesAt source start stop before content after first last) :
    Node.literalPart source start first = Node.ofLiteral (.ofOffset source start) before := by
  have before_eq := lies.before_eq
  rw [lies.first_eq] at before_eq ⊢
  exact Node.literalPart_eq before_eq

theorem find?_of_unterminated (order : start ≤ stop) (inside : stop ≤ source.length)
    (front : ofText (source.between start stop) = .unterminated before) :
    Text.find? Tag.opener (source.take stop) start = some (start + before.length) ∧
      Text.find? Tag.closer (source.take stop) (start + before.length + Tag.opener.length) =
        none := by
  obtain ⟨rest, whole, opens, never⟩ := eq_append_of_unterminated front
  have cut : Text.cut? Tag.opener (source.between start stop) = some (before, rest) := by
    rw [whole]
    exact Text.cut?_append (by decide) opens
  have found := Text.find?_take_of_cut? order inside cut
  have bounds := Text.bounds_of_find?_take found
  have behind := Text.between_of_eq_append whole
  rw [List.length_append, ← Nat.add_assoc] at behind
  refine ⟨found, Text.find?_take_of_cut?_eq_none bounds.2 inside ?_⟩
  rw [behind]
  exact Text.cut?_eq_none_iff.2 never

end Front

namespace BlockKind

variable {kind : BlockKind} {source inner rest : Text} {start stop : Nat}

theorem seek?_eq_none_of_inside? (order : start ≤ stop) (inside : stop ≤ source.length)
    (found : kind.inside? (source.between start stop) = none) :
    kind.seek? source stop 0 start = none := by
  rw [inside?] at found
  rw [seek?_eq_splitBlock? order inside, found, Option.map_none]

theorem seek?_of_inside? (order : start ≤ stop) (inside : stop ≤ source.length)
    (found : kind.inside? (source.between start stop) = some (inner, rest)) :
    kind.seek? source stop 0 start = some (start + inner.length) ∧
      source.between start (start + inner.length) = inner ∧
      source.between (start + inner.length + kind.closer.length) stop = rest := by
  have split := eq_append_of_inside? found
  have behind := Text.between_of_eq_append split
  rw [List.length_append, ← Nat.add_assoc] at behind
  rw [List.append_assoc] at split
  rw [inside?] at found
  refine ⟨?_, Text.between_of_append split, behind⟩
  rw [seek?_eq_splitBlock? order inside, found, Option.map_some]

end BlockKind

/-- Whether moving takes the places along a text to the places of a source from an offset on. -/
def Position.Carries (move : Position → Position) (place : Position) (text source : Text)
    (start : Nat) : Prop :=
  ∀ front, front <+: text → move (place.past front) = .ofOffset source (start + front.length)

namespace Position.Carries

variable {move : Position → Position} {place : Position} {text source first second : Text}
variable {start : Nat}

theorem at_start (carries : Carries move place text source start) :
    move place = .ofOffset source start :=
  carries [] List.nil_prefix

theorem of_prefix (carries : Carries move place text source start) (stretch : first <+: text) :
    Carries move place first source start :=
  fun front inside => carries front (inside.trans stretch)

theorem behind (carries : Carries move place text source start) (stretch : first ++ second <+: text) :
    Carries move (place.past first) second source (start + first.length) := by
  intro front inside
  have whole : first ++ front <+: text :=
    ((List.prefix_append_right_inj first).2 inside).trans stretch
  have moved := carries _ whole
  rwa [past_append, List.length_append, ← Nat.add_assoc] at moved

theorem at_tag {before content after : Text} {stop first last : Nat}
    (carries : Carries move place (source.between start stop) source start)
    (front : Front.ofText (source.between start stop) = .tag before content after)
    (lies : Front.LiesAt source start stop before content after first last) :
    move (place.past before) = .ofOffset source first := by
  rw [lies.first_eq]
  apply carries
  rw [Front.text_of_tag front]
  exact List.prefix_append _ _

theorem behind_tag {before content after : Text} {stop first last : Nat}
    (carries : Carries move place (source.between start stop) source start)
    (front : Front.ofText (source.between start stop) = .tag before content after)
    (lies : Front.LiesAt source start stop before content after first last) :
    Carries move (place.pastTag before content) after source (last + Tag.closer.length) := by
  rw [Position.pastTag, ← past_append, lies.past_eq]
  apply carries.behind
  rw [Front.text_of_tag front]
  simp only [List.append_assoc]
  exact List.prefix_rfl

theorem around_block {kind : BlockKind} {inner rest : Text}
    (carries : Carries move place text source start)
    (found : kind.inside? text = some (inner, rest)) :
    Carries move place inner source start ∧
      Carries move (place.past (inner ++ kind.closer)) rest source
        (start + inner.length + kind.closer.length) := by
  have split := BlockKind.eq_append_of_inside? found
  have body : inner <+: text := by
    rw [split, List.append_assoc]
    exact List.prefix_append _ _
  have rest_carries := carries.behind (by rw [split])
  rw [List.length_append, ← Nat.add_assoc] at rest_carries
  exact ⟨carries.of_prefix body, rest_carries⟩

end Position.Carries

namespace Node

variable {name : Option Text} {limit depth : Int} {source : Text} {start stop : Nat}
variable {move : Position → Position} {place : Position}

/-- What a text stands for with `depth` blocks around it, at the places of a source that `move` leads
to. -/
def ofTextMoved (name : Option Text) (limit : Int) (source : Text) (move : Position → Position)
    (depth : Int) (place : Position) (text : Text) : Attempt NestingExceeded (List Node) :=
  (ofText name (limit - depth) place text).changed (Notice.moved move)
    (fun place => NestingExceeded.ofPlace name limit source (move place)) (allMoved move)

theorem changed_bind_node {δ : Type} {onFailure : Position → δ}
    (work : Attempt Position (List Node)) (before : Text) (node : Node) :
    (do
      let others ← work
      pure (ofLiteral place before ++ node :: others) : Attempt Position (List Node)).changed
        (Notice.moved move) onFailure (allMoved move) = (do
      let others ← work.changed (Notice.moved move) onFailure (allMoved move)
      pure (ofLiteral (move place) before ++ moved move node :: others)) := by
  refine Attempt.changed_bind fun others => ?_
  rw [Attempt.changed_pure, allMoved_append, allMoved_ofLiteral, allMoved]

section Moved

variable {text before content after inner rest : Text} {kind : BlockKind}

theorem ofTextMoved_plain (front : Front.ofText text = .plain) :
    ofTextMoved name limit source move depth place text = pure (ofLiteral (move place) text) := by
  rw [ofTextMoved, ofText_plain front, Attempt.changed_pure, allMoved_ofLiteral]

theorem ofTextMoved_unterminated (front : Front.ofText text = .unterminated before) :
    ofTextMoved name limit source move depth place text = (do
      Attempt.note (.unterminated name (move (place.past before)))
      pure (ofLiteral (move place) text)) := by
  rw [ofTextMoved, ofText_unterminated front, Attempt.changed_note_bind, Attempt.changed_pure,
    allMoved_ofLiteral, Notice.moved]

theorem ofTextMoved_reference (front : Front.ofText text = .tag before content after)
    (tag : Tag.ofContent (Text.trim content) = .reference) :
    ofTextMoved name limit source move depth place text = (do
      let others ←
        ofTextMoved name limit source move depth (place.pastTag before content) after
      pure (ofLiteral (move place) before ++
        reference (move (place.past before)) (Text.trim content) :: others)) := by
  rw [ofTextMoved, ofText_reference front tag, changed_bind_node, moved]
  rfl

theorem ofTextMoved_stray (front : Front.ofText text = .tag before content after)
    (tag : Tag.ofContent (Text.trim content) = .closing kind) :
    ofTextMoved name limit source move depth place text = (do
      Attempt.note (.stray name (move (place.past before)) (Text.trim content))
      let others ←
        ofTextMoved name limit source move depth (place.pastTag before content) after
      pure (ofLiteral (move place) before ++ others)) := by
  rw [ofTextMoved, ofText_stray front tag, Attempt.changed_note_bind, Notice.moved]
  congr 1
  funext _
  refine Attempt.changed_bind fun others => ?_
  rw [Attempt.changed_pure, allMoved_append, allMoved_ofLiteral]

theorem ofTextMoved_unmatched (front : Front.ofText text = .tag before content after)
    (tag : Tag.ofContent (Text.trim content) = .opening kind) (never : kind.inside? after = none) :
    ofTextMoved name limit source move depth place text = (do
      Attempt.note (.unmatched name (move (place.past before)) kind (Text.trim content))
      let others ←
        ofTextMoved name limit source move depth (place.pastTag before content) after
      pure (ofLiteral (move place) before ++
        reference (move (place.past before)) (Text.trim content) :: others)) := by
  rw [ofTextMoved, ofText_unmatched front tag never, Attempt.changed_note_bind, Notice.moved,
    changed_bind_node, moved]
  rfl

theorem ofTextMoved_block (front : Front.ofText text = .tag before content after)
    (tag : Tag.ofContent (Text.trim content) = .opening kind)
    (found : kind.inside? after = some (inner, rest)) :
    ofTextMoved name limit source move depth place text =
      if limit ≤ depth then
        throw (NestingExceeded.ofPlace name limit source (move (place.past before)))
      else (do
        let body ←
          ofTextMoved name limit source move (depth + 1) (place.pastTag before content) inner
        let others ← ofTextMoved name limit source move depth
          ((place.pastTag before content).past (inner ++ kind.closer)) rest
        pure (ofLiteral (move place) before ++
          block kind (move (place.past before)) (kind.pathIn (Text.trim content)) body :: others)) := by
  rw [ofTextMoved, ofText_block front tag found]
  by_cases deep : limit ≤ depth
  · rw [if_pos deep, if_pos (by omega), Attempt.changed_throw]
  · have room : limit - depth - 1 = limit - (depth + 1) := by omega
    rw [if_neg deep, if_neg (by omega), room]
    refine Attempt.changed_bind fun body => ?_
    rw [changed_bind_node, moved]
    rfl

end Moved

/-- The body of a block and what follows the block are what their texts stand for, if this is known of
the parts in which they lie. -/
theorem exists_seek?_of_inside? {kind : BlockKind} {inner rest : Text} (order : start ≤ stop)
    (inside : stop ≤ source.length)
    (carries : Position.Carries move place (source.between start stop) source start)
    (found : kind.inside? (source.between start stop) = some (inner, rest))
    (known : ∀ {depth start' stop' place'}, start ≤ start' → start' ≤ stop' → stop' ≤ stop →
      Position.Carries move place' (source.between start' stop') source start' →
      ofPart name limit source depth start' stop' =
        ofTextMoved name limit source move depth place' (source.between start' stop')) :
    ∃ close, kind.seek? source stop 0 start = some close ∧
      ofPart name limit source (depth + 1) start close =
        ofTextMoved name limit source move (depth + 1) place inner ∧
      ofPart name limit source depth (close + kind.closer.length) stop =
        ofTextMoved name limit source move depth (place.past (inner ++ kind.closer)) rest := by
  obtain ⟨ends, inner_eq, rest_eq⟩ := BlockKind.seek?_of_inside? order inside found
  have bounds := BlockKind.bounds_of_seek? ends
  obtain ⟨body_carries, rest_carries⟩ := carries.around_block found
  refine ⟨start + inner.length, ends, ?_, ?_⟩
  · have body := @known (depth + 1) start (start + inner.length) place (Nat.le_refl _) bounds.1
      (by omega) (by rw [inner_eq]; exact body_carries)
    rwa [inner_eq] at body
  · have others := @known depth (start + inner.length + kind.closer.length) stop
      (place.past (inner ++ kind.closer)) (by omega) bounds.2 (Nat.le_refl _)
      (by rw [rest_eq]; exact rest_carries)
    rwa [rest_eq] at others

/-- A part of a source stands for what its text stands for, up to the places. -/
theorem ofPart_eq_ofTextMoved (order : start ≤ stop) (inside : stop ≤ source.length)
    (carries : Position.Carries move place (source.between start stop) source start) :
    ofPart name limit source depth start stop =
      ofTextMoved name limit source move depth place (source.between start stop) := by
  induction size : stop - start using Nat.strong_induction_on
    generalizing depth start stop place with
  | _ size' ih =>
  subst size
  have here := carries.at_start
  cases front : Front.ofText (source.between start stop) with
  | plain =>
    have opens := Text.find?_take_of_cut?_eq_none order inside
      (Text.cut?_eq_none_iff.2 (Front.ofText_eq_plain_iff.1 front))
    rw [ofPart_plain opens, ofTextMoved_plain front, here, literalPart_all order inside]
  | unterminated before =>
    obtain ⟨opens, closes⟩ := Front.find?_of_unterminated order inside front
    obtain ⟨rest, whole, -, -⟩ := Front.eq_append_of_unterminated front
    have there := carries before (by rw [whole, List.append_assoc]; exact List.prefix_append _ _)
    rw [ofPart_unterminated opens closes, ofTextMoved_unterminated front, here, there,
      literalPart_all order inside]
  | tag before content after =>
    obtain ⟨first, last, lies⟩ := Front.exists_liesAt order inside front
    have behind := carries.behind_tag front lies
    have there := carries.at_tag front lies
    have literal_eq := lies.literalPart_eq
    have bounds := lies.bounds
    have after_eq := lies.after_eq
    rw [ofPart_tag lies.opens lies.closes lies.content_eq, literal_eq]
    generalize last + Tag.closer.length = past at bounds behind after_eq ⊢
    subst after_eq
    have others : ofPart name limit source depth past stop = _ :=
      ih _ (by omega) bounds.2 inside behind rfl
    cases tag : Tag.ofContent (Text.trim content) with
    | reference => rw [ofTextMoved_reference front tag, here, there, others]
    | closing kind => rw [ofTextMoved_stray front tag, here, there, others]
    | opening kind =>
      dsimp only
      cases found : kind.inside? (source.between past stop) with
      | none =>
        rw [BlockKind.seek?_eq_none_of_inside? bounds.2 inside found,
          ofTextMoved_unmatched front tag found, here, there, others]
      | some parts =>
        obtain ⟨close, ends, body_eq, others_eq⟩ := exists_seek?_of_inside? bounds.2 inside behind found
          fun lower order' upper carries' =>
            ih _ (by omega) order' (upper.trans inside) carries' rfl
        rw [ends, ofTextMoved_block front tag found, here, there, ← body_eq, ← others_eq]

end Node

end Stencil
