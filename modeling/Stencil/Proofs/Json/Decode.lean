import Stencil.Proofs.Json.Spelled

/-!
Decoding of structured text.  An automaton takes the tokens of a text one after another.  It keeps the
arrays and objects that are still open with what they hold, and knows what may come next, so that at
every moment the tokens taken can be told from it.  Whatever is decoded is therefore well-formed and
stands for the document that comes out.
-/

set_option autoImplicit false
set_option relaxedAutoImplicit false

namespace Stencil

namespace Json

/-- An array or an object that is still open, with what it holds before the value that comes next. -/
inductive Level
  | array (items : List Json)
  | object (members : List (Text × Json)) (key : Text)

/-- What may come next. -/
inductive Expected
  | value
  /-- An item or the end of an array. -/
  | firstItem
  /-- A key or the end of an object. -/
  | firstMember
  | key (members : List (Text × Json))
  | colon (members : List (Text × Json)) (key : Text)
  /-- A comma, the end of what is open, or nothing, after a value. -/
  | ending (value : Json)

/-- How far decoding has come: what is open, from the innermost on, and what may come next. -/
structure Progress where
  levels : List Level
  expected : Expected

namespace Progress

def begin (levels : List Level) : Token → Option Progress
  | .leaf leaf => some ⟨levels, .ending leaf.document⟩
  | .mark .openArray => some ⟨levels, .firstItem⟩
  | .mark .openObject => some ⟨levels, .firstMember⟩
  | _ => none

def step : Progress → Token → Option Progress
  | ⟨levels, .value⟩, token => begin levels token
  | ⟨levels, .firstItem⟩, .mark .closeArray => some ⟨levels, .ending (.array [])⟩
  | ⟨levels, .firstItem⟩, token => begin (.array [] :: levels) token
  | ⟨levels, .firstMember⟩, .mark .closeObject => some ⟨levels, .ending (.object [])⟩
  | ⟨levels, .firstMember⟩, .leaf (.text key) => some ⟨levels, .colon [] key⟩
  | ⟨levels, .key members⟩, .leaf (.text key) => some ⟨levels, .colon members key⟩
  | ⟨levels, .colon members key⟩, .mark .colon => some ⟨.object members key :: levels, .value⟩
  | ⟨.array items :: levels, .ending value⟩, .mark .comma =>
    some ⟨.array (items ++ [value]) :: levels, .value⟩
  | ⟨.array items :: levels, .ending value⟩, .mark .closeArray =>
    some ⟨levels, .ending (.array (items ++ [value]))⟩
  | ⟨.object members key :: levels, .ending value⟩, .mark .comma =>
    some ⟨levels, .key (members ++ [(key, value)])⟩
  | ⟨.object members key :: levels, .ending value⟩, .mark .closeObject =>
    some ⟨levels, .ending (.object (members ++ [(key, value)]))⟩
  | _, _ => none

def run (progress : Progress) : List Token → Option Progress
  | [] => some progress
  | token :: tokens => (progress.step token).bind fun next => next.run tokens

end Progress

def ofTokens? (tokens : List Token) : Option Json :=
  match (Progress.mk [] .value).run tokens with
  | some ⟨[], .ending document⟩ => some document
  | _ => none

/-- The document that a text stands for, where `real` reads numbers with a fraction or an exponent. -/
def decode? (real : Text → Binary64) (source : Text) : Option Json :=
  (readTokens? real source).bind ofTokens?

def itemsBefore (items : List Json) : List Token :=
  items.flatMap fun item => item.tokens ++ [.mark .comma]

def membersBefore (members : List (Text × Json)) : List Token :=
  members.flatMap fun member => memberToken member ++ [.mark .comma]

theorem itemTokens_concat (items : List Json) (value : Json) :
    itemTokens (items ++ [value]) = itemsBefore items ++ value.tokens := by
  induction items with
  | nil => exact List.append_nil _
  | cons item items ih =>
    have more : moreItemTokens (items ++ [value]) = .mark .comma :: itemTokens (items ++ [value]) := by
      cases items <;> rfl
    rw [List.cons_append, itemTokens, more, ih, itemsBefore, itemsBefore, List.flatMap_cons]
    simp only [List.append_assoc, List.cons_append, List.nil_append]

theorem memberTokens_concat (members : List (Text × Json)) (member : Text × Json) :
    memberTokens (members ++ [member]) = membersBefore members ++ memberToken member := by
  induction members with
  | nil => exact List.append_nil _
  | cons first members ih =>
    have more : moreMemberTokens (members ++ [member]) =
        .mark .comma :: memberTokens (members ++ [member]) := by
      cases members <;> rfl
    rw [List.cons_append, memberTokens, more, ih, membersBefore, membersBefore, List.flatMap_cons]
    simp only [List.append_assoc, List.cons_append, List.nil_append]

def Level.taken : Level → List Token
  | array items => .mark .openArray :: itemsBefore items
  | object members key =>
    .mark .openObject :: membersBefore members ++ [.leaf (.text key), .mark .colon]

def Expected.taken : Expected → List Token
  | .value => []
  | .firstItem => [.mark .openArray]
  | .firstMember => [.mark .openObject]
  | .key members => .mark .openObject :: membersBefore members
  | .colon members name => .mark .openObject :: membersBefore members ++ [.leaf (.text name)]
  | .ending document => document.tokens

namespace Progress

def taken (progress : Progress) : List Token :=
  progress.levels.reverse.flatMap Level.taken ++ progress.expected.taken

theorem taken_cons (level : Level) (levels : List Level) (expected : Expected) :
    (Progress.mk (level :: levels) expected).taken =
      levels.reverse.flatMap Level.taken ++ (level.taken ++ expected.taken) := by
  simp [taken]

theorem tokens_document (leaf : Leaf) : leaf.document.tokens = [.leaf leaf] := by
  cases leaf <;> rfl

theorem taken_begin {levels : List Level} {token : Token} {next : Progress}
    (began : begin levels token = some next) :
    next.taken = levels.reverse.flatMap Level.taken ++ [token] := by
  rw [begin.eq_def] at began
  split at began
  · next leaf =>
    cases began
    rw [taken, Expected.taken, tokens_document]
  · cases began
    rfl
  · cases began
    rfl
  · cases began

theorem taken_step {progress next : Progress} {token : Token}
    (stepped : progress.step token = some next) : next.taken = progress.taken ++ [token] := by
  rw [step.eq_def] at stepped
  -- One case for each line of `step`: a value; the end of an array or its first item; the end of an
  -- object or its first key; a later key; a colon; a comma or the end after an item, and after a member.
  split at stepped
  · rw [taken_begin stepped, taken, Expected.taken, List.append_nil]
  · cases stepped
    rw [taken, taken, List.append_assoc]
    rfl
  · rw [taken_begin stepped]
    simp [taken, Level.taken, Expected.taken, itemsBefore]
  · cases stepped
    rw [taken, taken, List.append_assoc]
    rfl
  · cases stepped
    rw [taken, taken, List.append_assoc]
    rfl
  · cases stepped
    rw [taken, taken, List.append_assoc]
    rfl
  · cases stepped
    rw [taken_cons, taken, List.append_assoc, Level.taken, Expected.taken, Expected.taken]
    simp
  · cases stepped
    rw [taken_cons, taken_cons, List.append_assoc, Level.taken, Level.taken, Expected.taken,
      Expected.taken, itemsBefore, itemsBefore, List.flatMap_append]
    simp
  · cases stepped
    rw [taken_cons, taken, List.append_assoc, Level.taken, Expected.taken, Expected.taken, tokens,
      itemTokens_concat]
    simp
  · cases stepped
    rw [taken_cons, taken, List.append_assoc, Level.taken, Expected.taken, Expected.taken,
      membersBefore, membersBefore, List.flatMap_append]
    simp [memberToken]
  · cases stepped
    rw [taken_cons, taken, List.append_assoc, Level.taken, Expected.taken, Expected.taken, tokens,
      memberTokens_concat]
    simp [memberToken]
  · cases stepped

theorem taken_run {progress last : Progress} {tokens : List Token}
    (ran : progress.run tokens = some last) : last.taken = progress.taken ++ tokens := by
  induction tokens generalizing progress with
  | nil =>
    cases ran
    exact (List.append_nil _).symm
  | cons token tokens ih =>
    obtain ⟨next, stepped, onwards⟩ := Option.bind_eq_some_iff.1 ran
    rw [ih onwards, taken_step stepped, List.append_assoc, List.singleton_append]

theorem run_append (progress : Progress) (front behind : List Token) :
    progress.run (front ++ behind) = (progress.run front).bind fun next => next.run behind := by
  induction front generalizing progress with
  | nil => rfl
  | cons token front ih =>
    rw [List.cons_append, run, run]
    cases progress.step token with
    | none => rfl
    | some next => exact ih next

theorem run_firstItem (levels : List Level) (document : Json) (rest : List Token) :
    run ⟨levels, .firstItem⟩ (document.tokens ++ rest) =
      run ⟨.array [] :: levels, .value⟩ (document.tokens ++ rest) := by
  cases document <;> rfl

mutual

theorem run_tokens : ∀ (document : Json) (levels : List Level),
    run ⟨levels, .value⟩ document.tokens = some ⟨levels, .ending document⟩
  | null, _ => rfl
  | bool _, _ => rfl
  | int _, _ => rfl
  | float _, _ => rfl
  | text _, _ => rfl
  | array items, levels => run_itemTokens items levels
  | object members, levels => run_memberTokens members levels

theorem run_itemTokens : ∀ (items : List Json) (levels : List Level),
    run ⟨levels, .firstItem⟩ (itemTokens items ++ [.mark .closeArray]) =
      some ⟨levels, .ending (.array items)⟩
  | [], _ => rfl
  | item :: items, levels => by
    -- No value begins with the end of an array, so a first item is taken like any other value.
    rw [itemTokens, List.append_assoc, run_firstItem, run_append, run_tokens item]
    exact run_moreItemTokens items levels [] item

theorem run_moreItemTokens : ∀ (items : List Json) (levels : List Level) (before : List Json)
      (value : Json),
    run ⟨.array before :: levels, .ending value⟩ (moreItemTokens items ++ [.mark .closeArray]) =
      some ⟨levels, .ending (.array (before ++ value :: items))⟩
  | [], _, _, _ => rfl
  | item :: items, levels, before, value => by
    rw [moreItemTokens, List.cons_append, List.cons_append, List.append_assoc, run, step,
      Option.bind_some, run_append, run_tokens item]
    have others := run_moreItemTokens items levels (before ++ [value]) item
    rw [List.append_assoc] at others
    exact others
termination_by structural items => items

theorem run_memberToken : ∀ (member : Text × Json) (levels : List Level)
      (before : List (Text × Json)),
    run ⟨levels, .key before⟩ (memberToken member) =
      some ⟨.object before member.1 :: levels, .ending member.2⟩
  | (_, value), _, _ => run_tokens value _
termination_by structural member => member

theorem run_memberTokens : ∀ (members : List (Text × Json)) (levels : List Level),
    run ⟨levels, .firstMember⟩ (memberTokens members ++ [.mark .closeObject]) =
      some ⟨levels, .ending (.object members)⟩
  | [], _ => rfl
  | member :: members, levels => by
    have same : run ⟨levels, .firstMember⟩ (memberToken member) =
        run ⟨levels, .key []⟩ (memberToken member) := by
      cases member
      rfl
    rw [memberTokens, List.append_assoc, run_append, same, run_memberToken member]
    exact run_moreMemberTokens members levels [] member

theorem run_moreMemberTokens : ∀ (members : List (Text × Json)) (levels : List Level)
      (before : List (Text × Json)) (member : Text × Json),
    run ⟨.object before member.1 :: levels, .ending member.2⟩
        (moreMemberTokens members ++ [.mark .closeObject]) =
      some ⟨levels, .ending (.object (before ++ member :: members))⟩
  | [], _, _, _ => rfl
  | next :: members, levels, before, member => by
    rw [moreMemberTokens, List.cons_append, List.cons_append, List.append_assoc, run, step,
      Option.bind_some, run_append, run_memberToken next]
    have others := run_moreMemberTokens members levels (before ++ [member]) next
    rw [List.append_assoc] at others
    exact others
termination_by structural members => members

end

end Progress

theorem tokens_of_ofTokens? {tokens : List Token} {document : Json}
    (decoded : ofTokens? tokens = some document) : document.tokens = tokens := by
  rw [ofTokens?] at decoded
  split at decoded
  · next ran =>
    cases decoded
    exact Progress.taken_run ran
  · cases decoded

/-- A text is decoded to a document exactly when it is well-formed and stands for that document. -/
theorem decode?_eq_some_iff {real : Text → Binary64} {source : Text} {document : Json} :
    decode? real source = some document ↔ Denotes real source document := by
  constructor
  · intro decoded
    obtain ⟨tokens, read, accepted⟩ := Option.bind_eq_some_iff.1 decoded
    rw [Denotes, tokens_of_ofTokens? accepted]
    exact spells_of_readTokens? read
  · intro spells
    rw [decode?, readTokens?_of_spells spells (separated_tokens document), Option.bind_some,
      ofTokens?, Progress.run_tokens]

end Json

end Stencil
