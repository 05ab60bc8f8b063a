import Stencil.Proofs.Template.BlockEnd
import Stencil.Proofs.Template.Reading
import Mathlib

/-!
Which closing mark ends a block.  It is the first one at which the marks of the same kind are even: as
many closing marks as opening marks stand between the beginning of the inside and it.  No mark of the
other kind has a part in this, and to stop the search earlier only ever loses the end.
-/

set_option autoImplicit false
set_option relaxedAutoImplicit false

namespace Stencil

namespace Text

variable {mark text : Text} {c : Char}

def occurrences (mark text : Text) : Nat :=
  text.tails.countP mark.isPrefixOf

/-- The part of a text from one offset up to another. -/
def between (text : Text) (first last : Nat) : Text :=
  (text.take last).drop first

theorem occurrences_cons_of_stands (stands : mark <+: c :: text) :
    occurrences mark (c :: text) = occurrences mark text + 1 := by
  rw [occurrences, List.tails_cons, List.countP_cons_of_pos (List.isPrefixOf_iff_prefix.2 stands)]
  rfl

theorem occurrences_cons_of_absent (absent : ¬ mark <+: c :: text) :
    occurrences mark (c :: text) = occurrences mark text := by
  rw [← List.isPrefixOf_iff_prefix] at absent
  rw [occurrences, List.tails_cons, List.countP_cons_of_neg absent]
  rfl

theorem occurrences_le_cons : occurrences mark text ≤ occurrences mark (c :: text) := by
  rw [occurrences, occurrences, List.tails_cons, List.countP_cons]
  exact Nat.le_add_right _ _

theorem occurrences_cons_le : occurrences mark (c :: text) ≤ occurrences mark text + 1 := by
  by_cases stands : mark <+: c :: text
  · rw [occurrences_cons_of_stands stands]
  · rw [occurrences_cons_of_absent stands]
    exact Nat.le_succ _

theorem occurrences_of_length_lt (short : text.length < mark.length) : occurrences mark text = 0 := by
  rw [occurrences, List.countP_eq_zero]
  intro rest member stands
  have inside := ((List.mem_tails _ _).1 member).length_le
  have fits := (List.isPrefixOf_iff_prefix.1 stands).length_le
  omega

theorem between_append {first middle last : Nat} (one : first ≤ middle) (two : middle ≤ last)
    (inside : middle ≤ text.length) :
    text.between first middle ++ text.between middle last = text.between first last := by
  have taken : (text.take middle).length = middle := List.length_take_of_le inside
  have whole : text.take last = text.take middle ++ text.between middle last := by
    have again : text.take middle = (text.take last).take middle := by
      rw [List.take_take, Nat.min_eq_left two]
    rw [again, between, List.take_append_drop]
  rw [between, between.eq_def text first last, whole, List.drop_append_of_le_length (by omega)]

theorem length_between {first last : Nat} (inside : last ≤ text.length) :
    (text.between first last).length = last - first := by
  rw [between, List.length_drop, List.length_take_of_le inside]

theorem between_of_append {first last : Nat} {front back : Text}
    (whole : text.between first last = front ++ back) :
    text.between first (first + front.length) = front := by
  have length := congrArg List.length whole
  rw [between, List.length_drop, List.length_take, List.length_append] at length
  have taken : (text.between first last).take front.length = front := by
    rw [whole, List.take_left]
  rw [between, List.drop_take, List.take_take, Nat.min_eq_left (by omega)] at taken
  rw [between, List.drop_take, Nat.add_sub_cancel_left, taken]

theorem between_prefix_of_le {first middle last : Nat} (le : middle ≤ last) :
    text.between first middle <+: text.between first last := by
  rw [between, between, List.drop_take, List.drop_take]
  exact List.take_prefix_take_left (Nat.sub_le_sub_right le first)

theorem prefix_drop_between_iff {first last offset : Nat} :
    mark <+: (text.between first last).drop offset ↔
      mark <+: text.drop (first + offset) ∧ mark.length ≤ last - (first + offset) := by
  rw [between, List.drop_drop, List.drop_take, List.prefix_take_iff]

theorem occurrences_eq_of_places {other : Text} (same : other.length = text.length)
    (places : ∀ offset, mark <+: other.drop offset ↔ mark <+: text.drop offset) :
    occurrences mark other = occurrences mark text := by
  induction text generalizing other with
  | nil =>
    rw [List.eq_nil_of_length_eq_zero same]
  | cons c text ih =>
    cases other with
    | nil => cases same
    | cons d other =>
      have onwards := ih (Nat.succ.inj same) (fun offset => places (offset + 1))
      have first := places 0
      rw [List.drop_zero, List.drop_zero] at first
      by_cases stands : mark <+: c :: text
      · rw [occurrences_cons_of_stands stands, occurrences_cons_of_stands (first.2 stands), onwards]
      · rw [occurrences_cons_of_absent stands,
          occurrences_cons_of_absent (mt first.1 stands), onwards]

end Text

namespace BlockKind

variable {kind : BlockKind} {c : Char} {text inner after front : Text} {pending next : Nat}

/-- Whether a text is the inside of a block, its closing mark and what follows it: the marks inside are
even, where `pending` inner blocks are already open. -/
def Closes (kind : BlockKind) (pending : Nat) (text inner after : Text) : Prop :=
  text = inner ++ kind.closer ++ after ∧
    Text.occurrences kind.closer inner = pending + Text.occurrences kind.opener inner

private theorem tail_of_mark (kind : BlockKind) : ∀ mark ∈ [kind.opener, kind.closer],
    ∀ tail ∈ mark.tails, tail ≠ [] → tail <+: kind.closer → tail = mark := by
  cases kind <;> decide

private theorem length_mark_le {mark : Text} (isMark : mark ∈ [kind.opener, kind.closer]) :
    mark.length ≤ kind.closer.length := by
  revert mark
  cases kind <;> decide

theorem prefix_append_closer_iff {mark : Text} (isMark : mark ∈ [kind.opener, kind.closer]) :
    mark <+: c :: inner ++ kind.closer ++ after ↔ mark <+: c :: inner := by
  constructor
  · intro stands
    rw [List.append_assoc] at stands
    rcases Nat.lt_or_ge (c :: inner).length mark.length with longer | fits
    · obtain ⟨tail, whole⟩ : c :: inner <+: mark :=
        List.prefix_of_prefix_length_le (List.prefix_append _ _) stands longer.le
      have lengths := congrArg List.length whole
      have bound := length_mark_le isMark
      rw [List.length_append, List.length_cons] at lengths
      have nonempty : tail ≠ [] := by
        rintro rfl
        simp only [List.length_nil, List.length_cons] at lengths longer
        omega
      have reaches : tail <+: kind.closer := by
        rw [← whole, List.prefix_append_right_inj] at stands
        exact List.prefix_of_prefix_length_le stands (List.prefix_append _ _) (by omega)
      have isTail : tail ∈ mark.tails := (List.mem_tails _ _).2 ⟨c :: inner, whole⟩
      have same := congrArg List.length (tail_of_mark kind mark isMark tail isTail nonempty reaches)
      omega
    · exact List.prefix_of_prefix_length_le stands (List.prefix_append _ _) fits
  · intro stands
    rw [List.append_assoc]
    exact stands.trans (List.prefix_append _ _)

/-- How the count of open inner blocks goes on past the first character of a text, as long as the end
of the block does not stand there. -/
inductive Passes (kind : BlockKind) (c : Char) (text : Text) : Nat → Nat → Prop
  | closer {pending : Nat} (closes : kind.closer <+: c :: text) :
    Passes kind c text (pending + 1) pending
  | opener {pending : Nat} (not_closes : ¬ kind.closer <+: c :: text)
    (opens : kind.opener <+: c :: text) : Passes kind c text pending (pending + 1)
  | other {pending : Nat} (not_closes : ¬ kind.closer <+: c :: text)
    (not_opens : ¬ kind.opener <+: c :: text) : Passes kind c text pending pending

theorem ends_or_passes (kind : BlockKind) (c : Char) (text : Text) (pending : Nat) :
    (pending = 0 ∧ kind.closer <+: c :: text) ∨ ∃ next, kind.Passes c text pending next := by
  by_cases closes : kind.closer <+: c :: text
  · cases pending with
    | zero => exact Or.inl ⟨rfl, closes⟩
    | succ pending => exact Or.inr ⟨pending, .closer closes⟩
  · by_cases opens : kind.opener <+: c :: text
    · exact Or.inr ⟨pending + 1, .opener closes opens⟩
    · exact Or.inr ⟨pending, .other closes opens⟩

theorem opener_not_prefix_of_closer (closes : kind.closer <+: text) : ¬ kind.opener <+: text := by
  intro opens
  have differ : ¬ kind.opener <+: kind.closer := by cases kind <;> decide
  exact differ (List.prefix_of_prefix_length_le opens closes (length_mark_le List.mem_cons_self))

namespace Passes

theorem splitBlock?_eq (passes : kind.Passes c text pending next) :
    splitBlock? kind.opener kind.closer pending (c :: text) =
      (splitBlock? kind.opener kind.closer next text).map fun parts => (c :: parts.1, parts.2) := by
  cases passes with
  | closer closes => exact splitBlock?_closer closes
  | opener not_closes opens => exact splitBlock?_opener not_closes opens
  | other not_closes not_opens => exact splitBlock?_other not_closes not_opens

theorem even_iff (passes : kind.Passes c text pending next)
    (whole : text = inner ++ kind.closer ++ after) :
    Text.occurrences kind.closer (c :: inner) = pending + Text.occurrences kind.opener (c :: inner) ↔
      Text.occurrences kind.closer inner = next + Text.occurrences kind.opener inner := by
  have opens_iff : kind.opener <+: c :: text ↔ kind.opener <+: c :: inner := by
    rw [whole]
    exact prefix_append_closer_iff List.mem_cons_self
  have closes_iff : kind.closer <+: c :: text ↔ kind.closer <+: c :: inner := by
    rw [whole]
    exact prefix_append_closer_iff (List.mem_cons_of_mem _ List.mem_cons_self)
  cases passes with
  | closer closes =>
    rw [Text.occurrences_cons_of_stands (closes_iff.1 closes),
      Text.occurrences_cons_of_absent (mt opens_iff.2 (opener_not_prefix_of_closer closes))]
    omega
  | opener not_closes opens =>
    rw [Text.occurrences_cons_of_absent (mt closes_iff.2 not_closes),
      Text.occurrences_cons_of_stands (opens_iff.1 opens)]
    omega
  | other not_closes not_opens =>
    rw [Text.occurrences_cons_of_absent (mt closes_iff.2 not_closes),
      Text.occurrences_cons_of_absent (mt opens_iff.2 not_opens)]

theorem closes_iff (passes : kind.Passes c text pending next) :
    kind.Closes pending (c :: text) inner after ↔
      ∃ rest, inner = c :: rest ∧ kind.Closes next text rest after := by
  constructor
  · rintro ⟨whole, even⟩
    cases inner with
    | nil =>
      have stands : kind.closer <+: c :: text := ⟨after, whole.symm⟩
      have none_inside : Text.occurrences kind.closer [] = 0 :=
        Text.occurrences_of_length_lt kind.length_closer_pos
      cases passes with
      | closer closes => omega
      | opener not_closes opens => exact absurd stands not_closes
      | other not_closes not_opens => exact absurd stands not_closes
    | cons d rest =>
      rw [List.cons_append, List.cons_append, List.cons.injEq] at whole
      obtain ⟨rfl, whole⟩ := whole
      exact ⟨rest, rfl, whole, (passes.even_iff whole).1 even⟩
  · rintro ⟨rest, rfl, whole, even⟩
    exact ⟨by rw [whole]; rfl, (passes.even_iff whole).2 even⟩

theorem le_cons (passes : kind.Passes c text pending next) (stretch : front <+: text)
    (le : Text.occurrences kind.closer front ≤ next + Text.occurrences kind.opener front) :
    Text.occurrences kind.closer (c :: front) ≤
      pending + Text.occurrences kind.opener (c :: front) := by
  have stretch_cons : c :: front <+: c :: text := List.cons_prefix_cons.2 ⟨rfl, stretch⟩
  have opened : Text.occurrences kind.opener front ≤ Text.occurrences kind.opener (c :: front) :=
    Text.occurrences_le_cons
  cases passes with
  | closer closes =>
    have closed : Text.occurrences kind.closer (c :: front) ≤
        Text.occurrences kind.closer front + 1 := Text.occurrences_cons_le
    omega
  | opener not_closes opens =>
    have not_closes' : ¬ kind.closer <+: c :: front := fun stands =>
      not_closes (stands.trans stretch_cons)
    rw [Text.occurrences_cons_of_absent not_closes']
    by_cases opens' : kind.opener <+: c :: front
    · rw [Text.occurrences_cons_of_stands opens']
      omega
    · -- The opening mark does not fit into the stretch, and then no closing mark does.
      have short : front.length < kind.closer.length := by
        by_contra long
        have bound : kind.opener.length ≤ kind.closer.length := length_mark_le List.mem_cons_self
        have fits : kind.opener.length ≤ (c :: front).length := by
          rw [List.length_cons]
          omega
        exact opens' (List.prefix_of_prefix_length_le opens stretch_cons fits)
      rw [Text.occurrences_of_length_lt short]
      exact Nat.zero_le _
  | other not_closes not_opens =>
    have not_closes' : ¬ kind.closer <+: c :: front := fun stands =>
      not_closes (stands.trans stretch_cons)
    rw [Text.occurrences_cons_of_absent not_closes']
    omega

end Passes

theorem closes_of_splitBlock?
    (split : splitBlock? kind.opener kind.closer pending text = some (inner, after)) :
    kind.Closes pending text inner after ∧ ∀ front, front <+: inner →
      Text.occurrences kind.closer front ≤ pending + Text.occurrences kind.opener front := by
  have none_inside : Text.occurrences kind.closer [] = 0 :=
    Text.occurrences_of_length_lt kind.length_closer_pos
  induction text generalizing pending inner with
  | nil => simp [splitBlock?] at split
  | cons c text ih =>
    rcases kind.ends_or_passes c text pending with ⟨rfl, rest, whole⟩ | ⟨next, passes⟩
    · have nonempty : kind.closer ≠ [] := List.length_pos_iff.1 kind.length_closer_pos
      have ends : splitBlock? kind.opener kind.closer 0 (c :: text) = some ([], rest) := by
        rw [← whole]
        exact splitBlock?_end nonempty
      cases ends.symm.trans split
      have none_opened : Text.occurrences kind.opener [] = 0 := by cases kind <;> decide
      refine ⟨⟨whole.symm, by omega⟩, ?_⟩
      intro front stretch
      rw [List.prefix_nil.1 stretch]
      omega
    · rw [passes.splitBlock?_eq] at split
      obtain ⟨⟨inner', after'⟩, split', joined⟩ := Option.map_eq_some_iff.1 split
      cases joined
      obtain ⟨closes, level⟩ := ih split'
      have part : inner' <+: text := by
        rw [closes.1, List.append_assoc]
        exact List.prefix_append _ _
      refine ⟨passes.closes_iff.2 ⟨inner', rfl, closes⟩, ?_⟩
      intro front stretch
      cases front with
      | nil => omega
      | cons d front =>
        obtain ⟨rfl, behind⟩ := List.cons_prefix_cons.1 stretch
        exact passes.le_cons (behind.trans part) (level front behind)

theorem exists_splitBlock?_of_closes (closes : kind.Closes pending text inner after) :
    ∃ first rest, splitBlock? kind.opener kind.closer pending text = some (first, rest) ∧
      first.length ≤ inner.length := by
  induction text generalizing pending inner with
  | nil =>
    have empty := congrArg List.length closes.1
    have closed := kind.length_closer_pos
    rw [List.length_append, List.length_append, List.length_nil] at empty
    omega
  | cons c text ih =>
    rcases kind.ends_or_passes c text pending with ⟨rfl, rest, whole⟩ | ⟨next, passes⟩
    · have nonempty : kind.closer ≠ [] := List.length_pos_iff.1 kind.length_closer_pos
      refine ⟨[], rest, ?_, Nat.zero_le _⟩
      rw [← whole]
      exact splitBlock?_end nonempty
    · obtain ⟨inner', rfl, closes'⟩ := passes.closes_iff.1 closes
      obtain ⟨first, rest, split, shorter⟩ := ih closes'
      refine ⟨c :: first, rest, ?_, Nat.succ_le_succ shorter⟩
      rw [passes.splitBlock?_eq, split]
      rfl

end BlockKind

/-- The offset of a source at which a search that may go on to `stop` ends. -/
def windowEnd (source : Text) (stop : Option Int) : Nat :=
  min ((stop.map (offsetIn source.length)).getD source.length) source.length

theorem windowEnd_le (source : Text) (stop : Option Int) : windowEnd source stop ≤ source.length :=
  Nat.min_le_right _ _

theorem window_eq_between (source : Text) (start : Int) (stop : Option Int) :
    window source start stop =
      source.between (offsetIn source.length start) (windowEnd source stop) := by
  rw [window, Text.between, windowEnd, ← List.take_eq_take_min]

namespace BlockKind

variable {kind : BlockKind} {source : Text} {first last offset : Nat}

/-- Whether a closing mark at an offset could end the block whose inside begins at `first`: it lies
before `last`, and as many closing marks as opening marks lie before it. -/
structure ClosesAt (kind : BlockKind) (source : Text) (first last offset : Nat) : Prop where
  begins : first ≤ offset
  ends : offset + kind.closer.length ≤ last
  stands : kind.closer <+: source.drop offset
  even : Text.occurrences kind.closer (source.between first offset) =
    Text.occurrences kind.opener (source.between first offset)

theorem closesAt_iff (inside : last ≤ source.length) :
    kind.ClosesAt source first last offset ↔
      ∃ inner after, kind.Closes 0 (source.between first last) inner after ∧
        offset = first + inner.length := by
  constructor
  · rintro ⟨begins, ends, stands, even⟩
    have length : (source.between first offset).length = offset - first :=
      Text.length_between (by omega)
    have mark : kind.closer <+: source.between offset last := by
      have reaches : kind.closer <+: (source.between offset last).drop 0 :=
        Text.prefix_drop_between_iff.2 ⟨stands, by omega⟩
      rwa [List.drop_zero] at reaches
    obtain ⟨after, behind⟩ := mark
    refine ⟨source.between first offset, after, ⟨?_, by omega⟩, by omega⟩
    rw [List.append_assoc, behind]
    exact (Text.between_append begins (by omega) (by omega)).symm
  · rintro ⟨inner, after, ⟨whole, even⟩, rfl⟩
    have length := congrArg List.length whole
    have closed := kind.length_closer_pos
    rw [Text.length_between inside, List.length_append, List.length_append] at length
    rw [List.append_assoc] at whole
    have part := Text.between_of_append whole
    refine ⟨Nat.le_add_right _ _, by omega, ?_, by rw [part, even, Nat.zero_add]⟩
    have stands : kind.closer <+: (source.between first last).drop inner.length := by
      rw [whole, List.drop_left]
      exact List.prefix_append _ _
    exact (Text.prefix_drop_between_iff.1 stands).1

theorem closesAt_of_places {other : Text} (same : other.length = source.length)
    (inside : last ≤ source.length)
    (opens : ∀ offset, kind.opener <+: other.drop offset ↔ kind.opener <+: source.drop offset)
    (closes : ∀ offset, kind.closer <+: other.drop offset ↔ kind.closer <+: source.drop offset)
    (closesAt : kind.ClosesAt source first last offset) :
    kind.ClosesAt other first last offset := by
  obtain ⟨begins, ends, stands, even⟩ := closesAt
  have counted : ∀ mark : Text, (∀ offset, mark <+: other.drop offset ↔ mark <+: source.drop offset) →
      Text.occurrences mark (other.between first offset) =
        Text.occurrences mark (source.between first offset) := by
    intro mark places
    apply Text.occurrences_eq_of_places
    · rw [Text.length_between (by omega), Text.length_between (by omega)]
    · intro place
      rw [Text.prefix_drop_between_iff, Text.prefix_drop_between_iff, places]
  exact ⟨begins, ends, (closes offset).2 stands, by rw [counted _ closes, counted _ opens, even]⟩

section Search

variable {start : Int} {stop : Option Int}

private theorem closeOffset?_eq (kind : BlockKind) (source : Text) (start : Int)
    (stop : Option Int) :
    kind.closeOffset? source start stop =
      (splitBlock? kind.opener kind.closer 0
        (source.between (offsetIn source.length start) (windowEnd source stop))).map fun parts =>
          offsetIn source.length start + parts.1.length := by
  rw [closeOffset?, inside?, window_eq_between]

theorem closesAt_of_closeOffset? (found : kind.closeOffset? source start stop = some offset) :
    kind.ClosesAt source (offsetIn source.length start) (windowEnd source stop) offset ∧
      ∀ middle ≤ offset,
        Text.occurrences kind.closer (source.between (offsetIn source.length start) middle) ≤
          Text.occurrences kind.opener (source.between (offsetIn source.length start) middle) := by
  rw [closeOffset?_eq] at found
  obtain ⟨⟨inner, after⟩, split, rfl⟩ := Option.map_eq_some_iff.1 found
  obtain ⟨closes, level⟩ := closes_of_splitBlock? split
  refine ⟨(closesAt_iff (windowEnd_le source stop)).2 ⟨inner, after, closes, rfl⟩, ?_⟩
  intro middle within
  have whole := closes.1
  rw [List.append_assoc] at whole
  have stretch : source.between (offsetIn source.length start) middle <+:
      source.between (offsetIn source.length start)
        (offsetIn source.length start + inner.length) := Text.between_prefix_of_le within
  rw [Text.between_of_append whole] at stretch
  have counted := level _ stretch
  rwa [Nat.zero_add] at counted

theorem exists_closeOffset?_of_closesAt
    (closesAt : kind.ClosesAt source (offsetIn source.length start) (windowEnd source stop) offset) :
    ∃ found, kind.closeOffset? source start stop = some found ∧ found ≤ offset := by
  obtain ⟨inner, after, closes, rfl⟩ := (closesAt_iff (windowEnd_le source stop)).1 closesAt
  obtain ⟨first, rest, split, shorter⟩ := exists_splitBlock?_of_closes closes
  refine ⟨offsetIn source.length start + first.length, ?_, Nat.add_le_add_left shorter _⟩
  rw [closeOffset?_eq, split]
  rfl

theorem closeOffset?_eq_some_iff_first :
    kind.closeOffset? source start stop = some offset ↔
      kind.ClosesAt source (offsetIn source.length start) (windowEnd source stop) offset ∧
        ∀ other < offset,
          ¬ kind.ClosesAt source (offsetIn source.length start) (windowEnd source stop) other := by
  constructor
  · intro found
    refine ⟨(closesAt_of_closeOffset? found).1, ?_⟩
    intro other earlier closesAt
    obtain ⟨again, found', le⟩ := exists_closeOffset?_of_closesAt closesAt
    cases found.symm.trans found'
    omega
  · rintro ⟨closesAt, first⟩
    obtain ⟨found, search, le⟩ := exists_closeOffset?_of_closesAt closesAt
    have same : found = offset := by
      by_contra differ
      exact first found (by omega) (closesAt_of_closeOffset? search).1
    rw [search, same]

theorem closeOffset?_eq_none_iff :
    kind.closeOffset? source start stop = none ↔
      ∀ offset,
        ¬ kind.ClosesAt source (offsetIn source.length start) (windowEnd source stop) offset := by
  constructor
  · intro absent offset closesAt
    obtain ⟨found, search, -⟩ := exists_closeOffset?_of_closesAt closesAt
    rw [absent] at search
    cases search
  · intro nowhere
    cases search : kind.closeOffset? source start stop with
    | none => rfl
    | some offset => exact absurd (closesAt_of_closeOffset? search).1 (nowhere offset)

theorem closeOffset?_of_earlier_stop {stop' : Option Int}
    (earlier : windowEnd source stop' ≤ windowEnd source stop) :
    kind.closeOffset? source start stop' = (kind.closeOffset? source start stop).filter
      fun offset => offset + kind.closer.length ≤ windowEnd source stop' := by
  have fits : ∀ offset,
      kind.ClosesAt source (offsetIn source.length start) (windowEnd source stop') offset ↔
        kind.ClosesAt source (offsetIn source.length start) (windowEnd source stop) offset ∧
          offset + kind.closer.length ≤ windowEnd source stop' := by
    intro offset
    constructor
    · rintro ⟨begins, ends, stands, even⟩
      exact ⟨⟨begins, ends.trans earlier, stands, even⟩, ends⟩
    · rintro ⟨⟨begins, -, stands, even⟩, ends⟩
      exact ⟨begins, ends, stands, even⟩
  apply Option.ext
  intro offset
  rw [Option.filter_eq_some_iff, closeOffset?_eq_some_iff_first, closeOffset?_eq_some_iff_first,
    decide_eq_true_eq, fits]
  constructor
  · rintro ⟨⟨closesAt, ends⟩, first⟩
    refine ⟨⟨closesAt, ?_⟩, ends⟩
    intro other before closesAt'
    exact first other before ((fits other).2 ⟨closesAt', by omega⟩)
  · rintro ⟨⟨closesAt, first⟩, ends⟩
    refine ⟨⟨closesAt, ends⟩, ?_⟩
    intro other before closesAt'
    exact first other before ((fits other).1 closesAt').1

theorem closeOffset?_of_places {other : Text} (same : other.length = source.length)
    (opens : ∀ offset, kind.opener <+: other.drop offset ↔ kind.opener <+: source.drop offset)
    (closes : ∀ offset, kind.closer <+: other.drop offset ↔ kind.closer <+: source.drop offset) :
    kind.closeOffset? other start stop = kind.closeOffset? source start stop := by
  have ends : windowEnd other stop = windowEnd source stop := by rw [windowEnd, windowEnd, same]
  have inside := windowEnd_le source stop
  have closesAt_iff : ∀ offset,
      kind.ClosesAt other (offsetIn source.length start) (windowEnd source stop) offset ↔
        kind.ClosesAt source (offsetIn source.length start) (windowEnd source stop) offset := by
    intro offset
    constructor
    · apply closesAt_of_places same.symm (by omega)
      · intro place
        exact (opens place).symm
      · intro place
        exact (closes place).symm
    · exact closesAt_of_places same inside opens closes
  apply Option.ext
  intro offset
  rw [closeOffset?_eq_some_iff_first, closeOffset?_eq_some_iff_first, same, ends]
  simp only [closesAt_iff]

end Search

/-- The end of a block is the first offset of the window at which the exact closing mark lies inside it
and the marks of the same kind before it are even; there is no end exactly when there is no such offset.
So no stretch before the end closes more than it opens, the marks of the other kind have no part in it,
and a search that stops earlier gives the same end or none. -/
theorem closeOffset?_eq_some_iff (kind : BlockKind) (source : Text) (start : Int)
    (stop : Option Int) :
    (∀ offset, kind.closeOffset? source start stop = some offset ↔
      kind.ClosesAt source (offsetIn source.length start) (windowEnd source stop) offset ∧
        ∀ other < offset,
          ¬ kind.ClosesAt source (offsetIn source.length start) (windowEnd source stop) other) ∧
    (kind.closeOffset? source start stop = none ↔ ∀ offset,
      ¬ kind.ClosesAt source (offsetIn source.length start) (windowEnd source stop) offset) ∧
    (∀ offset, kind.closeOffset? source start stop = some offset →
      Text.occurrences kind.closer (source.between (offsetIn source.length start) offset) =
          Text.occurrences kind.opener (source.between (offsetIn source.length start) offset) ∧
        ∀ middle ≤ offset,
          Text.occurrences kind.closer (source.between (offsetIn source.length start) middle) ≤
            Text.occurrences kind.opener
              (source.between (offsetIn source.length start) middle)) ∧
    (∀ other : Text, other.length = source.length →
      (∀ offset, kind.opener <+: other.drop offset ↔ kind.opener <+: source.drop offset) →
      (∀ offset, kind.closer <+: other.drop offset ↔ kind.closer <+: source.drop offset) →
      kind.closeOffset? other start stop = kind.closeOffset? source start stop) ∧
    ∀ stop', windowEnd source stop' ≤ windowEnd source stop →
      kind.closeOffset? source start stop' = (kind.closeOffset? source start stop).filter
        fun offset => offset + kind.closer.length ≤ windowEnd source stop' := by
  refine ⟨fun _ => closeOffset?_eq_some_iff_first, closeOffset?_eq_none_iff, ?_, ?_, ?_⟩
  · intro offset found
    obtain ⟨closesAt, level⟩ := closesAt_of_closeOffset? found
    exact ⟨closesAt.even, level⟩
  · intro other same opens closes
    exact closeOffset?_of_places same opens closes
  · intro stop' earlier
    exact closeOffset?_of_earlier_stop earlier

private def conditionInside : Text :=
  Tag.written "#if b" ++ Tag.written "/each" ++ Tag.written "/if" ++ Tag.written "/if" ++ ['x']

theorem closeOffset?_eq_some_iff_nested :
    condition.closeOffset? conditionInside (-33) (some (-1)) = some 25 ∧
    (condition.ClosesAt conditionInside 0 32 25 ∧
      ∀ other < 25, ¬ condition.ClosesAt conditionInside 0 32 other) ∧
    Text.occurrences condition.closer (conditionInside.between 0 25) =
      Text.occurrences condition.opener (conditionInside.between 0 25) ∧
    condition.closeOffset? conditionInside (-33) (some 31) = none := by
  have found : condition.closeOffset? conditionInside (-33) (some (-1)) = some 25 := by cbv
  obtain ⟨first, -, even, -, earlier⟩ :=
    closeOffset?_eq_some_iff condition conditionInside (-33) (some (-1))
  refine ⟨found, (first 25).1 found, (even 25 found).1, ?_⟩
  rw [earlier (some 31) (by decide), found]
  rfl

end BlockKind

end Stencil
