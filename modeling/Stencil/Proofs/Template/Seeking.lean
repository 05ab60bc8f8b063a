import Stencil.Proofs.Template.Matching

/-!
The end of a block sought from mark to mark.  The next closing mark is found by its offset, and then the
first opening mark before it; the search goes on behind whichever comes first and never looks at the text
between.  It ends where the count from character to character ends, since no mark begins inside another.
-/

set_option autoImplicit false
set_option relaxedAutoImplicit false

namespace Stencil

namespace Text

variable {mark text first second tail before after : Text}

theorem bounds_of_find?_take {source : Text} {start stop offset : Nat}
    (found : find? mark (source.take stop) start = some offset) :
    start ≤ offset ∧ offset + mark.length ≤ stop := by
  obtain ⟨-, from_start, -, -⟩ := find?_eq_some_iff.1 found
  have inside := add_length_le_of_find? found
  have short := List.length_take_le stop source
  omega

section Part

variable {source : Text} {start stop : Nat}

theorem find?_take_eq_cut? (order : start ≤ stop) (inside : stop ≤ source.length) :
    find? mark (source.take stop) start =
      (cut? mark (source.between start stop)).map fun parts => start + parts.1.length := by
  apply find?_eq_cut?
  rw [List.length_take_of_le inside]
  exact order

theorem find?_take_of_cut? (order : start ≤ stop) (inside : stop ≤ source.length)
    (cut : cut? mark (source.between start stop) = some (before, after)) :
    find? mark (source.take stop) start = some (start + before.length) := by
  rw [find?_take_eq_cut? order inside, cut, Option.map_some]

theorem find?_take_of_cut?_eq_none (order : start ≤ stop) (inside : stop ≤ source.length)
    (absent : cut? mark (source.between start stop) = none) :
    find? mark (source.take stop) start = none := by
  rw [find?_take_eq_cut? order inside, absent, Option.map_none]

theorem between_of_eq_append (split : source.between start stop = first ++ second) :
    source.between (start + first.length) stop = second := by
  have dropped := congrArg (List.drop first.length) split
  rwa [List.drop_left, between, List.drop_drop] at dropped

end Part

theorem Lacks.append_left (lacks : Lacks mark (first ++ second) tail) :
    Lacks mark first (second ++ tail) := by
  rintro rest ⟨front, rfl⟩ nonempty stands
  refine lacks (rest ++ second) ⟨front, (List.append_assoc _ _ _).symm⟩ ?_ ?_
  · exact List.append_ne_nil_of_left_ne_nil nonempty second
  · rwa [List.append_assoc]

theorem lacks_of_cut? (nonempty : mark ≠ []) (cut : cut? mark text = some (before, after))
    (tail : Text) : Lacks mark before (mark ++ tail) := by
  have first := not_infix_of_cut? nonempty cut
  rintro rest ⟨front, rfl⟩ more stands
  apply first
  have reaches : rest ++ mark.dropLast <+: rest ++ (mark ++ tail) := by
    rw [List.prefix_append_right_inj]
    exact (List.dropLast_prefix mark).trans (List.prefix_append mark tail)
  have short : mark.length ≤ (rest ++ mark.dropLast).length := by
    have positive := List.length_pos_iff.2 more
    simp only [List.length_append, List.length_dropLast]
    omega
  have inside := List.prefix_of_prefix_length_le stands reaches short
  rw [List.append_assoc]
  exact inside.isInfix.trans (List.suffix_append front _).isInfix

end Text

namespace BlockKind

variable {kind : BlockKind} {source text before after tail : Text} {start stop pending : Nat}

theorem opener_length_pos (kind : BlockKind) : 0 < kind.opener.length := by
  simp [opener, Tag.opener]

/-- The offset of the closing mark that ends a block, sought from `start` up to `stop` while `pending`
inner blocks are still to be closed. -/
def seek? (kind : BlockKind) (source : Text) (stop pending start : Nat) : Option Nat :=
  match _closes : Text.find? kind.closer (source.take stop) start with
  | none => none
  | some close =>
    match _opens : Text.find? kind.opener (source.take close) start with
    | some first => seek? kind source stop (pending + 1) (first + kind.opener.length)
    | none =>
      match pending with
      | 0 => some close
      | pending + 1 => seek? kind source stop pending (close + kind.closer.length)
termination_by stop - start
decreasing_by
  · have closes := Text.bounds_of_find?_take _closes
    have opens := Text.bounds_of_find?_take _opens
    have positive := kind.opener_length_pos
    have closed := kind.length_closer_pos
    omega
  · have closes := Text.bounds_of_find?_take _closes
    have closed := kind.length_closer_pos
    omega

theorem bounds_of_seek? {offset : Nat} (found : kind.seek? source stop pending start = some offset) :
    start ≤ offset ∧ offset + kind.closer.length ≤ stop := by
  fun_induction seek? kind source stop pending start with
  | case1 => cases found
  | case2 pending start close closes first opens ih =>
    have begins := Text.bounds_of_find?_take opens
    have bounds := ih found
    omega
  | case3 start close closes opens =>
    cases found
    exact Text.bounds_of_find?_take closes
  | case4 start close closes opens pending ih =>
    have ends := Text.bounds_of_find?_take closes
    have bounds := ih found
    omega

theorem scans_opener_mark : kind.Scans kind.opener tail pending (pending + 1) := by
  have opens : kind.opener <+: '{' :: ('{' :: '#' :: kind.word ++ tail) :=
    List.prefix_append kind.opener tail
  have ignores : kind.Ignores ('{' :: '#' :: kind.word) tail := by
    apply ignores_of_not_infix
    · cases kind <;> decide
    · cases kind <;> simp [word]
  exact scans_opener opens (fun closes => opener_not_prefix_of_closer closes opens) ignores

theorem scans_to_closer (cut : Text.cut? kind.closer text = some (before, after))
    (absent : Text.cut? kind.opener before = none) (tail : Text) :
    kind.Scans before (kind.closer ++ tail) pending pending := by
  have nonempty : kind.closer ≠ [] := List.length_pos_iff.1 kind.length_closer_pos
  refine scans_of_ignores ⟨?_, Text.lacks_of_cut? nonempty cut tail⟩
  rintro rest ⟨front, rfl⟩ more stands
  obtain ⟨c, inner, rfl⟩ := List.exists_cons_of_ne_nil more
  rw [← List.append_assoc, prefix_append_closer_iff List.mem_cons_self] at stands
  exact Text.cut?_eq_none_iff.1 absent (stands.isInfix.trans (List.suffix_append front _).isInfix)

theorem scans_to_opener {front back : Text} (cut : Text.cut? kind.closer text = some (before, after))
    (opens : Text.cut? kind.opener before = some (front, back)) (tail : Text) :
    kind.Scans front (kind.opener ++ (back ++ (kind.closer ++ tail))) pending pending := by
  have closer_nonempty : kind.closer ≠ [] := List.length_pos_iff.1 kind.length_closer_pos
  have opener_nonempty : kind.opener ≠ [] := List.length_pos_iff.1 kind.opener_length_pos
  have no_closer := Text.lacks_of_cut? closer_nonempty cut tail
  rw [Text.eq_append_of_cut? opens, List.append_assoc] at no_closer
  refine scans_of_ignores ⟨Text.lacks_of_cut? opener_nonempty opens _, ?_⟩
  rw [← List.append_assoc]
  exact no_closer.append_left

section Equations

variable {close : Nat}

theorem seek?_of_no_closer (closes : Text.find? kind.closer (source.take stop) start = none) :
    kind.seek? source stop pending start = none := by
  rw [seek?]
  split <;> simp_all

theorem seek?_of_closer (closes : Text.find? kind.closer (source.take stop) start = some close) :
    kind.seek? source stop pending start =
      match Text.find? kind.opener (source.take close) start with
      | some first => kind.seek? source stop (pending + 1) (first + kind.opener.length)
      | none =>
        match pending with
        | 0 => some close
        | pending + 1 => kind.seek? source stop pending (close + kind.closer.length) := by
  rw [seek?]
  split
  · simp_all
  · next closes' =>
    cases closes.symm.trans closes'
    split <;> simp_all

end Equations

theorem seek?_of_scans {passed rest : Text} {more : Nat}
    (split : source.between start stop = passed ++ rest) (scans : kind.Scans passed rest pending more)
    (known : kind.seek? source stop more (start + passed.length) =
      (splitBlock? kind.opener kind.closer more
        (source.between (start + passed.length) stop)).map
          fun parts => start + passed.length + parts.1.length) :
    kind.seek? source stop more (start + passed.length) =
      (splitBlock? kind.opener kind.closer pending (source.between start stop)).map
        fun parts => start + parts.1.length := by
  rw [known, Text.between_of_eq_append split, split, scans, Option.map_map]
  congr 1
  funext parts
  simp [Nat.add_assoc]

/-- The search from mark to mark ends where the count from character to character does. -/
theorem seek?_eq_splitBlock? (order : start ≤ stop) (inside : stop ≤ source.length) :
    kind.seek? source stop pending start =
      (splitBlock? kind.opener kind.closer pending (source.between start stop)).map
        fun parts => start + parts.1.length := by
  induction size : stop - start using Nat.strong_induction_on generalizing pending start with
  | _ size' ih =>
  subst size
  have closed := kind.length_closer_pos
  have opened := kind.opener_length_pos
  cases cut : Text.cut? kind.closer (source.between start stop) with
  | none =>
    rw [seek?_of_no_closer (Text.find?_take_of_cut?_eq_none order inside cut)]
    cases split : splitBlock? kind.opener kind.closer pending (source.between start stop) with
    | none => rfl
    | some parts =>
      have stands := eq_append_of_splitBlock? split
      exact absurd ⟨parts.1, parts.2, stands.symm⟩ (Text.cut?_eq_none_iff.1 cut)
  | some parts =>
    obtain ⟨before, after⟩ := parts
    have whole := Text.eq_append_of_cut? cut
    have closes := Text.find?_take_of_cut? order inside cut
    have bounds := Text.bounds_of_find?_take closes
    have front_eq : source.between start (start + before.length) = before :=
      Text.between_of_append (whole.trans (List.append_assoc _ _ _))
    cases opening : Text.cut? kind.opener before with
    | none =>
      have opens : Text.find? kind.opener (source.take (start + before.length)) start = none :=
        Text.find?_take_of_cut?_eq_none bounds.1 (by omega) (by rw [front_eq, opening])
      have scans : kind.Scans before (kind.closer ++ after) pending pending :=
        scans_to_closer cut opening after
      rw [seek?_of_closer closes, opens]
      cases pending with
      | zero =>
        rw [whole, List.append_assoc, scans, splitBlock?_end (List.length_pos_iff.1 closed)]
        simp
      | succ pending =>
        have length : start + (before ++ kind.closer).length =
            start + before.length + kind.closer.length := by
          rw [List.length_append, Nat.add_assoc]
        rw [← seek?_of_scans whole (scans.append scans_closer)
          (ih _ (by omega) (by omega) rfl), length]
    | some parts =>
      obtain ⟨front, back⟩ := parts
      have opens : Text.find? kind.opener (source.take (start + before.length)) start =
          some (start + front.length) :=
        Text.find?_take_of_cut? bounds.1 (by omega) (by rw [front_eq, opening])
      have begins := Text.bounds_of_find?_take opens
      have split : source.between start stop =
          (front ++ kind.opener) ++ (back ++ (kind.closer ++ after)) := by
        rw [whole, Text.eq_append_of_cut? opening]
        simp only [List.append_assoc]
      have scans : kind.Scans front (kind.opener ++ (back ++ (kind.closer ++ after))) pending
          pending := scans_to_opener cut opening after
      have length : start + (front ++ kind.opener).length =
          start + front.length + kind.opener.length := by
        rw [List.length_append, Nat.add_assoc]
      rw [seek?_of_closer closes, opens, ← seek?_of_scans split (scans.append scans_opener_mark)
        (ih _ (by omega) (by omega) rfl), length]

theorem seek?_eq_closeOffset? (order : start ≤ stop) (inside : stop ≤ source.length) :
    kind.seek? source stop 0 start = kind.closeOffset? source start (some stop) := by
  have part : window source start (some stop) = source.between start stop := by
    rw [window, Option.map_some, Option.getD_some, offsetIn_natCast, offsetIn_natCast, Text.between]
  rw [seek?_eq_splitBlock? order inside, closeOffset?, part, offsetIn_natCast]
  rfl

end BlockKind

end Stencil
