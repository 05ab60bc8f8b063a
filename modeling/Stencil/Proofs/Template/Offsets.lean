import Stencil.Proofs.Template.Segments

/-!
Places told by offsets.  The offsets at which the lines of a source begin tell the place of every offset:
its line is the number of lines that have begun by then, and its column is counted from the last of them.
In this way an offset and its place determine each other.
-/

set_option autoImplicit false
set_option relaxedAutoImplicit false

namespace Stencil

namespace Text

/-- The offsets just past the line feeds of a text that begins at an offset. -/
def pastFeeds (start : Nat) (text : Text) : List Nat :=
  (text.zipIdx start).filterMap fun entry =>
    if entry.1 = '\n' then some (entry.2 + 1) else none

def lineStarts (source : Text) : List Nat :=
  0 :: pastFeeds 0 source

variable {front back text : Text}

theorem pastFeeds_append (start : Nat) (front back : Text) :
    pastFeeds start (front ++ back) =
      pastFeeds start front ++ pastFeeds (start + front.length) back := by
  rw [pastFeeds, List.zipIdx_append, List.filterMap_append]
  rfl

theorem length_pastFeeds (start : Nat) (text : Text) :
    (pastFeeds start text).length = text.count '\n' := by
  induction text generalizing start with
  | nil => rfl
  | cons c text ih =>
    have rest := ih (start + 1)
    simp only [pastFeeds] at rest ⊢
    by_cases feed : c = '\n'
    · simp [feed, rest]
    · simp [feed, rest]

theorem bounds_of_mem_pastFeeds {start offset : Nat} (member : offset ∈ pastFeeds start text) :
    start < offset ∧ offset ≤ start + text.length := by
  simp only [pastFeeds, List.mem_filterMap] at member
  obtain ⟨⟨c, place⟩, among, begins⟩ := member
  have range := List.mem_zipIdx among
  split at begins
  · cases begins
    dsimp only at range ⊢
    omega
  · cases begins

theorem lineStarts_append (front back : Text) :
    lineStarts (front ++ back) = lineStarts front ++ pastFeeds front.length back := by
  rw [lineStarts, pastFeeds_append, Nat.zero_add]
  rfl

theorem length_lineStarts (text : Text) : (lineStarts text).length = 1 + text.count '\n' := by
  rw [lineStarts, List.length_cons, length_pastFeeds, Nat.add_comm]

theorem le_length_of_mem_lineStarts {offset : Nat} (member : offset ∈ lineStarts text) :
    offset ≤ text.length := by
  rcases List.mem_cons.1 member with rfl | later
  · exact Nat.zero_le _
  · have bounds := bounds_of_mem_pastFeeds later
    omega

theorem countP_lineStarts_append (front back : Text) :
    (lineStarts (front ++ back)).countP (· ≤ front.length) = 1 + front.count '\n' := by
  have begun : (lineStarts front).countP (· ≤ front.length) = (lineStarts front).length :=
    List.countP_eq_length.2 fun offset member =>
      decide_eq_true (le_length_of_mem_lineStarts member)
  have later : (pastFeeds front.length back).countP (· ≤ front.length) = 0 := by
    rw [List.countP_eq_zero]
    intro offset member
    have bounds := bounds_of_mem_pastFeeds member
    simpa using bounds.1
  rw [lineStarts_append, List.countP_append, begun, later, length_lineStarts, Nat.add_zero]

theorem getD_lineStarts_count (text : Text) :
    (lineStarts text).getD (text.count '\n') 0 +
      (text.reverse.takeWhile (· ≠ '\n')).length = text.length := by
  induction text using List.reverseRecOn with
  | nil => rfl
  | append_singleton text c ih =>
    have length := length_lineStarts text
    by_cases feed : c = '\n'
    · subst feed
      have begun : pastFeeds text.length ['\n'] = [text.length + 1] := rfl
      simp [lineStarts_append, begun, length, Nat.add_comm]
    · have none_begun : pastFeeds text.length [c] = [] := by simp [pastFeeds, feed]
      have more : (text ++ [c]).reverse.takeWhile (· ≠ '\n') =
          c :: text.reverse.takeWhile (· ≠ '\n') := by simp [feed]
      have same : (text ++ [c]).count '\n' = text.count '\n' := by simp [feed]
      rw [lineStarts_append, none_begun, List.append_nil, same, more, List.length_cons,
        List.length_append, List.length_singleton, ← Nat.add_assoc, ih]

theorem getD_lineStarts_append (front back : Text) :
    (lineStarts (front ++ back)).getD (front.count '\n') 0 =
      (lineStarts front).getD (front.count '\n') 0 := by
  have length := length_lineStarts front
  rw [lineStarts_append, List.getD_append _ _ _ _ (by omega)]

end Text

namespace Position

def ofOffset (source : Text) (offset : Nat) : Position :=
  let line := (Text.lineStarts source).countP (· ≤ offset)
  ⟨line, offset - (Text.lineStarts source).getD (line - 1) 0⟩

def offsetIn (source : Text) (place : Position) : Nat :=
  (Text.lineStarts source).getD (place.line - 1) 0 + place.column

theorem ofOffset_append (front back : Text) :
    ofOffset (front ++ back) front.length = after front := by
  have last := Text.getD_lineStarts_count front
  rw [ofOffset, Text.countP_lineStarts_append, after, Nat.add_sub_cancel_left,
    Text.getD_lineStarts_append]
  congr 1
  omega

theorem ofOffset_eq_after {source : Text} {offset : Nat} (inside : offset ≤ source.length) :
    ofOffset source offset = after (source.take offset) := by
  have place := ofOffset_append (source.take offset) (source.drop offset)
  rwa [List.take_append_drop, List.length_take_of_le inside] at place

theorem offsetIn_ofOffset {source : Text} {offset : Nat} (inside : offset ≤ source.length) :
    offsetIn source (ofOffset source offset) = offset := by
  have last := Text.getD_lineStarts_count (source.take offset)
  have same := Text.getD_lineStarts_append (source.take offset) (source.drop offset)
  rw [List.length_take_of_le inside] at last
  rw [List.take_append_drop] at same
  rw [ofOffset_eq_after inside, offsetIn, after, Nat.add_sub_cancel_left, same]
  exact last

end Position

end Stencil
