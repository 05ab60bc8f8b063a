import Stencil.Text.Basic

/-!
How alike two texts are, and the closest of several names.  Two texts are matched by their longest
common run, and then what stands before it and what stands after it in both are matched in the same
way; the ratio is the share of characters so matched.  In a long second text a character that makes up
more than a hundredth of it does not start a match, it only extends one.
-/

set_option autoImplicit false
set_option relaxedAutoImplicit false

namespace Stencil

/-- A run of characters common to two texts: where it begins in each, and its length. -/
structure CommonRun where
  first : Nat
  second : Nat
  length : Nat
deriving DecidableEq, Repr

namespace Similarity

/-- How many leading characters two texts share, as long as `fit` holds of them. -/
def shared (fit : Char → Bool) : Text → Text → Nat
  | x :: a, y :: b => if x = y ∧ fit y then shared fit a b + 1 else 0
  | _, _ => 0

def longer (run other : CommonRun) : CommonRun :=
  if run.length < other.length then other else run

def suffixes : Text → List Text
  | [] => []
  | c :: text => (c :: text) :: suffixes text

def places (text : Text) : List (Text × Nat) :=
  (suffixes text).zipIdx

/-- The longest run of fitting characters that begins at one place of the first text and at any of
several places of the second, unless `best` is as long already. -/
def longestFrom (fit : Char → Bool) (others : List (Text × Nat)) (best : CommonRun)
    (place : Text × Nat) : CommonRun :=
  others.foldl (fun best other => longer best ⟨place.2, other.2, shared fit place.1 other.1⟩) best

/-- The longest run of fitting characters; of several the one that begins first in `a`, and of those
the one that begins first in `b`. -/
def longestRun (fit : Char → Bool) (a b : Text) : CommonRun :=
  let others := places b
  (places a).foldl (longestFrom fit others) ⟨0, 0, 0⟩

def extraLeft (a b : Text) (run : CommonRun) : Nat :=
  shared (fun _ => true) (a.take run.first).reverse (b.take run.second).reverse

def extraRight (a b : Text) (run : CommonRun) : Nat :=
  shared (fun _ => true) (a.drop (run.first + run.length)) (b.drop (run.second + run.length))

/-- The longest run of fitting characters, extended by equal characters of every kind. -/
def extendedRun (fit : Char → Bool) (a b : Text) : CommonRun :=
  let run := longestRun fit a b
  let left := extraLeft a b run
  ⟨run.first - left, run.second - left, left + run.length + extraRight a b run⟩

theorem length_suffixes (text : Text) : (suffixes text).length = text.length := by
  induction text with
  | nil => rfl
  | cons c text ih => simp [suffixes, ih]

theorem longestFrom_first (fit : Char → Bool) (others : List (Text × Nat)) (best : CommonRun)
    (place : Text × Nat) :
    (longestFrom fit others best place).first = best.first ∨
      (longestFrom fit others best place).first = place.2 := by
  induction others generalizing best with
  | nil => exact Or.inl rfl
  | cons other others ih =>
    rcases ih (longer best ⟨place.2, other.2, shared fit place.1 other.1⟩) with h | h
    · simp only [longestFrom, List.foldl_cons] at h ⊢
      rw [h]
      unfold longer
      split
      · exact Or.inr rfl
      · exact Or.inl rfl
    · exact Or.inr h

theorem longestRun_first (fit : Char → Bool) (a b : Text) :
    (longestRun fit a b).first < a.length ∨ (longestRun fit a b).first = 0 := by
  have bounded : ∀ (found : List (Text × Nat)) (best : CommonRun),
      (∀ place ∈ found, place.2 < a.length) → best.first < a.length ∨ best.first = 0 →
        (found.foldl (longestFrom fit (places b)) best).first < a.length ∨
          (found.foldl (longestFrom fit (places b)) best).first = 0 := by
    intro found
    induction found with
    | nil => intro best _ h; exact h
    | cons place found ih =>
      intro best all h
      refine ih _ (fun other member => all other (List.mem_cons_of_mem _ member)) ?_
      rcases longestFrom_first fit (places b) best place with same | here
      · rw [same]
        exact h
      · rw [here]
        exact Or.inl (all place List.mem_cons_self)
  refine bounded _ _ ?_ (Or.inr rfl)
  intro place member
  have bound := List.snd_lt_of_mem_zipIdx member
  simpa [length_suffixes] using bound

theorem extendedRun_first_lt (fit : Char → Bool) {a b : Text}
    (found : (extendedRun fit a b).length ≠ 0) : (extendedRun fit a b).first < a.length := by
  have place := longestRun_first fit a b
  cases a with
  | nil => simp [extendedRun, longestRun, places, suffixes, extraLeft, extraRight, shared] at found
  | cons c a =>
    simp only [extendedRun, List.length_cons] at place ⊢
    omega

def matched (fit : Char → Bool) (a b : Text) : Nat :=
  let run := extendedRun fit a b
  if _found : run.length = 0 then 0
  else
    matched fit (a.take run.first) (b.take run.second) + run.length +
      matched fit (a.drop (run.first + run.length)) (b.drop (run.second + run.length))
termination_by a.length
decreasing_by
  · have bound := extendedRun_first_lt fit _found
    simp only [List.length_take]
    omega
  · have found : (extendedRun fit a b).length ≠ 0 := _found
    have bound := extendedRun_first_lt fit found
    simp only [List.length_drop]
    omega

/-- The characters of a long text that are too frequent in it to start a match. -/
def frequent (text : Text) : List Char :=
  if text.length < 200 then []
  else text.eraseDups.filter fun c => text.length / 100 + 1 < text.count c

/-- How many characters of two texts are matched when the frequent ones start no match. -/
def matchedChars (a b : Text) : Nat :=
  let avoided := frequent b
  matched (fun c => !avoided.contains c) a b

/-- The share of the characters of both texts that are matched, and one if there are none. -/
def ratio (a b : Text) : Rat :=
  if a.length + b.length = 0 then 1
  else (2 * matchedChars a b : Nat) / (a.length + b.length : Nat)

def cutoff : Rat := 3 / 5

/-- Whether a name is a better match than another: more alike, or equally alike and later in the
order of texts. -/
def isBetter (missing name other : Text) : Bool :=
  let r := ratio name missing
  let s := ratio other missing
  s < r || (s = r && other < name)

def prefer (missing : Text) (choice : Option Text) (name : Text) : Option Text :=
  match choice with
  | none => some name
  | some other => if isBetter missing name other then some name else some other

def closest? (missing : Text) (names : List Text) : Option Text :=
  (names.filter fun name => cutoff ≤ ratio name missing).foldl (prefer missing) none

end Similarity

end Stencil
