import Stencil.Number.Integer

/-!
The shortest decimal of a binary number.  Every binary number with a fixed significand stands for an
interval of reals that round to it.  Among the decimals in that interval the shortest has the fewest
digits, and of two with equally few it is the nearer one, an exact tie going to the even digit.  The
search runs over the decimal grids from the coarsest to the finest and tests on each the two points
around the number, in exact arithmetic.
-/

set_option autoImplicit false
set_option relaxedAutoImplicit false

namespace Stencil

/-- The number `digits · 10 ^ exponent`. -/
structure ShortDecimal where
  digits : Nat
  exponent : Int
deriving DecidableEq, Repr

/-- The positive number `significand · 2 ^ exponent`, where `narrow` tells that the next lower number
is only half as far away as the next higher one. -/
structure BinaryNumber where
  significand : Nat
  exponent : Int
  narrow : Bool
deriving DecidableEq, Repr

namespace BinaryNumber

/-- The scale on which a quarter of the number's last binary place is a whole number. -/
def quarterScale (number : BinaryNumber) (grid : Int) : Nat :=
  Nat.pow 2 (number.exponent - 2).toNat * Nat.pow 10 (-grid).toNat

/-- The width of the grid `10 ^ grid` on the same scale. -/
def gridScale (number : BinaryNumber) (grid : Int) : Nat :=
  Nat.pow 2 (2 - number.exponent).toNat * Nat.pow 10 grid.toNat

/-- Whether the point `point · 10 ^ grid` rounds to the number: it lies between the halfway marks to
the two neighbours, which themselves round to the number when its significand is even. -/
def rounds (number : BinaryNumber) (grid : Int) (point : Nat) : Bool :=
  let quarter := number.quarterScale grid
  let low := (4 * number.significand - if number.narrow then 1 else 2) * quarter
  let high := (4 * number.significand + 2) * quarter
  let place := point * number.gridScale grid
  if number.significand % 2 = 0 then low ≤ place && place ≤ high else low < place && place < high

/-- The point of a grid that stands for the number, if one of the two around it rounds to it. -/
def pointOn? (number : BinaryNumber) (grid : Int) : Option Nat :=
  let exact := 4 * number.significand * number.quarterScale grid
  let width := number.gridScale grid
  let below := exact / width
  let above := below + 1
  match number.rounds grid below, number.rounds grid above with
  | true, true =>
    let down := exact - below * width
    let up := above * width - exact
    some (if down < up ∨ (down = up ∧ below % 2 = 0) then below else above)
  | true, false => some below
  | false, true => some above
  | false, false => none

def magnitude (number : BinaryNumber) : Int :=
  let top := number.significand * Nat.pow 2 number.exponent.toNat
  let bottom := Nat.pow 2 (-number.exponent).toNat
  if bottom ≤ top then (natText (top / bottom)).length
  else 1 - (natText ((bottom + top - 1) / top - 1)).length

def firstOn (number : BinaryNumber) : List Int → Option ShortDecimal
  | [] => none
  | grid :: finer =>
    match number.pointOn? grid with
    | some point => some ⟨point, grid⟩
    | none => firstOn number finer

def withoutZeros (fuel : Nat) (decimal : ShortDecimal) : ShortDecimal :=
  match fuel with
  | 0 => decimal
  | fuel + 1 =>
    if decimal.digits % 10 = 0 then withoutZeros fuel ⟨decimal.digits / 10, decimal.exponent + 1⟩
    else decimal

def exactly (number : BinaryNumber) : ShortDecimal :=
  if number.exponent < 0 then
    ⟨number.significand * Nat.pow 5 (-number.exponent).toNat, number.exponent⟩
  else ⟨number.significand * Nat.pow 2 number.exponent.toNat, 0⟩

/-- The shortest decimal that rounds to the number, without zeros at the end.  Seventeen digits tell
any two numbers of double precision apart. -/
def shortest (number : BinaryNumber) : ShortDecimal :=
  let grids := (List.range 17).map fun (n : Nat) => number.magnitude - 1 - n
  let found := (number.firstOn grids).getD number.exactly
  withoutZeros (natText found.digits).length found

end BinaryNumber

end Stencil
