import SnapshotReport.Number.Basic

/-! The shortest decimal that stands for a binary fraction. A decimal reads back as the binary
fraction nearest to it, so all the decimals of an interval read back as the same one. Of those the
shortest is wanted, of the shortest the nearest, and of two equally near ones the even one. All
comparisons are exact, between natural numbers. -/
namespace SnapshotReport

/-- A value `digits * 10 ^ exponent`. -/
structure Decimal where
  digits : Nat
  exponent : Int
deriving DecidableEq, Repr

namespace Magnitude

/-- The gap to the neighbour below is half the gap to the one above. -/
def narrowBelow (x : Magnitude) : Bool :=
  x.significand == 2 ^ 52 && -1074 < x.exponent

/-- The ends of the interval that reads back as `x`, in quarters of its last binary place. -/
def lowEnd (x : Magnitude) : Nat :=
  4 * x.significand - if x.narrowBelow then 1 else 2

@[inherit_doc lowEnd]
def highEnd (x : Magnitude) : Nat :=
  4 * x.significand + 2

/-- A quarter of the last binary place of `x` and a step of the grid `10 ^ place`, both multiplied
by one factor that makes them natural numbers. -/
def commonUnits (x : Magnitude) (place : Int) : Nat × Nat :=
  (2 ^ (x.exponent - 2).toNat * 10 ^ (-place).toNat, 10 ^ place.toNat * 2 ^ (2 - x.exponent).toNat)

/-- Whether a decimal lies in the interval of `x`. A value halfway to a neighbour reads back as the
one with an even significand. -/
def readsBack (x : Magnitude) (d : Decimal) : Bool :=
  let (quarter, step) := x.commonUnits d.exponent
  let value := d.digits * step
  if x.significand % 2 == 0 then x.lowEnd * quarter ≤ value && value ≤ x.highEnd * quarter
  else x.lowEnd * quarter < value && value < x.highEnd * quarter

/-- The two points around `x` on the grid `10 ^ place`, the nearer one first. -/
def neighbours (x : Magnitude) (place : Int) : List Decimal :=
  let (quarter, step) := x.commonUnits place
  let value := 4 * x.significand * quarter
  let below := value / step
  let lowFirst := match compare (2 * value) ((2 * below + 1) * step) with
    | .lt => true
    | .gt => false
    | .eq => below % 2 == 0
  if lowFirst then [⟨below, place⟩, ⟨below + 1, place⟩] else [⟨below + 1, place⟩, ⟨below, place⟩]

/-- How many decimal places stand before the point: `10 ^ (x.places - 1) ≤ x < 10 ^ x.places`. -/
def places (x : Magnitude) : Int :=
  let (quarter, step) := x.commonUnits 0
  let value := 4 * x.significand * quarter
  if step ≤ value then (Nat.toDigits 10 (value / step)).length
  else 1 - (Nat.toDigits 10 ((step - 1) / value)).length

/-- The value itself; every binary fraction is a decimal one. -/
def exact (x : Magnitude) : Decimal :=
  ⟨x.significand * 2 ^ x.exponent.toNat * 5 ^ (-x.exponent).toNat, min x.exponent 0⟩

/-- The shortest decimal of a value that is not zero: the first grid, from coarse to fine, with a
neighbour that reads back. Seventeen digits are enough for 53 bits. -/
def shortest (x : Magnitude) : Decimal :=
  ((List.range 17).findSome? fun (count : Nat) =>
    (x.neighbours (x.places - 1 - count)).find? x.readsBack).getD x.exact

end Magnitude

end SnapshotReport
