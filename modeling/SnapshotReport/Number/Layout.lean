import SnapshotReport.Number.Shortest

/-! How the digits of a number are written down: in place, with zeros up to the point, or with an
exponent. Where the one ends and the other begins is a choice of the text that shows the number. -/
namespace SnapshotReport

/-- The leading digit is written in its place for exponents from `plainFrom` to below `plainBelow`,
and in front of a written exponent otherwise. -/
structure NumberLayout where
  plainFrom : Int
  plainBelow : Int
  nan : String
  infinity : String

namespace NumberLayout

variable (layout : NumberLayout)

/-- Digits with the point after the first `point` of them, which may lie outside the digits. -/
def plain (digits : List Char) (point : Int) : List Char :=
  if digits.length ≤ point then digits ++ List.replicate (point - digits.length).toNat '0'
  else if 0 < point then digits.take point.toNat ++ '.' :: digits.drop point.toNat
  else '0' :: '.' :: List.replicate (-point).toNat '0' ++ digits

/-- The first digit, the others behind a point, and the exponent with its sign. -/
def scientific (digits : List Char) (exponent : Int) : List Char :=
  let mantissa := match digits with
    | lead :: next :: rest => lead :: '.' :: next :: rest
    | short => short
  let sign := if exponent < 0 then '-' else '+'
  mantissa ++ 'e' :: sign :: Nat.toDigits 10 exponent.natAbs

/-- A decimal without the zeros at its end. -/
def decimal (d : Decimal) : List Char :=
  let digits := Nat.toDigits 10 d.digits
  let point := digits.length + d.exponent
  let significant := (digits.reverse.dropWhile (· == '0')).reverse
  if layout.plainFrom < point && point ≤ layout.plainBelow then plain significant point
  else scientific significant (point - 1)

/-- The text of a number. Zero has no sign. -/
def text : Number → String
  | .nan => layout.nan
  | .infinite negative => if negative then "-" ++ layout.infinity else layout.infinity
  | .finite negative x =>
    if x.significand = 0 then "0"
    else String.ofList ((if negative then ['-'] else []) ++ layout.decimal x.shortest)

end NumberLayout

end SnapshotReport
