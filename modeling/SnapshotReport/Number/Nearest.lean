import SnapshotReport.Number.Shortest

/-! The number nearest to a given fraction or decimal. A value halfway between two numbers goes to
the one with an even significand, and a value beyond all finite numbers to an infinity. -/
namespace SnapshotReport

namespace Number

/-- The natural number nearest to `n / d`, the even one of two. -/
def roundQuotient (n d : Nat) : Nat :=
  match compare (2 * (n % d)) d with
  | .lt => n / d
  | .gt => n / d + 1
  | .eq => n / d + n / d % 2

/-- The number nearest to `n / d`, which is not zero. It is rounded at the place of its last bit,
and may reach the next power of two by that. -/
def ofRatio (negative : Bool) (n d : Nat) : Number :=
  let scaled (place : Int) : Nat × Nat := (n * 2 ^ (-place).toNat, d * 2 ^ place.toNat)
  let lowest : Int := max (-1074) (n.log2 - d.log2 - 53)
  let place := if (scaled lowest).1 / (scaled lowest).2 < 2 ^ 53 then lowest else lowest + 1
  let rounded := roundQuotient (scaled place).1 (scaled place).2
  let (significand, exponent) :=
    if rounded = 2 ^ 53 then (2 ^ 52, place + 1) else (rounded, place)
  if h : (significand < 2 ^ 53 ∧ -1074 ≤ exponent ∧ exponent ≤ 971) ∧
      (2 ^ 52 ≤ significand ∨ exponent = -1074) then
    .finite negative ⟨significand, exponent, h.1, h.2⟩
  else .infinite negative

/-- The number nearest to a decimal. What has more than 310 places in front of the point is beyond
all numbers, and what begins more than 330 places behind it is closer to zero than to any other. -/
def ofDecimal (negative : Bool) (d : Decimal) : Number :=
  let places := (Nat.toDigits 10 d.digits).length + d.exponent
  if d.digits = 0 ∨ places < -330 then zero negative
  else if 310 < places then .infinite negative
  else ofRatio negative (d.digits * 10 ^ d.exponent.toNat) (10 ^ (-d.exponent).toNat)

end Number

end SnapshotReport
