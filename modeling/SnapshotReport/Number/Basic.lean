/-! Numbers as a provider hands them over: signed binary fractions of 53 bits, the two infinities,
and the value that is no number. A finite number is kept as a sign and a magnitude, so both signs
of zero are there and everything that is asked of a number is answered in integers. -/
namespace SnapshotReport

-- Powers are those of core here, whatever else is in scope.
@[default_instance 20000]
instance (priority := high) natPow : Pow Nat Nat := instPowNat

instance (priority := high) intPow : Pow Int Nat := instPowNat

/-- A value `significand * 2 ^ exponent`. The bounds leave one pair for each value. -/
structure Magnitude where
  significand : Nat
  exponent : Int
  bounded : significand < 2 ^ 53 ∧ -1074 ≤ exponent ∧ exponent ≤ 971
  normal : 2 ^ 52 ≤ significand ∨ exponent = -1074
deriving DecidableEq, Repr

namespace Magnitude

/-- The whole part. -/
def floor (x : Magnitude) : Nat :=
  x.significand * 2 ^ x.exponent.toNat / 2 ^ (-x.exponent).toNat

def isWhole (x : Magnitude) : Bool :=
  x.significand % 2 ^ (-x.exponent).toNat == 0

def one : Magnitude := ⟨2 ^ 52, -52, by decide, by decide⟩

end Magnitude

inductive Number where
  | nan
  | infinite (negative : Bool)
  | finite (negative : Bool) (magnitude : Magnitude)
deriving DecidableEq, Repr

namespace Number

def zero (negative : Bool) : Number := .finite negative ⟨0, -1074, by decide, by decide⟩

def one : Number := .finite false .one

/-- Whether the number is at least the natural number `count`. -/
def reaches (count : Nat) : Number → Bool
  | nan => false
  | infinite negative => !negative
  | finite negative x => if negative then count == 0 && x.significand == 0 else count ≤ x.floor

def isWhole : Number → Bool
  | finite _ x => x.isWhole
  | _ => false

/-- The whole part, toward zero. What is no number counts as zero; an infinity has no whole part. -/
def truncate? : Number → Option Int
  | nan => some 0
  | infinite _ => none
  | finite negative x => some (if negative then -x.floor else x.floor)

end Number

end SnapshotReport
