import SnapshotReport.Numeral
import SnapshotReport.Text.Units
import SnapshotReport.Value

/-! The loose order of values of unknown shape. Two texts are in the order of texts, and so are
arrays and objects, by what is displayed of them; anything else is compared as a number. Values that
cannot be told apart this way count as equal, so this is no order in the strict sense. A value that
has no text cannot be compared at all. -/
namespace SnapshotReport

/-- An exact value on the line of numbers. -/
inductive Quantity where
  | infinite (negative : Bool)
  | ratio (numerator : Int) (denominator : Nat)
deriving Repr

namespace Quantity

def order : Quantity → Quantity → Ordering
  | infinite a, infinite b => compare b a
  | infinite negative, ratio .. => if negative then .lt else .gt
  | ratio .., infinite negative => if negative then .gt else .lt
  | ratio n d, ratio m e => compare (n * e) (m * d)

def ofInt (i : Int) : Quantity := ratio i 1

end Quantity

def Number.quantity? : Number → Option Quantity
  | nan => none
  | infinite negative => some (.infinite negative)
  | finite negative x =>
    let size : Int := x.significand * 2 ^ x.exponent.toNat
    some (.ratio (if negative then -size else size) (2 ^ (-x.exponent).toNat))

namespace Value

/-- What a value is compared as: arrays and objects as texts, and nothing that was given as zero. -/
def comparand? : Value → Option (Option Scalar)
  | null => some (some (.number (.zero false)))
  | absent => some none
  | scalar s => some (some s)
  | array items => (array items).display?.map fun text => some (.text text)
  | object fields => (object fields).display?.map fun text => some (.text text)

end Value

namespace Scalar

/-- What a scalar counts for beside another one. Beside an integer a text is read as an integer. -/
def quantityBeside (s other : Scalar) : Option Quantity :=
  match s, other with
  | text t, integer _ => (Numeral.integer? t).map .ofInt
  | text t, _ => (Numeral.number t).quantity?
  | number x, _ => x.quantity?
  | boolean b, _ => some (.ofInt b.toNat)
  | integer i, _ => some (.ofInt i)

def order (a b : Scalar) : Ordering :=
  match a, b with
  | text s, text t => Text.byUnits s t
  | a, b =>
    match a.quantityBeside b, b.quantityBeside a with
    | some x, some y => x.order y
    | _, _ => .eq

end Scalar

namespace Value

def order? (a b : Value) : Option Ordering := do
  match ← a.comparand?, ← b.comparand? with
  | some s, some t => return s.order t
  | _, _ => return .eq

/-- Whether a value counts as given: nothing, an empty text, zero and `false` do not. -/
def isGiven : Value → Bool
  | null => false
  | absent => false
  | scalar (.text t) => t ≠ ""
  | scalar (.boolean b) => b
  | scalar (.integer i) => i ≠ 0
  | scalar (.number .nan) => false
  | scalar (.number (.infinite _)) => true
  | scalar (.number (.finite _ x)) => x.significand ≠ 0
  | array _ => true
  | object _ => true

/-- What an object holds under a name. -/
def field (value : Value) (name : String) : Value :=
  match value with
  | object fields => (fields.lookup name).getD .absent
  | _ => .absent

/-- Whether there is nothing that could have fields. -/
def isNothing : Value → Bool
  | null => true
  | absent => true
  | _ => false

end Value

end SnapshotReport
