import SnapshotReport.Number.Layout

/-! Scalar values of attributes and their text in a report. -/
namespace SnapshotReport

inductive Scalar where
  | text (value : String)
  | number (value : Number)
  | boolean (value : Bool)
  | integer (value : Int)
deriving DecidableEq, Repr

namespace Scalar

/-- Numbers have up to six zeros behind the point and up to twenty-one digits in front of it;
smaller and larger ones are written with an exponent. -/
def numberLayout : NumberLayout where
  plainFrom := -6
  plainBelow := 21
  nan := "NaN"
  infinity := "Infinity"

def display : Scalar → String
  | text value => value
  | number value => numberLayout.text value
  | boolean value => if value then "true" else "false"
  | integer value => toString value

/-- The name of the kind of a scalar in messages. -/
def label : Scalar → String
  | text _ => "string"
  | number _ => "number"
  | boolean _ => "boolean"
  | integer _ => "bigint"

end Scalar

end SnapshotReport
