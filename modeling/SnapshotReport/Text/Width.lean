import SnapshotReport.Number.Basic
import SnapshotReport.Text.Lines
import SnapshotReport.Text.Units

/-! Indentation by a width that comes as a number. The fraction of a width does not count, and
neither does what is no number. -/
namespace SnapshotReport.Text

inductive WidthError where
  /-- A text cannot be moved by less than nothing, or without end. -/
  | outOfRange
  /-- The text would hold more units than a text can. -/
  | tooLong
deriving DecidableEq, Repr

/-- The greatest number of units in a text. -/
def maxUnits : Nat := 2 ^ 29 - 24

/-- How many units an indented text has. -/
def indentedSize (width : Nat) (text : String) : Nat :=
  (units text).length + width * ((lines text.toList).countP (!·.isEmpty))

def indentBy (width : Number) (text : String) : Except WidthError String :=
  match width.truncate? with
  | none => .error .outOfRange
  | some (.negSucc _) => .error .outOfRange
  | some (.ofNat columns) =>
    if columns ≤ maxUnits && indentedSize columns text ≤ maxUnits then .ok (indent columns text)
    else .error .tooLong

end SnapshotReport.Text
