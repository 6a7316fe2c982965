import SnapshotReport.Scalar

/-! What the library warns of. A warning does not keep anything from being done. -/
namespace SnapshotReport

inductive Warning where
  /-- A depth that cannot be used was left aside for the one used by default. -/
  | invalidDepth (given : String) (used : Number)
  /-- A serializer took the place of another one. -/
  | replacing (id : String)
deriving Repr

namespace Warning

/-- The line that reports a warning. -/
def line (warning : Warning) : String :=
  "[snapshot-serializer] " ++ match warning with
    | invalidDepth given used =>
      "Ignoring invalid expandDepth " ++ given ++ "; using " ++ (Scalar.number used).display ++ "."
    | replacing id => "Replacing serializer \"" ++ id ++ "\"."

end Warning

end SnapshotReport
