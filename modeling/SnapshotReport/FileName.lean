import SnapshotReport.Text.Blank
import SnapshotReport.Text.LowerCase

/-! File names. -/
namespace SnapshotReport.FileName

/-- What follows the last dot of a file name, in lower case. A name without a dot is taken for an
extension itself. -/
def extension (name : String) : String :=
  let trimmed := Text.trimChars name.toList
  Text.lowerCase (String.ofList (trimmed.reverse.takeWhile (· ≠ '.')).reverse)

end SnapshotReport.FileName
