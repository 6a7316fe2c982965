import SnapshotReport.BlankName
import SnapshotReport.Sorting
import SnapshotReport.Text.Units

/-! The types of entities. A type is known by its full name alone. -/
namespace SnapshotReport

structure TypeTag where
  fullName : String
deriving DecidableEq, Repr

namespace TypeTag

def create (fullName : String) : Except BlankName TypeTag := do
  return ⟨← BlankName.type.refuse fullName⟩

def order (a b : TypeTag) : Ordering :=
  Text.byUnits a.fullName b.fullName

def sort (types : List TypeTag) : List TypeTag :=
  sortBy order types

end TypeTag

end SnapshotReport
