import SnapshotReport.Text.Blank

/-! Names that a type, a group or an entity cannot go without. -/
namespace SnapshotReport

/-- Which name was found blank. -/
inductive BlankName where
  | type
  | catalog
  | entity
deriving DecidableEq, Repr

namespace BlankName

def field : BlankName → String
  | type => "TypeTag.fullName"
  | catalog => "GroupKey.catalog"
  | entity => "Entity.name"

def message (blank : BlankName) : String :=
  blank.field ++ " must be a non-empty string"

/-- Passes a name on unless there is nothing to see of it. -/
def refuse (blank : BlankName) (name : String) : Except BlankName String :=
  if Text.allBlank name then .error blank else .ok name

end BlankName

end SnapshotReport
