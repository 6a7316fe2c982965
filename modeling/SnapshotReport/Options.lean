import SnapshotReport.Value
import SnapshotReport.Warning

/-! The options of a report. There is one, the depth to which entities are expanded. -/
namespace SnapshotReport

/-- The depth as it was given, if it was. -/
structure Options where
  expandDepth : Value := .absent

namespace Options

/-- The entities that a listed entity refers to are expanded, and nothing below them. -/
def defaultDepth : Number := .one

def isDepth (x : Number) : Bool :=
  x.isWhole && x.reaches 0

/-- The depth that a value stands for, if it stands for one. -/
def depth? : Value → Option Number
  | .scalar (.number x) => if isDepth x then some x else none
  | _ => none

/-- The depth to use: the one given if it is a whole number from zero on, else the default one, with
a warning if something else was given. There is neither if what was given cannot be shown. -/
def resolve (options : Options) : Option (Number × List Warning) :=
  match options.expandDepth with
  | .absent => some (defaultDepth, [])
  | given =>
    match depth? given with
    | some x => some (x, [])
    | none => given.display?.map fun shown => (defaultDepth, [.invalidDepth shown defaultDepth])

end Options

end SnapshotReport
