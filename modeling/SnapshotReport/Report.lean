import SnapshotReport.Expansion
import SnapshotReport.Snapshot
import SnapshotReport.Text.Newline

/-! The report of a snapshot. It is an outline: a header, the reported types, then for each group
the types with the entities that the group owns. All lists are sorted, so the report does not show
in which order things were captured. -/
namespace SnapshotReport.Report

variable {n : Nat}

def divider : String :=
  String.ofList (List.replicate 65 '-')

/-- A type with the given entities below, or nothing if there are none. -/
def listing (g : Graph n) (scope : Scope) (type : TypeTag) (list : List (Fin n)) :
    Except Failure (Option Outline) :=
  if list.isEmpty then .ok none
  else do
    let blocks ← (g.sort list).mapM (Expansion.entityOutline g scope)
    return some (.node (type.fullName ++ ":") blocks)

/-- The types whose entities are listed. Structural ones are left to the entities that refer to
them. -/
def listedTypes (s : Snapshot n) : List TypeTag :=
  (TypeTag.sort s.types).filter fun type => !s.structural.includes type

/-- The listings of the entities that a group owns. No group owns nothing. -/
def listings (s : Snapshot n) (scope : Scope) (group : Option GroupKey) :
    Except Failure (List Outline) := do
  let found ← (listedTypes s).mapM fun type => do
    let list ← s.entitiesOf type
    listing s.graph scope type (list.filter fun i => GroupKey.same (s.graph.entity i).group group)
  return found.filterMap id

/-- Listings one below the other, with an empty line between two of them. -/
def spaced (outlines : List Outline) : List Outline :=
  outlines.intersperse .gap

def groupTitle (twoLevel : Bool) (group : GroupKey) : String :=
  (if twoLevel then "Catalog & Schema: " else "Catalog: ") ++ group.label twoLevel

/-- A group with its listings below. -/
def groupOutline (s : Snapshot n) (scope : Scope) (group : GroupKey) : Except Failure Outline := do
  return .node (groupTitle s.twoLevel group) (spaced (← listings s scope (some group)))

def header (s : Snapshot n) : List Outline :=
  [.leaf ("Database snapshot for " ++ s.source.url),
   .leaf divider,
   .leaf ("Database type: " ++ s.source.productName),
   .leaf ("Database version: " ++ s.source.productVersion),
   .leaf ("Database user: " ++ s.source.user),
   .node "Included types:" ((TypeTag.sort s.types).map fun type => .leaf type.fullName)]

/-- The entities of the type of groups are shown by the titles of the groups, not as references. -/
def scope (s : Snapshot n) (depth : Number) : Scope :=
  { depth, groupType := some s.structural.group }

def outlines (s : Snapshot n) (depth : Number) : Except Failure (List Outline) := do
  let keys ← s.reportedGroups
  let groups ← (GroupKey.sort s.twoLevel keys).mapM (groupOutline s (scope s depth))
  return header s ++ groups.flatMap fun group => [.gap, group]

/-- The whole report, its last line ended. Captured text keeps its own line ends up to here. -/
def text (s : Snapshot n) (depth : Number) : Except Failure String := do
  return Text.normalizeNewlines (Outline.writeAll (← outlines s depth) ++ "\n")

end SnapshotReport.Report
