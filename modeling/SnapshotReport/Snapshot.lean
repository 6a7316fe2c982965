import SnapshotReport.Graph

/-! A snapshot: what was captured of a database. The entities are listed in buckets, one for each
type name; an entity may be reached by references without being listed. -/
namespace SnapshotReport

/-- Where the snapshot comes from. Only shown, never looked into. -/
structure Source where
  url : String
  productName : String
  productVersion : String
  user : String
deriving DecidableEq, Repr

/-- The types that make up the frame of a database: groups, what contains them, and what is shown
only inside its owners. -/
structure StructuralTypes where
  group : TypeTag
  container : Option TypeTag
  leaf : Option TypeTag
deriving DecidableEq, Repr

namespace StructuralTypes

def includes (types : StructuralTypes) (type : TypeTag) : Bool :=
  types.group == type || types.container == some type || types.leaf == some type

end StructuralTypes

/-- A type name under which no entity can be listed. -/
structure ReservedName where
  typeName : String
deriving DecidableEq, Repr

/-- Buckets of entities by type name. -/
abbrev Buckets (n : Nat) : Type :=
  Record (List (Fin n))

namespace Buckets

variable {n : Nat}

/-- Names under which every table of buckets holds something that is not a list. No entity can be
added there, but a bucket may be put in its place. -/
def reservedNames : List String :=
  ["constructor", "toString", "valueOf", "hasOwnProperty", "isPrototypeOf", "propertyIsEnumerable",
   "toLocaleString", "__proto__", "__defineGetter__", "__defineSetter__", "__lookupGetter__",
   "__lookupSetter__"]

/-- The entities listed under a type name; `none` if what is found there is not a list. -/
def find? (buckets : Buckets n) (typeName : String) : Option (List (Fin n)) :=
  match buckets.get? typeName with
  | some list => some list
  | none => if reservedNames.contains typeName then none else some []

/-- Lists an entity at the end of a bucket, a new one if need be. -/
def append (buckets : Buckets n) (typeName : String) (i : Fin n) : Buckets n :=
  buckets.insert typeName ((buckets.get? typeName).getD [] ++ [i])

/-- Lists entities by their types, each at the end of the bucket of its type. Fails with the first
type name under which nothing can be listed. -/
def ofEntities (g : Graph n) (listed : List (Fin n)) : Except ReservedName (Buckets n) :=
  listed.foldlM
    (fun buckets i =>
      match buckets.find? (g.type i).fullName with
      | some _ => .ok (buckets.append (g.type i).fullName i)
      | none => .error ⟨(g.type i).fullName⟩)
    ∅

end Buckets

structure Snapshot (n : Nat) where
  graph : Graph n
  source : Source
  structural : StructuralTypes
  /-- The types whose entities are reported. -/
  types : List TypeTag
  /-- The groups that are reported. Without one of them there is no report. -/
  groups : List (Option GroupKey)
  /-- Whether the source tells schemas from catalogs. -/
  twoLevel : Bool
  buckets : Buckets n

namespace Snapshot

variable {n : Nat}

/-- The groups that are reported, if none is missing. -/
def reportedGroups (s : Snapshot n) : Except Failure (List GroupKey) :=
  s.groups.mapM fun
    | some key => .ok key
    | none => .error (.engine .missingGroup)

/-- The entities listed under a type. -/
def entitiesOf (s : Snapshot n) (type : TypeTag) : Except Failure (List (Fin n)) :=
  match s.buckets.find? type.fullName with
  | some list => .ok list
  | none => .error (.engine (.notAList type.fullName))

end Snapshot

end SnapshotReport
