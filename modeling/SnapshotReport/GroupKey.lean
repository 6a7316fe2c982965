import SnapshotReport.BlankName
import SnapshotReport.Schema
import SnapshotReport.Sorting

/-! The groups that own entities: a schema in a catalog. Two keys are the same group if both parts
agree. A source without schemas shows the catalog alone, so different keys may have one label. In a
list of groups that comes from outside, entries may be missing. -/
namespace SnapshotReport

structure GroupKey where
  catalog : String
  schema : Schema
deriving DecidableEq, Repr

namespace GroupKey

/-- A group without a schema of its own has the catalog's name for both parts. -/
def create (catalog : String) (schema : Option String) : Except BlankName GroupKey := do
  let catalog ← BlankName.catalog.refuse catalog
  return ⟨catalog, .named (schema.getD catalog)⟩

/-- Whether both are groups, and the same one. No group is not the same as no group. -/
def same : Option GroupKey → Option GroupKey → Bool
  | some a, some b => a == b
  | _, _ => false

/-- No group first, then by catalog, then by schema. -/
def order : Option GroupKey → Option GroupKey → Ordering
  | none, none => .eq
  | none, some _ => .lt
  | some _, none => .gt
  | some a, some b => (Text.byUnits a.catalog b.catalog).then (a.schema.order b.schema)

def label (twoLevel : Bool) (key : GroupKey) : String :=
  if twoLevel then key.catalog ++ " / " ++ key.schema.text else key.catalog

/-- Of equal keys the first is kept. -/
def distinct (keys : List GroupKey) : List GroupKey :=
  keys.eraseDups

/-- The distinct keys in the order of their labels. -/
def sort (twoLevel : Bool) (keys : List GroupKey) : List GroupKey :=
  sortBy (fun a b => Text.byUnits (a.label twoLevel) (b.label twoLevel)) (distinct keys)

theorem same_some_iff {group : Option GroupKey} {key : GroupKey} :
    same group (some key) = true ↔ group = some key := by
  cases group <;> simp [same]

theorem mem_distinct {key : GroupKey} {keys : List GroupKey} : key ∈ distinct keys ↔ key ∈ keys :=
  List.mem_eraseDups

theorem mem_sort {twoLevel : Bool} {keys : List GroupKey} {key : GroupKey} :
    key ∈ sort twoLevel keys ↔ key ∈ keys := by
  rw [sort, (sortBy_perm _ _).mem_iff, mem_distinct]

/-- The entries that are not the same group as an earlier one. Missing entries are all kept. -/
def distinctEntries (entries : List (Option GroupKey)) : List (Option GroupKey) :=
  entries.eraseDupsBy same

/-- The distinct entries in the order of their labels. A single entry is in order whatever it is;
of several ones none may be missing, because a missing group has no label. -/
def sortEntries? (twoLevel : Bool) : List (Option GroupKey) → Option (List (Option GroupKey))
  | [none] => some [none]
  | entries => (entries.mapM id).map fun keys => (sort twoLevel keys).map some

end GroupKey

end SnapshotReport
