import SnapshotReport.Proofs.Ordering
import SnapshotReport.Proofs.Traversal
import SnapshotReport.Report

/-! What a report lists. A section stands for each group, and in it the entities that the group owns
are listed by type, those of the frame of the database left out. -/
namespace SnapshotReport

variable {n : Nat}

namespace Snapshot

/-- The groups of which none is missing. -/
def keys (s : Snapshot n) : List GroupKey :=
  s.groups.filterMap id

theorem mem_keys {s : Snapshot n} {key : GroupKey} : key ∈ s.keys ↔ some key ∈ s.groups := by
  simp [keys]

theorem reportedGroups_eq (s : Snapshot n) :
    s.reportedGroups = if none ∈ s.groups then .error (.engine .missingGroup) else .ok s.keys := by
  unfold reportedGroups keys
  induction s.groups with
  | nil => rfl
  | cons group rest ih =>
    rw [List.mapM_cons]
    cases group with
    | none => simp [bind, Except.bind]
    | some key =>
      rw [ih]
      by_cases missing : none ∈ rest
      · simp [missing, bind, Except.bind]
      · simp [missing, bind, Except.bind, pure, Except.pure]

end Snapshot

namespace Report

variable {s : Snapshot n} {key : GroupKey} {type : TypeTag} {i : Fin n}

theorem mem_listedTypes :
    type ∈ listedTypes s ↔ type ∈ s.types ∧ s.structural.includes type = false := by
  rw [listedTypes, List.mem_filter, TypeTag.sort, (sortBy_perm _ _).mem_iff, Bool.not_eq_true']

/-- Entity `i` is listed under a type in the section of a group. -/
structure Lists (s : Snapshot n) (key : GroupKey) (type : TypeTag) (i : Fin n) : Prop where
  reported : some key ∈ s.groups
  included : type ∈ s.types
  unstructural : s.structural.includes type = false
  bucket : ∃ list, s.entitiesOf type = .ok list ∧ i ∈ list
  owned : (s.graph.entity i).group = some key

def owns (s : Snapshot n) (key : GroupKey) (i : Fin n) : Bool :=
  GroupKey.same (s.graph.entity i).group (some key)

theorem owns_iff : owns s key i = true ↔ (s.graph.entity i).group = some key :=
  GroupKey.same_some_iff

/-- The entities among some that a group owns, in their order in its listing. -/
def owned (s : Snapshot n) (key : GroupKey) (list : List (Fin n)) : List (Fin n) :=
  s.graph.sort (list.filter (owns s key))

theorem mem_owned {list : List (Fin n)} :
    i ∈ owned s key list ↔ i ∈ list ∧ (s.graph.entity i).group = some key := by
  rw [owned, (s.graph.sort_perm _).mem_iff, List.mem_filter, owns_iff]

/-- Within a group names and types alone decide. -/
theorem owned_eq_sortBy (s : Snapshot n) (key : GroupKey) (list : List (Fin n)) :
    owned s key list = sortBy (fun i j => (s.graph.entity i).orderInGroup (s.graph.entity j))
      (list.filter (owns s key)) := by
  have grouped : ∀ i ∈ list.filter (owns s key), (s.graph.entity i).group = some key := by
    intro i member
    exact owns_iff.mp (List.mem_filter.mp member).2
  exact Graph.sort_of_group_eq grouped

/-- The blocks of listed entities under the name of their type, unless there are none. -/
def titled (type : TypeTag) (blocks : List Outline) : Option Outline :=
  if blocks.isEmpty then none else some (.node (type.fullName ++ ":") blocks)

theorem isEmpty_of_mapM_sort {g : Graph n} {make : Fin n → Except Failure Outline}
    {list : List (Fin n)} {blocks : List Outline} (made : (g.sort list).mapM make = .ok blocks) :
    blocks.isEmpty = list.isEmpty :=
  (isEmpty_of_mapM made).trans (g.sort_perm list).isEmpty_eq

theorem listing_eq (g : Graph n) (scope : Scope) (type : TypeTag) (list : List (Fin n)) :
    listing g scope type list =
      (g.sort list).mapM (Expansion.entityOutline g scope) >>= fun blocks =>
        .ok (titled type blocks) := by
  rw [listing]
  split
  · rename_i empty
    have sorted : g.sort list = [] :=
      List.isEmpty_iff.mp ((g.sort_perm list).isEmpty_eq.trans empty)
    rw [sorted]
    rfl
  · rename_i some
    cases made : (g.sort list).mapM (Expansion.entityOutline g scope) with
    | error failure => rfl
    | ok blocks =>
      have shown := (isEmpty_of_mapM_sort made).trans (Bool.eq_false_iff.mpr some)
      simp only [bind, Except.bind, titled, shown]
      rfl

/-- The listing of a type in the section of a group: the blocks of the entities that it owns. -/
def typeListing (s : Snapshot n) (scope : Scope) (key : GroupKey) (type : TypeTag) :
    Except Failure (Option Outline) := do
  let list ← s.entitiesOf type
  let blocks ← (owned s key list).mapM (Expansion.entityOutline s.graph scope)
  return titled type blocks

theorem listings_eq (s : Snapshot n) (scope : Scope) (key : GroupKey) :
    listings s scope (some key) =
      (listedTypes s).mapM (typeListing s scope key) >>= fun found => .ok (found.filterMap id) := by
  unfold listings
  simp only [listing_eq]
  rfl

theorem lists_iff : Lists s key type i ↔ key ∈ GroupKey.sort s.twoLevel s.keys ∧
    type ∈ listedTypes s ∧ ∃ list, s.entitiesOf type = .ok list ∧ i ∈ owned s key list := by
  rw [GroupKey.mem_sort, Snapshot.mem_keys, mem_listedTypes]
  constructor
  · rintro ⟨reported, included, unstructural, ⟨list, found, member⟩, owner⟩
    exact ⟨reported, ⟨included, unstructural⟩, list, found, mem_owned.mpr ⟨member, owner⟩⟩
  · rintro ⟨reported, ⟨included, unstructural⟩, list, found, member⟩
    obtain ⟨member, owner⟩ := mem_owned.mp member
    exact ⟨reported, included, unstructural, ⟨list, found, member⟩, owner⟩

end Report

end SnapshotReport
