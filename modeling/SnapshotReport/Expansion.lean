import SnapshotReport.Graph
import SnapshotReport.Outline
import SnapshotReport.Path

/-! The outline of an entity. Each attribute that describes the entity adds a line, or a block in
which the entities that it refers to are expanded in turn. Two rules end the expansion: an entity
whose name is on the path is not shown again, and from a given depth on an attribute shows only its
text. The first alone is enough on every graph: of two nested expansions in a row at least one puts
a new name on the path. -/
namespace SnapshotReport

/-- How far entities are expanded, and the type of the entities that a reference never shows because
they only place the entity that refers to them. In a collection they are shown like others. -/
structure Scope where
  depth : Number
  groupType : Option TypeTag

namespace Scope

def hides (scope : Scope) (type : TypeTag) : Bool :=
  scope.groupType == some type

/-- Entities are expanded while the path holds no more names than the depth. -/
def expands (scope : Scope) (path : Path) : Bool :=
  scope.depth.reaches path.size

end Scope

namespace Expansion

variable {n : Nat}

/-- A line is left out if there is nothing to show. -/
def line (name : String) (shown : Option String) : Option Outline :=
  match shown with
  | none => none
  | some text => if text.isEmpty then none else some (.leaf (name ++ ": " ++ text))

/-- An expanded reference: the name of the target with the block of the target below. -/
def reference (name target : String) (block : List Outline) : Option Outline :=
  if target.isEmpty && block.isEmpty then none else some (.node (name ++ ": " ++ target) block)

/-- An expanded collection, left out if none of its entities is shown. -/
def collection (name : String) (blocks : List Outline) : Option Outline :=
  if blocks.isEmpty then none else some (.node (name ++ ":") blocks)

/-- An entity whose name is not on the path. -/
abbrev Fresh (g : Graph n) (path : Path) : Type :=
  { i : Fin n // g.name i ∉ path }

def fresh? (g : Graph n) (path : Path) (i : Fin n) : Option (Fresh g path) :=
  if known : g.name i ∈ path then none else some ⟨i, known⟩

/-- What an attribute of entity `i` adds to the outline at the end of a path. The blocks of the
entities that it expands are made by `block`. -/
def attributeOutline (g : Graph n) (scope : Scope) (path : Path)
    (block : Fresh g path → Except Failure (List Outline)) (i : Fin n) (name : String)
    (value : AttributeValue (Fin n)) : Except Failure (Option Outline) :=
  match value with
  | .ref target =>
    if scope.hides (g.type target) then .ok none
    else match fresh? g path target with
      | none => .ok none
      | some found =>
        if scope.expands path then return reference name (g.name target) (← block found)
        else .ok (line name (g.display i name value))
  | .entities items =>
    if items.isEmpty then .ok none
    else if scope.expands path then do
      let blocks ← (items.filterMap (fresh? g path)).mapM fun found => do
        return Outline.node (g.name found) (← block found)
      return collection name blocks
    else .ok (line name (g.display i name value))
  | _ => .ok (line name (g.display i name value))

/-- The number of entities whose names are not on the path. -/
def remaining (g : Graph n) (path : Path) : Nat :=
  (List.finRange n).countP fun i => g.name i ∉ path

/-- Bounds the expansions that can be nested below entity `i`: two for each remaining entity, and
one more if the entity itself is no longer among them. -/
def measure (g : Graph n) (path : Path) (i : Fin n) : Nat :=
  2 * remaining g path + if g.name i ∈ path then 1 else 0

theorem remaining_insert_lt {g : Graph n} {path : Path} {i : Fin n} (h : g.name i ∉ path) :
    remaining g (path.insert (g.name i)) < remaining g path := by
  have split : remaining g (path.insert (g.name i)) =
      ((List.finRange n).filter (g.name · ∉ path)).countP (g.name · ≠ g.name i) := by
    rw [remaining, List.countP_filter]
    congr 1
    funext j
    simp [Path.mem_insert]
  rw [split, remaining, List.countP_eq_length_filter (l := List.finRange n)]
  refine Nat.lt_of_le_of_ne List.countP_le_length fun all => ?_
  have apart := List.countP_eq_length.mp all i (by simp [h])
  simp at apart

theorem measure_lt {g : Graph n} {path : Path} (i : Fin n) (found : Fresh g path) :
    measure g (path.insert (g.name i)) found < measure g path i := by
  unfold measure
  by_cases known : g.name i ∈ path
  · rw [Path.insert_of_mem known, if_neg found.property, if_pos known]
    omega
  · have := remaining_insert_lt known
    rw [if_neg known]
    split <;> omega

/-- The block of entity `i` at the end of a path: the outlines of its attributes. The entities that
it expands stand at the end of the path that has the name of `i` too. -/
def block (g : Graph n) (scope : Scope) (path : Path) (i : Fin n) :
    Except Failure (List Outline) := do
  let outlines ← (g.entity i).described.mapM fun (name, held) => do
    let value ← held.read (g.name i) name
    attributeOutline g scope path (fun found => block g scope (path.insert (g.name i)) found)
      i name value
  return outlines.filterMap id
termination_by measure g path i
decreasing_by exact measure_lt i found

/-- A listed entity: its name with its block below. Its own name is the path to it. -/
def entityOutline (g : Graph n) (scope : Scope) (i : Fin n) : Except Failure Outline := do
  return .node (g.name i) (← block g scope (Path.empty.insert (g.name i)) i)

end Expansion

end SnapshotReport
