import SnapshotReport.Entity
import SnapshotReport.Sorting.Bisection

/-! Entities that refer to each other, possibly in cycles. A graph of `n` entities holds them in a
table, and a reference is a position in the table, so no reference can point outside the graph. -/
namespace SnapshotReport

-- The nodes of small graphs are written as numerals.
instance (priority := high) neZero_one : @NeZero Nat Zero.ofOfNat0 1 := ⟨Nat.succ_ne_zero 0⟩

instance (priority := high) neZero_two : @NeZero Nat Zero.ofOfNat0 2 := ⟨Nat.succ_ne_zero 1⟩

instance (priority := high) neZero_three : @NeZero Nat Zero.ofOfNat0 3 := ⟨Nat.succ_ne_zero 2⟩

instance (priority := high) neZero_four : @NeZero Nat Zero.ofOfNat0 4 := ⟨Nat.succ_ne_zero 3⟩

structure Graph (n : Nat) where
  table : Vector (Entity (Fin n)) n

namespace Graph

variable {n : Nat}

def entity (g : Graph n) (i : Fin n) : Entity (Fin n) :=
  g.table[i]

def name (g : Graph n) (i : Fin n) : String :=
  (g.entity i).name

def type (g : Graph n) (i : Fin n) : TypeTag :=
  (g.entity i).type

/-- What an entity shows of an attribute value that is not expanded. -/
def display (g : Graph n) (i : Fin n) (name : String) (value : AttributeValue (Fin n)) :
    Option String :=
  (g.entity i).display g.name name value

/-- One entity more, which may refer to itself. -/
def push (g : Graph n) (e : Entity (Fin (n + 1))) : Graph (n + 1) :=
  ⟨(g.table.map (·.map Fin.castSucc)).push e⟩

/-- Entities in their natural order. Where a schema has no name, that order need not be a consistent
one, and then the comparisons that are made decide. -/
def sort (g : Graph n) (list : List (Fin n)) : List (Fin n) :=
  sortByBisection (fun i j => (g.entity i).order (g.entity j)) list

theorem sort_perm (g : Graph n) (list : List (Fin n)) : (g.sort list).Perm list :=
  sortByBisection_perm _ list

theorem entity_push_last (g : Graph n) (e : Entity (Fin (n + 1))) :
    (g.push e).entity (Fin.last n) = e := by
  simp [push, entity]

theorem entity_push_castSucc (g : Graph n) (e : Entity (Fin (n + 1))) (i : Fin n) :
    (g.push e).entity i.castSucc = (g.entity i).map Fin.castSucc := by
  simp [push, entity, Vector.getElem_push_lt]

end Graph

end SnapshotReport
