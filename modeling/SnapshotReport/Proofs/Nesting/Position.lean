import SnapshotReport.Proofs.Failures
import SnapshotReport.Proofs.Nesting.Depth

/-! Where entities stand within the block of another one. A position is told by the steps that lead
to it. One entity may stand at several positions, with other names on the path to each of them. -/
namespace SnapshotReport.Expansion

variable {n : Nat}

/-- The name of an attribute, and a place among the entities that it refers to. -/
structure Step where
  name : String
  place : Nat
deriving DecidableEq, Repr

/-- A step leads from entity `i`, at the end of a path, to entity `j` that is expanded there. -/
structure Leads (g : Graph n) (scope : Scope) (path : Path) (i : Fin n) (step : Step)
    (j : Fin n) : Prop where
  expands : scope.expands path = true
  fresh : g.name j ∉ path
  describes : step.name ∉ Entity.structuralNames
  refers : ∃ value, (step.name, Attribute.value value) ∈ (g.entity i).attributes.entries ∧
    value.targets[step.place]? = some j ∧
    ∀ target, value = .ref target → scope.hides (g.type target) = false

/-- From entity `i` at the end of the first path, steps lead to an entity at the end of the second
one. -/
inductive Position (g : Graph n) (scope : Scope) : Path → Fin n → List Step → Path → Fin n → Prop
  where
  | root {path i} : Position g scope path i [] path i
  | step {path i step j steps path' k} : Leads g scope path i step j →
      Position g scope (path.insert (g.name i)) j steps path' k →
      Position g scope path i (step :: steps) path' k

variable {g : Graph n} {scope : Scope} {path path' : Path} {i j : Fin n} {steps : List Step}

theorem Leads.nests {step : Step} (leads : Leads g scope path i step j) :
    Nests g scope path i j := by
  obtain ⟨expands, fresh, describes, value, stands, there, shown⟩ := leads
  refine ⟨expands, fresh, step.name, value, stands, describes, ?_⟩
  have listed := List.mem_of_getElem? there
  cases value with
  | ref target =>
    obtain rfl := List.mem_singleton.mp listed
    exact .inl ⟨rfl, shown j rfl⟩
  | entities items => exact .inr ⟨items, rfl, listed⟩
  | scalar | scalars | null => exact absurd listed List.not_mem_nil

theorem block_ok_iff : (∃ made, block g scope path i = .ok made) ↔
    ∀ chain, Chain g scope path i chain → ∀ j ∈ i :: chain, (g.entity j).Readable := by
  rw [← failure?_eq_none_iff, failure?_block, List.head?_eq_none_iff, failures_eq_nil_iff]

theorem Nests.block_ok (nests : Nests g scope path i j)
    (done : ∃ made, block g scope path i = .ok made) :
    ∃ made, block g scope (path.insert (g.name i)) j = .ok made := by
  rw [block_ok_iff] at done ⊢
  exact Throughout.nested done nests

/-- A block that is made has the blocks of all positions within it. -/
theorem Position.block_ok (position : Position g scope path i steps path' j)
    (done : ∃ made, block g scope path i = .ok made) :
    ∃ made, block g scope path' j = .ok made := by
  induction position with
  | root => exact done
  | step leads _ ih => exact ih (leads.nests.block_ok done)

end SnapshotReport.Expansion
