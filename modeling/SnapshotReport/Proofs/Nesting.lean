import SnapshotReport.Expansion
import SnapshotReport.Proofs.Traversal

/-! Which entities are expanded within which. A block is made of the blocks of the entities that
are expanded within it, and of nothing else of the graph below. A chain of nested expansions is the
only way to reach an entity that is not listed itself. -/
namespace SnapshotReport.Expansion

variable {n : Nat}

/-- Entity `j` is expanded within entity `i` at the end of a path: an attribute that describes `i`
refers to it, it is not placed by the reference alone, and its name is not on the path yet. -/
structure Nests (g : Graph n) (scope : Scope) (path : Path) (i j : Fin n) : Prop where
  expands : scope.expands path = true
  fresh : g.name j ∉ path
  shown : ∃ name value, (name, Attribute.value value) ∈ (g.entity i).attributes.entries ∧
    name ∉ Entity.structuralNames ∧
    (value = .ref j ∧ scope.hides (g.type j) = false ∨ ∃ items, value = .entities items ∧ j ∈ items)

/-- Entities each expanded within the one before, the first within `i`. -/
inductive Chain (g : Graph n) (scope : Scope) : Path → Fin n → List (Fin n) → Prop where
  | nil {path i} : Chain g scope path i []
  | cons {path i j rest} : Nests g scope path i j → Chain g scope (path.insert (g.name i)) j rest →
      Chain g scope path i (j :: rest)

/-- Entity `i` has a property, and so have all entities that are expanded within it. -/
def Throughout (g : Graph n) (scope : Scope) (P : Fin n → Prop) (path : Path) (i : Fin n) : Prop :=
  ∀ chain, Chain g scope path i chain → ∀ j ∈ i :: chain, P j

/-- The entities that an attribute value expands at the end of a path, in the order in which their
blocks are made. -/
def expanded (g : Graph n) (scope : Scope) (path : Path) :
    AttributeValue (Fin n) → List (Fresh g path)
  | .ref target =>
    if scope.hides (g.type target) || !scope.expands path then []
    else [target].filterMap (fresh? g path)
  | .entities items => if scope.expands path then items.filterMap (fresh? g path) else []
  | _ => []

/-- What an attribute of entity `i` adds to the outline, given the names and the blocks of the
entities that it expands. -/
def assemble (g : Graph n) (scope : Scope) (path : Path) (i : Fin n) (name : String)
    (value : AttributeValue (Fin n)) (blocks : List (String × List Outline)) :
    Option Outline :=
  match value with
  | .ref target =>
    if scope.hides (g.type target) || decide (g.name target ∈ path) then none
    else if scope.expands path then reference name (g.name target) (blocks.flatMap Prod.snd)
    else line name (g.display i name value)
  | .entities items =>
    if items.isEmpty then none
    else if scope.expands path then
      collection name (blocks.map fun (name, block) => .node name block)
    else line name (g.display i name value)
  | _ => line name (g.display i name value)

/-- The body of `block`: the block of entity `i`, given the blocks of the entities that it may
expand. -/
def blockStep (g : Graph n) (scope : Scope) (path : Path)
    (inner : Fresh g path → Except Failure (List Outline)) (i : Fin n) :
    Except Failure (List Outline) := do
  let outlines ← (g.entity i).described.mapM fun (name, held) => do
    let value ← held.read (g.name i) name
    attributeOutline g scope path inner i name value
  return outlines.filterMap id

theorem block_eq (g : Graph n) (scope : Scope) (path : Path) (i : Fin n) :
    block g scope path i =
      blockStep g scope path (fun found => block g scope (path.insert (g.name i)) found) i := by
  rw [block]
  rfl

variable {g : Graph n} {scope : Scope} {path : Path} {i j : Fin n}

theorem mem_described {name : String} {held : Attribute (Fin n)} :
    (name, held) ∈ (g.entity i).described ↔
      (name, held) ∈ (g.entity i).attributes.entries ∧ name ∉ Entity.structuralNames := by
  rw [Entity.described, List.mem_filter, (Record.sorted_perm _).mem_iff]
  simp

theorem Throughout.self {P : Fin n → Prop} (all : Throughout g scope P path i) : P i :=
  all [] .nil i (List.mem_singleton_self i)

theorem Throughout.nested {P : Fin n → Prop} (all : Throughout g scope P path i)
    (nests : Nests g scope path i j) : Throughout g scope P (path.insert (g.name i)) j := by
  intro chain within k member
  exact all (j :: chain) (.cons nests within) k (List.mem_cons_of_mem i member)

theorem fresh?_eq_some {found : Fresh g path} : fresh? g path j = some found ↔ j = found := by
  unfold fresh?
  split
  · rename_i known
    simp only [reduceCtorEq, false_iff]
    rintro rfl
    exact found.property known
  · rw [Option.some.injEq]
    exact Subtype.ext_iff

theorem mem_expanded {value : AttributeValue (Fin n)} {found : Fresh g path} :
    found ∈ expanded g scope path value ↔ scope.expands path = true ∧
      (value = .ref found.val ∧ scope.hides (g.type found) = false ∨
        ∃ items, value = .entities items ∧ found.val ∈ items) := by
  cases value with
  | ref target =>
    simp only [expanded, Bool.or_eq_true, Bool.not_eq_true', AttributeValue.ref.injEq, reduceCtorEq,
      false_and, exists_false, or_false]
    split
    · rename_i skipped
      simp only [List.not_mem_nil, false_iff]
      rintro ⟨expands, rfl, placed⟩
      simp [expands, placed] at skipped
    · rename_i kept
      simp only [List.mem_filterMap, List.mem_singleton, exists_eq_left, fresh?_eq_some]
      constructor
      · rintro rfl
        simpa [and_comm] using kept
      · exact fun h => h.2.1
  | entities items =>
    simp only [expanded, reduceCtorEq, false_and, false_or, AttributeValue.entities.injEq,
      exists_eq_left']
    split
    · rename_i expands
      simp [expands, List.mem_filterMap, fresh?_eq_some]
    · rename_i skipped
      simp [skipped]
  | scalar | scalars | null => simp [expanded]

theorem nests_iff : Nests g scope path i j ↔
    ∃ name value found, (name, Attribute.value value) ∈ (g.entity i).described ∧
      found ∈ expanded g scope path value ∧ found.val = j := by
  constructor
  · rintro ⟨expands, fresh, name, value, stands, describes, shows⟩
    exact ⟨name, value, ⟨j, fresh⟩, mem_described.mpr ⟨stands, describes⟩,
      mem_expanded.mpr ⟨expands, shows⟩, rfl⟩
  · rintro ⟨name, value, found, member, expanded, rfl⟩
    obtain ⟨stands, describes⟩ := mem_described.mp member
    obtain ⟨expands, shows⟩ := mem_expanded.mp expanded
    exact ⟨expands, found.property, name, value, stands, describes, shows⟩

/-- An attribute is shown once the blocks of the entities that it expands are made, one after the
other. Nothing else of it can fail. -/
theorem attributeOutline_eq (inner : Fresh g path → Except Failure (List Outline)) (name : String)
    (value : AttributeValue (Fin n)) :
    attributeOutline g scope path inner i name value =
      ((expanded g scope path value).mapM fun found => do return (g.name found, ← inner found)) >>=
        fun blocks => .ok (assemble g scope path i name value blocks) := by
  cases value with
  | ref target =>
    simp only [attributeOutline, expanded, assemble]
    by_cases hidden : scope.hides (g.type target) = true
    · simp [hidden]
    · by_cases known : g.name target ∈ path
      · simp [hidden, known, fresh?]
      · by_cases expands : scope.expands path = true
        · simp only [hidden, expands, known, fresh?, Bool.false_eq_true, if_false, if_true,
            dite_false, Bool.not_true, Bool.or_false, decide_false, List.filterMap_cons, List.filterMap_nil,
            List.mapM_cons, List.mapM_nil]
          cases inner ⟨target, known⟩ with
          | error e => rfl
          | ok block => simp [bind, Except.bind, pure, Except.pure]
        · simp [hidden, known, expands, fresh?]
  | entities items =>
    simp only [attributeOutline, expanded, assemble]
    by_cases empty : items.isEmpty = true
    · simp [List.isEmpty_iff.mp empty]
    · by_cases expands : scope.expands path = true
      · rw [if_neg empty, if_pos expands, if_pos expands, mapM_bind_pure inner (g.name ·)]
        simp only [if_neg empty, if_pos expands]
        cases (items.filterMap (fresh? g path)).mapM fun found => do
          return (g.name found, ← inner found)
        · rfl
        · rfl
      · simp [empty, expands]
  | scalar | scalars | null => rfl

/-- Only the blocks of entities that are expanded within it have a part in a block. -/
theorem blockStep_congr {inner inner' : Fresh g path → Except Failure (List Outline)}
    (same : ∀ found : Fresh g path, Nests g scope path i found → inner found = inner' found) :
    blockStep g scope path inner i = blockStep g scope path inner' i := by
  unfold blockStep
  congr 1
  refine mapM_congr fun (name, held) member => ?_
  cases held with
  | value value =>
    simp only [Attribute.read, bind, Except.bind]
    rw [attributeOutline_eq, attributeOutline_eq]
    congr 1
    refine mapM_congr fun found mem => ?_
    rw [same found (nests_iff.mpr ⟨name, value, found, member, mem, rfl⟩)]
  | malformed | unreadable => rfl

theorem nesting_induction (g : Graph n) (scope : Scope) {motive : Path → Fin n → Prop}
    (step : ∀ path i, (∀ j, Nests g scope path i j → motive (path.insert (g.name i)) j) →
      motive path i) (path : Path) (i : Fin n) : motive path i :=
  step path i fun j _nests => nesting_induction g scope step (path.insert (g.name i)) j
termination_by measure g path i
decreasing_by exact measure_lt i ⟨j, _nests.fresh⟩

/-- The recursion of `block` unrolled `budget` times. What is nested deeper is left to `stop`. -/
def unrolled (g : Graph n) (scope : Scope) (stop : Path → Fin n → Except Failure (List Outline)) :
    Nat → Path → Fin n → Except Failure (List Outline)
  | 0, path, i => stop path i
  | budget + 1, path, i =>
    blockStep g scope path
      (fun found => unrolled g scope stop budget (path.insert (g.name i)) found) i

theorem unrolled_eq_block (stop : Path → Fin n → Except Failure (List Outline)) (budget : Nat)
    (enough : ∀ chain, Chain g scope path i chain → chain.length < budget) :
    unrolled g scope stop budget path i = block g scope path i := by
  induction budget generalizing path i with
  | zero => exact absurd (enough [] .nil) (Nat.not_lt_zero _)
  | succ budget ih =>
    rw [unrolled, block_eq]
    refine blockStep_congr fun found nests => ih fun rest nested => ?_
    have longer := enough (found.val :: rest) (.cons nests nested)
    simpa using longer

theorem Chain.length_le_measure {chain : List (Fin n)} (nested : Chain g scope path i chain) :
    chain.length ≤ measure g path i := by
  induction nested with
  | nil => exact Nat.zero_le _
  | @cons path i j rest nests _ ih =>
    exact Nat.succ_le_of_lt (Nat.lt_of_le_of_lt ih (measure_lt i ⟨j, nests.fresh⟩))

/-- Nothing is left to `stop` where the budget is beyond the measure. -/
theorem block_eq_unrolled (budget : Nat) (enough : measure g path i < budget) :
    block g scope path i = unrolled g scope (fun _ _ => .ok []) budget path i :=
  (unrolled_eq_block _ budget fun _ nested =>
    Nat.lt_of_le_of_lt nested.length_le_measure enough).symm

theorem entityOutline_eq_unrolled (budget : Nat)
    (enough : measure g (Path.empty.insert (g.name i)) i < budget) :
    entityOutline g scope i = do
      return .node (g.name i)
        (← unrolled g scope (fun _ _ => .ok []) budget (Path.empty.insert (g.name i)) i) := by
  rw [entityOutline, block_eq_unrolled budget enough]

end SnapshotReport.Expansion
