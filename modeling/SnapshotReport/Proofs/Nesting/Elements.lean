import SnapshotReport.Proofs.Nesting.Contribution
import SnapshotReport.Proofs.Nesting.Position

/-! What an expanded collection shows. A reference is passed over if its target is on the path, and
also if the target has the type of groups; of the elements of a collection only those on the path
are. The two come to the same as long as no element has the type of groups, and where one has, it is
shown. -/
namespace SnapshotReport.Expansion

variable {n : Nat}

/-- The outline of entity `j` at the end of a path. -/
def outlineAt (g : Graph n) (scope : Scope) (path : Path) (j : Fin n) : Except Failure Outline := do
  return .node (g.name j) (← block g scope path j)

/-- The elements of a collection that references in its place would not pass over. -/
def referable (g : Graph n) (scope : Scope) (path : Path) (items : List (Fin n)) : List (Fin n) :=
  items.filter fun j => !scope.hides (g.type j) && decide (g.name j ∉ path)

variable {g : Graph n} {scope : Scope} {path path' path'' : Path} {i j k : Fin n} {name : String}
  {items : List (Fin n)} {steps : List Step} {step : Step}

theorem mem_referable : j ∈ referable g scope path items ↔
    j ∈ items ∧ scope.hides (g.type j) = false ∧ g.name j ∉ path := by
  simp [referable]

/-- An expanded reference shows its target, unless it is passed over. -/
theorem contribution_ref_expanded (expands : scope.expands path = true) (target : Fin n) :
    contribution g scope path i (name, .value (.ref target)) =
      if target ∈ referable g scope path [target] then
        block g scope (path.insert (g.name i)) target >>= fun made =>
          .ok (reference name (g.name target) made)
      else .ok none := by
  by_cases kept : scope.hides (g.type target) = false ∧ g.name target ∉ path
  · obtain ⟨kind, fresh⟩ := kept
    rw [if_pos (mem_referable.mpr ⟨List.mem_singleton_self target, kind, fresh⟩)]
    change attributeOutline g scope path _ i name (.ref target) = _
    simp only [attributeOutline, kind, fresh?, dif_neg fresh, expands, if_true]
    rfl
  · rw [if_neg fun shown => kept (mem_referable.mp shown).2]
    apply contribution_suppressed
    rwa [not_and_or, Bool.not_eq_false, not_not] at kept

/-- An expanded collection shows its elements off the path, of whatever type they are, in their
order. -/
theorem contribution_entities_expanded (expands : scope.expands path = true) :
    contribution g scope path i (name, .value (.entities items)) =
      (offPath g path items).mapM (outlineAt g scope (path.insert (g.name i))) >>= fun outlines =>
        .ok (collection name outlines) := by
  change attributeOutline g scope path _ i name (.entities items) = _
  rw [← map_val_fresh, List.mapM_map, attributeOutline, if_pos expands]
  split
  · rename_i empty
    obtain rfl := List.isEmpty_iff.mp empty
    rfl
  · rfl

theorem offPath_eq_referable_iff : offPath g path items = referable g scope path items ↔
    ∀ j ∈ items, g.name j ∉ path → scope.hides (g.type j) = false := by
  constructor
  · intro same j member fresh
    have shown : j ∈ offPath g path items := mem_offPath.mpr ⟨member, fresh⟩
    rw [same] at shown
    exact (mem_referable.mp shown).2.1
  · intro kinds
    apply List.filter_congr
    intro j member
    by_cases fresh : g.name j ∈ path
    · simp [fresh]
    · simp [fresh, kinds j member fresh]

theorem Position.concat (position : Position g scope path i steps path' j)
    (leads : Leads g scope path' j step k) :
    Position g scope path i (steps ++ [step]) (path'.insert (g.name j)) k := by
  induction position with
  | root => exact .step leads .root
  | step first _ ih => exact .step first (ih leads)

theorem Position.exists_of_concat
    (position : Position g scope path i (steps ++ [step]) path'' k) : ∃ path' j,
      Position g scope path i steps path' j ∧ Leads g scope path' j step k := by
  induction steps generalizing path i with
  | nil =>
    obtain - | ⟨leads, rest⟩ := position
    cases rest
    exact ⟨path, i, .root, leads⟩
  | cons first steps ih =>
    obtain - | ⟨leads, rest⟩ := position
    obtain ⟨path', j, front, last⟩ := ih rest
    exact ⟨path', j, .step leads front, last⟩

/-- An entity of the type of groups is expanded as an element of a collection only. -/
theorem Leads.of_hides (leads : Leads g scope path i step j)
    (hidden : scope.hides (g.type j) = true) :
    ∃ items, (step.name, Attribute.value (.entities items)) ∈ (g.entity i).described ∧ j ∈ items := by
  obtain ⟨-, -, describes, value, stands, there, shown⟩ := leads
  have listed := List.mem_of_getElem? there
  cases value with
  | ref target =>
    obtain rfl := List.mem_singleton.mp listed
    rw [shown j rfl] at hidden
    contradiction
  | entities items => exact ⟨items, mem_described.mpr ⟨stands, describes⟩, listed⟩
  | scalar | scalars | null => exact absurd listed List.not_mem_nil

theorem leads_of_mem (expands : scope.expands path = true) (fresh : g.name j ∉ path)
    (describes : (name, Attribute.value (.entities items)) ∈ (g.entity i).described)
    (member : j ∈ items) : ∃ step, Leads g scope path i step j := by
  obtain ⟨stands, plain⟩ := mem_described.mp describes
  obtain ⟨place, there⟩ := List.getElem?_of_mem member
  exact ⟨⟨name, place⟩, expands, fresh, plain, _, stands, there, by simp⟩

/-- An expanded collection shows its elements off the path, also those of the type of groups, which
a reference in its place passes over. So blocks are free of entities of this type exactly if every
collection expanded within shows just what references would show. -/
theorem collection_shows_off_path (g : Graph n) (scope : Scope) (path : Path) (i : Fin n) :
    (∀ name items, scope.expands path = true →
      contribution g scope path i (name, .value (.entities items)) =
        ((offPath g path items).mapM (outlineAt g scope (path.insert (g.name i))) >>= fun outlines =>
          .ok (collection name outlines)) ∧
      (offPath g path items = [] →
        contribution g scope path i (name, .value (.entities items)) = .ok none) ∧
      (∀ target, contribution g scope path i (name, .value (.ref target)) =
        if target ∈ referable g scope path [target] then
          block g scope (path.insert (g.name i)) target >>= fun made =>
            .ok (reference name (g.name target) made)
        else .ok none) ∧
      (offPath g path items = referable g scope path items ↔
        ∀ j ∈ items, g.name j ∉ path → scope.hides (g.type j) = false)) ∧
    ((∀ steps path' j, Position g scope path i steps path' j → steps ≠ [] →
        scope.hides (g.type j) = false) ↔
      ∀ steps path' j, Position g scope path i steps path' j → scope.expands path' = true →
        ∀ name items, (name, Attribute.value (.entities items)) ∈ (g.entity j).described →
          offPath g path' items = referable g scope path' items) := by
  constructor
  · intro name items expands
    refine ⟨contribution_entities_expanded expands, ?_, contribution_ref_expanded expands,
      offPath_eq_referable_iff⟩
    intro none
    rw [contribution_entities_expanded expands, none]
    rfl
  · constructor
    · intro kinds steps path' j position expands name items describes
      apply offPath_eq_referable_iff.mpr
      intro k member fresh
      obtain ⟨step, leads⟩ := leads_of_mem expands fresh describes member
      exact kinds _ _ k (position.concat leads) (by simp)
    · intro same steps path' j position some
      obtain ⟨front, step, rfl⟩ := List.eq_nil_or_concat' steps |>.resolve_left some
      obtain ⟨before, k, within, leads⟩ := position.exists_of_concat
      -- Only the last step counts: it can lead to a hidden entity from a collection alone.
      by_contra hidden
      rw [Bool.not_eq_false] at hidden
      obtain ⟨items, describes, member⟩ := leads.of_hides hidden
      have rule := same front before k within leads.expands step.name items describes
      rw [offPath_eq_referable_iff.mp rule j member leads.fresh] at hidden
      contradiction

/-- An entity that refers to a group, once by a collection and once by a reference. -/
def grouped : Graph 2 :=
  ⟨#v[⟨⟨"t"⟩, "e", none, ⟨[("x", .value (.entities [1])), ("y", .value (.ref 1))], by simp⟩, none⟩,
    ⟨⟨"g"⟩, "s", none, ∅, none⟩]⟩

theorem grouped_collection : Scope.expands ⟨.one, some ⟨"g"⟩⟩ (Path.empty.insert "e") = true ∧
    contribution grouped ⟨.one, some ⟨"g"⟩⟩ (Path.empty.insert "e") 0
      ("x", .value (.entities [1])) = .ok (some (.node "x:" [.leaf "s"])) := by
  have expands : Scope.expands ⟨.one, some ⟨"g"⟩⟩ (Path.empty.insert "e") = true := by decide
  have made := ((collection_shows_off_path grouped ⟨.one, some ⟨"g"⟩⟩ (Path.empty.insert "e") 0).1
    "x" [1] expands).1
  have shown : outlineAt grouped ⟨.one, some ⟨"g"⟩⟩
      ((Path.empty.insert "e").insert (grouped.name 0)) 1 = .ok (.leaf "s") := by
    rw [outlineAt, block_eq_unrolled 5 (by decide)]
    rfl
  have listed : offPath grouped (Path.empty.insert "e") [1] = [1] := by decide
  refine ⟨expands, made.trans ?_⟩
  rw [listed, List.mapM_cons, shown]
  rfl

/-- The collection shows the group, and the reference does not. -/
theorem group_shown_as_element : Scope.hides ⟨.one, some ⟨"g"⟩⟩ (grouped.type 1) = true ∧
    referable grouped ⟨.one, some ⟨"g"⟩⟩ (Path.empty.insert "e") [1] = [] ∧
    entityOutline grouped ⟨.one, some ⟨"g"⟩⟩ 0 = .ok (.node "e" [.node "x:" [.leaf "s"]]) := by
  exact ⟨by decide, by decide, entityOutline_eq_unrolled 5 (by decide)⟩

end SnapshotReport.Expansion
