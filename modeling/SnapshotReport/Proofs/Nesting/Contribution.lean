import SnapshotReport.Proofs.Nesting

/-! What an attribute adds to a block. A block is put together from its attributes, and an attribute
is left out, shows its text, or makes room for the entities that it refers to. -/
namespace SnapshotReport.Expansion

variable {n : Nat}

/-- What an attribute adds to the block of entity `i` at the end of a path. -/
def contribution (g : Graph n) (scope : Scope) (path : Path) (i : Fin n)
    (entry : String × Attribute (Fin n)) : Except Failure (Option Outline) := do
  let value ← entry.2.read (g.name i) entry.1
  attributeOutline g scope path (fun found => block g scope (path.insert (g.name i)) found) i
    entry.1 value

/-- Entity `j` with its block at the end of a path. -/
def Names (g : Graph n) (scope : Scope) (path : Path) (j : Fin n) (outline : Outline) : Prop :=
  ∃ made, block g scope path j = .ok made ∧ outline = .node (g.name j) made

/-- The block of an entity at the end of a path, empty if it cannot be made. -/
def madeBlock (g : Graph n) (scope : Scope) (path : Path) (j : Fin n) : List Outline :=
  match block g scope path j with
  | .ok made => made
  | .error _ => []

/-- The entities of a collection that are expanded at the end of a path. -/
def offPath (g : Graph n) (path : Path) (items : List (Fin n)) : List (Fin n) :=
  items.filter fun j => g.name j ∉ path

/-- An attribute value that stands in a block as a text. A collection does so if it has anything in
it, a reference if it would be expanded but for the depth. -/
def Unexpanded (g : Graph n) (scope : Scope) (path : Path) : AttributeValue (Fin n) → Prop
  | .ref target =>
    scope.expands path = false ∧ scope.hides (g.type target) = false ∧ g.name target ∉ path
  | .entities items => scope.expands path = false ∧ items ≠ []
  | _ => True

variable {g : Graph n} {scope : Scope} {path : Path} {i target : Fin n} {name : String}
  {value : AttributeValue (Fin n)} {items : List (Fin n)} {shown : Option Outline}

theorem Names.block_eq {outline : Outline} (named : Names g scope path i outline) :
    block g scope path i = .ok (madeBlock g scope path i) := by
  obtain ⟨made, done, -⟩ := named
  rw [madeBlock, done]

theorem Names.outline_eq {outline : Outline} (named : Names g scope path i outline) :
    outline = .node (g.name i) (madeBlock g scope path i) := by
  obtain ⟨made, done, rfl⟩ := named
  rw [madeBlock, done]

theorem block_eq_contributions (g : Graph n) (scope : Scope) (path : Path) (i : Fin n) :
    block g scope path i =
      (g.entity i).described.mapM (contribution g scope path i) >>= fun shown =>
        .ok (shown.filterMap id) :=
  block_eq g scope path i

/-- A block is what its attributes add to it, in the order of their names. -/
theorem contributions_of_block {made : List Outline} (done : block g scope path i = .ok made) :
    ∃ shown : String × Attribute (Fin n) → Option Outline,
      made = (g.entity i).described.filterMap shown ∧
      ∀ entry ∈ (g.entity i).described,
        contribution g scope path i entry = .ok (shown entry) := by
  let shown (entry : String × Attribute (Fin n)) : Option Outline :=
    match contribution g scope path i entry with
    | .ok outline => outline
    | .error _ => none
  have value (entry : String × Attribute (Fin n)) (outline : Option Outline)
      (added : contribution g scope path i entry = .ok outline) : outline = shown entry := by
    simp only [shown, added]
  rw [block_eq_contributions] at done
  cases added : (g.entity i).described.mapM (contribution g scope path i) with
  | error failure =>
    rw [added] at done
    contradiction
  | ok outlines =>
    obtain ⟨each, same⟩ := mapM_ok added fun entry _ => value entry
    rw [added] at done
    refine ⟨shown, ?_, each⟩
    rw [← Except.ok.inj done, same, List.filterMap_map]
    rfl

theorem mem_offPath {j : Fin n} :
    j ∈ offPath g path items ↔ j ∈ items ∧ g.name j ∉ path := by
  simp [offPath]

theorem contribution_suppressed
    (suppressed : scope.hides (g.type target) = true ∨ g.name target ∈ path) :
    contribution g scope path i (name, .value (.ref target)) = .ok none := by
  change attributeOutline g scope path _ i name (.ref target) = _
  rw [attributeOutline]
  split
  · rfl
  · rename_i kept
    have known := suppressed.resolve_left kept
    rw [fresh?, dif_pos known]

/-- Where the path does not admit expansion, an attribute shows its text. -/
theorem contribution_unexpanded (unexpanded : scope.expands path = false)
    (kept : ∀ target, value = .ref target →
      scope.hides (g.type target) = false ∧ g.name target ∉ path)
    (some : value ≠ .entities []) :
    contribution g scope path i (name, .value value) =
      .ok (line name (g.display i name value)) := by
  change attributeOutline g scope path _ i name value = _
  cases value with
  | ref target =>
    obtain ⟨kept, fresh⟩ := kept target rfl
    simp only [attributeOutline, kept, fresh?, dif_neg fresh, unexpanded]
    rfl
  | entities items =>
    cases items with
    | nil => contradiction
    | cons => simp [attributeOutline, unexpanded]
  | scalar | scalars | null => rfl

theorem contribution_reference (expands : scope.expands path = true)
    (kept : scope.hides (g.type target) = false) (fresh : g.name target ∉ path)
    (added : contribution g scope path i (name, .value (.ref target)) = .ok shown) :
    ∃ made, block g scope (path.insert (g.name i)) target = .ok made ∧
      shown = reference name (g.name target) made := by
  change attributeOutline g scope path _ i name (.ref target) = _ at added
  simp only [attributeOutline, kept, fresh?, dif_neg fresh, expands, if_true] at added
  cases within : block g scope (path.insert (g.name i)) target with
  | error failure =>
    rw [within] at added
    contradiction
  | ok made =>
    rw [within] at added
    exact ⟨made, rfl, (Except.ok.inj added).symm⟩

theorem map_val_fresh (g : Graph n) (path : Path) (items : List (Fin n)) :
    (items.filterMap (fresh? g path)).map Subtype.val = offPath g path items := by
  induction items with
  | nil => rfl
  | cons item rest ih =>
    rw [offPath, List.filter_cons, ← offPath, ← ih]
    by_cases known : g.name item ∈ path
    · rw [List.filterMap_cons_none (dif_pos known)]
      simp [known]
    · rw [List.filterMap_cons_some (dif_neg known)]
      simp [known]

/-- What a value expands is told by names and types alone. -/
theorem map_val_expanded_congr {g g' : Graph n} (names : g'.name = g.name) (types : g'.type = g.type)
    (scope : Scope) (path : Path) (value : AttributeValue (Fin n)) :
    (expanded g' scope path value).map Subtype.val =
      (expanded g scope path value).map Subtype.val := by
  have fresh (items : List (Fin n)) : (items.filterMap (fresh? g' path)).map Subtype.val =
      (items.filterMap (fresh? g path)).map Subtype.val := by
    rw [map_val_fresh, map_val_fresh, offPath, offPath, names]
  cases value with
  | ref target =>
    simp only [expanded, types]
    split
    · rfl
    · exact fresh [target]
  | entities items =>
    simp only [expanded]
    split
    · exact fresh items
    · rfl
  | scalar | scalars | null => rfl

theorem flatMap_expanded_congr {β : Type} {g g' : Graph n} (names : g'.name = g.name)
    (types : g'.type = g.type) {inner inner' : Fin n → List β}
    (same : ∀ found ∈ expanded g scope path value, inner' found.val = inner found.val) :
    (expanded g' scope path value).flatMap (fun found => inner' found.val) =
      (expanded g scope path value).flatMap fun found => inner found.val := by
  rw [← List.flatMap_map Subtype.val inner', map_val_expanded_congr names types, List.flatMap_map]
  exact List.flatMap_congr same

theorem contribution_collection (expands : scope.expands path = true)
    (added : contribution g scope path i (name, .value (.entities items)) = .ok shown) :
    ∃ outlines,
      List.Forall₂ (Names g scope (path.insert (g.name i))) (offPath g path items) outlines ∧
      shown = collection name outlines := by
  change attributeOutline g scope path _ i name (.entities items) = _ at added
  by_cases empty : items.isEmpty = true
  · obtain rfl := List.isEmpty_iff.mp empty
    exact ⟨[], .nil, (Except.ok.inj added).symm⟩
  · rw [attributeOutline, if_neg empty, if_pos expands] at added
    cases all : (items.filterMap (fresh? g path)).mapM fun found => do
        return Outline.node (g.name found) (← block g scope (path.insert (g.name i)) found) with
    | error failure =>
      rw [all] at added
      contradiction
    | ok outlines =>
      rw [all] at added
      refine ⟨outlines, ?_, (Except.ok.inj added).symm⟩
      rw [← map_val_fresh, List.forall₂_map_left_iff]
      refine (mapM_eq_ok_iff.mp all).imp fun found outline named => ?_
      cases within : block g scope (path.insert (g.name i)) found with
      | error failure =>
        rw [within] at named
        contradiction
      | ok made =>
        rw [within] at named
        exact ⟨made, within, (Except.ok.inj named).symm⟩

theorem exists_of_mem_names {outlines : List Outline} {outline : Outline}
    (named : List.Forall₂ (Names g scope path) items outlines) (member : outline ∈ outlines) :
    ∃ j ∈ items, Names g scope path j outline := by
  induction named with
  | nil => contradiction
  | cons first _ ih =>
    rcases List.mem_cons.mp member with rfl | member
    · exact ⟨_, List.mem_cons_self, first⟩
    · obtain ⟨j, listed, named⟩ := ih member
      exact ⟨j, List.mem_cons_of_mem _ listed, named⟩

/-- What an attribute that can be read may add to the block of entity `i`: nothing, a line, a
reference with the block of its target below, or a collection with its elements below, each with its
block. -/
inductive Contributes (g : Graph n) (scope : Scope) (path : Path) (i : Fin n) (name : String) :
    Option Outline → Prop where
  | nothing : Contributes g scope path i name none
  | line {text} : Contributes g scope path i name (some (.leaf (name ++ ": " ++ text)))
  | reference {target made} : Nests g scope path i target →
      block g scope (path.insert (g.name i)) target = .ok made →
      Contributes g scope path i name (some (.node (name ++ ": " ++ g.name target) made))
  | collection {items outlines} : (∀ j ∈ items, Nests g scope path i j) →
      List.Forall₂ (Names g scope (path.insert (g.name i))) items outlines →
      Contributes g scope path i name (some (.node (name ++ ":") outlines))

theorem contributes_line (shown : Option String) :
    Contributes g scope path i name (line name shown) := by
  cases shown with
  | none => exact .nothing
  | some text =>
    rw [line]
    split
    · exact .nothing
    · exact .line

theorem contributes_of_ok (describes : (name, .value value) ∈ (g.entity i).described)
    (added : contribution g scope path i (name, .value value) = .ok shown) :
    Contributes g scope path i name shown := by
  obtain ⟨stands, plain⟩ := mem_described.mp describes
  cases value with
  | scalar | scalars | null =>
    obtain rfl := Except.ok.inj added
    exact contributes_line _
  | ref target =>
    by_cases suppressed : scope.hides (g.type target) = true ∨ g.name target ∈ path
    · rw [contribution_suppressed suppressed] at added
      obtain rfl := Except.ok.inj added
      exact .nothing
    · rw [not_or, Bool.not_eq_true] at suppressed
      obtain ⟨kept, fresh⟩ := suppressed
      by_cases expands : scope.expands path = true
      · obtain ⟨made, within, rfl⟩ := contribution_reference expands kept fresh added
        rw [reference]
        split
        · exact .nothing
        · exact .reference ⟨expands, fresh, name, _, stands, plain, .inl ⟨rfl, kept⟩⟩ within
      · rw [Bool.not_eq_true] at expands
        rw [contribution_unexpanded expands
          (fun _ same => AttributeValue.ref.inj same ▸ ⟨kept, fresh⟩) (by simp)] at added
        obtain rfl := Except.ok.inj added
        exact contributes_line _
  | entities items =>
    by_cases expands : scope.expands path = true
    · obtain ⟨outlines, named, rfl⟩ := contribution_collection expands added
      rw [collection]
      split
      · exact .nothing
      · refine .collection (fun j member => ?_) named
        obtain ⟨listed, fresh⟩ := mem_offPath.mp member
        exact ⟨expands, fresh, name, _, stands, plain, .inr ⟨items, rfl, listed⟩⟩
    · rw [Bool.not_eq_true] at expands
      by_cases empty : items = []
      · subst empty
        obtain rfl := Except.ok.inj added
        exact .nothing
      · rw [contribution_unexpanded expands (by simp) (by simpa using empty)] at added
        obtain rfl := Except.ok.inj added
        exact contributes_line _

theorem entityOutline_eq_ok_iff {outline : Outline} : entityOutline g scope i = .ok outline ↔
    Names g scope (Path.empty.insert (g.name i)) i outline := by
  rw [entityOutline, Names]
  cases block g scope (Path.empty.insert (g.name i)) i with
  | error failure => simp [bind, Except.bind]
  | ok made => simp [bind, Except.bind, pure, Except.pure, eq_comm]

end SnapshotReport.Expansion
