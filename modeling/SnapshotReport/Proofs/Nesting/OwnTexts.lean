import SnapshotReport.Proofs.Nesting.Position
import SnapshotReport.Proofs.Nesting.Contribution

/-! Texts that the provider gives for attributes, to be shown in their place. They are shown where a
value is not expanded, and have no influence on anything else: not on what is expanded and where, and
not on what the block fails with. -/
namespace SnapshotReport

variable {n : Nat}

namespace Graph

/-- The same graph with other texts of the provider. -/
def withRaw (g : Graph n) (raw : Fin n → Option (Record (Option String))) : Graph n :=
  ⟨Vector.ofFn fun i => { g.entity i with raw := raw i }⟩

variable (g : Graph n) (raw : Fin n → Option (Record (Option String)))

theorem entity_withRaw (i : Fin n) :
    (g.withRaw raw).entity i = { g.entity i with raw := raw i } := by
  simp [withRaw, entity]

@[simp]
theorem name_withRaw : (g.withRaw raw).name = g.name := by
  funext i
  rw [name, entity_withRaw, name]

@[simp]
theorem type_withRaw : (g.withRaw raw).type = g.type := by
  funext i
  rw [type, entity_withRaw, type]

@[simp]
theorem attributes_withRaw (i : Fin n) :
    ((g.withRaw raw).entity i).attributes = (g.entity i).attributes := by
  rw [entity_withRaw]

@[simp]
theorem described_withRaw (i : Fin n) :
    ((g.withRaw raw).entity i).described = (g.entity i).described := by
  rw [Entity.described, attributes_withRaw, Entity.described]

end Graph

namespace Expansion

/-- An attribute value that is left out of a block, whatever text is given for it: a reference to an
entity that only places others, or whose name is on the path, and a collection of nothing. -/
def LeftOut (g : Graph n) (scope : Scope) (path : Path) : AttributeValue (Fin n) → Prop
  | .ref target => scope.hides (g.type target) = true ∨ g.name target ∈ path
  | .entities items => items = []
  | _ => False

mutual

/-- Two blocks of entity `i` at the end of a path, attribute by attribute. -/
inductive BlocksAlike (g : Graph n) (scope : Scope) :
    Path → Fin n → List Outline → List Outline → Prop where
  | of_attributes {path i} {shown shown' : String × Attribute (Fin n) → Option Outline} :
      (∀ name value, (name, .value value) ∈ (g.entity i).described →
        AttributesAlike g scope path i name value (shown (name, .value value))
          (shown' (name, .value value))) →
      BlocksAlike g scope path i ((g.entity i).described.filterMap shown)
        ((g.entity i).described.filterMap shown')

/-- What an attribute adds to two blocks of entity `i`. A value that is not expanded may have any
text in the one and in the other, or none. All else is the same: what is left out, and the names of
the entities that are expanded, with blocks that are alike again. -/
inductive AttributesAlike (g : Graph n) (scope : Scope) : Path → Fin n → String →
    AttributeValue (Fin n) → Option Outline → Option Outline → Prop where
  | unexpanded {path i name value} (text text' : Option String) : Unexpanded g scope path value →
      AttributesAlike g scope path i name value (line name text) (line name text')
  | leftOut {path i name value} : LeftOut g scope path value →
      AttributesAlike g scope path i name value none none
  | reference {path i name target made made'} : scope.expands path = true →
      BlocksAlike g scope (path.insert (g.name i)) target made made' →
      AttributesAlike g scope path i name (.ref target) (reference name (g.name target) made)
        (reference name (g.name target) made')
  | collection {path i name items} {made made' : Fin n → List Outline} :
      scope.expands path = true →
      (∀ j ∈ offPath g path items,
        BlocksAlike g scope (path.insert (g.name i)) j (made j) (made' j)) →
      AttributesAlike g scope path i name (.entities items)
        (collection name ((offPath g path items).map fun j => .node (g.name j) (made j)))
        (collection name ((offPath g path items).map fun j => .node (g.name j) (made' j)))

end

variable {g : Graph n} {raw : Fin n → Option (Record (Option String))} {scope : Scope}
  {path path' : Path} {i j : Fin n} {name : String} {value : AttributeValue (Fin n)}
  {shown shown' : Option Outline} {made made' : List Outline}

theorem contribution_of_leftOut (leftOut : LeftOut g scope path value) :
    contribution g scope path i (name, .value value) = .ok none := by
  cases value with
  | ref target => exact contribution_suppressed leftOut
  | entities items =>
    obtain rfl : items = [] := leftOut
    rfl
  | scalar | scalars | null => contradiction

theorem contribution_of_unexpanded (unexpanded : Unexpanded g scope path value) :
    contribution g scope path i (name, .value value) =
      .ok (line name (g.display i name value)) := by
  cases value with
  | ref target =>
    obtain ⟨unexpanded, kept, fresh⟩ := unexpanded
    refine contribution_unexpanded unexpanded ?_ (by simp)
    rintro _ ⟨⟩
    exact ⟨kept, fresh⟩
  | entities items =>
    obtain ⟨unexpanded, some⟩ := unexpanded
    exact contribution_unexpanded unexpanded (by simp) (by simpa using some)
  | scalar | scalars | null => rfl

theorem leftOut_withRaw : LeftOut (g.withRaw raw) scope path value ↔ LeftOut g scope path value := by
  cases value <;> simp [LeftOut]

theorem unexpanded_withRaw :
    Unexpanded (g.withRaw raw) scope path value ↔ Unexpanded g scope path value := by
  cases value <;> simp [Unexpanded]

theorem offPath_withRaw {items : List (Fin n)} :
    offPath (g.withRaw raw) path items = offPath g path items := by
  rw [offPath, offPath, g.name_withRaw]

/-- Blocks that are all made, by the entities that they belong to. -/
theorem exists_blocks_of_names {items : List (Fin n)} {outlines : List Outline}
    (named : List.Forall₂ (Names g scope path) items outlines) :
    ∃ made : Fin n → List Outline, outlines = items.map (fun j => .node (g.name j) (made j)) ∧
      ∀ j ∈ items, block g scope path j = .ok (made j) := by
  refine ⟨madeBlock g scope path, ?_⟩
  induction named with
  | nil => exact ⟨rfl, by simp⟩
  | cons first _ ih =>
    obtain ⟨rfl, each⟩ := ih
    rw [List.map_cons, List.forall_mem_cons, ← first.outline_eq]
    exact ⟨rfl, first.block_eq, each⟩

theorem failures_withRaw (g : Graph n) (raw : Fin n → Option (Record (Option String)))
    (scope : Scope) (path : Path) (i : Fin n) :
    failures (g.withRaw raw) scope path i = failures g scope path i := by
  induction path, i using nesting_induction g scope with
  | step path i ih =>
    rw [failures, failures, g.described_withRaw]
    apply List.flatMap_congr
    rintro ⟨name, held⟩ member
    cases held with
    | malformed | unreadable => simp only [attributeFailures, Attribute.read, g.name_withRaw]
    | value value =>
      simp only [attributeFailures, Attribute.read, g.name_withRaw]
      refine flatMap_expanded_congr (g.name_withRaw raw) (g.type_withRaw raw) ?_
      intro found opened
      exact ih found (nests_iff.mpr ⟨name, value, found, member, opened, rfl⟩)

/-- Whatever texts are given, the block fails with the same, if it does. -/
theorem failure?_block_withRaw : failure? (block (g.withRaw raw) scope path i) =
    failure? (block g scope path i) := by
  rw [failure?_block, failure?_block, failures_withRaw]

theorem leads_withRaw {step : Step} :
    Leads (g.withRaw raw) scope path i step j ↔ Leads g scope path i step j := by
  constructor
  · rintro ⟨expands, fresh, describes, refers⟩
    exact ⟨expands, by simpa using fresh, describes, by simpa using refers⟩
  · rintro ⟨expands, fresh, describes, refers⟩
    exact ⟨expands, by simpa using fresh, describes, by simpa using refers⟩

theorem position_withRaw {steps : List Step} :
    Position (g.withRaw raw) scope path i steps path' j ↔
      Position g scope path i steps path' j := by
  constructor
  · intro position
    induction position with
    | root => exact .root
    | step leads _ ih =>
      rw [g.name_withRaw] at ih
      exact .step (leads_withRaw.mp leads) ih
  · intro position
    induction position with
    | root => exact .root
    | step leads _ ih =>
      rw [← g.name_withRaw raw] at ih
      exact .step (leads_withRaw.mpr leads) ih

theorem attributesAlike_of_ok
    (within : ∀ j, Nests g scope path i j → ∀ {made made'},
      block g scope (path.insert (g.name i)) j = .ok made →
      block (g.withRaw raw) scope (path.insert (g.name i)) j = .ok made' →
      BlocksAlike g scope (path.insert (g.name i)) j made made')
    (describes : (name, .value value) ∈ (g.entity i).described)
    (first : contribution g scope path i (name, .value value) = .ok shown)
    (second : contribution (g.withRaw raw) scope path i (name, .value value) = .ok shown') :
    AttributesAlike g scope path i name value shown shown' := by
  obtain ⟨stands, plain⟩ := mem_described.mp describes
  by_cases leftOut : LeftOut g scope path value
  · rw [contribution_of_leftOut leftOut] at first
    rw [contribution_of_leftOut (leftOut_withRaw.mpr leftOut)] at second
    obtain rfl := Except.ok.inj first
    obtain rfl := Except.ok.inj second
    exact .leftOut leftOut
  by_cases unexpanded : Unexpanded g scope path value
  · rw [contribution_of_unexpanded unexpanded] at first
    rw [contribution_of_unexpanded (unexpanded_withRaw.mpr unexpanded)] at second
    obtain rfl := Except.ok.inj first
    obtain rfl := Except.ok.inj second
    exact .unexpanded _ _ unexpanded
  cases value with
  | scalar | scalars | null => exact absurd trivial unexpanded
  | ref target =>
    rw [LeftOut, not_or, Bool.not_eq_true] at leftOut
    obtain ⟨kept, fresh⟩ := leftOut
    have expands : scope.expands path = true :=
      Bool.of_not_eq_false fun closed => unexpanded ⟨closed, kept, fresh⟩
    have nests : Nests g scope path i target :=
      ⟨expands, fresh, name, _, stands, plain, .inl ⟨rfl, kept⟩⟩
    obtain ⟨made, ok, rfl⟩ := contribution_reference expands kept fresh first
    obtain ⟨made', ok', rfl⟩ := contribution_reference expands (by rwa [g.type_withRaw])
      (by rwa [g.name_withRaw]) second
    rw [g.name_withRaw] at ok' ⊢
    exact .reference expands (within target nests ok ok')
  | entities items =>
    have expands : scope.expands path = true :=
      Bool.of_not_eq_false fun closed => unexpanded ⟨closed, leftOut⟩
    obtain ⟨outlines, named, rfl⟩ := contribution_collection expands first
    obtain ⟨outlines', named', rfl⟩ := contribution_collection expands second
    obtain ⟨made, rfl, each⟩ := exists_blocks_of_names named
    obtain ⟨made', rfl, each'⟩ := exists_blocks_of_names named'
    rw [offPath_withRaw, g.name_withRaw] at each' ⊢
    refine .collection expands fun j member => ?_
    obtain ⟨listed, fresh⟩ := mem_offPath.mp member
    exact within j ⟨expands, fresh, name, _, stands, plain, .inr ⟨items, rfl, listed⟩⟩
      (each j member) (each' j member)

/-- With other texts of the provider a block is the same but for lines of values that are not
expanded. -/
theorem blocksAlike_withRaw (first : block g scope path i = .ok made)
    (second : block (g.withRaw raw) scope path i = .ok made') :
    BlocksAlike g scope path i made made' := by
  induction path, i using nesting_induction g scope generalizing made made' with
  | step path i ih =>
    obtain ⟨shown, rfl, each⟩ := contributions_of_block first
    obtain ⟨shown', rfl, each'⟩ := contributions_of_block second
    rw [g.described_withRaw] at each' ⊢
    refine .of_attributes fun name value member => ?_
    exact attributesAlike_of_ok (fun j nests {_ _} => ih j nests) member (each _ member)
      (each' _ member)

theorem exists_of_mem_block (done : block g scope path i = .ok made) {o : Outline}
    (member : o ∈ made) :
    ∃ name value, (name, .value value) ∈ (g.entity i).attributes.entries ∧
      name ∉ Entity.structuralNames ∧ ¬LeftOut g scope path value ∧
      contribution g scope path i (name, .value value) = .ok (some o) := by
  obtain ⟨shown, rfl, each⟩ := contributions_of_block done
  obtain ⟨⟨name, held⟩, describes, added⟩ := List.mem_filterMap.mp member
  obtain ⟨stands, plain⟩ := mem_described.mp describes
  have outcome := each _ describes
  rw [added] at outcome
  cases held with
  | malformed | unreadable => contradiction
  | value value =>
    refine ⟨name, value, stands, plain, fun leftOut => ?_, outcome⟩
    rw [contribution_of_leftOut leftOut] at outcome
    exact absurd (Except.ok.inj outcome).symm (Option.some_ne_none o)

/-- Texts of the provider are confined to values that are not expanded. Whatever texts are given,
the block fails alike, the same entities stand at the same positions, and the rest is the same. No
text brings back an attribute that places the entity, or a value that is left out. -/
theorem ownTexts_confined (g : Graph n) (raw : Fin n → Option (Record (Option String)))
    (scope : Scope) (visited : Path) (owner : String) (i : Fin n) :
    (∀ failure, block (g.withRaw raw) scope (visited.insert owner) i = .error failure ↔
      block g scope (visited.insert owner) i = .error failure) ∧
    (∀ steps path j, Position (g.withRaw raw) scope (visited.insert owner) i steps path j ↔
      Position g scope (visited.insert owner) i steps path j) ∧
    (∀ made made', block g scope (visited.insert owner) i = .ok made →
      block (g.withRaw raw) scope (visited.insert owner) i = .ok made' →
      BlocksAlike g scope (visited.insert owner) i made made') ∧
    ∀ path j,
      (∀ name value, LeftOut g scope path value →
        contribution (g.withRaw raw) scope path j (name, .value value) = .ok none) ∧
      ∀ made, block (g.withRaw raw) scope path j = .ok made → ∀ o ∈ made,
        ∃ name value, (name, .value value) ∈ (g.entity j).attributes.entries ∧
          name ∉ Entity.structuralNames ∧ ¬LeftOut g scope path value ∧
          contribution (g.withRaw raw) scope path j (name, .value value) = .ok (some o) := by
  refine ⟨fun failure => ?_, fun _ _ _ => position_withRaw,
    fun _ _ first second => blocksAlike_withRaw first second, fun path j => ⟨?_, ?_⟩⟩
  · rw [← failure?_eq_some_iff, ← failure?_eq_some_iff, failure?_block_withRaw]
  · intro name value leftOut
    exact contribution_of_leftOut (leftOut_withRaw.mpr leftOut)
  · intro made done o member
    obtain ⟨name, value, stands, plain, kept, added⟩ := exists_of_mem_block done member
    rw [g.attributes_withRaw] at stands
    exact ⟨name, value, stands, plain, fun leftOut => kept (leftOut_withRaw.mpr leftOut), added⟩

/-- An entity that refers to one without a name. -/
def hollow : Graph 2 :=
  ⟨#v[⟨⟨"t"⟩, "e", none, ⟨[("r", .value (.ref 1))], by simp⟩, none⟩,
    ⟨⟨"t"⟩, "", none, ⟨[("x", .value (.scalar (.text "v")))], by simp⟩, none⟩]⟩

/-- Texts that hide all that the entity without a name has to show, and one that is never shown. -/
def concealing : Fin 2 → Option (Record (Option String))
  | 0 => some ⟨[("r", some "z")], by simp⟩
  | 1 => some ⟨[("x", none)], by simp⟩

theorem hollow_confined :
    BlocksAlike hollow ⟨.one, none⟩ (Path.empty.insert "e") 0
      [.node "r: " [.leaf "x: v"]] [] := by
  have whole : block hollow ⟨.one, none⟩ (Path.empty.insert "e") 0 =
      .ok [.node "r: " [.leaf "x: v"]] := block_eq_unrolled 5 (by decide)
  have hidden : block (hollow.withRaw concealing) ⟨.one, none⟩ (Path.empty.insert "e") 0 = .ok [] :=
    block_eq_unrolled 5 (by decide)
  obtain ⟨-, -, alike, -⟩ := ownTexts_confined hollow concealing ⟨.one, none⟩ .empty "e" 0
  exact alike _ _ whole hidden

/-- The reference is expanded, and yet its line is left out with the only line of its block. -/
theorem hidden_reference_vanishes :
    Scope.expands ⟨.one, none⟩ (Path.empty.insert (hollow.name 0)) = true ∧
      entityOutline hollow ⟨.one, none⟩ 0 = .ok (.node "e" [.node "r: " [.leaf "x: v"]]) ∧
      entityOutline (hollow.withRaw concealing) ⟨.one, none⟩ 0 = .ok (.node "e" []) := by
  refine ⟨by decide, ?_, ?_⟩
  · exact entityOutline_eq_unrolled 5 (by decide)
  · exact entityOutline_eq_unrolled 5 (by decide)

end Expansion

end SnapshotReport
