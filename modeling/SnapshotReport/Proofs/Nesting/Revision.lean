import SnapshotReport.Proofs.Layout
import SnapshotReport.Proofs.Simulation

/-! A listed entity that is revised: it is given other attributes, or other texts for them. What one
attribute shows depends on that attribute, its text, and the entities that it refers to. The listed
entity may be among those, however deep, but its name is on the path to all of them, so none of its
other attributes is ever read from there. -/
namespace SnapshotReport

variable {n m : Nat}

/-- Entity `i` is revised, but not under a name. Its other attributes, and the texts of the provider
for them, may be any others in the second graph, and may refer to any entities, also to new ones;
`place` says where the entities of the first graph are in the second one. -/
structure Graph.Revises (g : Graph n) (g' : Graph m) (place : Fin n → Fin m) (i : Fin n)
    (name : String) : Prop where
  others : ∀ j ≠ i, g'.entity (place j) = (g.entity j).map place
  face : Expansion.SameFace g g' i (place i)
  held : (g'.entity (place i)).attributes.get? name =
    ((g.entity i).attributes.get? name).map (·.map place)
  raw : (g'.entity (place i)).rawText? name = (g.entity i).rawText? name

namespace Expansion

/-- The lines that an attribute has in the text of a listed entity. -/
def attributeLines (g : Graph n) (scope : Scope) (i : Fin n) (entry : String × Attribute (Fin n)) :
    List (List Char) :=
  match contribution g scope (Path.empty.insert (g.name i)) i entry with
  | .ok (some outline) => Text.lines (Text.indent Text.levelWidth outline.write).toList
  | _ => []

/-- What the text of a listed entity consists of: its name, then the lines of the attributes that
describe it, in the order of their names. -/
structure Consists (g : Graph n) (scope : Scope) (i : Fin n) (outline : Outline)
    (entries : List (String × Attribute (Fin n))) : Prop where
  described : entries.Perm ((g.entity i).attributes.entries.filter fun entry =>
    entry.1 ∉ Entity.structuralNames)
  ordered : (entries.map Prod.fst).Pairwise fun a b => (Text.byUnits a b).isLE
  lines : Text.lines outline.write.toList =
    Text.lines (g.name i).toList ++ entries.flatMap (attributeLines g scope i)

variable {g : Graph n} {g' : Graph m} {place : Fin n → Fin m} {i : Fin n} {name : String}
  {scope : Scope}

theorem face_of_revises (revises : g.Revises g' place i name) (j : Fin n) :
    SameFace g g' j (place j) := by
  by_cases same : j = i
  · rw [same]
    exact revises.face
  · have other := revises.others j same
    exact ⟨by rw [Graph.name, Graph.name, other]; rfl, by rw [Graph.type, Graph.type, other]; rfl⟩

/-- Where the name of the revised entity is on the path, all other entities are as they were: what is
expanded there is not the revised entity. -/
theorem simulation_of_revises (revises : g.Revises g' place i name) (scope : Scope) :
    Simulation g g' scope fun path j k => g.name i ∈ path ∧ j ≠ i ∧ k = place j where
  name := by
    rintro path j _ ⟨-, -, rfl⟩
    exact (face_of_revises revises j).name
  raw := by
    rintro path j _ ⟨-, other, rfl⟩ name -
    rw [revises.others j other]
    rfl
  described := by
    rintro path j _ ⟨known, other, rfl⟩
    rw [revises.others j other, Entity.described_map, List.forall₂_map_right_iff]
    apply List.forall₂_same.mpr
    intro entry _
    refine ⟨rfl, .map (fun k => ⟨face_of_revises revises k, fun nests => ?_⟩) entry.2⟩
    refine ⟨Path.mem_insert.mpr (.inr known), ?_, rfl⟩
    rintro rfl
    exact nests.fresh known

theorem contribution_eq_of_revises (revises : g.Revises g' place i name) {path : Path}
    (known : g.name i ∈ path) {held : Attribute (Fin n)}
    (member : (name, held) ∈ (g.entity i).described) :
    contribution g scope path i (name, held) =
      contribution g' scope path (place i) (name, held.map place) := by
  have alike : held.Related (fun j k => place j = k) (held.map place) := .map (fun _ => rfl) held
  refine contribution_eq_of_related ?_ revises.face.name member alike revises.raw.symm ?_
  · rintro j _ rfl
    exact face_of_revises revises j
  · rintro j _ nests rfl
    rw [← revises.face.name]
    refine block_eq_of_simulation (simulation_of_revises revises scope) _ j _ ⟨?_, ?_, rfl⟩
    · exact Path.mem_insert.mpr (.inl rfl)
    · rintro rfl
      exact nests.fresh known

theorem attributeLines_eq_of_revises (revises : g.Revises g' place i name)
    {held : Attribute (Fin n)} (member : (name, held) ∈ (g.entity i).described) :
    attributeLines g scope i (name, held) =
      attributeLines g' scope (place i) (name, held.map place) := by
  have known : g.name i ∈ Path.empty.insert (g.name i) := Path.mem_insert.mpr (.inl rfl)
  rw [attributeLines, attributeLines, contribution_eq_of_revises revises known member,
    revises.face.name]

theorem consists_of_ok {outline : Outline} (done : entityOutline g scope i = .ok outline) :
    Consists g scope i outline (g.entity i).described := by
  refine ⟨?_, describedNames_pairwise g i, ?_⟩
  · have same : (fun entry : String × Attribute (Fin n) =>
        !Entity.structuralNames.contains entry.1) =
          fun entry => decide (entry.1 ∉ Entity.structuralNames) := by
      funext entry
      simp
    rw [Entity.described, same]
    exact (Record.sorted_perm _).filter _
  · obtain ⟨made, block, rfl⟩ := entityOutline_eq_ok_iff.mp done
    obtain ⟨shown, rfl, each⟩ := contributions_of_block block
    have lines : ∀ entry ∈ (g.entity i).described,
        attributeLines g scope i entry =
          (Outline.levelsOf 1 (shown entry).toList).flatMap Outline.placedLines := by
      intro entry member
      rw [attributeLines, each entry member]
      cases shown entry with
      | none => rfl
      | some outline =>
        have placed := Outline.lines_write 1 outline
        rw [Nat.one_mul] at placed
        simp only [Text.toList_indent, Text.lines_indentChars, Option.toList_some, Outline.levelsOf,
          List.append_nil, placed]
    rw [Outline.lines_write_eq, Outline.levels, Outline.levelsOf_filterMap, List.flatMap_cons,
      List.flatMap_assoc, List.flatMap_congr lines]
    exact congrArg (· ++ _) (Outline.map_padLine_zero (Text.lines (g.name i).toList))

/-- However other attributes of a listed entity and their texts are revised, an attribute that is
left alone has the same lines before and after. Either time, if the entity can be shown, its text is
its name with the lines of its attributes, in the order of their names. -/
theorem attributeLines_independent (revises : g.Revises g' place i name) (scope : Scope)
    (describes : name ∉ Entity.structuralNames) {held : Attribute (Fin n)}
    (stands : (name, held) ∈ (g.entity i).attributes.entries) :
    attributeLines g scope i (name, held) =
        attributeLines g' scope (place i) (name, held.map place) ∧
      (∀ outline, entityOutline g scope i = .ok outline →
        ∃ entries, Consists g scope i outline entries ∧ (name, held) ∈ entries) ∧
      ∀ outline, entityOutline g' scope (place i) = .ok outline →
        ∃ entries, Consists g' scope (place i) outline entries ∧ (name, held.map place) ∈ entries := by
  have member : (name, held) ∈ (g.entity i).described := mem_described.mpr ⟨stands, describes⟩
  have member' : (name, held.map place) ∈ (g'.entity (place i)).described := by
    refine mem_described.mpr ⟨Record.get?_eq_some_iff.mp ?_, describes⟩
    rw [revises.held, Record.get?_eq_some_iff.mpr stands]
    rfl
  refine ⟨attributeLines_eq_of_revises revises member, ?_, ?_⟩
  · intro outline done
    exact ⟨_, consists_of_ok done, member⟩
  · intro outline done
    exact ⟨_, consists_of_ok done, member'⟩

/-- Two entities that refer to each other. -/
def circle : Graph 2 :=
  ⟨#v[⟨⟨"t"⟩, "a", none, ⟨[("x", .value (.ref 1))], by simp⟩, none⟩,
    ⟨⟨"t"⟩, "b", none, ⟨[("x", .value (.ref 0)), ("y", .value (.scalar (.text "v")))], by simp⟩,
      none⟩]⟩

/-- The same, with a third entity to which the first one refers too, by a text of its own. -/
def widened : Graph 3 :=
  ⟨#v[⟨⟨"t"⟩, "a", none, ⟨[("x", .value (.ref 1)), ("w", .value (.ref 2))], by simp⟩,
      some ⟨[("w", some "z")], by simp⟩⟩,
    ⟨⟨"t"⟩, "b", none, ⟨[("x", .value (.ref 0)), ("y", .value (.scalar (.text "v")))], by simp⟩,
      none⟩,
    ⟨⟨"t"⟩, "c", none, ∅, none⟩]⟩

theorem circle_widened : circle.Revises widened Fin.castSucc 0 "x" ∧
    "x" ∉ Entity.structuralNames ∧
    ("x", .value (.ref 1)) ∈ (circle.entity 0).attributes.entries ∧
    attributeLines circle ⟨.one, none⟩ 0 ("x", .value (.ref 1)) =
      attributeLines widened ⟨.one, none⟩ 0 ("x", .value (.ref 1)) ∧
    ∃ outline, entityOutline widened ⟨.one, none⟩ 0 = .ok outline ∧
      outline.write = "a\n    w: c\n    x: b\n        y: v" ∧
      ∃ entries, Consists widened ⟨.one, none⟩ 0 outline entries ∧
        ("x", .value (.ref 1)) ∈ entries := by
  have revises : circle.Revises widened Fin.castSucc 0 "x" := by
    refine ⟨?_, ⟨rfl, rfl⟩, rfl, rfl⟩
    intro j other
    match j with
    | 0 => contradiction
    | 1 => rfl
  have describes : "x" ∉ Entity.structuralNames := by decide
  have stands : ("x", .value (.ref 1)) ∈ (circle.entity 0).attributes.entries :=
    List.mem_singleton_self _
  have shown : entityOutline widened ⟨.one, none⟩ 0 =
      .ok (.node "a" [.leaf "w: c", .node "x: b" [.leaf "y: v"]]) :=
    entityOutline_eq_unrolled 7 (by decide)
  obtain ⟨same, -, after⟩ := attributeLines_independent revises ⟨.one, none⟩ describes stands
  exact ⟨revises, describes, stands, same, _, shown, by decide, after _ shown⟩

end Expansion

end SnapshotReport
