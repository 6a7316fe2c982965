import Mathlib.Data.List.Nodup
import SnapshotReport.Proofs.Matching
import SnapshotReport.Proofs.Simulation

/-! Contents in place of identity. An entity is known by its name, type, group, attributes and
texts, and by those of the entities that it refers to, and so on; whether the same entity stands in
two places or a copy of it cannot be told from a report. -/
namespace SnapshotReport

variable {n m : Nat}

/-- Related entities have the same contents: the same name, type and group, the same texts of the
provider, and under the same names the same attributes, with related entities in the place of
those that they refer to. Nothing is asked of attributes that do not describe an entity. -/
structure Bisimulation (g : Graph n) (g' : Graph m) (R : Fin n → Fin m → Prop) : Prop where
  place {i j} : R i j → (g.entity i).SamePlace (g'.entity j)
  raw {i j} : R i j → ∀ name ∉ Entity.structuralNames,
    (g.entity i).rawText? name = (g'.entity j).rawText? name
  attributes {i j} : R i j → ∀ name ∉ Entity.structuralNames,
    Option.Rel (Attribute.Related R) ((g.entity i).attributes.get? name)
      ((g'.entity j).attributes.get? name)

/-- The second graph has one entity for each group of copies in the first one, which refers to what
any of the copies refers to. -/
def Graph.Merges (g : Graph n) (g' : Graph m) (merge : Fin n → Fin m) : Prop :=
  ∀ i, g'.entity (merge i) = (g.entity i).map merge

namespace Bisimulation

variable {g : Graph n} {g' : Graph m} {R : Fin n → Fin m → Prop}

theorem simulation (alike : Bisimulation g g' R) (scope : Scope) :
    Expansion.Simulation g g' scope fun _ => R where
  name related := (alike.place related).name
  raw := alike.raw
  described related := by
    have pairs := Expansion.forall₂_described (alike.attributes related)
    refine pairs.imp fun a b both => ⟨both.1, both.2.imp fun {k l} referred => ?_⟩
    exact ⟨⟨(alike.place referred).name, (alike.place referred).type⟩, fun _ => referred⟩

/-- Related entities have the same block at the end of every path, or fail alike. -/
theorem block_eq (alike : Bisimulation g g' R) {i : Fin n} {j : Fin m} (related : R i j)
    (scope : Scope) (path : Path) :
    Expansion.block g scope path i = Expansion.block g' scope path j :=
  Expansion.block_eq_of_simulation (alike.simulation scope) path i j related

theorem entityOutline_eq (alike : Bisimulation g g' R) {i : Fin n} {j : Fin m} (related : R i j)
    (scope : Scope) : Expansion.entityOutline g scope i = Expansion.entityOutline g' scope j := by
  have name : g.name i = g'.name j := (alike.place related).name
  rw [Expansion.entityOutline, Expansion.entityOutline, name, alike.block_eq related]

theorem of_merges {merge : Fin n → Fin m} (merges : g.Merges g' merge) :
    Bisimulation g g' fun i j => merge i = j := by
  constructor
  case place =>
    rintro i _ rfl
    rw [merges i]
    exact ⟨rfl, rfl, rfl⟩
  case raw =>
    rintro i _ rfl name -
    rw [merges i]
    rfl
  case attributes =>
    rintro i _ rfl name -
    rw [merges i, Entity.map, Record.get?_map]
    cases (g.entity i).attributes.get? name with
    | none => exact .none
    | some held => exact .some (.map (fun _ => rfl) held)

end Bisimulation

namespace Report

/-- Entities with the same contents have the same block, and snapshots that list entities with the
same contents one by one are serialized alike, whichever graphs they come from. In particular it
does not matter whether there is one entity that is shared or a copy of it in each place. -/
theorem serialize_eq_of_contents (s : Snapshot n) (s' : Snapshot m) :
    (∀ R, Bisimulation s.graph s'.graph R →
      (∀ i j, R i j → ∀ (scope : Scope) (visited : Path) (owner : String),
        Expansion.block s.graph scope (visited.insert owner) i =
          Expansion.block s'.graph scope (visited.insert owner) j) ∧
      (s.Matches s' R → ∀ depth,
        (Serializer.readable depth).serialize s = (Serializer.readable depth).serialize s')) ∧
    (∀ merge, s.graph.Merges s'.graph merge → s.Matches s' (fun i j => merge i = j) → ∀ depth,
      (Serializer.readable depth).serialize s = (Serializer.readable depth).serialize s') := by
  have serialized {R : Fin n → Fin m → Prop} (alike : Bisimulation s.graph s'.graph R)
      (same : s.Matches s' R) (depth : Number) :
      (Serializer.readable depth).serialize s = (Serializer.readable depth).serialize s' := by
    have scopes : scope s depth = scope s' depth := by rw [scope, scope, same.structural]
    apply serialize_eq_of_matches same alike.place
    intro key type i j _ related
    rw [scopes]
    exact alike.entityOutline_eq related (scope s' depth)
  constructor
  · intro R alike
    refine ⟨fun i j related scope visited owner => ?_, serialized alike⟩
    exact alike.block_eq related scope (visited.insert owner)
  · intro merge merges same
    exact serialized (.of_merges merges) same

/-- Two entities that refer to each other, the first of them listed twice. -/
def shared : Snapshot 2 where
  graph := ⟨#v[⟨⟨"t"⟩, "a", some ⟨"c", .named "c"⟩,
      ⟨[("x", .value (.ref 1))], List.nodup_singleton "x"⟩, none⟩,
    ⟨⟨"t"⟩, "b", none, ⟨[("x", .value (.ref 0)), ("y", .value .null)], by simp⟩, none⟩]⟩
  source := ⟨"u", "p", "v", "w"⟩
  structural := ⟨⟨"g"⟩, none, none⟩
  types := [⟨"t"⟩]
  groups := [some ⟨"c", .named "c"⟩]
  twoLevel := true
  buckets := ⟨[("t", [0, 0])], by simp⟩

/-- The same with a copy of each, in one circle, and the copy listed in the second place. -/
def copied : Snapshot 4 where
  graph := ⟨#v[⟨⟨"t"⟩, "a", some ⟨"c", .named "c"⟩, ⟨[("x", .value (.ref 1))], by simp⟩, none⟩,
    ⟨⟨"t"⟩, "b", none, ⟨[("x", .value (.ref 2)), ("y", .value .null)], by simp⟩, none⟩,
    ⟨⟨"t"⟩, "a", some ⟨"c", .named "c"⟩, ⟨[("x", .value (.ref 3))], by simp⟩, none⟩,
    ⟨⟨"t"⟩, "b", none, ⟨[("x", .value (.ref 0)), ("y", .value .null)], by simp⟩, none⟩]⟩
  source := ⟨"u", "p", "v", "w"⟩
  structural := ⟨⟨"g"⟩, none, none⟩
  types := [⟨"t"⟩]
  groups := [some ⟨"c", .named "c"⟩]
  twoLevel := true
  buckets := ⟨[("t", [0, 2])], by simp⟩

theorem copied_serialized_as_shared : ∃ merge : Fin 4 → Fin 2,
    copied.graph.Merges shared.graph merge ∧ copied.Matches shared (fun i j => merge i = j) ∧
      Bisimulation copied.graph shared.graph (fun i j => merge i = j) ∧
      (Serializer.readable .one).serialize copied = (Serializer.readable .one).serialize shared ∧
      Expansion.block copied.graph ⟨.one, none⟩ (Path.empty.insert "a") 2 =
        Expansion.block shared.graph ⟨.one, none⟩ (Path.empty.insert "a") 0 := by
  let merge (i : Fin 4) : Fin 2 := if i.val % 2 = 0 then 0 else 1
  have merges : copied.graph.Merges shared.graph merge := by
    intro i
    match i with
    | 0 | 1 | 2 | 3 => rfl
  have same : copied.Matches shared (fun i j => merge i = j) := by
    constructor
    case source | structural | types | groups | twoLevel => rfl
    case buckets =>
      intro typeName
      simp only [copied, shared, Record.get?, Record.lookup_cons_eq_if, List.lookup_nil]
      split
      · exact .some (.cons rfl (.cons rfl .nil))
      · exact .none
  have alike := Bisimulation.of_merges merges
  obtain ⟨related, merged⟩ := serialize_eq_of_contents copied shared
  exact ⟨merge, merges, same, alike, merged merge merges same .one,
    (related _ alike).1 2 0 rfl ⟨.one, none⟩ .empty "a"⟩

end Report

end SnapshotReport
