import SnapshotReport.Proofs.Matching
import SnapshotReport.Proofs.Simulation

/-! Data that is never reached. A report reads the attributes of an entity, and the texts that the
provider gives for them, only if the entity is listed or expanded within a listed one; of all others
it reads the name, the type and the group. Attributes that place an entity are not read at all. -/
namespace SnapshotReport

variable {n : Nat}

namespace Report

/-- Entity `i` is listed, or it is expanded within a listed entity, however deep. -/
def Reached (s : Snapshot n) (depth : Number) (i : Fin n) : Prop :=
  ∃ key type start chain, Lists s key type start ∧
    Expansion.Chain s.graph (scope s depth) (Path.empty.insert (s.graph.name start)) start chain ∧
    i ∈ start :: chain

end Report

/-- The same snapshot but for data that is not read: attributes and texts of entities that are not
reached, and those under the names that place an entity. They may be anything in the one and in the
other, also malformed or unreadable, and refer to any entity of the table. -/
structure Snapshot.ReadsAlike (s s' : Snapshot n) (depth : Number) : Prop where
  source : s.source = s'.source
  structural : s.structural = s'.structural
  types : s.types = s'.types
  groups : s.groups = s'.groups
  twoLevel : s.twoLevel = s'.twoLevel
  buckets : s.buckets = s'.buckets
  place : ∀ i, (s.graph.entity i).SamePlace (s'.graph.entity i)
  attributes : ∀ i, Report.Reached s depth i → ∀ name ∉ Entity.structuralNames,
    (s.graph.entity i).attributes.get? name = (s'.graph.entity i).attributes.get? name
  raw : ∀ i, Report.Reached s depth i → ∀ name ∉ Entity.structuralNames,
    (s.graph.entity i).rawText? name = (s'.graph.entity i).rawText? name

namespace Report

variable {s s' : Snapshot n} {depth : Number}

/-- All that is expanded within a listed entity is reached. -/
theorem throughout_of_lists {key : GroupKey} {type : TypeTag} {i : Fin n}
    (lists : Lists s key type i) : Expansion.Throughout s.graph (scope s depth) (Reached s depth)
      (Path.empty.insert (s.graph.name i)) i :=
  fun chain nested _ member => ⟨key, type, i, chain, lists, nested, member⟩

theorem simulation_of_readsAlike (alike : s.ReadsAlike s' depth) :
    Expansion.Simulation s.graph s'.graph (scope s depth)
      fun path i j => i = j ∧
        Expansion.Throughout s.graph (scope s depth) (Reached s depth) path i where
  name := by
    rintro path i _ ⟨rfl, -⟩
    exact (alike.place i).name
  raw := by
    rintro path i _ ⟨rfl, all⟩
    exact alike.raw i all.self
  described := by
    rintro path i _ ⟨rfl, all⟩
    apply Expansion.forall₂_described
    intro name describes
    rw [← alike.attributes i all.self name describes]
    cases (s.graph.entity i).attributes.get? name with
    | none => exact .none
    | some held =>
      refine .some (.refl (fun k => ⟨⟨?_, ?_⟩, fun nests => ⟨rfl, all.nested nests⟩⟩) held)
      · exact (alike.place k).name
      · exact (alike.place k).type

theorem matches_of_readsAlike (alike : s.ReadsAlike s' depth) : s.Matches s' (· = ·) where
  source := alike.source
  structural := alike.structural
  types := alike.types
  groups := alike.groups
  twoLevel := alike.twoLevel
  buckets typeName := by
    rw [← alike.buckets]
    cases s.buckets.get? typeName with
    | none => exact .none
    | some list => exact .some (List.forall₂_refl list)

/-- Data that is never reached has no influence on the outcome: two snapshots that differ in such data
alone are serialized to the same text, or fail alike. -/
theorem serialize_eq_of_readsAlike (alike : s.ReadsAlike s' depth) :
    (Serializer.readable depth).serialize s = (Serializer.readable depth).serialize s' := by
  have sim := simulation_of_readsAlike alike
  have scopes : scope s' depth = scope s depth := by rw [scope, scope, alike.structural]
  apply serialize_eq_of_matches (matches_of_readsAlike alike)
  · rintro i _ rfl
    exact alike.place i
  · rintro key type i _ lists rfl
    have name : s.graph.name i = s'.graph.name i := (alike.place i).name
    have block := Expansion.block_eq_of_simulation sim (Path.empty.insert (s.graph.name i)) i i
      ⟨rfl, throughout_of_lists lists⟩
    rw [Expansion.entityOutline, Expansion.entityOutline, scopes, ← name, block]

/-- A listed entity that refers to another one, which refers back to it and to a group. -/
def behindGroup : Snapshot 3 where
  graph := ⟨#v[⟨⟨"t"⟩, "a", some ⟨"c", .named "c"⟩, ⟨[("x", .value (.ref 1))], by simp⟩, none⟩,
    ⟨⟨"t"⟩, "b", none, ⟨[("x", .value (.ref 0)), ("y", .value (.ref 2))], by simp⟩, none⟩,
    ⟨⟨"g"⟩, "d", none, ∅, none⟩]⟩
  source := ⟨"u", "p", "v", "w"⟩
  structural := ⟨⟨"g"⟩, none, none⟩
  types := [⟨"t"⟩]
  groups := [some ⟨"c", .named "c"⟩]
  twoLevel := true
  buckets := ⟨[("t", [0])], by simp⟩

/-- The same with data that cannot be read: what the group has, and the name that the first entity
gives itself. -/
def unreadableBehindGroup : Snapshot 3 :=
  { behindGroup with
    graph := ⟨#v[⟨⟨"t"⟩, "a", some ⟨"c", .named "c"⟩,
        ⟨[("name", .malformed ⟨.null, rfl⟩), ("x", .value (.ref 1))], by simp⟩, none⟩,
      ⟨⟨"t"⟩, "b", none, ⟨[("x", .value (.ref 0)), ("y", .value (.ref 2))], by simp⟩, none⟩,
      ⟨⟨"g"⟩, "d", none, ⟨[("z", .unreadable (.thrown .null))], by simp⟩,
        some ⟨[("z", some "q")], by simp⟩⟩]⟩ }

/-- The first reference back is dropped because of its name, the other one because of its type. -/
theorem not_reached_behindGroup : ¬Reached behindGroup .one 2 := by
  have referred {path : Path} {i j : Fin 3}
      (nests : Expansion.Nests behindGroup.graph (scope behindGroup .one) path i j) :
      i = 0 ∧ j = 1 ∨ i = 1 ∧ j = 0 := by
    obtain ⟨-, -, name, value, stands, -, ⟨rfl, kept⟩ | ⟨items, rfl, -⟩⟩ := nests
    · match i, j with
      | 0, 1 => exact .inl ⟨rfl, rfl⟩
      | 1, 0 => exact .inr ⟨rfl, rfl⟩
      | 1, 2 => contradiction
      | 0, 0 | 0, 2 | 1, 1 => simp [behindGroup, Graph.entity] at stands
      | 2, _ => exact absurd stands List.not_mem_nil
    · obtain rfl | rfl | rfl : i = 0 ∨ i = 1 ∨ i = 2 := by omega
      · simp [behindGroup, Graph.entity] at stands
      · simp [behindGroup, Graph.entity] at stands
      · exact absurd stands List.not_mem_nil
  rintro ⟨key, type, start, chain, lists, nested, member⟩
  have first : start = 0 := by
    obtain ⟨-, included, -, ⟨list, found, listed⟩, -⟩ := lists
    obtain rfl := List.mem_singleton.mp included
    obtain rfl := Except.ok.inj found
    exact List.mem_singleton.mp listed
  subst first
  have within : ∀ path i chain,
      Expansion.Chain behindGroup.graph (scope behindGroup .one) path i chain → i ≠ 2 →
        2 ∉ i :: chain := by
    intro path i chain nested
    induction nested with
    | nil => simp [eq_comm]
    | cons nests _ ih =>
      intro apart
      have next := ih (by rcases referred nests with ⟨-, rfl⟩ | ⟨-, rfl⟩ <;> decide)
      rw [List.mem_cons, not_or]
      exact ⟨apart.symm, next⟩
  exact within _ 0 chain nested (by decide) member

theorem unread_behindGroup : behindGroup.ReadsAlike unreadableBehindGroup .one ∧
    (Serializer.readable .one).serialize behindGroup =
      (Serializer.readable .one).serialize unreadableBehindGroup := by
  have alike : behindGroup.ReadsAlike unreadableBehindGroup .one := by
    constructor
    case source | structural | types | groups | twoLevel | buckets => rfl
    case place =>
      intro i
      match i with
      | 0 | 1 | 2 => exact ⟨rfl, rfl, rfl⟩
    case attributes =>
      intro i reached name describes
      match i with
      | 0 =>
        have other : name ≠ "name" := fun same => describes (by simp [same, Entity.structuralNames])
        simp [behindGroup, unreadableBehindGroup, Graph.entity, Record.get?,
          Record.lookup_cons_eq_if, other]
      | 1 => rfl
      | 2 => exact absurd reached not_reached_behindGroup
    case raw =>
      intro i reached name _
      match i with
      | 0 | 1 => rfl
      | 2 => exact absurd reached not_reached_behindGroup
  exact ⟨alike, serialize_eq_of_readsAlike alike⟩

end Report

end SnapshotReport
