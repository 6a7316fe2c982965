import Mathlib.Data.List.Nodup
import Mathlib.Data.Option.Basic
import SnapshotReport.Proofs.Listing
import SnapshotReport.Proofs.Simulation
import SnapshotReport.Serializer

/-! The order in which things are captured. Groups, types, buckets, attributes and the texts of the
provider are sorted or looked up wherever they are shown, so a snapshot that holds the same in
another order has the same report, and the same failure if it has none. -/
namespace SnapshotReport

variable {n : Nat}

namespace Record

variable {α : Type}

/-- The same entries, written in another order. -/
def Rearranged (r r' : Record α) : Prop :=
  r.entries.Perm r'.entries

theorem Rearranged.sorted_eq {r r' : Record α} (rearranged : r.Rearranged r') :
    r.sorted = r'.sorted := by
  have proper := transCmp_on Text.byUnits (Prod.fst : String × α → String)
  apply sortBy_eq_of_perm rearranged
  intro entry member other member' same
  have key : entry.1 = other.1 := Std.LawfulEqCmp.eq_of_compare same
  exact List.inj_on_of_nodup_map r.nodup member member' key

theorem Rearranged.get?_eq {r r' : Record α} (rearranged : r.Rearranged r') (key : String) :
    r.get? key = r'.get? key := by
  apply Option.ext
  intro value
  rw [get?_eq_some_iff, get?_eq_some_iff]
  exact rearranged.mem_iff

end Record

/-- The same entity, its attributes and the provider's texts written in another order. -/
structure Entity.Rearranged {Node : Type} (e e' : Entity Node) : Prop where
  type : e.type = e'.type
  name : e.name = e'.name
  group : e.group = e'.group
  attributes : e.attributes.Rearranged e'.attributes
  raw : Option.Rel Record.Rearranged e.raw e'.raw

namespace Entity.Rearranged

variable {Node : Type} {e e' : Entity Node}

theorem described_eq (rearranged : e.Rearranged e') : e.described = e'.described := by
  rw [described, described, rearranged.attributes.sorted_eq]

theorem rawText?_eq (rearranged : e.Rearranged e') (name : String) :
    e.rawText? name = e'.rawText? name := by
  have raw := rearranged.raw
  rw [rawText?, rawText?]
  generalize e.raw = texts at raw ⊢
  generalize e'.raw = texts' at raw ⊢
  cases raw with
  | none => rfl
  | some same => exact same.get?_eq name

theorem order_eq {f f' : Entity Node} (first : e.Rearranged e') (second : f.Rearranged f') :
    e.order f = e'.order f' := by
  rw [order, order, first.name, first.group, first.type, second.name, second.group, second.type]

end Entity.Rearranged

/-- The same snapshot, captured in another order. Groups may be repeated too. Buckets are compared by
name, so it does not matter which of them was filled first. -/
structure Snapshot.Rearranged (s s' : Snapshot n) : Prop where
  entities : ∀ i, (s.graph.entity i).Rearranged (s'.graph.entity i)
  source : s.source = s'.source
  structural : s.structural = s'.structural
  types : s.types.Perm s'.types
  groups : ∀ group, group ∈ s.groups ↔ group ∈ s'.groups
  twoLevel : s.twoLevel = s'.twoLevel
  buckets : ∀ typeName,
    Option.Rel List.Perm (s.buckets.get? typeName) (s'.buckets.get? typeName)

namespace Snapshot.Rearranged

variable {s s' : Snapshot n}

theorem sort_eq (rearranged : s.Rearranged s') : s.graph.sort = s'.graph.sort := by
  have order : (fun i j => (s.graph.entity i).order (s.graph.entity j)) =
      fun i j => (s'.graph.entity i).order (s'.graph.entity j) := by
    funext i j
    exact (rearranged.entities i).order_eq (rearranged.entities j)
  funext list
  rw [Graph.sort, Graph.sort, order]

/-- The blocks of an entity are the same in both. -/
theorem block_eq (rearranged : s.Rearranged s') (scope : Scope) (path : Path) (i : Fin n) :
    Expansion.block s.graph scope path i = Expansion.block s'.graph scope path i := by
  have sim : Expansion.Simulation s.graph s'.graph scope fun _ i j => i = j := by
    constructor
    · rintro path i _ rfl
      exact (rearranged.entities i).name
    · rintro path i _ rfl name -
      exact (rearranged.entities i).rawText?_eq name
    · rintro path i _ rfl
      rw [← (rearranged.entities i).described_eq]
      apply List.forall₂_same.mpr
      intro entry _
      refine ⟨rfl, .refl (fun k => ⟨⟨?_, ?_⟩, fun _ => rfl⟩) entry.2⟩
      · exact (rearranged.entities k).name
      · exact (rearranged.entities k).type
  exact Expansion.block_eq_of_simulation sim path i i rfl

theorem entityOutline_eq (rearranged : s.Rearranged s') (scope : Scope) (i : Fin n) :
    Expansion.entityOutline s.graph scope i = Expansion.entityOutline s'.graph scope i := by
  have name : s.graph.name i = s'.graph.name i := (rearranged.entities i).name
  rw [Expansion.entityOutline, Expansion.entityOutline, rearranged.block_eq, name]

/-- What is listed under a type is the same but for the order, or in both cases no list. -/
theorem entitiesOf_cases (rearranged : s.Rearranged s') (type : TypeTag) :
    (∃ failure, s.entitiesOf type = .error failure ∧ s'.entitiesOf type = .error failure) ∨
      ∃ list list', s.entitiesOf type = .ok list ∧ s'.entitiesOf type = .ok list' ∧
        list.Perm list' := by
  have bucket := rearranged.buckets type.fullName
  unfold entitiesOf Buckets.find?
  generalize s.buckets.get? type.fullName = found at bucket ⊢
  generalize s'.buckets.get? type.fullName = found' at bucket ⊢
  cases bucket with
  | some perm => exact .inr ⟨_, _, rfl, rfl, perm⟩
  | none =>
    dsimp only
    generalize (if Buckets.reservedNames.contains type.fullName then none else some []) = fallback
    cases fallback with
    | none => exact .inl ⟨_, rfl, rfl⟩
    | some list => exact .inr ⟨list, list, rfl, rfl, .refl list⟩

end Snapshot.Rearranged

namespace Report

/-- What is listed can be told apart by what it is sorted by: groups by their labels, and different
entities in one listing by their names and types. -/
structure Distinguished (s : Snapshot n) : Prop where
  labels : ∀ a ∈ s.keys, ∀ b ∈ s.keys, a.label s.twoLevel = b.label s.twoLevel → a = b
  entities : ∀ key type i j, Lists s key type i → Lists s key type j →
    s.graph.name i = s.graph.name j → s.graph.type i = s.graph.type j → i = j

variable {s s' : Snapshot n} {key : GroupKey} {type : TypeTag}

theorem owned_eq_of_rearranged (rearranged : s.Rearranged s') {list list' : List (Fin n)}
    (perm : list.Perm list')
    (apart : ∀ i ∈ owned s key list, ∀ j ∈ owned s key list,
      s.graph.name i = s.graph.name j → s.graph.type i = s.graph.type j → i = j) :
    owned s key list = owned s' key list' := by
  have proper := transCmp_on Entity.orderInGroup s.graph.entity
  have owner : owns s' key = owns s key := by
    funext i
    rw [owns, owns, (rearranged.entities i).group]
  have entries : owned s' key list' = owned s key list' := by
    rw [owned, owned, owner, rearranged.sort_eq]
  rw [entries, owned_eq_sortBy, owned_eq_sortBy]
  apply sortBy_eq_of_perm (perm.filter _)
  intro i memI j memJ same
  obtain ⟨name, type⟩ := Entity.eq_of_orderInGroup same
  exact apart i ((s.graph.sort_perm _).mem_iff.mpr memI) j ((s.graph.sort_perm _).mem_iff.mpr memJ)
    name type

theorem listedTypes_eq (rearranged : s.Rearranged s') : listedTypes s = listedTypes s' := by
  rw [listedTypes, listedTypes, TypeTag.sort_eq_of_perm rearranged.types, rearranged.structural]

theorem listings_eq_of_rearranged (rearranged : s.Rearranged s') (distinguished : Distinguished s)
    (scope : Scope) (reported : key ∈ GroupKey.sort s.twoLevel s.keys) :
    listings s scope (some key) = listings s' scope (some key) := by
  rw [listings_eq, listings_eq, ← listedTypes_eq rearranged]
  congr 1
  apply mapM_congr
  intro type included
  rw [typeListing, typeListing]
  obtain ⟨failure, found, found'⟩ | ⟨list, list', found, found', perm⟩ :=
    rearranged.entitiesOf_cases type
  · rw [found, found']
    rfl
  · have lists (i : Fin n) (member : i ∈ owned s key list) : Lists s key type i :=
      lists_iff.mpr ⟨reported, included, list, found, member⟩
    have entries : owned s key list = owned s' key list' := by
      apply owned_eq_of_rearranged rearranged perm
      intro i memI j memJ
      exact distinguished.entities key type i j (lists i memI) (lists j memJ)
    rw [found, found']
    simp only [bind, Except.bind]
    rw [← entries, mapM_congr fun i _ => rearranged.entityOutline_eq scope i]

theorem outlines_eq_of_rearranged (rearranged : s.Rearranged s') (distinguished : Distinguished s)
    (depth : Number) : outlines s depth = outlines s' depth := by
  have missing : none ∈ s.groups ↔ none ∈ s'.groups := rearranged.groups none
  have reported : GroupKey.sort s.twoLevel s.keys = GroupKey.sort s'.twoLevel s'.keys := by
    rw [← rearranged.twoLevel]
    apply GroupKey.sort_eq_of_mem_iff _ distinguished.labels
    intro key
    rw [Snapshot.mem_keys, Snapshot.mem_keys]
    exact rearranged.groups (some key)
  have sections : (GroupKey.sort s.twoLevel s.keys).mapM (groupOutline s (scope s depth)) =
      (GroupKey.sort s'.twoLevel s'.keys).mapM (groupOutline s' (scope s' depth)) := by
    rw [← reported]
    apply mapM_congr
    intro key member
    have entries := listings_eq_of_rearranged rearranged distinguished (scope s depth) member
    rw [groupOutline, groupOutline, entries, rearranged.twoLevel, scope, scope,
      rearranged.structural]
  have front : header s = header s' := by
    rw [header, header, rearranged.source, TypeTag.sort_eq_of_perm rearranged.types]
  rw [outlines, outlines, s.reportedGroups_eq, s'.reportedGroups_eq, front]
  by_cases given : none ∈ s.groups
  · rw [if_pos given, if_pos (missing.mp given)]
    rfl
  · rw [if_neg given, if_neg (mt missing.mpr given)]
    simp only [bind, Except.bind, sections]

/-- A snapshot captured in another order is serialized to the same text, or fails the same way, as
long as nothing is listed that sorting cannot tell apart. -/
theorem serialize_eq_of_rearranged (rearranged : s.Rearranged s') (distinguished : Distinguished s)
    (depth : Number) :
    (Serializer.readable depth).serialize s = (Serializer.readable depth).serialize s' := by
  have same : text s depth = text s' depth := by
    rw [text, text, outlines_eq_of_rearranged rearranged distinguished]
  change (text s depth).mapError _ = (text s' depth).mapError _
  rw [same]

/-- Two entities of one type in one group, and a group that owns nothing. -/
def captured : Snapshot 2 where
  graph := ⟨#v[⟨⟨"t"⟩, "a", some ⟨"c", .named "d"⟩,
      ⟨[("x", .value .null), ("y", .value (.ref 1))], by simp⟩, none⟩,
    ⟨⟨"t"⟩, "b", some ⟨"c", .named "d"⟩, ∅, none⟩]⟩
  source := ⟨"u", "p", "v", "w"⟩
  structural := ⟨⟨"g"⟩, none, none⟩
  types := [⟨"t"⟩, ⟨"v"⟩]
  groups := [some ⟨"c", .named "d"⟩, some ⟨"c", .named "e"⟩]
  twoLevel := true
  buckets := ⟨[("t", [0, 1]), ("v", [])], by simp⟩

/-- The same entities, with everything captured in the opposite order and one group twice. -/
def capturedBackwards : Snapshot 2 where
  graph := ⟨#v[⟨⟨"t"⟩, "a", some ⟨"c", .named "d"⟩,
      ⟨[("y", .value (.ref 1)), ("x", .value .null)], by simp⟩, none⟩,
    ⟨⟨"t"⟩, "b", some ⟨"c", .named "d"⟩, ∅, none⟩]⟩
  source := ⟨"u", "p", "v", "w"⟩
  structural := ⟨⟨"g"⟩, none, none⟩
  types := [⟨"v"⟩, ⟨"t"⟩]
  groups := [some ⟨"c", .named "e"⟩, some ⟨"c", .named "d"⟩, some ⟨"c", .named "e"⟩]
  twoLevel := true
  buckets := ⟨[("v", []), ("t", [1, 0])], by simp⟩

theorem serialize_captured_backwards :
    captured.Rearranged capturedBackwards ∧ Distinguished captured ∧
      (Serializer.readable .one).serialize captured =
        (Serializer.readable .one).serialize capturedBackwards := by
  have rearranged : captured.Rearranged capturedBackwards := by
    constructor
    case entities =>
      intro i
      match i with
      | 0 => exact ⟨rfl, rfl, rfl, .swap _ _ _, .none⟩
      | 1 => exact ⟨rfl, rfl, rfl, .refl _, .none⟩
    case source | structural | twoLevel => rfl
    case types => exact .swap _ _ _
    case groups =>
      intro group
      simp only [captured, capturedBackwards, List.mem_cons, List.not_mem_nil, or_false]
      grind
    case buckets =>
      intro typeName
      simp only [captured, capturedBackwards, Record.get?, Record.lookup_cons_eq_if, List.lookup_nil]
      by_cases t : typeName = "t"
      · subst t
        exact .some (.swap _ _ _)
      · by_cases v : typeName = "v"
        · subst v
          exact .some (.refl _)
        · simp only [if_neg t, if_neg v]
          exact .none
  have distinguished : Distinguished captured := by
    constructor
    · decide
    · intro key type i j _ _ name _
      have apart : ∀ i j, captured.graph.name i = captured.graph.name j → i = j := by decide
      exact apart i j name
  exact ⟨rearranged, distinguished, serialize_eq_of_rearranged rearranged distinguished .one⟩

end Report

end SnapshotReport
