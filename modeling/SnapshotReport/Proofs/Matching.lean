import Mathlib.Data.Option.Basic
import SnapshotReport.Proofs.Listing
import SnapshotReport.Serializer

/-! Snapshots that list the same, entry by entry. Where an entity is listed is decided by its name,
its type and its group; so if those of the entries agree, and each entry has the same outline as the
one that stands in its place, then the reports agree too. -/
namespace SnapshotReport

variable {n m : Nat}

theorem exists_pairs {α β : Type} {R : α → β → Prop} {xs : List α} {ys : List β}
    (related : List.Forall₂ R xs ys) : ∃ pairs : List {p : α × β // R p.1 p.2},
      pairs.map (·.val.1) = xs ∧ pairs.map (·.val.2) = ys := by
  induction related with
  | nil => exact ⟨[], rfl, rfl⟩
  | @cons x y _ _ first _ ih =>
    obtain ⟨pairs, rfl, rfl⟩ := ih
    exact ⟨⟨(x, y), first⟩ :: pairs, rfl, rfl⟩

/-- Lists that are compared alike, entry by entry, are sorted alike. -/
theorem forall₂_sortByBisection {α β : Type} {order : α → α → Ordering} {order' : β → β → Ordering}
    {R : α → β → Prop} {xs : List α} {ys : List β} (related : List.Forall₂ R xs ys)
    (agree : ∀ {a b c d}, R a b → R c d → order a c = order' b d) :
    List.Forall₂ R (sortByBisection order xs) (sortByBisection order' ys) := by
  -- Both lists are the sides of one list of pairs, and by either side it is sorted alike.
  obtain ⟨pairs, rfl, rfl⟩ := exists_pairs related
  have same : (fun p q : {p : α × β // R p.1 p.2} => order p.val.1 q.val.1) =
      fun p q => order' p.val.2 q.val.2 := by
    funext p q
    exact agree p.property q.property
  rw [sortByBisection_map, sortByBisection_map, same, List.forall₂_map_left_iff,
    List.forall₂_map_right_iff, List.forall₂_same]
  exact fun pair _ => pair.property

/-- Entities that are listed in the same place. -/
structure Entity.SamePlace {Node Other : Type} (e : Entity Node) (e' : Entity Other) : Prop where
  name : e.name = e'.name
  type : e.type = e'.type
  group : e.group = e'.group

theorem Entity.SamePlace.order_eq {Node Other : Type} {e f : Entity Node} {e' f' : Entity Other}
    (first : e.SamePlace e') (second : f.SamePlace f') : e.order f = e'.order f' := by
  rw [order, order, first.name, first.type, first.group, second.name, second.type, second.group]

/-- The same is reported in both snapshots, and in their buckets related entities stand one by
one. -/
structure Snapshot.Matches (s : Snapshot n) (s' : Snapshot m) (R : Fin n → Fin m → Prop) :
    Prop where
  source : s.source = s'.source
  structural : s.structural = s'.structural
  types : s.types = s'.types
  groups : s.groups = s'.groups
  twoLevel : s.twoLevel = s'.twoLevel
  buckets : ∀ typeName, Option.Rel (List.Forall₂ R) (s.buckets.get? typeName)
    (s'.buckets.get? typeName)

namespace Snapshot.Matches

variable {s : Snapshot n} {s' : Snapshot m} {R : Fin n → Fin m → Prop}

/-- What is listed under a type is related, or in both cases no list. -/
theorem entitiesOf_cases (same : s.Matches s' R) (type : TypeTag) :
    (∃ failure, s.entitiesOf type = .error failure ∧ s'.entitiesOf type = .error failure) ∨
      ∃ list list', s.entitiesOf type = .ok list ∧ s'.entitiesOf type = .ok list' ∧
        List.Forall₂ R list list' := by
  have bucket := same.buckets type.fullName
  unfold entitiesOf Buckets.find?
  generalize s.buckets.get? type.fullName = found at bucket ⊢
  generalize s'.buckets.get? type.fullName = found' at bucket ⊢
  cases bucket with
  | some related => exact .inr ⟨_, _, rfl, rfl, related⟩
  | none =>
    dsimp only
    by_cases reserved : Buckets.reservedNames.contains type.fullName = true
    · rw [if_pos reserved, if_pos reserved]
      exact .inl ⟨_, rfl, rfl⟩
    · rw [if_neg reserved, if_neg reserved]
      exact .inr ⟨[], [], rfl, rfl, .nil⟩

end Snapshot.Matches

namespace Report

variable {s : Snapshot n} {s' : Snapshot m} {R : Fin n → Fin m → Prop} {depth : Number}
  {key : GroupKey}

theorem forall₂_owned (place : ∀ {i j}, R i j → (s.graph.entity i).SamePlace (s'.graph.entity j))
    (key : GroupKey) {list : List (Fin n)} {list' : List (Fin m)}
    (related : List.Forall₂ R list list') :
    List.Forall₂ R (owned s key list) (owned s' key list') := by
  have kept : List.Forall₂ R (list.filter (owns s key)) (list'.filter (owns s' key)) := by
    apply List.rel_filter _ related
    intro i j both
    change owns s key i = true ↔ owns s' key j = true
    rw [owns_iff, owns_iff, (place both).group]
  apply forall₂_sortByBisection kept
  intro i j k l first second
  exact (place first).order_eq (place second)

theorem groupOutline_eq_of_matches (same : s.Matches s' R)
    (place : ∀ {i j}, R i j → (s.graph.entity i).SamePlace (s'.graph.entity j))
    (outlines : ∀ {key type i j}, Lists s key type i → R i j →
      Expansion.entityOutline s.graph (scope s depth) i =
        Expansion.entityOutline s'.graph (scope s' depth) j)
    (reported : key ∈ GroupKey.sort s.twoLevel s.keys) :
    groupOutline s (scope s depth) key = groupOutline s' (scope s' depth) key := by
  have types : listedTypes s = listedTypes s' := by
    rw [listedTypes, listedTypes, same.types, same.structural]
  rw [groupOutline, groupOutline, same.twoLevel, listings_eq, listings_eq, ← types]
  congr 2
  apply mapM_congr
  intro type included
  rw [typeListing, typeListing]
  obtain ⟨failure, found, found'⟩ | ⟨list, list', found, found', related⟩ :=
    same.entitiesOf_cases type
  · rw [found, found']
    rfl
  · rw [found, found']
    simp only [bind, Except.bind]
    have blocks : (owned s key list).mapM (Expansion.entityOutline s.graph (scope s depth)) =
        (owned s' key list').mapM (Expansion.entityOutline s'.graph (scope s' depth)) := by
      apply mapM_congr_forall₂ (forall₂_owned place key related)
      intro i member j _ both
      exact outlines (lists_iff.mpr ⟨reported, included, list, found, member⟩) both
    rw [blocks]

/-- Snapshots that list entities in the same places, with the same outlines, are serialized
alike. -/
theorem serialize_eq_of_matches (same : s.Matches s' R)
    (place : ∀ {i j}, R i j → (s.graph.entity i).SamePlace (s'.graph.entity j))
    (entries : ∀ {key type i j}, Lists s key type i → R i j →
      Expansion.entityOutline s.graph (scope s depth) i =
        Expansion.entityOutline s'.graph (scope s' depth) j) :
    (Serializer.readable depth).serialize s = (Serializer.readable depth).serialize s' := by
  have keys : s.keys = s'.keys := congrArg (List.filterMap id) same.groups
  have front : header s = header s' := by rw [header, header, same.source, same.types]
  have sections : (GroupKey.sort s.twoLevel s.keys).mapM (groupOutline s (scope s depth)) =
      (GroupKey.sort s'.twoLevel s'.keys).mapM (groupOutline s' (scope s' depth)) := by
    rw [← same.twoLevel, ← keys]
    apply mapM_congr
    intro key reported
    exact groupOutline_eq_of_matches same place entries reported
  have all : outlines s depth = outlines s' depth := by
    rw [outlines, outlines, s.reportedGroups_eq, s'.reportedGroups_eq, front, ← same.groups, ← keys]
    split
    · rfl
    · simp only [bind, Except.bind]
      rw [sections, ← keys]
  have texts : text s depth = text s' depth := by rw [text, text, all]
  change (text s depth).mapError _ = (text s' depth).mapError _
  rw [texts]

end Report

end SnapshotReport
