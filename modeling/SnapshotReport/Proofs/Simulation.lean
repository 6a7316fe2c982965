import SnapshotReport.Proofs.Nesting.Contribution
import SnapshotReport.Proofs.Sorting

/-! Two graphs that cannot be told apart by what is shown of them. Entities are related at the end of
a path; what an entity expands need be related only where it is expanded, so data that is never
reached has no part in a block. -/
namespace SnapshotReport

variable {n m : Nat}

/-- Values of the same kind, with equal scalars and related entities. -/
inductive AttributeValue.Related {Node Other : Type} (R : Node → Other → Prop) :
    AttributeValue Node → AttributeValue Other → Prop where
  | scalar {value} : Related R (.scalar value) (.scalar value)
  | ref {i j} : R i j → Related R (.ref i) (.ref j)
  | entities {items others} : List.Forall₂ R items others →
      Related R (.entities items) (.entities others)
  | scalars {items} : Related R (.scalars items) (.scalars items)
  | null : Related R .null .null

/-- Related values, or the same failure to give one. -/
inductive Attribute.Related {Node Other : Type} (R : Node → Other → Prop) :
    Attribute Node → Attribute Other → Prop where
  | value {value other} : value.Related R other → Related R (.value value) (.value other)
  | malformed {value} : Related R (.malformed value) (.malformed value)
  | unreadable {failure} : Related R (.unreadable failure) (.unreadable failure)

theorem AttributeValue.Related.refl {Node : Type} {R : Node → Node → Prop} (same : ∀ i, R i i)
    (value : AttributeValue Node) : value.Related R value := by
  cases value with
  | scalar => exact .scalar
  | ref target => exact .ref (same target)
  | entities items => exact .entities (List.forall₂_same.mpr fun i _ => same i)
  | scalars => exact .scalars
  | null => exact .null

theorem Attribute.Related.refl {Node : Type} {R : Node → Node → Prop} (same : ∀ i, R i i)
    (held : Attribute Node) : held.Related R held := by
  cases held with
  | value value => exact .value (.refl same value)
  | malformed => exact .malformed
  | unreadable => exact .unreadable

section Renumbering

variable {Node Other : Type} {f : Node → Other} {R S : Node → Other → Prop}

theorem AttributeValue.Related.map (related : ∀ i, R i (f i)) (value : AttributeValue Node) :
    value.Related R (value.map f) := by
  cases value with
  | scalar => exact .scalar
  | ref target => exact .ref (related target)
  | entities items =>
    exact .entities (List.forall₂_map_right_iff.mpr (List.forall₂_same.mpr fun i _ => related i))
  | scalars => exact .scalars
  | null => exact .null

theorem Attribute.Related.map (related : ∀ i, R i (f i)) (held : Attribute Node) :
    held.Related R (held.map f) := by
  cases held with
  | value value => exact .value (.map related value)
  | malformed => exact .malformed
  | unreadable => exact .unreadable

theorem Entity.described_map (f : Node → Other) (e : Entity Node) :
    (e.map f).described = e.described.map fun (name, held) => (name, held.map f) := by
  rw [described, described, Record.sorted, Record.sorted, map, Record.map, sortBy_map,
    List.filter_map]
  rfl

theorem AttributeValue.Related.imp (weaker : ∀ {i j}, R i j → S i j)
    {value : AttributeValue Node} {other : AttributeValue Other} (related : value.Related R other) :
    value.Related S other := by
  cases related with
  | scalar => exact .scalar
  | ref target => exact .ref (weaker target)
  | entities items => exact .entities (items.imp fun _ _ => weaker)
  | scalars => exact .scalars
  | null => exact .null

theorem Attribute.Related.imp (weaker : ∀ {i j}, R i j → S i j) {held : Attribute Node}
    {other : Attribute Other} (related : held.Related R other) : held.Related S other := by
  cases related with
  | value value => exact .value (value.imp weaker)
  | malformed => exact .malformed
  | unreadable => exact .unreadable

end Renumbering

namespace Expansion

/-- What is shown of an entity where it is not expanded. -/
structure SameFace (g : Graph n) (g' : Graph m) (i : Fin n) (j : Fin m) : Prop where
  name : g.name i = g'.name j
  type : g.type i = g'.type j

/-- Related entities have the same name, the same texts of the provider, and one by one attributes
that are related: what they refer to has the same face, and is related again if it is expanded. -/
structure Simulation (g : Graph n) (g' : Graph m) (scope : Scope)
    (R : Path → Fin n → Fin m → Prop) : Prop where
  name {path i j} : R path i j → g.name i = g'.name j
  raw {path i j} : R path i j → ∀ name ∉ Entity.structuralNames,
    (g.entity i).rawText? name = (g'.entity j).rawText? name
  described {path i j} : R path i j →
    List.Forall₂ (fun a b => a.1 = b.1 ∧ a.2.Related (fun k l => SameFace g g' k l ∧
      (Nests g scope path i k → R (path.insert (g.name i)) k l)) b.2)
      (g.entity i).described (g'.entity j).described

variable {g : Graph n} {g' : Graph m} {scope : Scope} {path : Path} {i : Fin n} {j : Fin m}

theorem forall₂_fresh? {S : Fin n → Fin m → Prop} (face : ∀ {k l}, S k l → g.name k = g'.name l)
    {items : List (Fin n)} {others : List (Fin m)} (related : List.Forall₂ S items others) :
    List.Forall₂ (fun (found : Fresh g path) (other : Fresh g' path) => S found other)
      (items.filterMap (fresh? g path)) (others.filterMap (fresh? g' path)) := by
  induction related with
  | nil => exact .nil
  | @cons k l _ _ first _ ih =>
    by_cases known : g.name k ∈ path
    · have known' : g'.name l ∈ path := face first ▸ known
      rw [List.filterMap_cons_none (dif_pos known), List.filterMap_cons_none (dif_pos known')]
      exact ih
    · have fresh : g'.name l ∉ path := face first ▸ known
      rw [List.filterMap_cons_some (dif_neg known), List.filterMap_cons_some (dif_neg fresh)]
      exact .cons first ih

/-- Related values expand related entities, one by one. -/
theorem forall₂_expanded {S : Fin n → Fin m → Prop} (face : ∀ {k l}, S k l → SameFace g g' k l)
    {value : AttributeValue (Fin n)} {other : AttributeValue (Fin m)}
    (related : value.Related S other) :
    List.Forall₂ (fun (found : Fresh g path) (other : Fresh g' path) => S found other)
      (expanded g scope path value) (expanded g' scope path other) := by
  cases related with
  | @ref k l target =>
    simp only [expanded, (face target).type]
    split
    · exact .nil
    · exact forall₂_fresh? (fun related => (face related).name) (.cons target .nil)
  | entities items =>
    simp only [expanded]
    split
    · exact forall₂_fresh? (fun related => (face related).name) items
    · exact .nil
  | scalar | scalars | null => exact .nil

theorem display_eq {S : Fin n → Fin m → Prop} (face : ∀ {k l}, S k l → SameFace g g' k l)
    {name : String} {value : AttributeValue (Fin n)} {other : AttributeValue (Fin m)}
    (related : value.Related S other)
    (raw : (g.entity i).rawText? name = (g'.entity j).rawText? name) :
    g.display i name value = g'.display j name other := by
  have shown : value.display g.name = other.display g'.name := by
    cases related with
    | ref target => exact congrArg some (face target).name
    | @entities items others paired =>
      have names : items.map g.name = others.map g'.name := by
        induction paired with
        | nil => rfl
        | cons first _ ih => rw [List.map_cons, List.map_cons, (face first).name, ih]
      simp only [AttributeValue.display, names]
    | scalar | scalars | null => rfl
  rw [Graph.display, Graph.display, Entity.display, Entity.display, raw, shown]

theorem assemble_eq {S : Fin n → Fin m → Prop} (face : ∀ {k l}, S k l → SameFace g g' k l)
    {name : String} {value : AttributeValue (Fin n)} {other : AttributeValue (Fin m)}
    (related : value.Related S other)
    (raw : (g.entity i).rawText? name = (g'.entity j).rawText? name)
    (blocks : List (String × List Outline)) :
    assemble g scope path i name value blocks = assemble g' scope path j name other blocks := by
  have shown := display_eq face related raw
  cases related with
  | ref target => simp only [assemble, (face target).type, (face target).name, shown]
  | @entities items others paired =>
    have size : items.isEmpty = others.isEmpty := by cases paired <;> rfl
    simp only [assemble, size, shown]
  | scalar | scalars | null => exact congrArg (line name) shown

/-- Related attributes add the same, or fail alike, if the blocks within them agree. -/
theorem contribution_eq_of_related {S : Fin n → Fin m → Prop}
    (face : ∀ {k l}, S k l → SameFace g g' k l) (named : g.name i = g'.name j) {name : String}
    {held : Attribute (Fin n)} {other : Attribute (Fin m)}
    (member : (name, held) ∈ (g.entity i).described) (alike : held.Related S other)
    (raw : (g.entity i).rawText? name = (g'.entity j).rawText? name)
    (blocks : ∀ k l, Nests g scope path i k → S k l →
      block g scope (path.insert (g.name i)) k = block g' scope (path.insert (g'.name j)) l) :
    contribution g scope path i (name, held) = contribution g' scope path j (name, other) := by
  rw [contribution, contribution]
  cases alike with
  | @value value other alike =>
    simp only [Attribute.read, bind, Except.bind]
    rw [attributeOutline_eq, attributeOutline_eq]
    have within : ((expanded g scope path value).mapM fun found => do
          return (g.name found, ← block g scope (path.insert (g.name i)) found)) =
        (expanded g' scope path other).mapM fun found => do
          return (g'.name found, ← block g' scope (path.insert (g'.name j)) found) := by
      refine mapM_congr_forall₂ (forall₂_expanded face alike) ?_
      intro found mem found' _ both
      have nests : Nests g scope path i found :=
        nests_iff.mpr ⟨name, value, found, member, mem, rfl⟩
      rw [(face both).name, blocks found found' nests both]
    rw [within]
    congr 1
    funext blocks
    exact congrArg Except.ok (assemble_eq face alike raw blocks)
  | malformed | unreadable =>
    simp only [Attribute.read, named]
    rfl

/-- Related entities have the same block, or fail alike. -/
theorem block_eq_of_simulation {R : Path → Fin n → Fin m → Prop} (sim : Simulation g g' scope R)
    (path : Path) (i : Fin n) (j : Fin m) (related : R path i j) :
    block g scope path i = block g' scope path j := by
  induction path, i using nesting_induction g scope generalizing j with
  | step path i ih =>
    have named := sim.name related
    rw [block_eq_contributions, block_eq_contributions]
    congr 1
    refine mapM_congr_forall₂ (sim.described related) ?_
    rintro ⟨name, held⟩ member ⟨_, other⟩ - ⟨rfl, alike⟩
    have raw := sim.raw related name (mem_described.mp member).2
    refine contribution_eq_of_related And.left named member alike raw ?_
    intro k l nests both
    rw [← named]
    exact ih k nests l (both.2 nests)

theorem mem_describedNames {name : String} : name ∈ (g.entity i).described.map Prod.fst ↔
    name ∉ Entity.structuralNames ∧ ((g.entity i).attributes.get? name).isSome := by
  rw [List.mem_map, Option.isSome_iff_exists]
  constructor
  · rintro ⟨⟨name, held⟩, member, rfl⟩
    obtain ⟨stands, describes⟩ := mem_described.mp member
    exact ⟨describes, held, Record.get?_eq_some_iff.mpr stands⟩
  · rintro ⟨describes, held, found⟩
    exact ⟨(name, held), mem_described.mpr ⟨Record.get?_eq_some_iff.mp found, describes⟩, rfl⟩

theorem describedNames_nodup (g : Graph n) (i : Fin n) :
    ((g.entity i).described.map Prod.fst).Nodup := by
  have all : ((g.entity i).attributes.sorted.map Prod.fst).Nodup :=
    ((Record.sorted_perm _).map Prod.fst).nodup_iff.mpr (g.entity i).attributes.nodup
  exact all.sublist (List.filter_sublist.map Prod.fst)

theorem describedNames_pairwise (g : Graph n) (i : Fin n) :
    ((g.entity i).described.map Prod.fst).Pairwise fun a b => (Text.byUnits a b).isLE := by
  have proper := transCmp_on Text.byUnits (Prod.fst : String × Attribute (Fin n) → String)
  apply List.pairwise_map.mpr
  exact (sortBy_pairwise (g.entity i).attributes.entries).filter _

/-- Entities describe themselves by the same names if they have attributes of the same names. -/
theorem describedNames_eq (same : ∀ name ∉ Entity.structuralNames,
    ((g.entity i).attributes.get? name).isSome = ((g'.entity j).attributes.get? name).isSome) :
    (g.entity i).described.map Prod.fst = (g'.entity j).described.map Prod.fst := by
  have perm : ((g.entity i).described.map Prod.fst).Perm
      ((g'.entity j).described.map Prod.fst) := by
    apply (List.perm_ext_iff_of_nodup (describedNames_nodup g i) (describedNames_nodup g' j)).mpr
    intro name
    rw [mem_describedNames, mem_describedNames]
    exact and_congr_right fun describes => by rw [same name describes]
  refine perm.eq_of_pairwise ?_ (describedNames_pairwise g i) (describedNames_pairwise g' j)
  intro a b _ _ le ge
  exact Std.LawfulEqCmp.eq_of_compare (Std.OrientedCmp.isLE_antisymm le ge)

/-- What is related name by name is related in the order in which it is shown. -/
theorem forall₂_described {S : Attribute (Fin n) → Attribute (Fin m) → Prop}
    (related : ∀ name ∉ Entity.structuralNames,
      Option.Rel S ((g.entity i).attributes.get? name) ((g'.entity j).attributes.get? name)) :
    List.Forall₂ (fun a b => a.1 = b.1 ∧ S a.2 b.2) (g.entity i).described
      (g'.entity j).described := by
  have names : (g.entity i).described.map Prod.fst = (g'.entity j).described.map Prod.fst := by
    apply describedNames_eq
    intro name describes
    have both := related name describes
    generalize (g.entity i).attributes.get? name = held at both ⊢
    generalize (g'.entity j).attributes.get? name = other at both ⊢
    cases both <;> rfl
  have pairs : ∀ a ∈ (g.entity i).described, ∀ b ∈ (g'.entity j).described, a.1 = b.1 →
      S a.2 b.2 := by
    rintro ⟨name, held⟩ member ⟨_, other⟩ member' rfl
    obtain ⟨stands, describes⟩ := mem_described.mp member
    have both := related name describes
    rw [Record.get?_eq_some_iff.mpr stands,
      Record.get?_eq_some_iff.mpr (mem_described.mp member').1] at both
    cases both with
    | some same => exact same
  generalize (g.entity i).described = xs at names pairs ⊢
  generalize (g'.entity j).described = ys at names pairs ⊢
  induction xs generalizing ys with
  | nil =>
    obtain rfl := List.map_eq_nil_iff.mp names.symm
    exact .nil
  | cons a xs ih =>
    cases ys with
    | nil => contradiction
    | cons b ys =>
      obtain ⟨first, others⟩ := List.cons.inj names
      refine .cons ⟨first, pairs a List.mem_cons_self b List.mem_cons_self first⟩ (ih ys others ?_)
      intro a memA b memB
      exact pairs a (List.mem_cons_of_mem _ memA) b (List.mem_cons_of_mem _ memB)

end Expansion

end SnapshotReport
