import SnapshotReport.Element
import SnapshotReport.Proofs.Ordering.Entities
import SnapshotReport.Proofs.Sorting.Refusal

/-! Sorting mixed collections. Elements that claim to be entities or types are well-formed if they
have the fields of one; then entities can be ordered among each other and types among each other, and
no other pair can. A collection is refused just if at least two elements are present and these are
neither all entities nor all types. Every other one is sorted, with the absent elements at the end. -/
namespace SnapshotReport

namespace Value

variable {a b : Value}

def text? : Value → Option String
  | scalar (.text t) => some t
  | _ => none

/-- The type that the value shows, if it shows one. -/
def type? (v : Value) : Option TypeTag := do
  return ⟨← (v.field "fullName").text?⟩

/-- The group that the value shows, which is none if nothing counts as given. -/
def group? (v : Value) : Option (Option GroupKey) := do
  if v.isGiven then
    return some ⟨← (v.field "catalog").text?, .named (← (v.field "schema").text?)⟩
  else return none

/-- The entity that the value shows. Its attributes do not matter to its order. -/
def entity? (v : Value) : Option (Entity Empty) := do
  return ⟨← (v.field "type").type?, ← (v.field "name").text?, ← (v.field "group").group?, ∅, none⟩

theorem eq_of_text? {v : Value} {t : String} (shown : v.text? = some t) : v = .scalar (.text t) := by
  unfold text? at shown
  split at shown
  · rw [Option.some.inj shown]
  · contradiction

theorem field_of_type? {v : Value} {type : TypeTag} (shown : v.type? = some type) :
    v.isNothing = false ∧ v.field "fullName" = .scalar (.text type.fullName) := by
  obtain ⟨name, found, same⟩ := Option.bind_eq_some_iff.mp shown
  obtain rfl : TypeTag.mk name = type := Option.some.inj same
  have field := eq_of_text? found
  refine ⟨?_, field⟩
  cases v with
  | null => contradiction
  | absent => contradiction
  | scalar | array | object => rfl

theorem orderTypeValues_of_type? {s t : TypeTag} (shownA : a.type? = some s)
    (shownB : b.type? = some t) : Element.orderTypeValues a b = some (s.order t) := by
  obtain ⟨somethingA, fieldA⟩ := field_of_type? shownA
  obtain ⟨somethingB, fieldB⟩ := field_of_type? shownB
  rw [Element.orderTypeValues, somethingA, somethingB]
  exact Element.orderField_text "fullName" fieldA fieldB

theorem fields_of_group? {v : Value} {group : Option GroupKey} (shown : v.group? = some group) :
    match group with
    | none => v.isGiven = false
    | some key => v.isGiven ∧ v.field "catalog" = .scalar (.text key.catalog) ∧
        ∃ name, key.schema = .named name ∧ v.field "schema" = .scalar (.text name) := by
  unfold group? at shown
  split at shown
  · rename_i given
    obtain ⟨catalog, catalogFound, shown⟩ := Option.bind_eq_some_iff.mp shown
    obtain ⟨name, nameFound, shown⟩ := Option.bind_eq_some_iff.mp shown
    obtain rfl := Option.some.inj shown
    exact ⟨given, eq_of_text? catalogFound, name, rfl, eq_of_text? nameFound⟩
  · rename_i left
    obtain rfl := Option.some.inj shown
    exact Bool.eq_false_iff.mpr left

theorem orderGroupValues_of_group? {x y : Option GroupKey} (shownA : a.group? = some x)
    (shownB : b.group? = some y) : Element.orderGroupValues a b = some (GroupKey.order x y) := by
  have fieldsA := fields_of_group? shownA
  have fieldsB := fields_of_group? shownB
  unfold Element.orderGroupValues
  cases x with
  | none =>
    cases y with
    | none => rw [fieldsA, fieldsB]; rfl
    | some y => rw [fieldsA, fieldsB.1]; rfl
  | some x =>
    obtain ⟨givenA, catalogA, name, schema, fieldA⟩ := fieldsA
    cases y with
    | none => rw [givenA, fieldsB]; rfl
    | some y =>
      obtain ⟨givenB, catalogB, name', schema', fieldB⟩ := fieldsB
      rw [givenA, givenB, Bool.and_self, if_pos rfl, GroupKey.order, schema, schema',
        Schema.order_named]
      exact Element.orElse_eq_some (Element.orderField_text _ catalogA catalogB)
        (Element.orderField_text _ fieldA fieldB)

theorem named_of_group? {v : Value} {group : Option GroupKey} (shown : v.group? = some group) :
    ∀ key ∈ group, key.Named := by
  rintro key rfl
  obtain ⟨-, -, name, schema, -⟩ := fields_of_group? shown
  exact ⟨name, schema⟩

theorem fields_of_entity? {v : Value} {e : Entity Empty} (shown : v.entity? = some e) :
    (v.field "type").type? = some e.type ∧ v.field "name" = .scalar (.text e.name) ∧
      (v.field "group").group? = some e.group := by
  obtain ⟨type, typeFound, shown⟩ := Option.bind_eq_some_iff.mp shown
  obtain ⟨name, nameFound, shown⟩ := Option.bind_eq_some_iff.mp shown
  obtain ⟨group, groupFound, shown⟩ := Option.bind_eq_some_iff.mp shown
  obtain rfl := Option.some.inj shown
  exact ⟨typeFound, eq_of_text? nameFound, groupFound⟩

theorem orderEntityValues_of_entity? {e f : Entity Empty} (shownA : a.entity? = some e)
    (shownB : b.entity? = some f) : Element.orderEntityValues a b = some (e.orderByParts f) := by
  obtain ⟨typeA, nameA, groupA⟩ := fields_of_entity? shownA
  obtain ⟨typeB, nameB, groupB⟩ := fields_of_entity? shownB
  rw [← Entity.order_eq_orderByParts (named_of_group? groupA) (named_of_group? groupB), Entity.order,
    Ordering.then_assoc]
  exact Element.orElse_eq_some (Element.orderField_text _ nameA nameB)
    (Element.orElse_eq_some (orderGroupValues_of_group? groupA groupB)
      (orderTypeValues_of_type? typeA typeB))

end Value

namespace Entity

/-- Stands for a type. What else an entity is ordered by is the same for all of these. -/
def ofType (type : TypeTag) : Entity Empty :=
  ⟨type, "", none, ∅, none⟩

theorem orderByParts_ofType (s t : TypeTag) : (ofType s).orderByParts (ofType t) = s.order t := rfl

end Entity

namespace Element

variable {n : Nat} {g : Graph n} {a b : Element n} {α : Type}

/-- What claims to be an entity or a type shows the fields of one. -/
def WellFormed (g : Graph n) (e : Element n) : Prop :=
  (e.isEntity → (e.value g).entity?.isSome) ∧ (e.isType → (e.value g).type?.isSome)

instance (e : Element n) : Decidable (e.WellFormed g) :=
  inferInstanceAs (Decidable (_ ∧ _))

theorem isSome_group?_groupValue {group : Option GroupKey} (named : ∀ key ∈ group, key.Named) :
    (groupValue group).group?.isSome := by
  cases group with
  | none => rfl
  | some key =>
    obtain ⟨name, schema⟩ := named key rfl
    rw [groupValue, schema]
    rfl

theorem wellFormed_entity {i : Fin n} (named : (g.entity i).Named) :
    (entity i).WellFormed g := by
  obtain ⟨group, shown⟩ := Option.isSome_iff_exists.mp (isSome_group?_groupValue named)
  have field : ((entity i).value g).field "group" = groupValue (g.entity i).group := rfl
  refine ⟨fun _ => ?_, fun type => ?_⟩
  · rw [Value.entity?, field, shown]
    rfl
  · contradiction

theorem wellFormed_type (type : TypeTag) : (Element.type type).WellFormed g := by
  refine ⟨fun entity => ?_, fun _ => rfl⟩
  contradiction

theorem wellFormed_of_neither {e : Element n} (notEntity : ¬e.isEntity) (notType : ¬e.isType) :
    e.WellFormed g :=
  ⟨fun entity => absurd entity notEntity, fun type => absurd type notType⟩

def Alike (a b : Element n) : Prop :=
  a.isEntity ∧ b.isEntity ∨ a.isType ∧ b.isType

/-- The entity, or the stand-in for the type, that an element is ordered as. -/
def face (g : Graph n) (e : Element n) : Entity Empty :=
  if e.isEntity then (e.value g).entity?.getD (.ofType ⟨""⟩)
  else .ofType ((e.value g).type?.getD ⟨""⟩)

/-- Whether the order puts the first before the second, or does not separate them. -/
def inOrder (g : Graph n) (a b : Element n) : Bool :=
  match order g a b with
  | .ok decided => decided.isLE
  | .error _ => false

theorem not_isType_of_isEntity {e : Element n} (entity : e.isEntity) : ¬e.isType := by
  rw [isEntity, beq_iff_eq] at entity
  simp [isType, entity]

theorem order_of_isEntity (entityA : a.isEntity) (entityB : b.isEntity) :
    order g a b = comparable (orderEntityValues (a.value g) (b.value g)) := by
  unfold order
  split
  · rw [orderEntityValues_value]
    rfl
  · contradiction
  · rw [entityA, entityB]
    rfl

theorem order_of_isType (typeA : a.isType) (typeB : b.isType) :
    order g a b = comparable (orderTypeValues (a.value g) (b.value g)) := by
  unfold order
  split
  · contradiction
  · rw [value, value, orderTypeValues_typeValue]
    rfl
  · have notEntity : ¬(a.isEntity && b.isEntity) := by
      intro both
      rw [Bool.and_eq_true] at both
      exact not_isType_of_isEntity both.1 typeA
    rw [if_neg notEntity, typeA, typeB]
    rfl

theorem order_of_alike (formedA : a.WellFormed g) (formedB : b.WellFormed g) (alike : Alike a b) :
    order g a b = .ok ((a.face g).orderByParts (b.face g)) := by
  rcases alike with ⟨entityA, entityB⟩ | ⟨typeA, typeB⟩
  · obtain ⟨e, shownA⟩ := Option.isSome_iff_exists.mp (formedA.1 entityA)
    obtain ⟨f, shownB⟩ := Option.isSome_iff_exists.mp (formedB.1 entityB)
    rw [order_of_isEntity entityA entityB, Value.orderEntityValues_of_entity? shownA shownB, face,
      face, if_pos entityA, if_pos entityB, shownA, shownB]
    rfl
  · obtain ⟨s, shownA⟩ := Option.isSome_iff_exists.mp (formedA.2 typeA)
    obtain ⟨t, shownB⟩ := Option.isSome_iff_exists.mp (formedB.2 typeB)
    have notEntity {e : Element n} (type : e.isType) : ¬e.isEntity :=
      fun entity => not_isType_of_isEntity entity type
    rw [order_of_isType typeA typeB, Value.orderTypeValues_of_type? shownA shownB, face, face,
      if_neg (notEntity typeA), if_neg (notEntity typeB), shownA, shownB, Option.getD_some,
      Option.getD_some, Entity.orderByParts_ofType]
    rfl

theorem order_of_not_alike (unlike : ¬Alike a b) :
    order g a b = .error (.unsupported { left := a.label g, right := b.label g }) := by
  unfold order
  split
  · exact absurd (.inl ⟨rfl, rfl⟩) unlike
  · exact absurd (.inr ⟨rfl, rfl⟩) unlike
  · rw [if_neg, if_neg]
    · intro both
      rw [Bool.and_eq_true] at both
      exact unlike (.inr both)
    · intro both
      rw [Bool.and_eq_true] at both
      exact unlike (.inl both)

theorem Alike.isEntity_eq (alike : Alike a b) : a.isEntity = b.isEntity := by
  rcases alike with ⟨entityA, entityB⟩ | ⟨typeA, typeB⟩
  · rw [entityA, entityB]
  · have notEntity {e : Element n} (type : e.isType) : e.isEntity = false :=
      Bool.eq_false_iff.mpr fun entity => not_isType_of_isEntity entity type
    rw [notEntity typeA, notEntity typeB]

theorem Alike.kinds (alike : Alike a b) :
    (a.isEntity ∨ a.isType) ∧ (b.isEntity ∨ b.isType) := by
  rcases alike with ⟨entityA, entityB⟩ | ⟨typeA, typeB⟩
  · exact ⟨.inl entityA, .inl entityB⟩
  · exact ⟨.inr typeA, .inr typeB⟩

variable {element : α → Element n} {items : List α}

/-- At least two elements, which are neither all entities nor all types. -/
def Mixed (element : α → Element n) (items : List α) : Prop :=
  2 ≤ items.length ∧ ¬(∀ x ∈ items, (element x).isEntity) ∧ ¬∀ x ∈ items, (element x).isType

instance : Decidable (Mixed element items) :=
  inferInstanceAs (Decidable (_ ∧ _))

/-- If there are entities and types only, the entities are one side. Else an element that is neither
is one by itself, whatever stands elsewhere. -/
theorem exists_divide (mixed : Mixed element items) :
    ∃ side : Fin items.length → Bool, (∃ i j, side i ≠ side j) ∧
      ∀ i j, side i ≠ side j → ¬Alike (element (items.get i)) (element (items.get j)) := by
  obtain ⟨several, notEntities, notTypes⟩ := mixed
  by_cases kinds : ∀ i, (element (items.get i)).isEntity ∨ (element (items.get i)).isType
  · obtain ⟨i, notEntity⟩ := not_forall.mp (mt List.forall_mem_iff_get.mpr notEntities)
    obtain ⟨j, notType⟩ := not_forall.mp (mt List.forall_mem_iff_get.mpr notTypes)
    have entity := (kinds j).resolve_right notType
    refine ⟨fun i => (element (items.get i)).isEntity, ⟨i, j, ?_⟩, ?_⟩
    · exact fun same => notEntity (same.trans entity)
    · exact fun i j apart alike => apart alike.isEntity_eq
  · obtain ⟨k, neither⟩ := not_forall.mp kinds
    have places := Fin.nontrivial_iff_two_le.mpr several
    obtain ⟨j, other⟩ := exists_ne k
    refine ⟨fun i => i == k, ⟨k, j, by simp [other]⟩, ?_⟩
    intro i j apart alike
    by_cases first : i = k
    · exact neither (first ▸ alike.kinds.1)
    · by_cases second : j = k
      · exact neither (second ▸ alike.kinds.2)
      · simp [first, second] at apart

section

variable {sort : ∀ {α : Type},
  (α → α → Except OrderingFailure Ordering) → List α → Except OrderingFailure (List α)}

/-- Whichever comparisons are made, one of them is made across the divide. -/
theorem refused_of_mixed (law : ComparisonSort sort)
    (formed : ∀ x ∈ items, (element x).WellFormed g) (mixed : Mixed element items) :
    ∃ pair, sort (fun x y => order g (element x) (element y)) items =
      .error (.unsupported pair) := by
  have proper := transCmp_on Entity.orderByParts fun x => (element x).face g
  obtain ⟨side, ⟨i, j, apart⟩, divide⟩ := exists_divide mixed
  have refused {x y : α} (unlike : ¬Alike (element x) (element y)) :
      Refused (fun failure => ∃ pair, failure = .unsupported pair)
        (order g (element x) (element y)) := ⟨_, ⟨_, rfl⟩, order_of_not_alike unlike⟩
  have found : Refused (fun failure => ∃ pair, failure = .unsupported pair)
      (sort (fun x y => order g (element x) (element y)) items) := by
    refine law.refused_of_divide (fun x y => ((element x).face g).orderByParts ((element y).face g))
      (fun i j _ => ?_) (fun i j apart => refused (divide i j apart)) apart
    by_cases alike : Alike (element (items.get i)) (element (items.get j))
    · exact .inr (order_of_alike (formed _ (items.get_mem i)) (formed _ (items.get_mem j)) alike)
    · exact .inl (refused alike)
  obtain ⟨_, ⟨pair, rfl⟩, failed⟩ := found
  exact ⟨pair, failed⟩

theorem sorted_of_alike (law : ComparisonSort sort)
    (formed : ∀ x ∈ items, (element x).WellFormed g)
    (alike : ∀ x ∈ items, ∀ y ∈ items, Alike (element x) (element y)) :
    ∃ sorted, sort (fun x y => order g (element x) (element y)) items = .ok sorted ∧
      StablySorted (fun x y => inOrder g (element x) (element y)) items sorted := by
  have proper := transCmp_on Entity.orderByParts fun x => (element x).face g
  have decided (x : α) (memX : x ∈ items) (y : α) (memY : y ∈ items) :=
    order_of_alike (formed x memX) (formed y memY) (alike x memX y memY)
  refine ⟨_, law.sort_eq_ok decided, (sortBy_stablySorted _ _).congr fun x memX y memY => ?_⟩
  rw [inOrder, decided x memX y memY]

end

theorem alike_of_not_mixed (several : 2 ≤ items.length) (unmixed : ¬Mixed element items) :
    ∀ x ∈ items, ∀ y ∈ items, Alike (element x) (element y) := by
  by_cases entities : ∀ x ∈ items, (element x).isEntity
  · exact fun x memX y memY => .inl ⟨entities x memX, entities y memY⟩
  · have types : ∀ x ∈ items, (element x).isType := by
      by_contra notTypes
      exact unmixed ⟨several, entities, notTypes⟩
    exact fun x memX y memY => .inr ⟨types x memX, types y memY⟩

/-- A single element is in order whatever it is, for it is never compared. -/
theorem trySortBy_of_not_mixed (formed : ∀ x ∈ items, (element x).WellFormed g)
    (unmixed : ¬Mixed element items) :
    ∃ sorted, trySortBy (fun x y => order g (element x) (element y)) items = .ok sorted ∧
      StablySorted (fun x y => inOrder g (element x) (element y)) items sorted := by
  match items with
  | [] => exact ⟨[], rfl, .refl _, .nil, fun _ _ => rfl⟩
  | [x] => exact ⟨[x], rfl, .refl _, List.pairwise_singleton _ _, fun _ _ => rfl⟩
  | x :: y :: rest =>
    have several : 2 ≤ (x :: y :: rest).length := Nat.le_add_left _ _
    exact sorted_of_alike trySortBy_comparisonSort formed (alike_of_not_mixed several unmixed)

def present (element : α → Element n) (items : List α) : List α :=
  items.filter fun x => !(element x).isAbsent

def absent (element : α → Element n) (items : List α) : List α :=
  items.filter fun x => (element x).isAbsent

theorem present_append_absent_perm (element : α → Element n) (items : List α) :
    (present element items ++ absent element items).Perm items :=
  List.perm_append_comm.trans (List.filter_append_perm (fun x => (element x).isAbsent) items)

theorem sortOn_eq (g : Graph n) (element : α → Element n) (items : List α) :
    sortOn g element items =
      (trySortBy (fun x y => order g (element x) (element y)) (present element items)).map
        (· ++ absent element items) := by
  rw [sortOn, List.partition_eq_filter_filter]
  change (trySortBy _ (present element items) >>= fun sorted =>
    .ok (sorted ++ absent element items)) = _
  cases trySortBy (fun x y => order g (element x) (element y)) (present element items) <;> rfl

/-- Where all that claim to be entities or types are well-formed, a collection is refused just if
those present are mixed. Else it is sorted: those present are in order, and stand as they stood
where the order does not separate them, and behind them come those that are absent. -/
theorem sorted_unless_mixed (g : Graph n) (element : α → Element n) (items : List α)
    (formed : ∀ x ∈ items, (element x).WellFormed g) :
    ((∃ pair, sortOn g element items = .error (.unsupported pair)) ↔
      Mixed element (present element items)) ∧
    (¬Mixed element (present element items) →
      ∃ sorted, sortOn g element items = .ok (sorted ++ absent element items) ∧
        (sorted ++ absent element items).Perm items ∧
        StablySorted (fun x y => inOrder g (element x) (element y)) (present element items)
          sorted) := by
  have formed' : ∀ x ∈ present element items, (element x).WellFormed g :=
    fun x member => formed x (List.mem_filter.mp member).1
  have sorts (unmixed : ¬Mixed element (present element items)) :
      ∃ sorted, sortOn g element items = .ok (sorted ++ absent element items) ∧
        (sorted ++ absent element items).Perm items ∧
        StablySorted (fun x y => inOrder g (element x) (element y)) (present element items)
          sorted := by
    obtain ⟨sorted, done, arranged⟩ := trySortBy_of_not_mixed formed' unmixed
    refine ⟨sorted, ?_, ?_, arranged⟩
    · rw [sortOn_eq, done]
      rfl
    · exact (arranged.perm.append_right _).trans (present_append_absent_perm element items)
  refine ⟨⟨?_, ?_⟩, sorts⟩
  · rintro ⟨pair, failed⟩
    by_contra unmixed
    obtain ⟨sorted, done, -⟩ := sorts unmixed
    rw [done] at failed
    contradiction
  · intro mixed
    obtain ⟨pair, failed⟩ := refused_of_mixed trySortBy_comparisonSort formed' mixed
    refine ⟨pair, ?_⟩
    rw [sortOn_eq, failed]
    rfl

/-- Two entities with something absent between them, and a type. -/
def assortment : List (Element 3) :=
  [.entity 0, .other .absent, .entity 2, .type ⟨"t"⟩]

def assortedAt (place : Nat) : Element 3 :=
  assortment.getD place (.other .absent)

theorem assortment_sorted_without_type :
    sortOn assorted assortedAt [0, 1, 2] = .ok [2, 0, 1] ∧
      ∃ pair, sortOn assorted assortedAt [0, 1, 2, 3] = .error (.unsupported pair) := by
  have formed : ∀ place ∈ [0, 1, 2, 3], (assortedAt place).WellFormed assorted := by
    simp only [List.forall_mem_cons]
    exact ⟨wellFormed_entity (assorted_named 0), wellFormed_of_neither (by decide) (by decide),
      wellFormed_entity (assorted_named 2), wellFormed_type ⟨"t"⟩, by simp⟩
  have formed' : ∀ place ∈ [0, 1, 2], (assortedAt place).WellFormed assorted :=
    fun place member => formed place (List.mem_append_left [3] member)
  constructor
  · obtain ⟨sorted, done, -, arranged⟩ :=
      (sorted_unless_mixed assorted assortedAt [0, 1, 2] formed').2 (by decide)
    obtain rfl : sorted = [2, 0] :=
      arranged.eq (by decide) ⟨by decide, by decide, by decide⟩
    exact done
  · exact (sorted_unless_mixed assorted assortedAt [0, 1, 2, 3] formed).1.mpr (by decide)

end Element

end SnapshotReport
