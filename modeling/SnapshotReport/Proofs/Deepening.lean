import SnapshotReport.Proofs.Layout
import SnapshotReport.Proofs.Nesting.Contribution
import SnapshotReport.Proofs.Nesting.Position

/-! The same entity at two depths. A greater depth expands everything that a smaller one does, at
the same positions, and more; so what is shown changes only where the smaller depth ends: there the
text of an attribute makes room for the entities that it refers to. -/
namespace SnapshotReport

/-- The first number is not above the second. What is no number is not compared. -/
def Number.AtMost (x y : Number) : Prop :=
  ∃ p q, x.quantity? = some p ∧ y.quantity? = some q ∧ (p.order q).isLE

theorem Number.reaches_finite_iff {negative : Bool} {size : Magnitude} {count : Nat} :
    (Number.finite negative size).reaches count = true ↔
      (count : Int) * (2 ^ (-size.exponent).toNat : Nat) ≤
        if negative then -((size.significand * 2 ^ size.exponent.toNat : Nat) : Int)
        else (size.significand * 2 ^ size.exponent.toNat : Nat) := by
  have unit := Nat.two_pow_pos (-size.exponent).toNat
  cases negative with
  | false =>
    simp only [Number.reaches, Bool.false_eq_true, if_false, decide_eq_true_eq]
    rw [Magnitude.floor, Nat.le_div_iff_mul_le unit, ← Int.natCast_mul, Int.ofNat_le]
  | true =>
    simp only [Number.reaches, if_true, Bool.and_eq_true, beq_iff_eq]
    rw [← Int.natCast_mul]
    constructor
    · rintro ⟨rfl, none⟩
      simp [none]
    · intro below
      have none : count * 2 ^ (-size.exponent).toNat = 0 := by omega
      have empty : size.significand * 2 ^ size.exponent.toNat = 0 := by omega
      have power := Nat.two_pow_pos size.exponent.toNat
      exact ⟨(Nat.mul_eq_zero.mp none).resolve_right (by omega),
        (Nat.mul_eq_zero.mp empty).resolve_right (by omega)⟩

/-- What a number reaches, a number that is not below it reaches too. -/
theorem Number.AtMost.reaches {x y : Number} (below : x.AtMost y) {count : Nat}
    (reached : x.reaches count = true) : y.reaches count = true := by
  obtain ⟨p, q, first, second, le⟩ := below
  cases x with
  | nan => simp [Number.reaches] at reached
  | infinite negative =>
    obtain rfl : negative = false := by simpa [Number.reaches] using reached
    obtain rfl := Option.some.inj first
    cases y with
    | nan => simp [Number.quantity?] at second
    | infinite negative =>
      obtain rfl := Option.some.inj second
      cases negative
      · rfl
      · exact absurd le (by decide)
    | finite negative size =>
      obtain rfl := Option.some.inj second
      simp [Quantity.order] at le
  | finite negative size =>
    obtain rfl := Option.some.inj first
    cases y with
    | nan => simp [Number.quantity?] at second
    | infinite other =>
      obtain rfl := Option.some.inj second
      cases other
      · rfl
      · simp [Quantity.order] at le
    | finite other size' =>
      obtain rfl := Option.some.inj second
      rw [Number.reaches_finite_iff] at reached ⊢
      simp only [Quantity.order, Std.isLE_compare] at le
      have unit : (0 : Int) < (2 ^ (-size.exponent).toNat : Nat) :=
        Int.ofNat_lt.mpr (Nat.two_pow_pos _)
      have wide := Int.mul_le_mul_of_nonneg_right reached
        (Int.natCast_nonneg (2 ^ (-size'.exponent).toNat))
      refine Int.le_of_mul_le_mul_right ?_ unit
      rw [Int.mul_right_comm]
      exact Int.le_trans wide (by simpa using le)

/-- The entity refers to others one by one only, and no text of the provider stands for them. -/
structure Entity.Bare {Node : Type} (e : Entity Node) : Prop where
  single : ∀ name items, (name, Attribute.value (.entities items)) ∉ e.attributes.entries
  textless : ∀ name target, (name, Attribute.value (.ref target)) ∈ e.attributes.entries →
    e.rawText? name = none

namespace Expansion

variable {n : Nat}

/-- What one scope expands, the other one expands too, and references to the same entities are
left out. -/
structure Deeper (scope scope' : Scope) : Prop where
  groupType : scope'.groupType = scope.groupType
  expands : ∀ path, scope.expands path = true → scope'.expands path = true

/-- What an attribute of entity `i` adds at the end of a path in two scopes. Where both expand it or
neither does, it shows the same in both, but for the blocks within it; where the second alone does,
the text of the attribute gives way to the entities that it refers to. -/
inductive Deepens (g : Graph n) (scope scope' : Scope) (path : Path) (i : Fin n) (name : String) :
    AttributeValue (Fin n) → Option Outline → Option Outline → Prop where
  /-- The attribute refers to nothing. -/
  | plain {value shown} : value.targets = [] → Deepens g scope scope' path i name value shown shown
  | unexpanded {value shown} : scope'.expands path = false →
      Deepens g scope scope' path i name value shown shown
  /-- The reference is left out, because of its type or because its name is on the path. -/
  | suppressed {target} : scope.hides (g.type target) = true ∨ g.name target ∈ path →
      Deepens g scope scope' path i name (.ref target) none none
  | reference {target made made'} : scope.expands path = true →
      scope.hides (g.type target) = false → g.name target ∉ path →
      block g scope (path.insert (g.name i)) target = .ok made →
      block g scope' (path.insert (g.name i)) target = .ok made' →
      Deepens g scope scope' path i name (.ref target) (reference name (g.name target) made)
        (reference name (g.name target) made')
  | collection {items outlines outlines'} : scope.expands path = true →
      List.Forall₂ (Names g scope (path.insert (g.name i))) (offPath g path items) outlines →
      List.Forall₂ (Names g scope' (path.insert (g.name i))) (offPath g path items) outlines' →
      Deepens g scope scope' path i name (.entities items) (collection name outlines)
        (collection name outlines')
  | opened {target made'} : scope.expands path = false → scope'.expands path = true →
      scope.hides (g.type target) = false → g.name target ∉ path →
      block g scope' (path.insert (g.name i)) target = .ok made' →
      Deepens g scope scope' path i name (.ref target) (line name (g.display i name (.ref target)))
        (reference name (g.name target) made')
  | openedAll {items outlines'} : scope.expands path = false → scope'.expands path = true →
      items ≠ [] →
      List.Forall₂ (Names g scope' (path.insert (g.name i))) (offPath g path items) outlines' →
      Deepens g scope scope' path i name (.entities items)
        (line name (g.display i name (.entities items))) (collection name outlines')

variable {g : Graph n} {scope scope' : Scope} {path path' : Path} {i j : Fin n} {steps : List Step}

theorem Deeper.hides (deeper : Deeper scope scope') (type : TypeTag) :
    scope'.hides type = scope.hides type := by
  rw [Scope.hides, Scope.hides, deeper.groupType]

theorem Leads.deeper (deeper : Deeper scope scope') {step : Step}
    (leads : Leads g scope path i step j) : Leads g scope' path i step j := by
  obtain ⟨expands, fresh, describes, value, stands, there, shown⟩ := leads
  refine ⟨deeper.expands path expands, fresh, describes, value, stands, there, ?_⟩
  intro target same
  rw [deeper.hides]
  exact shown target same

theorem Position.deeper (deeper : Deeper scope scope')
    (position : Position g scope path i steps path' j) :
    Position g scope' path i steps path' j := by
  induction position with
  | root => exact .root
  | step leads _ ih => exact .step (leads.deeper deeper) ih

theorem Chain.deeper (deeper : Deeper scope scope') {chain : List (Fin n)}
    (nested : Chain g scope path i chain) : Chain g scope' path i chain := by
  induction nested with
  | nil => exact .nil
  | cons nests _ ih =>
    obtain ⟨expands, fresh, name, value, stands, describes, shown⟩ := nests
    refine .cons ⟨deeper.expands _ expands, fresh, name, value, stands, describes, ?_⟩ ih
    rwa [deeper.hides]

theorem block_ok_of_deeper (deeper : Deeper scope scope')
    (done : ∃ made', block g scope' path i = .ok made') :
    ∃ made, block g scope path i = .ok made := by
  rw [block_ok_iff] at done ⊢
  intro chain nested
  exact done chain (nested.deeper deeper)

section Contributions

variable {name : String} {value : AttributeValue (Fin n)} {target : Fin n} {items : List (Fin n)}
  {shown shown' : Option Outline}

theorem contribution_deepens (deeper : Deeper scope scope')
    (first : contribution g scope path i (name, .value value) = .ok shown)
    (second : contribution g scope' path i (name, .value value) = .ok shown') :
    Deepens g scope scope' path i name value shown shown' := by
  cases value with
  | scalar | scalars | null =>
    obtain rfl := Except.ok.inj (first.symm.trans second)
    exact .plain rfl
  | ref target =>
    by_cases suppressed : scope.hides (g.type target) = true ∨ g.name target ∈ path
    · rw [contribution_suppressed suppressed] at first
      rw [contribution_suppressed (by rwa [deeper.hides])] at second
      obtain rfl := Except.ok.inj first
      obtain rfl := Except.ok.inj second
      exact .suppressed suppressed
    · rw [not_or, Bool.not_eq_true] at suppressed
      obtain ⟨kept, fresh⟩ := suppressed
      have kept' : scope'.hides (g.type target) = false := by rwa [deeper.hides]
      by_cases expands : scope.expands path = true
      · obtain ⟨made, within, rfl⟩ := contribution_reference expands kept fresh first
        obtain ⟨made', within', rfl⟩ :=
          contribution_reference (deeper.expands path expands) kept' fresh second
        exact .reference expands kept fresh within within'
      · rw [Bool.not_eq_true] at expands
        rw [contribution_unexpanded expands
          (fun _ same => AttributeValue.ref.inj same ▸ ⟨kept, fresh⟩) (by simp)] at first
        obtain rfl := Except.ok.inj first
        by_cases expands' : scope'.expands path = true
        · obtain ⟨made', within', rfl⟩ := contribution_reference expands' kept' fresh second
          exact .opened expands expands' kept fresh within'
        · rw [Bool.not_eq_true] at expands'
          rw [contribution_unexpanded expands'
            (fun _ same => AttributeValue.ref.inj same ▸ ⟨kept', fresh⟩) (by simp)] at second
          obtain rfl := Except.ok.inj second
          exact .unexpanded expands'
  | entities items =>
    by_cases empty : items = []
    · subst empty
      obtain rfl := Except.ok.inj (first.symm.trans second)
      exact .plain rfl
    · have some : AttributeValue.entities items ≠ .entities [] := by simpa using empty
      by_cases expands : scope.expands path = true
      · obtain ⟨outlines, named, rfl⟩ := contribution_collection expands first
        obtain ⟨outlines', named', rfl⟩ :=
          contribution_collection (deeper.expands path expands) second
        exact .collection expands named named'
      · rw [Bool.not_eq_true] at expands
        rw [contribution_unexpanded expands (by simp) some] at first
        obtain rfl := Except.ok.inj first
        by_cases expands' : scope'.expands path = true
        · obtain ⟨outlines', named', rfl⟩ := contribution_collection expands' second
          exact .openedAll expands expands' empty named'
        · rw [Bool.not_eq_true] at expands'
          rw [contribution_unexpanded expands' (by simp) some] at second
          obtain rfl := Except.ok.inj second
          exact .unexpanded expands'

end Contributions

open Outline (levels levelsOf)

theorem levelsOf_reference_sublist {level : Nat} {made made' : List Outline} (name target : String)
    (within : (levelsOf (level + 1) made).Sublist (levelsOf (level + 1) made')) :
    (levelsOf level (reference name target made).toList).Sublist
      (levelsOf level (reference name target made').toList) := by
  by_cases left : (target.isEmpty && made'.isEmpty) = true
  · rw [Bool.and_eq_true, List.isEmpty_iff] at left
    obtain ⟨unnamed, rfl⟩ := left
    have none : made = [] := Outline.eq_nil_of_levelsOf (List.sublist_nil.mp within)
    rw [none]
  · rw [reference, reference, if_neg left]
    split
    · exact List.nil_sublist _
    · simpa [levelsOf, levels] using within

theorem levelsOf_line_sublist (level : Nat) (name target : String) (made : List Outline) :
    (levelsOf level (line name (some target)).toList).Sublist
      (levelsOf level (reference name target made).toList) := by
  by_cases unnamed : target.isEmpty = true
  · simp [line, unnamed, levelsOf]
  · simp [line, reference, unnamed, Outline.leaf, levelsOf, levels]

/-- Among entities that refer to others one by one, a deeper block has texts more, and each text
that stays is at the level where it was. -/
theorem levelsOf_block_sublist (deeper : Deeper scope scope')
    (bare : ∀ j, g.Reachable i j → (g.entity j).Bare) {made made' : List Outline}
    (first : block g scope path i = .ok made) (second : block g scope' path i = .ok made')
    (level : Nat) : (levelsOf level made).Sublist (levelsOf level made') := by
  induction path, i using nesting_induction g scope' generalizing made made' level with
  | step path i ih =>
    obtain ⟨shown, rfl, each⟩ := contributions_of_block first
    obtain ⟨shown', rfl, each'⟩ := contributions_of_block second
    rw [Outline.levelsOf_filterMap, Outline.levelsOf_filterMap]
    apply List.Sublist.flatMap_right
    rintro ⟨name, held⟩ member
    obtain ⟨stands, describes⟩ := mem_described.mp member
    have added := each _ member
    have added' := each' _ member
    cases held with
    | malformed | unreadable => contradiction
    | value value =>
      have deepens := contribution_deepens deeper added added'
      generalize shown (name, .value value) = outline at deepens ⊢
      generalize shown' (name, .value value) = outline' at deepens ⊢
      cases deepens with
      | plain | unexpanded | suppressed => exact List.Sublist.refl _
      | @reference target made made' expands kept fresh within within' =>
        have nests : Nests g scope' path i target :=
          ⟨deeper.expands path expands, fresh, name, .ref target, stands, describes,
            .inl ⟨rfl, by rwa [deeper.hides]⟩⟩
        apply levelsOf_reference_sublist
        apply ih target nests _ within within'
        intro j reachable
        exact bare j (.head nests.refers reachable)
      | @opened target =>
        have textless : (g.entity i).rawText? name = none :=
          (bare i .refl).textless name target stands
        rw [Graph.display, Entity.display, textless]
        exact levelsOf_line_sublist level name (g.name target) _
      | collection | openedAll => exact absurd stands ((bare i .refl).single name _)

/-- At a greater depth every position of the smaller one is still there, and its attributes show the
same unless only the greater depth expands them. Among entities that refer to others one by one, the
lines at the smaller depth are among those at the greater one, in their order. -/
theorem entityOutline_deepens (g : Graph n) (groupType : Option TypeTag) {depth depth' : Number}
    (below : depth.AtMost depth') (i : Fin n) :
    (∀ steps path j,
      Position g ⟨depth, groupType⟩ (Path.empty.insert (g.name i)) i steps path j →
      Position g ⟨depth', groupType⟩ (Path.empty.insert (g.name i)) i steps path j) ∧
    ∀ outline', entityOutline g ⟨depth', groupType⟩ i = .ok outline' →
      ∃ outline, entityOutline g ⟨depth, groupType⟩ i = .ok outline ∧
      (∀ steps path j,
        Position g ⟨depth, groupType⟩ (Path.empty.insert (g.name i)) i steps path j →
        ∃ shown shown' : String × Attribute (Fin n) → Option Outline,
          block g ⟨depth, groupType⟩ path j = .ok ((g.entity j).described.filterMap shown) ∧
          block g ⟨depth', groupType⟩ path j = .ok ((g.entity j).described.filterMap shown') ∧
          ∀ name held, (name, held) ∈ (g.entity j).described → ∃ value, held = .value value ∧
            Deepens g ⟨depth, groupType⟩ ⟨depth', groupType⟩ path j name value
              (shown (name, held)) (shown' (name, held))) ∧
      ((∀ j, g.Reachable i j → (g.entity j).Bare) →
        (Text.lines outline.write.toList).Sublist (Text.lines outline'.write.toList)) := by
  have deeper : Deeper ⟨depth, groupType⟩ ⟨depth', groupType⟩ :=
    ⟨rfl, fun path reached => below.reaches reached⟩
  refine ⟨fun steps path j position => position.deeper deeper, fun outline' done' => ?_⟩
  obtain ⟨made', second, rfl⟩ := entityOutline_eq_ok_iff.mp done'
  obtain ⟨made, first⟩ := block_ok_of_deeper deeper ⟨made', second⟩
  refine ⟨_, entityOutline_eq_ok_iff.mpr ⟨made, first, rfl⟩, ?_, ?_⟩
  · intro steps path j position
    obtain ⟨within, first⟩ := position.block_ok ⟨made, first⟩
    obtain ⟨within', second⟩ := (position.deeper deeper).block_ok ⟨made', second⟩
    obtain ⟨shown, rfl, each⟩ := contributions_of_block first
    obtain ⟨shown', rfl, each'⟩ := contributions_of_block second
    refine ⟨shown, shown', first, second, fun name held member => ?_⟩
    cases held with
    | value value =>
      exact ⟨value, rfl, contribution_deepens deeper (each _ member) (each' _ member)⟩
    | malformed | unreadable =>
      have added := each _ member
      contradiction
  · intro bare
    have texts := levelsOf_block_sublist deeper bare first second 1
    rw [Outline.lines_write_eq, Outline.lines_write_eq]
    apply List.Sublist.flatMap
    exact texts.cons_cons (0, g.name i)

/-- The entity that refers to itself stands within itself from depth one on. -/
theorem selfReference_deepens : (Number.zero false).AtMost .one ∧ ∃ outline outline',
    entityOutline selfReference ⟨.zero false, none⟩ 0 = .ok outline ∧
      entityOutline selfReference ⟨.one, none⟩ 0 = .ok outline' ∧
      (Text.lines outline.write.toList).Sublist (Text.lines outline'.write.toList) := by
  have below : (Number.zero false).AtMost .one := by
    refine ⟨_, _, rfl, rfl, Std.isLE_compare.mpr ?_⟩
    simp only [Bool.false_eq_true, if_false, Int.natCast_zero, Int.zero_mul]
    exact Int.mul_nonneg (by decide) (Int.natCast_nonneg _)
  have made : entityOutline selfReference ⟨.one, none⟩ 0 =
      .ok (.node "a" [.node "next: b" [.leaf "next: b"]]) :=
    entityOutline_eq_unrolled 5 (by decide)
  obtain ⟨outline, done, -, lines⟩ := (entityOutline_deepens selfReference none below 0).2 _ made
  refine ⟨below, outline, _, done, made, lines fun j _ => ⟨?_, ?_⟩⟩
  · intro name items stands
    obtain rfl | rfl : j = 0 ∨ j = 1 := by omega
    all_goals simp [selfReference, Graph.entity] at stands
  · intro name target _
    obtain rfl | rfl : j = 0 ∨ j = 1 := by omega
    all_goals rfl

/-- An entity that refers to one without a name, which refers to another one without a name, of
which nothing is shown as long as it is not expanded. -/
def unnamed : Graph 4 :=
  ⟨#v[⟨⟨"table"⟩, "e", none, ⟨[("r", .value (.ref 1))], by simp⟩, none⟩,
    ⟨⟨"table"⟩, "", none, ⟨[("q", .value (.ref 2))], by simp⟩, none⟩,
    ⟨⟨"table"⟩, "", none, ⟨[("p", .value (.ref 3))], by simp⟩, some ⟨[("p", none)], by simp⟩⟩,
    ⟨⟨"table"⟩, "v", none, ∅, none⟩]⟩

/-- Depth one expands the first reference, and leaves it out because it has nothing to show. A
greater depth has something to show two levels further down, and so the reference is there. -/
theorem unnamed_reference_appears :
    Scope.expands ⟨.one, none⟩ (Path.empty.insert (unnamed.name 0)) = true ∧
      entityOutline unnamed ⟨.one, none⟩ 0 = .ok (.node "e" []) ∧
      entityOutline unnamed ⟨.infinite false, none⟩ 0 =
        .ok (.node "e" [.node "r: " [.node "q: " [.leaf "p: v"]]]) := by
  refine ⟨by decide, ?_, ?_⟩
  · exact entityOutline_eq_unrolled 8 (by decide)
  · exact entityOutline_eq_unrolled 8 (by decide)

end Expansion

end SnapshotReport
