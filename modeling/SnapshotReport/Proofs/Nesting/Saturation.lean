import Mathlib.Algebra.Order.Floor.Ring
import Mathlib.Data.Rat.Floor
import Mathlib.Tactic.FieldSimp
import SnapshotReport.Proofs.Deepening

/-! Depths that make no difference. A depth is looked at only to compare it with the number of names
on a path, and no path can have more names than are known: those it starts with, and those of the
entities that can be reached. So two depths lead to the same block unless one of these numbers lies
between them. -/
namespace SnapshotReport

variable {n : Nat}

namespace Number

/-- The exact value of a finite number. -/
def value? : Number → Option ℚ
  | finite negative x =>
    let size : ℚ := x.significand * 2 ^ x.exponent
    some (if negative then -size else size)
  | _ => none

/-- The number is not below a natural number. What is no number is not compared. -/
def AtLeast (x : Number) (count : Nat) : Prop :=
  x = .infinite false ∨ ∃ q, x.value? = some q ∧ (count : ℚ) ≤ q

theorem reaches_eq_true_iff {x : Number} {count : Nat} :
    x.reaches count = true ↔ x.AtLeast count := by
  cases x with
  | nan => simp [reaches, AtLeast, value?]
  | infinite negative => simp [reaches, AtLeast, value?]
  | finite negative size =>
    have unit : (0 : ℚ) < 2 ^ (-size.exponent).toNat := by positivity
    have scaled : (size.significand : ℚ) * 2 ^ size.exponent =
        size.significand * 2 ^ size.exponent.toNat / 2 ^ (-size.exponent).toNat := by
      rw [mul_div_assoc, ← zpow_natCast, ← zpow_natCast, ← zpow_sub₀ (by norm_num)]
      congr 2
      omega
    rw [reaches_finite_iff, ← Int.cast_le (R := ℚ)]
    simp only [AtLeast, value?, reduceCtorEq, false_or, Option.some.injEq, exists_eq_left', scaled]
    cases negative with
    | false =>
      simp only [Bool.false_eq_true, if_false, le_div_iff₀ unit]
      push_cast
      rfl
    | true =>
      simp only [if_true, ← neg_div, le_div_iff₀ unit]
      push_cast
      rfl

variable {x y : Number} {q : ℚ} {count : Nat}

theorem AtLeast.of_le {bound : Nat} (atLeast : x.AtLeast bound) (le : count ≤ bound) :
    x.AtLeast count := by
  obtain infinite | ⟨q, value, above⟩ := atLeast
  · exact .inl infinite
  · exact .inr ⟨q, value, (Nat.cast_le.mpr le).trans above⟩

theorem atLeast_iff_of_value (value : x.value? = some q) : x.AtLeast count ↔ (count : ℚ) ≤ q := by
  constructor
  · rintro (rfl | ⟨r, same, above⟩)
    · contradiction
    · rwa [Option.some.inj (value.symm.trans same)]
  · exact fun above => .inr ⟨q, value, above⟩

theorem atLeast_floor_iff (value : x.value? = some q) (floor : y.value? = some (⌊q⌋ : ℚ)) :
    y.AtLeast count ↔ x.AtLeast count := by
  have whole : (count : ℚ) ≤ (⌊q⌋ : ℚ) ↔ (count : ℚ) ≤ q := by
    rw [← Int.cast_natCast, Int.cast_le, Int.le_floor]
  rw [atLeast_iff_of_value value, atLeast_iff_of_value floor, whole]

/-- No number at all, or one below one. -/
def BelowOne (x : Number) : Prop :=
  x = .nan ∨ x = .infinite true ∨ ∃ q, x.value? = some q ∧ q < 1

theorem BelowOne.not_atLeast (below : x.BelowOne) (some : 1 ≤ count) : ¬x.AtLeast count := by
  intro atLeast
  obtain infinite | ⟨q, value, above⟩ := atLeast.of_le some
  · obtain rfl | rfl | ⟨q, value, -⟩ := below
    · contradiction
    · contradiction
    · rw [infinite] at value
      contradiction
  · obtain rfl | rfl | ⟨r, same, less⟩ := below
    · contradiction
    · contradiction
    · obtain rfl := Option.some.inj (value.symm.trans same)
      exact absurd above (by simpa using less)

end Number

namespace Expansion

/-- The names of a path, and of the entities that can be reached from entity `i`. -/
def knownNames (g : Graph n) (path : Path) (i : Fin n) : Set String :=
  {name | name ∈ path ∨ ∃ j, g.Reachable i j ∧ g.name j = name}

variable {g : Graph n} {scope scope' : Scope} {path : Path} {i j : Fin n}

theorem knownNames_finite : (knownNames g path i).Finite := by
  have names : (Set.range g.name).Finite := Set.finite_range g.name
  refine (path.names.finite_toSet.union names).subset ?_
  rintro name (known | ⟨j, -, rfl⟩)
  · exact .inl known
  · exact .inr (Set.mem_range_self j)

theorem knownNames_step (nests : Nests g scope path i j) :
    knownNames g (path.insert (g.name i)) j ⊆ knownNames g path i := by
  rintro name (known | ⟨k, reachable, rfl⟩)
  · obtain rfl | known := Path.mem_insert.mp known
    · exact .inr ⟨i, .refl, rfl⟩
    · exact .inl known
  · exact .inr ⟨k, .head nests.refers reachable, rfl⟩

/-- A path has no more names than are known. -/
theorem size_le_ncard_knownNames : path.size ≤ (knownNames g path i).ncard := by
  have counted : path.size = {name | name ∈ path}.ncard := by
    rw [Path.size, ← List.toFinset_card_of_nodup path.nodup, ← Set.ncard_coe_finset]
    congr 1
    ext name
    simp [Membership.mem]
  rw [counted]
  exact Set.ncard_le_ncard (fun name known => .inl known) knownNames_finite

/-- A scope matters to the step of a block only by whether it expands the path, and by what it
hides. -/
theorem blockStep_eq_of_expands (expands : scope.expands path = scope'.expands path)
    (groupType : scope.groupType = scope'.groupType)
    (inner : Fresh g path → Except Failure (List Outline)) (i : Fin n) :
    blockStep g scope path inner i = blockStep g scope' path inner i := by
  have same (name : String) (value : AttributeValue (Fin n)) :
      attributeOutline g scope path inner i name value =
        attributeOutline g scope' path inner i name value := by
    cases value with
    | ref target =>
      simp only [attributeOutline, Scope.hides, groupType, expands]
      rfl
    | entities items => simp only [attributeOutline, expands]
    | scalar | scalars | null => rfl
  simp only [blockStep, same]

theorem block_eq_of_atLeast_iff {depth depth' : Number} {groupType : Option TypeTag}
    {names : Set String} (finite : names.Finite)
    (agree : ∀ k, 1 ≤ k → k ≤ names.ncard → (depth.AtLeast k ↔ depth'.AtLeast k))
    (known : knownNames g path i ⊆ names) (some : 1 ≤ path.size) :
    block g ⟨depth, groupType⟩ path i = block g ⟨depth', groupType⟩ path i := by
  induction path, i using nesting_induction g ⟨depth, groupType⟩ with
  | step path i ih =>
    have expands : Scope.expands ⟨depth, groupType⟩ path =
        Scope.expands ⟨depth', groupType⟩ path := by
      have size : path.size ≤ names.ncard :=
        size_le_ncard_knownNames.trans (Set.ncard_le_ncard known finite)
      rw [Bool.eq_iff_iff, Scope.expands, Scope.expands, Number.reaches_eq_true_iff,
        Number.reaches_eq_true_iff]
      exact agree path.size some size
    rw [block_eq, block_eq, ← blockStep_eq_of_expands expands rfl]
    refine blockStep_congr fun found nests => ?_
    refine ih found nests ((knownNames_step nests).trans known) ?_
    exact List.length_pos_of_mem (Path.mem_insert.mpr (.inl rfl) : g.name i ∈ path.insert (g.name i))

/-- Where nothing is expanded, a block is a list of lines. -/
theorem exists_leaf_of_not_expands (unexpanded : scope.expands path = false) {made : List Outline}
    (done : block g scope path i = .ok made) : ∀ o ∈ made, ∃ text, o = .leaf text := by
  obtain ⟨shown, rfl, each⟩ := contributions_of_block done
  intro o member
  obtain ⟨⟨name, held⟩, describes, added⟩ := List.mem_filterMap.mp member
  have outcome := each _ describes
  cases held with
  | malformed | unreadable => contradiction
  | value value =>
    have contributes := contributes_of_ok describes outcome
    rw [added] at contributes
    cases contributes with
    | line => exact ⟨_, rfl⟩
    | reference nests => exact absurd nests.expands (by simp [unexpanded])
    | @collection items outlines nests named =>
      cases named with
      | nil => exact ⟨_, rfl⟩
      | cons => exact absurd (nests _ List.mem_cons_self).expands (by simp [unexpanded])

/-- A block is the same, or fails alike, at depths between which there is no number from one up to
that of the names known. So from there on depths are like an infinite one, a depth between whole
numbers is like the one below it, and below one, or with no number, nothing is expanded. -/
theorem block_saturates (g : Graph n) (groupType : Option TypeTag) (visited : Path) (owner : String)
    (i : Fin n) :
    (∀ depth depth' : Number,
      (∀ k, 1 ≤ k → k ≤ (knownNames g (visited.insert owner) i).ncard →
        (depth.AtLeast k ↔ depth'.AtLeast k)) →
      block g ⟨depth, groupType⟩ (visited.insert owner) i =
        block g ⟨depth', groupType⟩ (visited.insert owner) i) ∧
    (∀ depth : Number, depth.AtLeast (knownNames g (visited.insert owner) i).ncard →
      block g ⟨depth, groupType⟩ (visited.insert owner) i =
        block g ⟨.infinite false, groupType⟩ (visited.insert owner) i) ∧
    (∀ (depth depth' : Number) q, depth.value? = some q → depth'.value? = some (⌊q⌋ : ℚ) →
      block g ⟨depth, groupType⟩ (visited.insert owner) i =
        block g ⟨depth', groupType⟩ (visited.insert owner) i) ∧
    ∀ depth : Number, depth.BelowOne →
      block g ⟨depth, groupType⟩ (visited.insert owner) i =
        block g ⟨.zero false, groupType⟩ (visited.insert owner) i ∧
      ∀ made, block g ⟨depth, groupType⟩ (visited.insert owner) i = .ok made →
        ∀ o ∈ made, ∃ text, o = .leaf text := by
  have some : 1 ≤ (visited.insert owner).size :=
    List.length_pos_of_mem (Path.mem_insert.mpr (.inl rfl) : owner ∈ visited.insert owner)
  have same (depth depth' : Number)
      (agree : ∀ k, 1 ≤ k → k ≤ (knownNames g (visited.insert owner) i).ncard →
        (depth.AtLeast k ↔ depth'.AtLeast k)) :
      block g ⟨depth, groupType⟩ (visited.insert owner) i =
        block g ⟨depth', groupType⟩ (visited.insert owner) i :=
    block_eq_of_atLeast_iff knownNames_finite agree subset_rfl some
  refine ⟨same, ?_, ?_, ?_⟩
  · intro depth atLeast
    refine same _ _ fun k _ le => ?_
    exact iff_of_true (atLeast.of_le le) (.inl rfl)
  · intro depth depth' q value floor
    exact same _ _ fun k _ _ => (Number.atLeast_floor_iff value floor).symm
  · intro depth below
    have zero : (Number.zero false).BelowOne := by
      refine .inr (.inr ⟨0, ?_, zero_lt_one⟩)
      simp [Number.zero, Number.value?]
    constructor
    · refine same _ _ fun k positive _ => ?_
      exact iff_of_false (below.not_atLeast positive) (zero.not_atLeast positive)
    · intro made done
      refine exists_leaf_of_not_expands ?_ done
      rw [← Bool.not_eq_true, Scope.expands, Number.reaches_eq_true_iff]
      exact below.not_atLeast some

/-- One and a half. -/
def threeHalves : Number :=
  .finite false ⟨3 * 2 ^ 51, -52, by decide, by decide⟩

/-- One and a half is like one, and no number like zero. -/
theorem selfReference_saturates :
    threeHalves.value? = some (3 / 2) ∧ Number.one.value? = some (⌊(3 / 2 : ℚ)⌋ : ℚ) ∧
    block selfReference ⟨threeHalves, none⟩ (Path.empty.insert "a") 0 =
      block selfReference ⟨.one, none⟩ (Path.empty.insert "a") 0 ∧
    Number.nan.BelowOne ∧
    block selfReference ⟨.nan, none⟩ (Path.empty.insert "a") 0 =
      block selfReference ⟨.zero false, none⟩ (Path.empty.insert "a") 0 := by
  have half : threeHalves.value? = some (3 / 2) := by
    norm_num [threeHalves, Number.value?]
  have floor : ⌊(3 / 2 : ℚ)⌋ = 1 := by
    norm_num [Int.floor_eq_iff]
  have whole : Number.one.value? = some (⌊(3 / 2 : ℚ)⌋ : ℚ) := by
    norm_num [Number.one, Magnitude.one, Number.value?, floor]
  obtain ⟨-, -, floored, below⟩ := block_saturates selfReference none .empty "a" 0
  exact ⟨half, whole, floored _ _ _ half whole, .inl rfl, (below .nan (.inl rfl)).1⟩

end Expansion

end SnapshotReport
