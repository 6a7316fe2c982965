import SnapshotReport.Proofs.Sorting.Comparisons
import Mathlib.Data.List.FinRange
import Mathlib.Data.List.Pairwise

/-! Sorting by an order that refuses pairs. A sort by comparisons that puts its elements in order must
compare across every divide: if no pair with one element on each side is decided, the list is
refused, however the sides are interleaved. -/
namespace SnapshotReport

variable {α ε : Type} {reason : ε → Prop}

/-- By the sides of a divide first. -/
def bySide (side : α → Bool) (order : α → α → Ordering) (a b : α) : Ordering :=
  (compare (side a) (side b)).then (order a b)

section Sides

variable {side : α → Bool} {order : α → α → Ordering} {a b : α}

instance [Std.TransCmp order] : Std.TransCmp (bySide side order) :=
  have _bySides := transCmp_on compare side
  inferInstanceAs (Std.TransCmp (compareLex (fun a b => compare (side a) (side b)) order))

theorem bySide_of_eq (same : side a = side b) : bySide side order a b = order a b := by
  have sides : compare (side a) (side b) = .eq := by
    rw [same]
    exact Std.ReflCmp.compare_self
  rw [bySide, sides, Ordering.eq_then]

theorem side_of_isLE (le : (bySide side order a b).isLE) (sideA : side a = true) :
    side b = true := by
  cases sideB : side b with
  | true => rfl
  | false =>
    rw [bySide, sideA, sideB] at le
    contradiction

/-- If it makes no difference which side comes first, there is one side only. -/
theorem side_eq_of_sortBy_eq [Std.TransCmp order] {xs : List α}
    (same : sortBy (bySide side order) xs = sortBy (bySide (fun a => !side a) order) xs)
    (memA : a ∈ xs) (memB : b ∈ xs) : side a = side b := by
  have back : (sortBy (bySide side order) xs).Pairwise
      fun a b => (bySide (fun a => !side a) order a b).isLE := same ▸ sortBy_pairwise xs
  have oneSide : (sortBy (bySide side order) xs).Pairwise fun a b => side a = side b := by
    refine (sortBy_pairwise xs).imp₂ (fun a b le le' => ?_) back
    have upper : side a = true → side b = true := side_of_isLE le
    have lower : (!side a) = true → (!side b) = true :=
      @side_of_isLE _ (fun a => !side a) order a b le'
    cases sideA : side a <;> simp_all
  have symmetric : Std.Symm fun a b => side a = side b := ⟨fun _ _ => Eq.symm⟩
  have member {c : α} : c ∈ sortBy (bySide side order) xs ↔ c ∈ xs := (sortBy_perm _ xs).mem_iff
  exact oneSide.forall_of_forall (by intros; rfl) (member.mpr memA) (member.mpr memB)

end Sides

namespace ComparisonSort

variable {sort : ∀ {α : Type}, (α → α → Except ε Ordering) → List α → Except ε (List α)}
  {order : α → α → Except ε Ordering} {xs : List α}

/-- Each side may come first, as far as the decided pairs tell. -/
theorem refused_of_sides (law : ComparisonSort sort) (total : α → α → Ordering)
    [Std.TransCmp total] {side : α → Bool}
    (within : ∀ a b, side a = side b → SameUnlessRefused reason (order a b) (.ok (total a b)))
    (across : ∀ a b, side a ≠ side b → Refused reason (order a b)) {a b : α} (memA : a ∈ xs)
    (memB : b ∈ xs) (apart : side a ≠ side b) : Refused reason (sort order xs) := by
  have sorted (side' : α → Bool) (alike : ∀ a b, side' a = side' b ↔ side a = side b) :
      SameUnlessRefused reason (sort order xs) (.ok (sortBy (bySide side' total) xs)) := by
    rw [← law.sort_ok]
    apply law.sameUnlessRefused
    intro a b
    by_cases same : side a = side b
    · rw [bySide_of_eq ((alike a b).mpr same)]
      exact within a b same
    · exact .inl (across a b same)
  rcases sorted side fun _ _ => Iff.rfl with refused | forth
  · exact refused
  rcases sorted (fun a => !side a) fun _ _ => Bool.not_inj_iff with refused | back
  · exact refused
  have same := Except.ok.inj (forth.symm.trans back)
  exact absurd (side_eq_of_sortBy_eq same memA memB) apart

/-- The sides may differ even where the elements do not, so they are given for the places. -/
theorem refused_of_divide (law : ComparisonSort sort) (total : α → α → Ordering)
    [Std.TransCmp total] {side : Fin xs.length → Bool}
    (within : ∀ i j, side i = side j →
      SameUnlessRefused reason (order (xs.get i) (xs.get j)) (.ok (total (xs.get i) (xs.get j))))
    (across : ∀ i j, side i ≠ side j → Refused reason (order (xs.get i) (xs.get j)))
    {i j : Fin xs.length} (apart : side i ≠ side j) : Refused reason (sort order xs) := by
  have proper := transCmp_on total xs.get
  have places : (List.finRange xs.length).map xs.get = xs := List.map_get_finRange xs
  have byPlace : Refused reason
      (sort (fun i j => order (xs.get i) (xs.get j)) (List.finRange xs.length)) :=
    law.refused_of_sides _ within across (List.mem_finRange i) (List.mem_finRange j) apart
  obtain ⟨e, because, refused⟩ := byPlace
  refine ⟨e, because, ?_⟩
  calc sort order xs
      = sort order ((List.finRange xs.length).map xs.get) := by rw [places]
    _ = (sort (fun i j => order (xs.get i) (xs.get j)) (List.finRange xs.length)).map
          (List.map xs.get) := by rw [law.sort_map]
    _ = .error e := by rw [refused]; rfl

end ComparisonSort

end SnapshotReport
