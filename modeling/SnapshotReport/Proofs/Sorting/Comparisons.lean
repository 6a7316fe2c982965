import SnapshotReport.Proofs.Sorting
import SnapshotReport.Sorting.Bisection

/-! Sorting by comparisons. Such a sort knows no more of its elements than what the order says of
them, so it does the same with what a function gives of the elements, and with an order that decides
the same pairs alike. Sorting by bisection is of this kind. -/
namespace SnapshotReport

variable {α β ε : Type} {reason : ε → Prop} {order order' : α → α → Except ε Ordering}

def Refused (reason : ε → Prop) (x : Except ε β) : Prop :=
  ∃ e, reason e ∧ x = .error e

/-- The first is refused, or both are the same. -/
def SameUnlessRefused (reason : ε → Prop) (x y : Except ε β) : Prop :=
  Refused reason x ∨ x = y

theorem SameUnlessRefused.bind {x y : Except ε α} {f f' : α → Except ε β}
    (same : SameUnlessRefused reason x y) (next : ∀ a, SameUnlessRefused reason (f a) (f' a)) :
    SameUnlessRefused reason (x >>= f) (y >>= f') := by
  rcases same with ⟨e, because, rfl⟩ | rfl
  · exact .inl ⟨e, because, rfl⟩
  · cases x with
    | error e => exact .inr rfl
    | ok a => exact next a

/-- Sorting by comparisons. What the elements are does not matter, a refusal ends it, and by a proper
order it is stable sorting. Which comparisons are made is left open. -/
structure ComparisonSort
    (sort : ∀ {α : Type}, (α → α → Except ε Ordering) → List α → Except ε (List α)) : Prop where
  sort_map : ∀ {α β : Type} (order : α → α → Except ε Ordering) (f : β → α) (xs : List β),
    sort order (xs.map f) = (sort (fun a b => order (f a) (f b)) xs).map (List.map f)
  sameUnlessRefused : ∀ {α : Type} {reason : ε → Prop} {order order' : α → α → Except ε Ordering},
    (∀ a b, SameUnlessRefused reason (order a b) (order' a b)) →
      ∀ xs, SameUnlessRefused reason (sort order xs) (sort order' xs)
  sort_ok : ∀ {α : Type} (order : α → α → Ordering) [Std.TransCmp order] (xs : List α),
    sort (fun a b => .ok (order a b)) xs = .ok (sortBy order xs)

theorem tryInsertBy_map (order : α → α → Except ε Ordering) (f : β → α) (x : β) (xs : List β) :
    tryInsertBy order (f x) (xs.map f) =
      (tryInsertBy (fun a b => order (f a) (f b)) x xs).map (List.map f) := by
  induction xs using bisection_induction with
  | nil =>
    rw [List.map_nil, tryInsertBy_nil, tryInsertBy_nil]
    rfl
  | halves xs middle high split low_ih high_ih =>
    have split' : (xs.map f).drop ((xs.map f).length / 2) = f middle :: high.map f := by
      rw [List.length_map, ← List.map_drop, split, List.map_cons]
    rw [tryInsertBy_of_drop split, tryInsertBy_of_drop split', List.length_map, ← List.map_take,
      low_ih, high_ih]
    cases order (f x) (f middle) with
    | error e => rfl
    | ok decided =>
      simp only [bind, Except.bind]
      split
      · cases tryInsertBy (fun a b => order (f a) (f b)) x (xs.take (xs.length / 2)) with
        | error e => rfl
        | ok ys => simp [Except.map, pure, Except.pure]
      · cases tryInsertBy (fun a b => order (f a) (f b)) x high with
        | error e => rfl
        | ok ys => simp [Except.map, pure, Except.pure]

theorem tryRun_map (order : α → α → Except ε Ordering) (f : β → α) (falling : Bool) (first : β)
    (xs : List β) :
    tryRun order falling (f first) (xs.map f) =
      (tryRun (fun a b => order (f a) (f b)) falling first xs).map
        (Prod.map (List.map f) (List.map f)) := by
  induction xs generalizing first with
  | nil => rfl
  | cons x rest ih =>
    rw [List.map_cons, tryRun, tryRun, ih]
    cases order (f x) (f first) with
    | error e => rfl
    | ok decided =>
      simp only [bind, Except.bind]
      split
      · cases tryRun (fun a b => order (f a) (f b)) falling x rest <;> rfl
      · rfl

theorem foldlM_tryInsertBy_map (order : α → α → Except ε Ordering) (f : β → α)
    (sorted xs : List β) :
    (xs.map f).foldlM (fun sorted z => tryInsertBy order z sorted) (sorted.map f) =
      (xs.foldlM (fun sorted z => tryInsertBy (fun a b => order (f a) (f b)) z sorted) sorted).map
        (List.map f) := by
  induction xs generalizing sorted with
  | nil => rfl
  | cons x rest ih =>
    rw [List.map_cons, List.foldlM_cons, List.foldlM_cons, tryInsertBy_map]
    cases tryInsertBy (fun a b => order (f a) (f b)) x sorted with
    | error e => rfl
    | ok longer => exact ih longer

theorem trySortBy_map (order : α → α → Except ε Ordering) (f : β → α) (xs : List β) :
    trySortBy order (xs.map f) =
      (trySortBy (fun a b => order (f a) (f b)) xs).map (List.map f) := by
  match xs with
  | [] => rfl
  | [x] => rfl
  | x :: y :: rest =>
    simp only [List.map_cons, trySortBy]
    cases order (f y) (f x) with
    | error e => rfl
    | ok decided =>
      simp only [bind, Except.bind]
      rw [← List.map_cons, tryRun_map]
      cases tryRun (fun a b => order (f a) (f b)) (decided == .lt) x (y :: rest) with
      | error e => rfl
      | ok found =>
        have start : (if decided == .lt then (found.1.map f).reverse else found.1.map f) =
            (if decided == .lt then found.1.reverse else found.1).map f := by
          split <;> simp
        change (found.2.map f).foldlM _
          (if decided == .lt then (found.1.map f).reverse else found.1.map f) = _
        rw [start]
        exact foldlM_tryInsertBy_map order f _ found.2

theorem tryInsertBy_sameUnlessRefused
    (same : ∀ a b, SameUnlessRefused reason (order a b) (order' a b)) (x : α) (xs : List α) :
    SameUnlessRefused reason (tryInsertBy order x xs) (tryInsertBy order' x xs) := by
  induction xs using bisection_induction with
  | nil => exact .inr (by rw [tryInsertBy_nil, tryInsertBy_nil])
  | halves xs middle high split low_ih high_ih =>
    rw [tryInsertBy_of_drop split, tryInsertBy_of_drop split]
    refine (same x middle).bind fun decided => ?_
    split
    · exact low_ih.bind fun _ => .inr rfl
    · exact high_ih.bind fun _ => .inr rfl

theorem tryRun_sameUnlessRefused (same : ∀ a b, SameUnlessRefused reason (order a b) (order' a b))
    (falling : Bool) (first : α) (xs : List α) :
    SameUnlessRefused reason (tryRun order falling first xs) (tryRun order' falling first xs) := by
  induction xs generalizing first with
  | nil => exact .inr rfl
  | cons x rest ih =>
    refine (same x first).bind fun decided => ?_
    split
    · exact (ih x).bind fun _ => .inr rfl
    · exact .inr rfl

theorem foldlM_tryInsertBy_sameUnlessRefused
    (same : ∀ a b, SameUnlessRefused reason (order a b) (order' a b)) (sorted rest : List α) :
    SameUnlessRefused reason (rest.foldlM (fun sorted z => tryInsertBy order z sorted) sorted)
      (rest.foldlM (fun sorted z => tryInsertBy order' z sorted) sorted) := by
  induction rest generalizing sorted with
  | nil => exact .inr rfl
  | cons z rest ih =>
    rw [List.foldlM_cons, List.foldlM_cons]
    exact (tryInsertBy_sameUnlessRefused same z sorted).bind ih

theorem trySortBy_sameUnlessRefused
    (same : ∀ a b, SameUnlessRefused reason (order a b) (order' a b)) (xs : List α) :
    SameUnlessRefused reason (trySortBy order xs) (trySortBy order' xs) := by
  match xs with
  | [] => exact .inr rfl
  | [x] => exact .inr rfl
  | x :: y :: rest =>
    refine (same y x).bind fun decided => ?_
    refine (tryRun_sameUnlessRefused same _ x (y :: rest)).bind fun found => ?_
    exact foldlM_tryInsertBy_sameUnlessRefused same _ found.2

theorem trySortBy_comparisonSort : @ComparisonSort ε trySortBy where
  sort_map := trySortBy_map
  sameUnlessRefused := trySortBy_sameUnlessRefused
  sort_ok _ := trySortBy_ok

/-- An order that decides each pair of elements of a list, as a proper one does, sorts it alike. -/
theorem ComparisonSort.sort_eq_ok
    {sort : ∀ {α : Type}, (α → α → Except ε Ordering) → List α → Except ε (List α)}
    (law : ComparisonSort sort) {total : α → α → Ordering} [Std.TransCmp total] {xs : List α}
    (decided : ∀ a ∈ xs, ∀ b ∈ xs, order a b = .ok (total a b)) :
    sort order xs = .ok (sortBy total xs) := by
  have proper := transCmp_on total fun a : {a // a ∈ xs} => a.val
  have same : (fun a b : {a // a ∈ xs} => order a b) =
      fun a b : {a // a ∈ xs} => .ok (total a b) := by
    funext a b
    exact decided a a.property b b.property
  calc sort order xs
      = sort order (xs.attach.map Subtype.val) := by rw [List.attach_map_subtype_val]
    _ = (sort (fun a b : {a // a ∈ xs} => .ok (total a b)) xs.attach).map
          (List.map Subtype.val) := by rw [law.sort_map, same]
    _ = .ok ((sortBy (fun a b : {a // a ∈ xs} => total a b) xs.attach).map Subtype.val) := by
        rw [law.sort_ok]
        rfl
    _ = .ok (sortBy total xs) := by rw [← sortBy_map, List.attach_map_subtype_val]

theorem sortByBisection_map (order : α → α → Ordering) (f : β → α) (xs : List β) :
    sortByBisection order (xs.map f) =
      (sortByBisection (fun a b => order (f a) (f b)) xs).map f := by
  have mapped := trySortBy_map (fun a b => (.ok (order a b) : Except Empty Ordering)) f xs
  unfold sortByBisection
  rw [mapped]
  cases trySortBy (fun a b => (.ok (order (f a) (f b)) : Except Empty Ordering)) xs with
  | error e => exact e.elim
  | ok sorted => rfl

/-- Two orders that agree on the elements of a list, the second of them a proper one, sort it
alike. -/
theorem sortByBisection_congr {order order' : α → α → Ordering} [Std.TransCmp order'] {xs : List α}
    (agree : ∀ a ∈ xs, ∀ b ∈ xs, order a b = order' a b) :
    sortByBisection order xs = sortBy order' xs := by
  rw [sortByBisection, trySortBy_comparisonSort.sort_eq_ok fun a memA b memB =>
    congrArg Except.ok (agree a memA b memB)]

end SnapshotReport
