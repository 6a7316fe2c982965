/-! Stable sorting by an order. An element goes in front of the first one that it does not come
after, so elements that the order does not separate stay as they were. -/
namespace SnapshotReport

variable {α : Type}

def insertBy (order : α → α → Ordering) (x : α) : List α → List α
  | [] => [x]
  | y :: rest => if (order x y).isLE then x :: y :: rest else y :: insertBy order x rest

def sortBy (order : α → α → Ordering) : List α → List α
  | [] => []
  | x :: rest => insertBy order x (sortBy order rest)

theorem insertBy_perm (order : α → α → Ordering) (x : α) (xs : List α) :
    (insertBy order x xs).Perm (x :: xs) := by
  induction xs with
  | nil => exact .refl _
  | cons y rest ih =>
    unfold insertBy
    split
    · exact .refl _
    · exact (ih.cons y).trans (.swap x y rest)

theorem sortBy_perm (order : α → α → Ordering) (xs : List α) : (sortBy order xs).Perm xs := by
  induction xs with
  | nil => exact .refl _
  | cons x rest ih => exact (insertBy_perm order x _).trans (ih.cons x)

theorem insertBy_pairwise {order : α → α → Ordering} [Std.TransCmp order] (x : α) {xs : List α}
    (sorted : xs.Pairwise fun a b => (order a b).isLE) :
    (insertBy order x xs).Pairwise fun a b => (order a b).isLE := by
  induction xs with
  | nil => exact List.pairwise_singleton _ _
  | cons y rest ih =>
    obtain ⟨least, sorted⟩ := List.pairwise_cons.mp sorted
    unfold insertBy
    split
    · rename_i le
      refine List.pairwise_cons.mpr ⟨fun z mem => ?_, List.pairwise_cons.mpr ⟨least, sorted⟩⟩
      rcases List.mem_cons.mp mem with rfl | mem
      · exact le
      · exact Std.TransCmp.isLE_trans le (least z mem)
    · rename_i gt
      refine List.pairwise_cons.mpr ⟨fun z mem => ?_, ih sorted⟩
      rcases List.mem_cons.mp ((insertBy_perm order x rest).mem_iff.mp mem) with rfl | mem
      · have swap : order y z = (order z y).swap := Std.OrientedCmp.eq_swap
        rw [swap]
        cases h : order z y <;> simp_all
      · exact least z mem

theorem sortBy_pairwise {order : α → α → Ordering} [Std.TransCmp order] (xs : List α) :
    (sortBy order xs).Pairwise fun a b => (order a b).isLE := by
  induction xs with
  | nil => exact .nil
  | cons x rest ih => exact insertBy_pairwise x ih

/-- Puts an element behind those that it does not come before. -/
def insertBehind (order : α → α → Ordering) (x : α) : List α → List α
  | [] => [x]
  | y :: rest => if order x y = .lt then x :: y :: rest else y :: insertBehind order x rest

theorem insertBehind_append_of_lt {order : α → α → Ordering} {x y : α} (lt : order x y = .lt)
    (low high : List α) :
    insertBehind order x (low ++ y :: high) = insertBehind order x low ++ y :: high := by
  induction low with
  | nil => simp [insertBehind, lt]
  | cons z low ih =>
    rw [List.cons_append, insertBehind, insertBehind, ih]
    split <;> rfl

theorem insertBehind_append_of_not_lt {order : α → α → Ordering} {x : α} {low : List α}
    (notLt : ∀ y ∈ low, order x y ≠ .lt) (high : List α) :
    insertBehind order x (low ++ high) = low ++ insertBehind order x high := by
  induction low with
  | nil => rfl
  | cons z low ih =>
    rw [List.cons_append, insertBehind, if_neg (notLt z List.mem_cons_self),
      ih fun y mem => notLt y (List.mem_cons_of_mem z mem), List.cons_append]

theorem isLE_of_not_lt {order : α → α → Ordering} [Std.OrientedCmp order] {x y : α}
    (notLt : order x y ≠ .lt) : (order y x).isLE := by
  have swap : order y x = (order x y).swap := Std.OrientedCmp.eq_swap
  rw [swap]
  cases h : order x y <;> simp_all

theorem not_lt_of_isLE {order : α → α → Ordering} [Std.OrientedCmp order] {x y : α}
    (le : (order y x).isLE) : order x y ≠ .lt := by
  have swap : order y x = (order x y).swap := Std.OrientedCmp.eq_swap
  rw [swap] at le
  cases h : order x y <;> simp_all

theorem isLE_eq_false_of_lt {order : α → α → Ordering} [Std.OrientedCmp order] {x y : α}
    (lt : order x y = .lt) : (order y x).isLE = false := by
  have swap : order y x = (order x y).swap := Std.OrientedCmp.eq_swap
  rw [swap, lt]
  rfl

theorem insertBehind_insertBy {order : α → α → Ordering} [Std.TransCmp order] (x y : α)
    (xs : List α) :
    insertBehind order x (insertBy order y xs) = insertBy order y (insertBehind order x xs) := by
  have notLt {a b c : α} (ab : (order a b).isLE) (bc : order c b ≠ .lt) : order c a ≠ .lt :=
    not_lt_of_isLE (Std.TransCmp.isLE_trans ab (isLE_of_not_lt bc))
  induction xs with
  | nil =>
    by_cases lt : order x y = .lt
    · simp [insertBehind, insertBy, lt, isLE_eq_false_of_lt lt]
    · simp [insertBehind, insertBy, lt, isLE_of_not_lt lt]
  | cons z rest ih =>
    by_cases le : (order y z).isLE
    · by_cases lt : order x z = .lt
      · by_cases front : order x y = .lt
        · simp [insertBehind, insertBy, le, lt, front, isLE_eq_false_of_lt front]
        · simp [insertBehind, insertBy, le, lt, front, isLE_of_not_lt front]
      · simp [insertBehind, insertBy, le, lt, notLt le lt]
    · by_cases lt : order x z = .lt
      · have : (order y x).isLE = false := by
          cases h : (order y x).isLE with
          | false => rfl
          | true =>
            have : (order x z).isLE := by simp [lt]
            exact absurd (Std.TransCmp.isLE_trans h this) le
        simp [insertBehind, insertBy, le, lt, this]
      · simp [insertBehind, insertBy, le, lt, ih]

theorem sortBy_append_singleton {order : α → α → Ordering} [Std.TransCmp order] (xs : List α)
    (x : α) : sortBy order (xs ++ [x]) = insertBehind order x (sortBy order xs) := by
  induction xs with
  | nil => rfl
  | cons y xs ih => rw [List.cons_append, sortBy, ih, sortBy, insertBehind_insertBy]

theorem sortBy_of_pairwise {order : α → α → Ordering} {xs : List α}
    (sorted : xs.Pairwise fun a b => (order a b).isLE) : sortBy order xs = xs := by
  induction xs with
  | nil => rfl
  | cons x xs ih =>
    obtain ⟨least, sorted⟩ := List.pairwise_cons.mp sorted
    rw [sortBy, ih sorted]
    cases xs with
    | nil => rfl
    | cons y xs => rw [insertBy, if_pos (least y List.mem_cons_self)]

theorem insertBy_eq_append {order : α → α → Ordering} {x : α} {xs : List α}
    (above : ∀ y ∈ xs, (order x y).isLE = false) : insertBy order x xs = xs ++ [x] := by
  induction xs with
  | nil => rfl
  | cons y xs ih =>
    rw [insertBy, above y List.mem_cons_self, ih fun z mem => above z (List.mem_cons_of_mem y mem)]
    rfl

/-- A list in which each element comes before all those in front of it. -/
theorem sortBy_of_falling {order : α → α → Ordering} [Std.OrientedCmp order] {xs : List α}
    (falling : xs.Pairwise fun a b => order b a = .lt) : sortBy order xs = xs.reverse := by
  induction xs with
  | nil => rfl
  | cons x xs ih =>
    obtain ⟨above, falling⟩ := List.pairwise_cons.mp falling
    rw [sortBy, ih falling, List.reverse_cons, insertBy_eq_append]
    exact fun y mem => isLE_eq_false_of_lt (above y (List.mem_reverse.mp mem))

end SnapshotReport
