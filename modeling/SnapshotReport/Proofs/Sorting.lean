import SnapshotReport.Sorting

/-! Laws of stable sorting. A sorted list is told by its elements alone where the order separates
them, and by their former places where it does not. Sorting by what a function gives of the elements
is sorting what it gives. -/
namespace SnapshotReport

variable {α β : Type}

/-- To order by what a function gives is as proper as the order of what it gives. -/
theorem transCmp_on (order : β → β → Ordering) [Std.TransCmp order] (f : α → β) :
    Std.TransCmp fun a b => order (f a) (f b) where
  eq_swap := Std.OrientedCmp.eq_swap
  isLE_trans := Std.TransCmp.isLE_trans

theorem sortBy_eq_of_perm {order : α → α → Ordering} [Std.TransCmp order] {xs ys : List α}
    (perm : xs.Perm ys) (apart : ∀ a ∈ xs, ∀ b ∈ xs, order a b = .eq → a = b) :
    sortBy order xs = sortBy order ys := by
  have same : (sortBy order xs).Perm (sortBy order ys) :=
    (sortBy_perm order xs).trans (perm.trans (sortBy_perm order ys).symm)
  refine List.Perm.eq_of_pairwise ?_ (sortBy_pairwise xs) (sortBy_pairwise ys) same
  intro a b memA memB le ge
  have inA : a ∈ xs := (sortBy_perm order xs).mem_iff.mp memA
  have inB : b ∈ xs := perm.mem_iff.mpr ((sortBy_perm order ys).mem_iff.mp memB)
  refine apart a inA b inB ?_
  cases compared : order a b with
  | lt => exact absurd compared (not_lt_of_isLE ge)
  | eq => rfl
  | gt => simp [compared] at le

theorem lt_of_not_isLE {order : α → α → Ordering} [Std.OrientedCmp order] {x y : α}
    (above : ¬(order x y).isLE) : order y x = .lt := by
  have swap : order y x = (order x y).swap := Std.OrientedCmp.eq_swap
  rw [swap]
  cases compared : order x y <;> simp_all

/-- The order puts `a` before `b`, or it does not separate them and their places do. -/
def Before (order : α → α → Ordering) (R : α → α → Prop) (a b : α) : Prop :=
  order a b = .lt ∨ order a b = .eq ∧ R a b

theorem Before.isLE {order : α → α → Ordering} {R : α → α → Prop} {a b : α}
    (before : Before order R a b) : (order a b).isLE := by
  rcases before with lt | ⟨eq, -⟩
  · rw [lt]
    rfl
  · rw [eq]
    rfl

theorem before_of_isLE {order : α → α → Ordering} {R : α → α → Prop} {a b : α}
    (le : (order a b).isLE) (placed : R a b) : Before order R a b := by
  cases compared : order a b with
  | lt => exact .inl compared
  | eq => exact .inr ⟨compared, placed⟩
  | gt => simp [compared] at le

theorem insertBy_stable {order : α → α → Ordering} [Std.TransCmp order] {R : α → α → Prop} {x : α}
    {ys : List α} (placed : ∀ y ∈ ys, R x y) (stable : ys.Pairwise (Before order R)) :
    (insertBy order x ys).Pairwise (Before order R) := by
  induction ys with
  | nil => exact List.pairwise_singleton _ _
  | cons y rest ih =>
    obtain ⟨first, others⟩ := List.pairwise_cons.mp stable
    unfold insertBy
    split
    · rename_i le
      refine List.pairwise_cons.mpr ⟨fun z member => before_of_isLE ?_ (placed z member), stable⟩
      rcases List.mem_cons.mp member with rfl | member
      · exact le
      · exact Std.TransCmp.isLE_trans le (first z member).isLE
    · rename_i above
      have inserted := ih (fun z member => placed z (List.mem_cons_of_mem y member)) others
      refine List.pairwise_cons.mpr ⟨fun z member => ?_, inserted⟩
      rcases List.mem_cons.mp ((insertBy_perm order x rest).mem_iff.mp member) with rfl | member
      · exact .inl (lt_of_not_isLE above)
      · exact first z member

/-- What stood in a relation from the front to the back still does so, as far as the order does not
separate it. -/
theorem sortBy_stable {order : α → α → Ordering} [Std.TransCmp order] {R : α → α → Prop}
    {xs : List α} (placed : xs.Pairwise R) : (sortBy order xs).Pairwise (Before order R) := by
  induction xs with
  | nil => exact .nil
  | cons x rest ih =>
    obtain ⟨behind, placed⟩ := List.pairwise_cons.mp placed
    refine insertBy_stable (fun y member => behind y ?_) (ih placed)
    exact (sortBy_perm order rest).mem_iff.mp member

theorem insertBy_eq_cons {order : α → α → Ordering} {x : α} {ys : List α}
    (below : ∀ y ∈ ys, (order x y).isLE) : insertBy order x ys = x :: ys := by
  cases ys with
  | nil => rfl
  | cons y rest => rw [insertBy, if_pos (below y List.mem_cons_self)]

theorem filter_insertBy {order : α → α → Ordering} [Std.TransCmp order] (p : α → Bool) (x : α)
    {ys : List α} (sorted : ys.Pairwise fun a b => (order a b).isLE) :
    (insertBy order x ys).filter p =
      if p x then insertBy order x (ys.filter p) else ys.filter p := by
  induction ys with
  | nil => rw [insertBy, List.filter_cons, List.filter_nil, insertBy]
  | cons y rest ih =>
    obtain ⟨first, others⟩ := List.pairwise_cons.mp sorted
    by_cases le : (order x y).isLE
    · have below : ∀ z ∈ y :: rest, (order x z).isLE := by
        intro z member
        rcases List.mem_cons.mp member with rfl | member
        · exact le
        · exact Std.TransCmp.isLE_trans le (first z member)
      have kept : ∀ z ∈ (y :: rest).filter p, (order x z).isLE :=
        fun z member => below z (List.mem_filter.mp member).1
      rw [insertBy_eq_cons below, insertBy_eq_cons kept, List.filter_cons]
    · rw [insertBy, if_neg le, List.filter_cons, ih others, List.filter_cons]
      split <;> split
      · rw [insertBy, if_neg le]
      all_goals rfl

/-- What is taken out of a list does not change the order of the rest. -/
theorem filter_sortBy {order : α → α → Ordering} [Std.TransCmp order] (p : α → Bool)
    (xs : List α) : (sortBy order xs).filter p = sortBy order (xs.filter p) := by
  induction xs with
  | nil => rfl
  | cons x rest ih =>
    rw [sortBy, filter_insertBy p x (sortBy_pairwise rest), ih, List.filter_cons]
    split <;> rfl

theorem insertBehind_eq_append (order : α → α → Ordering) (x : α) (xs : List α) :
    ∃ front back, xs = front ++ back ∧ insertBehind order x xs = front ++ x :: back := by
  induction xs with
  | nil => exact ⟨[], [], rfl, rfl⟩
  | cons y rest ih =>
    rw [insertBehind]
    split
    · exact ⟨[], y :: rest, rfl, rfl⟩
    · obtain ⟨front, back, same, inserted⟩ := ih
      exact ⟨y :: front, back, by rw [same, List.cons_append], by rw [inserted, List.cons_append]⟩

/-- To sort again after each element that is added is to sort once. -/
theorem sortBy_sortBy_append {order : α → α → Ordering} [Std.TransCmp order] (xs : List α)
    (x : α) : sortBy order (sortBy order xs ++ [x]) = sortBy order (xs ++ [x]) := by
  rw [sortBy_append_singleton, sortBy_append_singleton, sortBy_of_pairwise (sortBy_pairwise xs)]

theorem insertBy_eq_append_cons (order : α → α → Ordering) (x : α) (ys : List α) :
    ∃ low high, ys = low ++ high ∧ insertBy order x ys = low ++ x :: high ∧
      ∀ y ∈ low, ¬(order x y).isLE := by
  induction ys with
  | nil => exact ⟨[], [], rfl, rfl, by simp⟩
  | cons y rest ih =>
    by_cases le : (order x y).isLE
    · exact ⟨[], y :: rest, rfl, by rw [insertBy, if_pos le]; rfl, by simp⟩
    · obtain ⟨low, high, rfl, inserted, above⟩ := ih
      refine ⟨y :: low, high, rfl, by rw [insertBy, if_neg le, inserted]; rfl, ?_⟩
      intro z member
      rcases List.mem_cons.mp member with rfl | member
      · exact le
      · exact above z member

/-- The first of some kind in a sorted list is the least of them, and of several least ones the
first in the list that was sorted. -/
theorem exists_append_of_find?_sortBy {order : α → α → Ordering} [Std.TransCmp order]
    {p : α → Bool} {xs : List α} {a : α} (found : (sortBy order xs).find? p = some a) :
    ∃ front back, xs = front ++ a :: back ∧ (∀ b ∈ front, p b → order a b = .lt) ∧
      ∀ b ∈ back, p b → (order a b).isLE := by
  induction xs with
  | nil => contradiction
  | cons x rest ih =>
    obtain ⟨low, high, others, inserted, above⟩ := insertBy_eq_append_cons order x (sortBy order rest)
    rw [sortBy, inserted, List.find?_append, List.find?_cons] at found
    rw [others, List.find?_append] at ih
    have ordered : (low ++ x :: high).Pairwise fun a b => (order a b).isLE :=
      inserted ▸ insertBy_pairwise x (sortBy_pairwise rest)
    cases kind : p x with
    | false =>
      rw [kind] at found
      obtain ⟨front, back, rfl, before, behind⟩ := ih found
      refine ⟨x :: front, back, rfl, fun b member kindB => ?_, behind⟩
      rcases List.mem_cons.mp member with rfl | member
      · simp [kind] at kindB
      · exact before b member kindB
    | true =>
      rw [kind] at found
      cases first : low.find? p with
      | some b =>
        -- What stands before `x` in the sorted list comes before it in the order.
        obtain rfl : b = a := by simpa [first] using found
        obtain ⟨front, back, rfl, before, behind⟩ := ih (by rw [first]; rfl)
        refine ⟨x :: front, back, rfl, fun c member kindC => ?_, behind⟩
        rcases List.mem_cons.mp member with rfl | member
        · exact lt_of_not_isLE (above b (List.mem_of_find?_eq_some first))
        · exact before c member kindC
      | none =>
        obtain rfl : x = a := by simpa [first] using found
        refine ⟨[], rest, rfl, by simp, fun b member kindB => ?_⟩
        have listed : b ∈ low ++ high := by
          rw [← others]
          exact (sortBy_perm order rest).mem_iff.mpr member
        rcases List.mem_append.mp listed with listed | listed
        · exact absurd kindB (List.find?_eq_none.mp first b listed)
        · exact (List.pairwise_cons.mp (List.pairwise_append.mp ordered).2.1).1 b listed

theorem insertBy_map (order : α → α → Ordering) (f : β → α) (x : β) (xs : List β) :
    insertBy order (f x) (xs.map f) = (insertBy (fun a b => order (f a) (f b)) x xs).map f := by
  induction xs with
  | nil => rfl
  | cons y rest ih =>
    rw [List.map_cons, insertBy, insertBy, ih]
    split <;> rfl

theorem sortBy_map (order : α → α → Ordering) (f : β → α) (xs : List β) :
    sortBy order (xs.map f) = (sortBy (fun a b => order (f a) (f b)) xs).map f := by
  induction xs with
  | nil => rfl
  | cons x rest ih => rw [List.map_cons, sortBy, ih, insertBy_map, sortBy]

end SnapshotReport
