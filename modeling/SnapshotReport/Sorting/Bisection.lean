import SnapshotReport.Sorting

/-! Stable sorting with few comparisons. The run at the front is taken as it is, and every further
element finds its place by bisection. The order may refuse a pair; then sorting fails with the first
pair refused. Where the order is a proper one this is the same as sorting by insertion, and where it
is not, the comparisons that are made decide. -/
namespace SnapshotReport

variable {α β ε : Type}

/-- Puts an element into a sorted list, behind those that it does not come before. -/
def tryInsertBy (order : α → α → Except ε Ordering) (x : α) (xs : List α) : Except ε (List α) :=
  match _split : xs.drop (xs.length / 2) with
  | [] => .ok [x]
  | middle :: high => do
    if (← order x middle) = .lt then
      return (← tryInsertBy order x (xs.take (xs.length / 2))) ++ middle :: high
    else return xs.take (xs.length / 2) ++ middle :: (← tryInsertBy order x high)
termination_by xs.length
decreasing_by
  all_goals
    have := congrArg List.length _split
    simp only [List.length_drop, List.length_cons, List.length_take] at this ⊢
    omega

/-- The run that begins with `first`, and the rest. A falling run goes on as long as each element
comes before the one in front of it, any other run as long as none does. -/
def tryRun (order : α → α → Except ε Ordering) (falling : Bool) (first : α) :
    List α → Except ε (List α × List α)
  | [] => .ok ([first], [])
  | x :: rest => do
    if ((← order x first) == .lt) == falling then
      let (run, rest) ← tryRun order falling x rest
      return (first :: run, rest)
    else return ([first], x :: rest)

def trySortBy (order : α → α → Except ε Ordering) : List α → Except ε (List α)
  | [] => .ok []
  | [x] => .ok [x]
  | x :: y :: rest => do
    let falling := (← order y x) == .lt
    let (run, rest) ← tryRun order falling x (y :: rest)
    let sorted := if falling then run.reverse else run
    rest.foldlM (fun sorted z => tryInsertBy order z sorted) sorted

/-- Sorts by an order that refuses no pair. -/
def sortByBisection (order : α → α → Ordering) (xs : List α) : List α :=
  match trySortBy (fun a b => (.ok (order a b) : Except Empty Ordering)) xs with
  | .ok sorted => sorted

theorem tryInsertBy_nil (order : α → α → Except ε Ordering) (x : α) :
    tryInsertBy order x [] = .ok [x] := by
  rw [tryInsertBy]
  split
  · rfl
  · rename_i split
    simp at split

theorem tryInsertBy_of_drop {order : α → α → Except ε Ordering} {x middle : α} {xs high : List α}
    (split : xs.drop (xs.length / 2) = middle :: high) :
    tryInsertBy order x xs = (do
      if (← order x middle) = .lt then
        return (← tryInsertBy order x (xs.take (xs.length / 2))) ++ middle :: high
      else return xs.take (xs.length / 2) ++ middle :: (← tryInsertBy order x high)) := by
  rw [tryInsertBy]
  split
  · rename_i none
    rw [none] at split
    contradiction
  · rename_i again
    cases split.symm.trans again
    rfl

/-- Along the halves that a search by bisection goes on in. -/
theorem bisection_induction {motive : List α → Prop} (nil : motive [])
    (halves : ∀ xs middle high, xs.drop (xs.length / 2) = middle :: high →
      motive (xs.take (xs.length / 2)) → motive high → motive xs) (xs : List α) : motive xs := by
  induction size : xs.length using Nat.strongRecOn generalizing xs with
  | ind size ih =>
    subst size
    cases split : xs.drop (xs.length / 2) with
    | nil =>
      have empty := congrArg List.length split
      simp only [List.length_drop, List.length_nil] at empty
      rwa [List.eq_nil_of_length_eq_zero (l := xs) (by omega)]
    | cons middle high =>
      have bound := congrArg List.length split
      simp only [List.length_drop, List.length_cons] at bound
      have low : (xs.take (xs.length / 2)).length < xs.length := by
        rw [List.length_take]
        omega
      exact halves xs middle high split (ih _ low _ rfl) (ih _ (by omega) high rfl)

/-- In a sorted list, bisection finds the place that a search from the front finds. -/
theorem tryInsertBy_ok {order : α → α → Ordering} [Std.TransCmp order] (x : α) (xs : List α)
    (sorted : xs.Pairwise fun a b => (order a b).isLE) :
    tryInsertBy (fun a b => (.ok (order a b) : Except ε Ordering)) x xs =
      .ok (insertBehind order x xs) := by
  induction xs using bisection_induction with
  | nil => rw [tryInsertBy_nil, insertBehind]
  | halves xs middle high split low_ih high_ih =>
    have parts : xs = xs.take (xs.length / 2) ++ middle :: high := by
      rw [← split, List.take_append_drop]
    rw [parts] at sorted
    obtain ⟨lowSorted, highSorted, cross⟩ := List.pairwise_append.mp sorted
    obtain ⟨-, highSorted⟩ := List.pairwise_cons.mp highSorted
    rw [tryInsertBy_of_drop split, low_ih lowSorted, high_ih highSorted]
    simp only [bind, Except.bind, pure, Except.pure]
    conv => rhs; rw [parts]
    by_cases lt : order x middle = .lt
    · rw [if_pos lt, insertBehind_append_of_lt lt]
    · rw [if_neg lt, insertBehind_append_of_not_lt, insertBehind, if_neg lt]
      intro y mem
      exact not_lt_of_isLE
        (Std.TransCmp.isLE_trans (cross y mem middle List.mem_cons_self) (isLE_of_not_lt lt))

/-- A run is a part at the front in which all pairs are in the order of the run. -/
theorem tryRun_ok (order : α → α → Ordering) [Std.TransCmp order] (falling : Bool) (first : α)
    (xs : List α) :
    ∃ run rest,
      tryRun (fun a b => (.ok (order a b) : Except ε Ordering)) falling first xs =
        .ok (first :: run, rest) ∧
      xs = run ++ rest ∧
      (first :: run).Pairwise fun a b => (order b a == .lt) = falling := by
  induction xs generalizing first with
  | nil => exact ⟨[], [], rfl, rfl, List.pairwise_singleton _ _⟩
  | cons x xs ih =>
    by_cases continues : ((order x first == .lt) == falling) = true
    · obtain ⟨run, rest, ran, parts, inOrder⟩ := ih x
      refine ⟨x :: run, rest, ?_, by rw [parts, List.cons_append], ?_⟩
      · simp only [tryRun, bind, Except.bind, pure, Except.pure, ran, continues, if_true]
      · refine List.pairwise_cons.mpr ⟨fun y mem => ?_, inOrder⟩
        have step : (order x first == .lt) = falling := eq_of_beq continues
        rcases List.mem_cons.mp mem with rfl | mem
        · exact step
        · have far := (List.pairwise_cons.mp inOrder).1 y mem
          cases falling with
          | true =>
            rw [beq_iff_eq] at far step ⊢
            exact Std.TransCmp.lt_trans far step
          | false =>
            rw [beq_eq_false_iff_ne] at far step ⊢
            exact not_lt_of_isLE
              (Std.TransCmp.isLE_trans (isLE_of_not_lt step) (isLE_of_not_lt far))
    · refine ⟨[], x :: xs, ?_, rfl, List.pairwise_singleton _ _⟩
      simp only [tryRun, bind, Except.bind, pure, Except.pure, continues]
      rfl

theorem foldlM_tryInsertBy_ok {order : α → α → Ordering} [Std.TransCmp order] (xs rest : List α) :
    rest.foldlM
        (fun sorted z => tryInsertBy (fun a b => (.ok (order a b) : Except ε Ordering)) z sorted)
        (sortBy order xs) =
      .ok (sortBy order (xs ++ rest)) := by
  induction rest generalizing xs with
  | nil => rw [List.append_nil]; rfl
  | cons z rest ih =>
    rw [List.foldlM_cons, tryInsertBy_ok z _ (sortBy_pairwise xs), ← sortBy_append_singleton]
    simpa [bind, Except.bind] using ih (xs ++ [z])

/-- An order that refuses no pair sorts like a plain one. -/
theorem trySortBy_ok {order : α → α → Ordering} [Std.TransCmp order] (xs : List α) :
    trySortBy (fun a b => (.ok (order a b) : Except ε Ordering)) xs = .ok (sortBy order xs) := by
  match xs with
  | [] => rfl
  | [x] => rfl
  | x :: y :: rest =>
    obtain ⟨run, tail, ran, parts, inOrder⟩ :=
      tryRun_ok (ε := ε) order (order y x == .lt) x (y :: rest)
    have sorted : (if order y x == .lt then (x :: run).reverse else x :: run) =
        sortBy order (x :: run) := by
      by_cases falling : order y x = .lt
      · simp only [falling, beq_self_eq_true, if_true, beq_iff_eq] at inOrder ⊢
        exact (sortBy_of_falling inOrder).symm
      · have rising : (order y x == .lt) = false := beq_eq_false_iff_ne.mpr falling
        simp only [rising, beq_eq_false_iff_ne] at inOrder ⊢
        exact (sortBy_of_pairwise (inOrder.imp isLE_of_not_lt)).symm
    simp only [trySortBy, bind, Except.bind, ran, sorted]
    rw [parts]
    exact foldlM_tryInsertBy_ok (x :: run) tail

theorem exists_of_bind_eq_ok {x : Except ε α} {f : α → Except ε β} {b : β}
    (done : x >>= f = .ok b) : ∃ a, x = .ok a ∧ f a = .ok b := by
  cases x with
  | error e => contradiction
  | ok a => exact ⟨a, rfl, done⟩

theorem tryInsertBy_perm {order : α → α → Except ε Ordering} {x : α} {xs ys : List α}
    (inserted : tryInsertBy order x xs = .ok ys) : ys.Perm (x :: xs) := by
  induction xs using bisection_induction generalizing ys with
  | nil =>
    rw [tryInsertBy_nil] at inserted
    cases inserted
    exact .refl _
  | halves xs middle high split low_ih high_ih =>
    have parts : xs.take (xs.length / 2) ++ middle :: high = xs := by
      rw [← split, List.take_append_drop]
    rw [tryInsertBy_of_drop split] at inserted
    obtain ⟨decided, -, inserted⟩ := exists_of_bind_eq_ok inserted
    conv => rhs; rw [← parts]
    split at inserted
    · obtain ⟨low, lowInserted, same⟩ := exists_of_bind_eq_ok inserted
      obtain rfl := Except.ok.inj same
      exact (low_ih lowInserted).append_right _
    · obtain ⟨upper, highInserted, same⟩ := exists_of_bind_eq_ok inserted
      obtain rfl := Except.ok.inj same
      have upperPerm : (middle :: upper).Perm (x :: middle :: high) :=
        ((high_ih highInserted).cons middle).trans (.swap x middle high)
      exact (upperPerm.append_left _).trans List.perm_middle

theorem tryRun_parts {order : α → α → Except ε Ordering} {falling : Bool} {first : α}
    {xs run rest : List α} (ran : tryRun order falling first xs = .ok (run, rest)) :
    run ++ rest = first :: xs := by
  induction xs generalizing first run rest with
  | nil =>
    cases ran
    rfl
  | cons x xs ih =>
    obtain ⟨decided, -, ran⟩ := exists_of_bind_eq_ok ran
    split at ran
    · obtain ⟨⟨longer, left⟩, found, same⟩ := exists_of_bind_eq_ok ran
      obtain ⟨rfl, rfl⟩ := Prod.mk.inj (Except.ok.inj same)
      rw [List.cons_append, ih found]
    · cases ran
      rfl

theorem foldlM_tryInsertBy_perm {order : α → α → Except ε Ordering} {sorted rest ys : List α}
    (done : rest.foldlM (fun sorted z => tryInsertBy order z sorted) sorted = .ok ys) :
    ys.Perm (sorted ++ rest) := by
  induction rest generalizing sorted with
  | nil =>
    cases done
    rw [List.append_nil]
  | cons z rest ih =>
    rw [List.foldlM_cons] at done
    obtain ⟨longer, inserted, done⟩ := exists_of_bind_eq_ok done
    exact (ih done).trans
      (((tryInsertBy_perm inserted).append_right rest).trans List.perm_middle.symm)

/-- Whatever the order decides, no element is lost and none is doubled. -/
theorem trySortBy_perm {order : α → α → Except ε Ordering} {xs ys : List α}
    (sorted : trySortBy order xs = .ok ys) : ys.Perm xs := by
  match xs with
  | [] =>
    cases sorted
    exact .refl _
  | [x] =>
    cases sorted
    exact .refl _
  | x :: y :: rest =>
    obtain ⟨decided, -, sorted⟩ := exists_of_bind_eq_ok sorted
    obtain ⟨⟨run, tail⟩, ran, sorted⟩ := exists_of_bind_eq_ok sorted
    have start : (if decided == .lt then run.reverse else run).Perm run := by
      split
      · exact List.reverse_perm run
      · exact .refl _
    rw [← tryRun_parts ran]
    exact (foldlM_tryInsertBy_perm sorted).trans (start.append_right tail)

theorem sortByBisection_perm (order : α → α → Ordering) (xs : List α) :
    (sortByBisection order xs).Perm xs := by
  unfold sortByBisection
  split
  · rename_i sorted done
    exact trySortBy_perm done

end SnapshotReport
