import Mathlib.Data.List.Forall2

/-! Traversals of lists that end with the first failure. Whether and how one fails is decided by its
steps alone, the first failing one in the order of the list. -/
namespace SnapshotReport

variable {ε α β γ : Type}

/-- What a computation failed with, if it did. -/
def failure? : Except ε α → Option ε
  | .ok _ => none
  | .error e => some e

theorem failure?_eq_none_iff {result : Except ε α} :
    failure? result = none ↔ ∃ a, result = .ok a := by
  cases result <;> simp [failure?]

theorem failure?_eq_some_iff {result : Except ε α} {e : ε} :
    failure? result = some e ↔ result = .error e := by
  cases result <;> simp [failure?]

theorem failure?_bind_ok (result : Except ε α) (f : α → β) :
    failure? (result >>= fun a => .ok (f a)) = failure? result := by
  cases result <;> rfl

/-- If the failures of each step are listed, a traversal fails with the first of them all. -/
theorem failure?_mapM {f : α → Except ε β} {failures : α → List ε} {xs : List α}
    (steps : ∀ x ∈ xs, failure? (f x) = (failures x).head?) :
    failure? (xs.mapM f) = (xs.flatMap failures).head? := by
  induction xs with
  | nil => rfl
  | cons x rest ih =>
    have first := steps x List.mem_cons_self
    have others := ih fun y member => steps y (List.mem_cons_of_mem x member)
    rw [List.mapM_cons, List.flatMap_cons, List.head?_append, ← first, ← others]
    cases f x with
    | error e => rfl
    | ok y => cases rest.mapM f <;> rfl

theorem mapM_eq_ok_iff {f : α → Except ε β} {xs : List α} {ys : List β} :
    xs.mapM f = .ok ys ↔ List.Forall₂ (fun x y => f x = .ok y) xs ys := by
  constructor
  · intro done
    induction xs generalizing ys with
    | nil =>
      cases done
      exact .nil
    | cons x rest ih =>
      rw [List.mapM_cons] at done
      cases first : f x with
      | error e => simp [first, bind, Except.bind] at done
      | ok y =>
        cases others : rest.mapM f with
        | error e => simp [first, others, bind, Except.bind] at done
        | ok zs =>
          simp only [first, others, bind, Except.bind, pure, Except.pure, Except.ok.injEq] at done
          subst done
          exact .cons first (ih others)
  · intro steps
    induction steps with
    | nil => rfl
    | cons first _ ih =>
      rw [List.mapM_cons, first, ih]
      rfl

theorem isEmpty_of_mapM {f : α → Except ε β} {xs : List α} {ys : List β}
    (done : xs.mapM f = .ok ys) : ys.isEmpty = xs.isEmpty := by
  cases mapM_eq_ok_iff.mp done <;> rfl

theorem exists_of_mem_mapM {f : α → Except ε β} {xs : List α} {ys : List β} {y : β}
    (done : xs.mapM f = .ok ys) (member : y ∈ ys) : ∃ x ∈ xs, f x = .ok y := by
  have steps := mapM_eq_ok_iff.mp done
  clear done
  induction steps with
  | nil => contradiction
  | cons first _ ih =>
    rcases List.mem_cons.mp member with rfl | member
    · exact ⟨_, List.mem_cons_self, first⟩
    · obtain ⟨x, listed, made⟩ := ih member
      exact ⟨x, List.mem_cons_of_mem _ listed, made⟩

theorem mapM_ok {f : α → Except ε β} {value : α → β} {xs : List α} {ys : List β}
    (done : xs.mapM f = .ok ys) (values : ∀ x ∈ xs, ∀ y, f x = .ok y → y = value x) :
    (∀ x ∈ xs, f x = .ok (value x)) ∧ ys = xs.map value := by
  have steps := mapM_eq_ok_iff.mp done
  clear done
  induction steps with
  | nil => exact ⟨fun x member => absurd member List.not_mem_nil, rfl⟩
  | @cons x y rest ys first _ ih =>
    obtain ⟨others, same⟩ := ih fun x member => values x (List.mem_cons_of_mem _ member)
    have here := values x List.mem_cons_self y first
    constructor
    · intro z member
      rcases List.mem_cons.mp member with rfl | member
      · rw [first, here]
      · exact others z member
    · rw [List.map_cons, here, same]

/-- Two traversals whose steps agree one by one have the same outcome. -/
theorem mapM_congr_forall₂ {f : α → Except ε γ} {f' : β → Except ε γ} {R : α → β → Prop}
    {xs : List α} {ys : List β} (related : List.Forall₂ R xs ys)
    (agree : ∀ x ∈ xs, ∀ y ∈ ys, R x y → f x = f' y) : xs.mapM f = ys.mapM f' := by
  induction related with
  | nil => rfl
  | cons first _ ih =>
    have others := ih fun x memX y memY =>
      agree x (List.mem_cons_of_mem _ memX) y (List.mem_cons_of_mem _ memY)
    rw [List.mapM_cons, List.mapM_cons, others,
      agree _ List.mem_cons_self _ List.mem_cons_self first]

theorem mapM_congr {f f' : α → Except ε β} {xs : List α} (same : ∀ x ∈ xs, f x = f' x) :
    xs.mapM f = xs.mapM f' := by
  have paired : List.Forall₂ (· = ·) xs xs := List.forall₂_refl xs
  refine mapM_congr_forall₂ paired ?_
  rintro x member _ - rfl
  exact same x member

theorem mapM_bind_pure {δ : Type} (f : α → Except ε β) (k : α → γ) (h : γ → β → δ) (xs : List α) :
    (xs.mapM fun x => do return h (k x) (← f x)) =
      (xs.mapM fun x => do return (k x, ← f x)) >>= fun ys => .ok (ys.map fun y => h y.1 y.2) := by
  induction xs with
  | nil => rfl
  | cons x rest ih =>
    rw [List.mapM_cons, List.mapM_cons, ih]
    cases f x with
    | error e => rfl
    | ok y => cases rest.mapM fun x => do return (k x, ← f x) <;> rfl

/-- Results changed one by one are the results of the traversal, changed. -/
theorem mapM_map_eq (f : α → Except ε β) (h : β → γ) (xs : List α) :
    (xs.mapM fun x => (f x).map h) = (xs.mapM f).map (List.map h) := by
  induction xs with
  | nil => rfl
  | cons x rest ih =>
    rw [List.mapM_cons, List.mapM_cons, ih]
    cases f x with
    | error e => rfl
    | ok y => cases rest.mapM f <;> rfl

end SnapshotReport
