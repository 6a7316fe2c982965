import SnapshotReport.Proofs.Sorting
import Mathlib.Data.List.Pairwise

/-! What it is to sort a list. Of all arrangements there is one in which no element comes before one
that it comes behind, and those that the order does not separate stand as they stood. Stable sorting
by a proper order finds it. -/
namespace SnapshotReport

variable {α : Type}

/-- Neither comes behind the other. -/
def tied (le : α → α → Bool) (a b : α) : Bool :=
  le a b && le b a

/-- The second list is the first one in order. What the order does not separate stands as it stood,
repeated elements included. -/
structure StablySorted (le : α → α → Bool) (xs ys : List α) : Prop where
  perm : ys.Perm xs
  ordered : ys.Pairwise fun a b => le a b
  stable : ∀ a ∈ xs, ys.filter (tied le a) = xs.filter (tied le a)

/-- Of each list over some elements, `sort` gives the one stable arrangement by `order`; where no two
places hold elements that the order does not separate, former places do not matter. -/
structure Sorts (order : α → α → Ordering) (P : α → Prop) (sort : List α → List α) : Prop where
  stablySorted_iff : ∀ xs, (∀ x ∈ xs, P x) → ∀ ys,
    StablySorted (fun a b => (order a b).isLE) xs ys ↔ ys = sort xs
  eq_of_perm : ∀ xs, (∀ x ∈ xs, P x) → (xs.Pairwise fun a b => order a b ≠ .eq) →
    ∀ ys, xs.Perm ys → sort xs = sort ys

variable {le le' : α → α → Bool} {order order' : α → α → Ordering} {xs ys zs : List α}

theorem eq_of_filter_tied_eq (reflexive : ∀ a ∈ ys, le a a) (orderedY : ys.Pairwise fun a b => le a b)
    (orderedZ : zs.Pairwise fun a b => le a b) (perm : zs.Perm ys)
    (same : ∀ a ∈ ys, zs.filter (tied le a) = ys.filter (tied le a)) : zs = ys := by
  induction ys generalizing zs with
  | nil => exact perm.eq_nil
  | cons y ys ih =>
    cases zs with
    | nil => exact perm.symm.eq_nil.symm
    | cons z zs =>
      obtain ⟨firstY, restY⟩ := List.pairwise_cons.mp orderedY
      obtain ⟨firstZ, restZ⟩ := List.pairwise_cons.mp orderedZ
      have head : z = y := by
        -- If they differ, each stands behind the other, so they are tied and stand as they stood.
        by_contra other
        have memZ : z ∈ ys :=
          (List.mem_cons.mp (perm.mem_iff.mp List.mem_cons_self)).resolve_left other
        have memY : y ∈ zs :=
          (List.mem_cons.mp (perm.mem_iff.mpr List.mem_cons_self)).resolve_left (Ne.symm other)
        have tiedZ : tied le y z := by rw [tied, firstY z memZ, firstZ y memY]; rfl
        have tiedY : tied le y y := by rw [tied, reflexive y List.mem_cons_self]; rfl
        have firsts := same y List.mem_cons_self
        rw [List.filter_cons_of_pos tiedZ, List.filter_cons_of_pos tiedY] at firsts
        exact other (List.cons.inj firsts).1
      subst head
      congr 1
      refine ih (fun a member => reflexive a (List.mem_cons_of_mem z member)) restY restZ
        perm.cons_inv fun a member => ?_
      have whole := same a (List.mem_cons_of_mem z member)
      by_cases tiedA : tied le a z
      · rw [List.filter_cons_of_pos tiedA, List.filter_cons_of_pos tiedA] at whole
        exact (List.cons.inj whole).2
      · rwa [List.filter_cons_of_neg tiedA, List.filter_cons_of_neg tiedA] at whole

theorem StablySorted.eq (reflexive : ∀ a ∈ xs, le a a) (first : StablySorted le xs ys)
    (second : StablySorted le xs zs) : ys = zs := by
  have memZ {a : α} : a ∈ zs ↔ a ∈ xs := second.perm.mem_iff
  refine eq_of_filter_tied_eq (fun a member => reflexive a (memZ.mp member)) second.ordered
    first.ordered (first.perm.trans second.perm.symm) fun a member => ?_
  rw [first.stable a (memZ.mp member), second.stable a (memZ.mp member)]

theorem StablySorted.congr (agree : ∀ a ∈ xs, ∀ b ∈ xs, le a b = le' a b)
    (sorted : StablySorted le xs ys) : StablySorted le' xs ys where
  perm := sorted.perm
  ordered := sorted.ordered.imp_of_mem fun {a b} memA memB placed => by
    rwa [← agree a (sorted.perm.mem_iff.mp memA) b (sorted.perm.mem_iff.mp memB)]
  stable a memA := by
    have same {zs : List α} (listed : ∀ b ∈ zs, b ∈ xs) :
        zs.filter (tied le a) = zs.filter (tied le' a) := by
      apply List.filter_congr
      intro b memB
      rw [tied, tied, agree a memA b (listed b memB), agree b (listed b memB) a memA]
    rw [← same fun b => sorted.perm.mem_iff.mp, ← same fun b => id, sorted.stable a memA]

theorem sortBy_stablySorted (order : α → α → Ordering) [Std.TransCmp order] (xs : List α) :
    StablySorted (fun a b => (order a b).isLE) xs (sortBy order xs) where
  perm := sortBy_perm order xs
  ordered := sortBy_pairwise xs
  stable a _ := by
    rw [filter_sortBy]
    apply sortBy_of_pairwise
    apply List.pairwise_of_forall_mem_list
    intro b memB c memC
    have tiedB := (List.mem_filter.mp memB).2
    have tiedC := (List.mem_filter.mp memC).2
    rw [tied, Bool.and_eq_true] at tiedB tiedC
    exact Std.TransCmp.isLE_trans tiedB.2 tiedC.1

theorem eq_of_pairwise_ne [Std.OrientedCmp order] (apart : xs.Pairwise fun a b => order a b ≠ .eq) :
    ∀ a ∈ xs, ∀ b ∈ xs, order a b = .eq → a = b := by
  have symmetric : Std.Symm fun a b : α => order a b = .eq → a = b :=
    ⟨fun a b same tie => (same (Std.OrientedCmp.eq_comm.mp tie)).symm⟩
  have separated : xs.Pairwise fun a b => order a b = .eq → a = b :=
    apart.imp fun {a b} other tie => absurd tie other
  intro a memA b memB
  exact List.Pairwise.forall_of_forall (fun _ _ _ => rfl) separated memA memB

/-- The order may be any that is proper on the elements in question. -/
theorem sorts_of_agree [Std.TransCmp order'] {P : α → Prop} {sort : List α → List α}
    (agree : ∀ a b, P a → P b → order a b = order' a b)
    (same : ∀ xs, (∀ x ∈ xs, P x) → sort xs = sortBy order' xs) : Sorts order P sort where
  stablySorted_iff xs all ys := by
    have agreeLE : ∀ a ∈ xs, ∀ b ∈ xs, (order a b).isLE = (order' a b).isLE :=
      fun a memA b memB => by rw [agree a b (all a memA) (all b memB)]
    have found : StablySorted (fun a b => (order a b).isLE) xs (sort xs) := by
      rw [same xs all]
      exact (sortBy_stablySorted order' xs).congr fun a memA b memB => (agreeLE a memA b memB).symm
    constructor
    · intro sorted
      refine sorted.eq (fun a memA => ?_) found
      have self : order' a a = .eq := Std.ReflCmp.compare_self
      rw [agreeLE a memA a memA, self]
      rfl
    · rintro rfl
      exact found
  eq_of_perm xs all apart ys perm := by
    have allY : ∀ y ∈ ys, P y := fun y member => all y (perm.mem_iff.mpr member)
    have apart' : xs.Pairwise fun a b => order' a b ≠ .eq :=
      apart.imp_of_mem fun {a b} memA memB other => agree a b (all a memA) (all b memB) ▸ other
    rw [same xs all, same ys allY]
    exact sortBy_eq_of_perm perm (eq_of_pairwise_ne apart')

theorem sorts_sortBy (order : α → α → Ordering) [Std.TransCmp order] :
    Sorts order (fun _ => True) (sortBy order) :=
  sorts_of_agree (fun _ _ _ _ => rfl) fun _ _ => rfl

end SnapshotReport
