import Mathlib.Data.Set.Card
import Mathlib.Data.Set.Finite.Range
import Mathlib.Logic.Relation
import SnapshotReport.Proofs.Nesting

/-! How deep expansions are nested. Of two in a row at least one puts a new name on the path, so the
names that can be reached bound every chain, on cyclic graphs too and at every depth; a finite depth
bounds it once more. -/
namespace SnapshotReport

variable {n : Nat}

/-- The entities that a value refers to. -/
def AttributeValue.targets {Node : Type} : AttributeValue Node → List Node
  | ref target => [target]
  | entities items => items
  | _ => []

namespace Graph

/-- An attribute of entity `i`, whether it is ever shown or not, refers to entity `j`. -/
def Refers (g : Graph n) (i j : Fin n) : Prop :=
  ∃ name value, (name, Attribute.value value) ∈ (g.entity i).attributes.entries ∧ j ∈ value.targets

def Reachable (g : Graph n) : Fin n → Fin n → Prop :=
  Relation.ReflTransGen g.Refers

end Graph

namespace Expansion

variable {g : Graph n} {scope : Scope} {path : Path} {i j : Fin n} {chain : List (Fin n)}

theorem Nests.refers (nests : Nests g scope path i j) : g.Refers i j := by
  obtain ⟨-, -, name, value, stands, -, shows⟩ := nests
  refine ⟨name, value, stands, ?_⟩
  rcases shows with ⟨rfl, -⟩ | ⟨items, rfl, listed⟩
  · exact List.mem_singleton_self j
  · exact listed

/-- The names off the path that entities reachable from entity `i` have. -/
def newNames (g : Graph n) (path : Path) (i : Fin n) : Set String :=
  {name | name ∉ path ∧ ∃ j, g.Reachable i j ∧ g.name j = name}

theorem newNames_finite : (newNames g path i).Finite := by
  refine (Set.finite_range g.name).subset ?_
  rintro name ⟨-, j, -, rfl⟩
  exact Set.mem_range_self j

theorem newNames_step (nests : Nests g scope path i j) :
    newNames g (path.insert (g.name i)) j ⊆ newNames g path i \ {g.name i} := by
  rintro name ⟨off, k, reachable, rfl⟩
  rw [Path.mem_insert, not_or] at off
  exact ⟨⟨off.2, k, .head nests.refers reachable, rfl⟩, off.1⟩

theorem ncard_newNames_step_le (nests : Nests g scope path i j) :
    (newNames g (path.insert (g.name i)) j).ncard ≤ (newNames g path i).ncard :=
  Set.ncard_le_ncard ((newNames_step nests).trans Set.sdiff_subset) newNames_finite

theorem ncard_newNames_step_lt (nests : Nests g scope path i j) (off : g.name i ∉ path) :
    (newNames g (path.insert (g.name i)) j).ncard < (newNames g path i).ncard := by
  have own : g.name i ∈ newNames g path i := ⟨off, i, .refl, rfl⟩
  have smaller := Set.ncard_le_ncard (newNames_step nests) (newNames_finite.subset Set.sdiff_subset)
  have removed := Set.ncard_sdiff_singleton_lt_of_mem own newNames_finite
  exact lt_of_le_of_lt smaller removed

/-- The names are counted twice, and once less while the name of the first entity is itself off the
path: it comes onto the path before anything is expanded. -/
theorem Chain.length_le_newNames (nested : Chain g scope path i chain) :
    chain.length + (if g.name i ∈ path then 0 else 1) ≤ 2 * (newNames g path i).ncard := by
  induction nested with
  | @nil path i =>
    split
    · exact Nat.zero_le _
    · rename_i off
      have : 0 < (newNames g path i).ncard :=
        (Set.ncard_pos newNames_finite).mpr ⟨g.name i, off, i, .refl, rfl⟩
      simp only [List.length_nil]
      omega
  | @cons path i j rest nests _ ih =>
    rw [List.length_cons]
    by_cases known : g.name i ∈ path
    · rw [Path.insert_of_mem known, if_neg nests.fresh] at ih
      have fewer := ncard_newNames_step_le nests
      rw [Path.insert_of_mem known] at fewer
      rw [if_pos known]
      omega
    · have fewer := ncard_newNames_step_lt nests known
      rw [if_neg known]
      omega

theorem Chain.not_mem_path (nested : Chain g scope path i chain) :
    ∀ j ∈ chain, g.name j ∉ path := by
  induction nested with
  | nil => intro j member; contradiction
  | @cons path i first rest nests _ ih =>
    intro j member
    rcases List.mem_cons.mp member with rfl | member
    · exact nests.fresh
    · exact fun known => ih j member (Path.mem_insert.mpr (.inr known))

/-- From the second expansion on, the name of the first entity is on the path. -/
theorem Chain.name_ne (nested : Chain g scope (path.insert (g.name i)) j chain) :
    ∀ k ∈ chain, g.name k ≠ g.name i := by
  intro k member same
  exact nested.not_mem_path k member (Path.mem_insert.mpr (.inl same))

/-- The places at which a name stands in a chain are next to each other. -/
theorem Chain.place_le (nested : Chain g scope path i chain) (name : String) (a b : Nat)
    (first : ((i :: chain).map g.name)[a]? = some name)
    (last : ((i :: chain).map g.name)[b]? = some name) : b ≤ a + 1 := by
  induction nested generalizing a b with
  | nil =>
    obtain ⟨within, -⟩ := List.getElem?_eq_some_iff.mp last
    simp only [List.map_cons, List.map_nil, List.length_singleton] at within
    omega
  | @cons path i j rest _ nested ih =>
    cases b with
    | zero => exact Nat.zero_le _
    | succ b =>
      cases a with
      | succ a => exact Nat.succ_le_succ (ih a b first last)
      | zero =>
        cases b with
        | zero => exact Nat.le_refl _
        | succ b =>
          have further : name ∈ rest.map g.name := List.mem_of_getElem? last
          obtain ⟨k, member, same⟩ := List.mem_map.mp further
          exact absurd (same.trans (Option.some.inj first).symm) (nested.name_ne k member)

theorem reaches_le {x : Number} {d count : Nat} (whole : x.truncate? = some (d : Int))
    (reached : x.reaches count = true) : count ≤ d := by
  cases x with
  | nan => simp [Number.reaches] at reached
  | infinite => simp [Number.truncate?] at whole
  | finite negative size =>
    cases negative with
    | false =>
      simp only [Number.truncate?, Bool.false_eq_true, if_false, Option.some.injEq,
        Nat.cast_inj] at whole
      simpa [Number.reaches, whole] using reached
    | true =>
      have none : count = 0 ∧ size.significand = 0 := by simpa [Number.reaches] using reached
      omega

/-- The path is as long as the depth at most where anything is expanded, and it grows with every
second expansion. -/
theorem Chain.length_le_depth {d : Nat} (whole : scope.depth.truncate? = some (d : Int))
    (nested : Chain g scope path i chain) (some : chain ≠ []) :
    chain.length + 2 * path.size + (if g.name i ∈ path then 0 else 1) ≤ 2 * (d + 1) := by
  induction nested with
  | nil => contradiction
  | @cons path i first rest nests _ ih =>
    have short : path.size ≤ d := reaches_le whole nests.expands
    cases rest with
    | nil =>
      simp only [List.length_singleton]
      split <;> omega
    | cons second rest =>
      have longer := ih (List.cons_ne_nil second rest)
      simp only [List.length_cons] at longer ⊢
      by_cases known : g.name i ∈ path
      · rw [Path.insert_of_mem known, if_neg nests.fresh] at longer
        rw [if_pos known]
        omega
      · rw [Path.size_insert_of_not_mem known] at longer
        rw [if_neg known]
        omega

theorem Chain.length_le_of_listed {d : Nat} (whole : scope.depth.truncate? = some (d : Int))
    (nested : Chain g scope (Path.empty.insert (g.name i)) i chain) : chain.length ≤ 2 * d := by
  by_cases none : chain = []
  · rw [none]
    exact Nat.zero_le _
  · have bound := nested.length_le_depth whole none
    have own : g.name i ∈ Path.empty.insert (g.name i) := Path.mem_insert.mpr (.inl rfl)
    have single : (Path.empty.insert (g.name i)).size = 1 :=
      Path.size_insert_of_not_mem List.not_mem_nil
    rw [if_pos own, single] at bound
    omega

/-- Expansion ends on every graph. A chain of nested expansions repeats no name of the path, and a
name of its own only in a row. So twice the new names bound its length, and twice the depth where the
entity is listed; nothing nested deeper than that has a part in the block. -/
theorem nesting_bounded (g : Graph n) (scope : Scope) (visited : Path) (owner : String)
    (i : Fin n) :
    (∀ stop budget, 2 * (newNames g (visited.insert owner) i).ncard < budget →
      unrolled g scope stop budget (visited.insert owner) i =
        block g scope (visited.insert owner) i) ∧
    (∀ chain, Chain g scope (visited.insert owner) i chain →
      (∀ j ∈ chain, g.name j ≠ owner ∧ g.name j ∉ visited) ∧
      (∀ name a b, ((i :: chain).map g.name)[a]? = some name →
        ((i :: chain).map g.name)[b]? = some name → b ≤ a + 1) ∧
      chain.length ≤ 2 * (newNames g (visited.insert owner) i).ncard) ∧
    (∀ d : Nat, scope.depth.truncate? = some (d : Int) →
      (∀ chain, Chain g scope (Path.empty.insert (g.name i)) i chain → chain.length ≤ 2 * d) ∧
      ∀ stop budget, 2 * d < budget →
        unrolled g scope stop budget (Path.empty.insert (g.name i)) i =
          block g scope (Path.empty.insert (g.name i)) i) := by
  have bounded {chain : List (Fin n)} (nested : Chain g scope (visited.insert owner) i chain) :
      chain.length ≤ 2 * (newNames g (visited.insert owner) i).ncard :=
    (Nat.le_add_right _ _).trans nested.length_le_newNames
  refine ⟨?_, ?_, ?_⟩
  · intro stop budget enough
    exact unrolled_eq_block stop budget fun chain nested => lt_of_le_of_lt (bounded nested) enough
  · intro chain nested
    refine ⟨?_, nested.place_le, bounded nested⟩
    intro j member
    have off := nested.not_mem_path j member
    rwa [Path.mem_insert, not_or] at off
  · intro d whole
    refine ⟨fun chain nested => nested.length_le_of_listed whole, fun stop budget enough => ?_⟩
    exact unrolled_eq_block stop budget fun chain nested =>
      lt_of_le_of_lt (nested.length_le_of_listed whole) enough

/-- An entity that refers to another one, which refers to itself. -/
def selfReference : Graph 2 :=
  ⟨#v[⟨⟨"table"⟩, "a", none, ⟨[("next", .value (.ref 1))], by simp⟩, none⟩,
    ⟨⟨"table"⟩, "b", none, ⟨[("next", .value (.ref 1))], by simp⟩, none⟩]⟩

/-- The bound is attained: the second entity is expanded within itself once. -/
theorem nesting_bound_attained :
    Chain selfReference ⟨.one, none⟩ (Path.empty.insert "a") 0 [1, 1] ∧
      [(1 : Fin 2), 1].length = 2 * 1 := by
  have first : Nests selfReference ⟨.one, none⟩ (Path.empty.insert "a") 0 1 :=
    ⟨by decide, by decide, "next", .ref 1, List.mem_singleton_self _, by decide, .inl ⟨rfl, rfl⟩⟩
  have second : Nests selfReference ⟨.one, none⟩ (Path.empty.insert "a") 1 1 :=
    ⟨by decide, by decide, "next", .ref 1, List.mem_singleton_self _, by decide, .inl ⟨rfl, rfl⟩⟩
  have nested : Chain selfReference ⟨.one, none⟩ (Path.empty.insert "a") 0 [1, 1] :=
    .cons first (.cons second .nil)
  exact ⟨nested,
    le_antisymm (((nesting_bounded selfReference ⟨.one, none⟩ .empty "a" 0).2.2 1 rfl).1 _ nested)
      (le_refl _)⟩

end Expansion

end SnapshotReport
