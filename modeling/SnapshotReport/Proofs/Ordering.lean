import SnapshotReport.Graph
import SnapshotReport.Proofs.Sorting.Comparisons

/-! The orders of types, groups and entities. Types and groups are sorted the same in whatever order
they come. The order of entities need not be a proper one, since the schemas of groups are compared
loosely; but within one group names and types alone decide, and there it is. -/
namespace SnapshotReport

variable {n : Nat}

theorem byUnits_self (text : String) : Text.byUnits text text = .eq :=
  Std.ReflCmp.compare_self

theorem Quantity.order_self (x : Quantity) : x.order x = .eq := by
  cases x with
  | infinite negative => exact Std.ReflOrd.compare_self
  | ratio numerator denominator => exact Std.ReflOrd.compare_self

theorem Scalar.order_self (s : Scalar) : s.order s = .eq := by
  cases s with
  | text t => exact byUnits_self t
  | number | boolean | integer =>
    rw [order]
    · split
      · rename_i x y first second
        rw [Option.some.inj (first.symm.trans second)]
        exact y.order_self
      · rfl
    · intros
      contradiction

theorem Schema.order_self (schema : Schema) : schema.order schema = .eq := by
  cases schema with
  | named name => exact byUnits_self name
  | null => exact Scalar.order_self (.number (.zero false))
  | absent => rfl

theorem GroupKey.order_self (group : Option GroupKey) : order group group = .eq := by
  cases group with
  | none => rfl
  | some key =>
    rw [order, byUnits_self, key.schema.order_self]
    rfl

instance : Std.TransCmp TypeTag.order :=
  transCmp_on Text.byUnits TypeTag.fullName

theorem TypeTag.eq_of_order {a b : TypeTag} (same : a.order b = .eq) : a = b :=
  congrArg TypeTag.mk (Std.LawfulEqCmp.eq_of_compare same)

theorem TypeTag.sort_eq_of_perm {types types' : List TypeTag} (perm : types.Perm types') :
    sort types = sort types' := by
  apply sortBy_eq_of_perm perm
  intro type _ other _ same
  exact eq_of_order same

namespace GroupKey

/-- The schema has a name, as in all keys but those that are taken over without checks. -/
def Named (key : GroupKey) : Prop :=
  ∃ name, key.schema = .named name

/-- Along the keys that are left when the first is taken out wherever it stands. -/
theorem distinct_induction {motive : List GroupKey → Prop} (nil : motive [])
    (cons : ∀ key rest, motive (rest.filter fun other => !other == key) → motive (key :: rest))
    (keys : List GroupKey) : motive keys := by
  induction size : keys.length using Nat.strongRecOn generalizing keys with
  | ind size ih =>
    subst size
    cases keys with
    | nil => exact nil
    | cons key rest => exact cons key rest (ih _ (Nat.lt_succ_of_le (List.length_filter_le _ _)) _ rfl)

theorem distinct_cons (key : GroupKey) (rest : List GroupKey) :
    distinct (key :: rest) = key :: distinct (rest.filter fun other => !other == key) :=
  List.eraseDups_cons

theorem distinct_nodup (keys : List GroupKey) : (distinct keys).Nodup := by
  induction keys using distinct_induction with
  | nil => exact .nil
  | cons key rest ih =>
    rw [distinct_cons, List.nodup_cons]
    refine ⟨?_, ih⟩
    simp [mem_distinct]

theorem sort_nodup (twoLevel : Bool) (keys : List GroupKey) : (sort twoLevel keys).Nodup :=
  (sortBy_perm _ _).nodup_iff.mpr (distinct_nodup keys)

theorem sort_eq_of_mem_iff {twoLevel : Bool} {keys keys' : List GroupKey}
    (same : ∀ key, key ∈ keys ↔ key ∈ keys')
    (labels : ∀ a ∈ keys, ∀ b ∈ keys, a.label twoLevel = b.label twoLevel → a = b) :
    sort twoLevel keys = sort twoLevel keys' := by
  have proper := transCmp_on Text.byUnits fun key : GroupKey => key.label twoLevel
  have perm : (distinct keys).Perm (distinct keys') := by
    apply (List.perm_ext_iff_of_nodup (distinct_nodup keys) (distinct_nodup keys')).mpr
    intro key
    rw [mem_distinct, mem_distinct]
    exact same key
  apply sortBy_eq_of_perm perm
  intro a memA b memB label
  exact labels a (mem_distinct.mp memA) b (mem_distinct.mp memB) (Std.LawfulEqCmp.eq_of_compare label)

end GroupKey

namespace Entity

variable {Node : Type}

/-- By name, then by type. -/
def orderInGroup (a b : Entity Node) : Ordering :=
  (Text.byUnits a.name b.name).then (a.type.order b.type)

theorem order_of_group_eq {a b : Entity Node} (same : a.group = b.group) :
    a.order b = a.orderInGroup b := by
  rw [order, orderInGroup, same, GroupKey.order_self, Ordering.then_eq]

instance : Std.TransCmp (@orderInGroup Node) :=
  have _byName := transCmp_on Text.byUnits fun e : Entity Node => e.name
  have _byType := transCmp_on TypeTag.order fun e : Entity Node => e.type
  inferInstanceAs (Std.TransCmp (compareLex (fun a b : Entity Node => Text.byUnits a.name b.name)
    fun a b => a.type.order b.type))

theorem eq_of_orderInGroup {a b : Entity Node} (same : a.orderInGroup b = .eq) :
    a.name = b.name ∧ a.type = b.type := by
  obtain ⟨name, type⟩ := Ordering.then_eq_eq.mp same
  exact ⟨Std.LawfulEqCmp.eq_of_compare name, TypeTag.eq_of_order type⟩

end Entity

/-- Entities of one group are sorted properly. -/
theorem Graph.sort_of_group_eq {g : Graph n} {group : Option GroupKey} {list : List (Fin n)}
    (grouped : ∀ i ∈ list, (g.entity i).group = group) :
    g.sort list = sortBy (fun i j => (g.entity i).orderInGroup (g.entity j)) list := by
  have proper := transCmp_on Entity.orderInGroup g.entity
  refine sortByBisection_congr fun i memI j memJ => ?_
  exact Entity.order_of_group_eq ((grouped i memI).trans (grouped j memJ).symm)

end SnapshotReport
