import SnapshotReport.Proofs.Ordering
import SnapshotReport.Proofs.Sorting.Arrangement
import Mathlib.Data.List.Lex

/-! The order of entities. It is the order of texts by units, of names first, then of groups, then of
types, and where the schemas of groups are named it is a proper one: entities are told apart by these
three alone, and sorting gives the one stable arrangement. -/
namespace SnapshotReport

namespace Text

theorem compare_eq_lt_iff (us vs : List Nat) : compare us vs = .lt ↔ List.Lex (· < ·) us vs := by
  induction us generalizing vs with
  | nil => cases vs <;> simp
  | cons u us ih =>
    cases vs with
    | nil => simp
    | cons v vs =>
      rw [List.compare_eq_compareLex, List.compareLex_cons_cons, ← List.compare_eq_compareLex,
        Ordering.then_eq_lt, Nat.compare_eq_lt, Nat.compare_eq_eq, ih, List.cons_lex_cons_iff]

/-- A character above `0xFFFF` comes before those from `0xE000` to there, whatever is around. -/
theorem byUnits_of_beyond {c d : Char} (beyond : 0xFFFF < c.toNat) (late : 0xE000 ≤ d.toNat)
    (single : d.toNat ≤ 0xFFFF) (common s t : List Char) :
    byUnits (String.ofList (common ++ c :: s)) (String.ofList (common ++ d :: t)) = .lt := by
  have pair : units (String.ofList (c :: s)) = (0xD800 + (c.toNat - 0x10000) / 0x400) ::
      (0xDC00 + (c.toNat - 0x10000) % 0x400) :: units (String.ofList s) := by
    have large : ¬c.toNat < 0x10000 := by omega
    simp [units, unitsOfChar, large]
  have unit : units (String.ofList (d :: t)) = d.toNat :: units (String.ofList t) := by
    have small : d.toNat < 0x10000 := by omega
    simp [units, unitsOfChar, small]
  rw [byUnits, compare_eq_lt_iff, String.ofList_append, String.ofList_append, units_append,
    units_append, pair, unit]
  apply List.Lex.append_left
  apply List.Lex.rel
  have bound := toNat_lt c
  omega

end Text

namespace GroupKey

/-- The units of both parts. There are none where there is no group. -/
def parts : Option GroupKey → List (List Nat)
  | none => []
  | some key => [Text.units key.catalog, Text.units key.schema.text]

variable {a b : Option GroupKey}

theorem order_eq_compare_parts (namedA : ∀ key ∈ a, key.Named) (namedB : ∀ key ∈ b, key.Named) :
    order a b = compare (parts a) (parts b) := by
  cases a with
  | none => cases b <;> rfl
  | some a =>
    cases b with
    | none => rfl
    | some b =>
      obtain ⟨name, schema⟩ := namedA a rfl
      obtain ⟨name', schema'⟩ := namedB b rfl
      rw [order, schema, schema', Schema.order_named, parts, parts, schema, schema',
        List.compare_eq_compareLex, List.compareLex_cons_cons, List.compareLex_cons_cons,
        List.compareLex_nil_nil, Ordering.then_eq]
      rfl

theorem parts_inj (namedA : ∀ key ∈ a, key.Named) (namedB : ∀ key ∈ b, key.Named)
    (same : parts a = parts b) : a = b := by
  cases a with
  | none =>
    cases b with
    | none => rfl
    | some b => contradiction
  | some a =>
    cases b with
    | none => contradiction
    | some b =>
      obtain ⟨name, schema⟩ := namedA a rfl
      obtain ⟨name', schema'⟩ := namedB b rfl
      obtain ⟨catalog, _⟩ := a
      obtain ⟨catalog', _⟩ := b
      subst schema schema'
      rw [parts, parts, List.cons.injEq, List.cons.injEq] at same
      have catalogs : catalog = catalog' := Text.units_injective same.1
      have names : name = name' := Text.units_injective same.2.1
      rw [catalogs, names]

end GroupKey

namespace Entity

variable {Node : Type} {a b c : Entity Node}

/-- Its group, if there is one, has a schema with a name. -/
def Named (e : Entity Node) : Prop :=
  ∀ key ∈ e.group, key.Named

def orderByParts (a b : Entity Node) : Ordering :=
  ((Text.byUnits a.name b.name).then
    (compare (GroupKey.parts a.group) (GroupKey.parts b.group))).then (a.type.order b.type)

instance : Std.TransCmp (@orderByParts Node) :=
  have _byName := transCmp_on Text.byUnits fun e : Entity Node => e.name
  have _byGroup := transCmp_on compare fun e : Entity Node => GroupKey.parts e.group
  have _byType := transCmp_on TypeTag.order fun e : Entity Node => e.type
  inferInstanceAs (Std.TransCmp (compareLex (compareLex
    (fun a b : Entity Node => Text.byUnits a.name b.name)
    (fun a b => compare (GroupKey.parts a.group) (GroupKey.parts b.group)))
    fun a b => a.type.order b.type))

theorem order_eq_orderByParts (namedA : a.Named) (namedB : b.Named) :
    a.order b = a.orderByParts b := by
  rw [order, orderByParts, GroupKey.order_eq_compare_parts namedA namedB]

theorem order_eq_swap (namedA : a.Named) (namedB : b.Named) : a.order b = (b.order a).swap := by
  rw [order_eq_orderByParts namedA namedB, order_eq_orderByParts namedB namedA]
  exact Std.OrientedCmp.eq_swap

theorem order_isLE_trans (namedA : a.Named) (namedB : b.Named) (namedC : c.Named)
    (first : (a.order b).isLE) (second : (b.order c).isLE) : (a.order c).isLE := by
  rw [order_eq_orderByParts namedA namedB] at first
  rw [order_eq_orderByParts namedB namedC] at second
  rw [order_eq_orderByParts namedA namedC]
  exact Std.TransCmp.isLE_trans first second

/-- A schema that was left out is neither before nor behind another one, so that there the order is
not transitive. -/
example : GroupKey.order (some ⟨"c", .named "b"⟩) (some ⟨"c", .absent⟩) = .eq ∧
    GroupKey.order (some ⟨"c", .absent⟩) (some ⟨"c", .named "a"⟩) = .eq ∧
    GroupKey.order (some ⟨"c", .named "b"⟩) (some ⟨"c", .named "a"⟩) = .gt := by
  decide

theorem order_eq_eq_iff (namedA : a.Named) (namedB : b.Named) :
    a.order b = .eq ↔ a.name = b.name ∧ a.group = b.group ∧ a.type.fullName = b.type.fullName := by
  have groups : compare (GroupKey.parts a.group) (GroupKey.parts b.group) = .eq ↔
      a.group = b.group := by
    rw [Std.LawfulEqCmp.compare_eq_iff_eq]
    exact ⟨GroupKey.parts_inj namedA namedB, congrArg GroupKey.parts⟩
  rw [order_eq_orderByParts namedA namedB, orderByParts, TypeTag.order, Ordering.then_eq_eq,
    Ordering.then_eq_eq, and_assoc, groups, Std.LawfulEqCmp.compare_eq_iff_eq,
    Std.LawfulEqCmp.compare_eq_iff_eq]

theorem order_of_ungrouped (name : a.name = b.name) (ungrouped : a.group = none)
    (grouped : b.group ≠ none) : a.order b = .lt := by
  obtain ⟨key, found⟩ := Option.ne_none_iff_exists'.mp grouped
  rw [order, name, byUnits_self, ungrouped, found]
  rfl

end Entity

/-- The entries of a record are listed as its names are sorted. -/
theorem Record.map_fst_sorted {α : Type} (r : Record α) :
    r.sorted.map Prod.fst = sortNames r.keys := by
  rw [sortNames, keys, sortBy_map, sorted]

variable {n : Nat}

theorem Graph.sorts_sort (g : Graph n) :
    Sorts (fun i j => (g.entity i).order (g.entity j)) (fun i => (g.entity i).Named) g.sort := by
  have _proper := transCmp_on Entity.orderByParts g.entity
  have agree (i j : Fin n) (namedI : (g.entity i).Named) (namedJ : (g.entity j).Named) :
      (g.entity i).order (g.entity j) = (g.entity i).orderByParts (g.entity j) :=
    Entity.order_eq_orderByParts namedI namedJ
  refine sorts_of_agree agree fun list named => ?_
  exact sortByBisection_congr fun i memI j memJ => agree i j (named i memI) (named j memJ)

/-- Texts are in the lexicographic order of their units. Entities whose schemas are named are in a
total preorder that separates all but those with the same name, group and type. Sorting gives the
one stable arrangement, and attributes are listed as their names are sorted. -/
theorem orders_realised (g : Graph n) :
    (∀ s t, (Text.byUnits s t = .lt ↔ List.Lex (· < ·) (Text.units s) (Text.units t)) ∧
      Text.byUnits s t = (Text.byUnits t s).swap ∧ (Text.byUnits s t = .eq ↔ s = t)) ∧
    (∀ c d : Char, 0xFFFF < c.toNat → 0xE000 ≤ d.toNat → d.toNat ≤ 0xFFFF → ∀ common s t,
      Text.byUnits (String.ofList (common ++ c :: s)) (String.ofList (common ++ d :: t)) = .lt) ∧
    (∀ a b c : Entity (Fin n), a.Named → b.Named → c.Named →
      a.order b = (b.order a).swap ∧
      ((a.order b).isLE → (b.order c).isLE → (a.order c).isLE) ∧
      (a.order b = .eq ↔
        a.name = b.name ∧ a.group = b.group ∧ a.type.fullName = b.type.fullName) ∧
      (a.name = b.name → a.group = none → b.group ≠ none → a.order b = .lt)) ∧
    Sorts (fun i j => (g.entity i).order (g.entity j)) (fun i => (g.entity i).Named) g.sort ∧
    Sorts TypeTag.order (fun _ => True) TypeTag.sort ∧
    Sorts Text.byUnits (fun _ => True) sortNames ∧
    ∀ r : Record (Attribute (Fin n)), r.sorted.map Prod.fst = sortNames r.keys := by
  refine ⟨fun s t => ⟨Text.compare_eq_lt_iff _ _, Std.OrientedCmp.eq_swap,
      Std.LawfulEqCmp.compare_eq_iff_eq⟩, ?_, ?_, g.sorts_sort, sorts_sortBy TypeTag.order,
    sorts_sortBy Text.byUnits, Record.map_fst_sorted⟩
  · exact fun c d beyond late single => Text.byUnits_of_beyond beyond late single
  · exact fun a b c namedA namedB namedC => ⟨Entity.order_eq_swap namedA namedB,
      Entity.order_isLE_trans namedA namedB namedC, Entity.order_eq_eq_iff namedA namedB,
      Entity.order_of_ungrouped⟩

/-- Two entities of one name, which comes before the name of the third by its units only. -/
def assorted : Graph 3 :=
  ⟨#v[⟨⟨"t"⟩, "\uffff", none, ∅, none⟩, ⟨⟨"t"⟩, "😀", some ⟨"c", .named "s"⟩, ∅, none⟩,
    ⟨⟨"t"⟩, "😀", none, ∅, none⟩]⟩

theorem assorted_named (i : Fin 3) : (assorted.entity i).Named := by
  intro key member
  match i with
  | 0 | 2 => contradiction
  | 1 => exact ⟨"s", by rw [← Option.some.inj member]⟩

theorem assorted_sorted : (assorted.entity 2).order (assorted.entity 1) = .lt ∧
    (assorted.entity 1).order (assorted.entity 0) = .lt ∧
    assorted.sort [0, 1, 2] = [2, 1, 0] ∧ assorted.sort [1, 0, 2] = [2, 1, 0] := by
  have named := assorted_named
  obtain ⟨-, beyond, laws, sorts, -⟩ := orders_realised assorted
  have ungrouped : (assorted.entity 2).order (assorted.entity 1) = .lt :=
    (laws _ _ _ (named 2) (named 1) (named 0)).2.2.2 rfl rfl (by decide)
  have sorted : [2, 1, 0] = assorted.sort [0, 1, 2] :=
    (sorts.stablySorted_iff [0, 1, 2] (fun i _ => named i) [2, 1, 0]).mp
      ⟨by decide, by decide, by decide⟩
  have again : assorted.sort [0, 1, 2] = assorted.sort [1, 0, 2] :=
    sorts.eq_of_perm [0, 1, 2] (fun i _ => named i) (by decide) [1, 0, 2] (.swap 1 0 [2])
  have names : Text.byUnits "😀" "\uffff" = .lt :=
    beyond '😀' '\uffff' (by decide) (by decide) (by decide) [] [] []
  refine ⟨ungrouped, ?_, sorted.symm, again.symm.trans sorted.symm⟩
  show ((Text.byUnits "😀" "\uffff").then _).then _ = .lt
  rw [names]
  rfl

end SnapshotReport
