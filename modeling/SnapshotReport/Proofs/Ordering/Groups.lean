import SnapshotReport.Proofs.Ordering

/-! The order of groups. Equal keys collapse to the first of them, and what is left stands in the
order of the labels. Different keys may have one label; then they stand as they came. Where no
catalog has a slash in its name, the label shows where the schema begins, and the order in which
the keys came does not matter. Of a list in which entries are missing only a single one is sorted. -/
namespace SnapshotReport.GroupKey

variable {keys : List GroupKey} {a b : GroupKey} {twoLevel : Bool}

/-- The first slash of the label is the one behind the catalog, and the name of the schema follows. -/
structure Legible (key : GroupKey) : Prop where
  unslashed : '/' ∉ key.catalog.toList
  named : key.Named

theorem takeWhile_label (unslashed : '/' ∉ a.catalog.toList) :
    (a.label true).toList.takeWhile (· ≠ '/') = a.catalog.toList ++ [' '] := by
  have parts : (a.label true).toList =
      (a.catalog.toList ++ [' ']) ++ '/' :: ' ' :: a.schema.text.toList := by
    simp [label]
  have before : ∀ c ∈ a.catalog.toList ++ [' '], c ≠ '/' := by
    intro c member
    rcases List.mem_append.mp member with member | member
    · exact ne_of_mem_of_not_mem member unslashed
    · rw [List.mem_singleton.mp member]
      decide
  rw [parts, List.takeWhile_append_of_pos (by simpa using before), List.takeWhile_cons_of_neg (by simp),
    List.append_nil]

theorem eq_of_label (legibleA : a.Legible) (legibleB : b.Legible)
    (same : a.label true = b.label true) : a = b := by
  obtain ⟨catalog, schema⟩ := a
  obtain ⟨catalog', schema'⟩ := b
  obtain ⟨unslashed, name, rfl⟩ := legibleA
  obtain ⟨unslashed', name', rfl⟩ := legibleB
  have cut : catalog.toList ++ [' '] = catalog'.toList ++ [' '] := by
    rw [← takeWhile_label unslashed, ← takeWhile_label unslashed', same]
  obtain rfl : catalog = catalog' := String.toList_inj.mp (List.append_cancel_right cut)
  have names : name.toList = name'.toList := by
    simpa [label, Schema.text, String.toList_append] using congrArg String.toList same
  rw [String.toList_inj.mp names]

/-- A slash in a catalog can be taken for the one in front of a schema. -/
example : (⟨"a /", .named "b"⟩ : GroupKey).label true = label true ⟨"a", .named "/ b"⟩ := by
  decide

theorem idxOf_filter_lt {α : Type} [DecidableEq α] {p : α → Bool} {xs : List α} {x y : α}
    (keptX : p x) (keptY : p y) (first : (xs.filter p).idxOf x < (xs.filter p).idxOf y) :
    xs.idxOf x < xs.idxOf y := by
  induction xs with
  | nil => simp at first
  | cons z rest ih => grind

/-- The keys are kept in the order in which they first occur. -/
theorem distinct_pairwise (keys : List GroupKey) :
    (distinct keys).Pairwise fun a b => keys.idxOf a < keys.idxOf b := by
  induction keys using distinct_induction with
  | nil => exact .nil
  | cons key rest ih =>
    have other {a : GroupKey}
        (member : a ∈ distinct (rest.filter fun other => !other == key)) : ¬a = key := by
      simpa using (List.mem_filter.mp (mem_distinct.mp member)).2
    have behind {a : GroupKey} (different : ¬a = key) :
        (key :: rest).idxOf a = rest.idxOf a + 1 := by
      rw [List.idxOf_cons, beq_false_of_ne (Ne.symm different), cond_false]
    rw [distinct_cons, List.pairwise_cons]
    constructor
    · intro a member
      rw [List.idxOf_cons_self, behind (other member)]
      exact Nat.succ_pos _
    · refine ih.imp_of_mem fun memberA memberB first => ?_
      rw [behind (other memberA), behind (other memberB)]
      apply Nat.succ_lt_succ
      refine idxOf_filter_lt ?_ ?_ first
      · simpa using other memberA
      · simpa using other memberB

theorem distinct_of_nodup (nodup : keys.Nodup) : distinct keys = keys := by
  induction keys with
  | nil => rfl
  | cons key rest ih =>
    obtain ⟨missing, nodup⟩ := List.nodup_cons.mp nodup
    have kept : (rest.filter fun other => !other == key) = rest := by
      rw [List.filter_eq_self]
      intro other member
      simpa using fun same : other = key => missing (same ▸ member)
    rw [distinct_cons, kept, ih nodup]

def byLabel (twoLevel : Bool) (a b : GroupKey) : Ordering :=
  Text.byUnits (a.label twoLevel) (b.label twoLevel)

instance : Std.TransCmp (byLabel twoLevel) :=
  transCmp_on Text.byUnits (label twoLevel)

theorem sort_pairwise (twoLevel : Bool) (keys : List GroupKey) :
    (sort twoLevel keys).Pairwise fun a b =>
      Text.byUnits (a.label twoLevel) (b.label twoLevel) = .lt ∨
        a.label twoLevel = b.label twoLevel ∧ keys.idxOf a < keys.idxOf b := by
  have placed : (sort twoLevel keys).Pairwise
      (Before (byLabel twoLevel) fun a b => keys.idxOf a < keys.idxOf b) :=
    sortBy_stable (distinct_pairwise keys)
  apply placed.imp
  rintro a b (lt | ⟨eq, first⟩)
  · exact .inl lt
  · exact .inr ⟨Std.LawfulEqCmp.eq_of_compare eq, first⟩

theorem sort_sort (twoLevel : Bool) (keys : List GroupKey) :
    sort twoLevel (sort twoLevel keys) = sort twoLevel keys := by
  have sorted : (sort twoLevel keys).Pairwise fun a b => (byLabel twoLevel a b).isLE :=
    sortBy_pairwise (distinct keys)
  calc sort twoLevel (sort twoLevel keys)
      = sortBy (byLabel twoLevel) (distinct (sort twoLevel keys)) := rfl
    _ = sortBy (byLabel twoLevel) (sort twoLevel keys) := by
        rw [distinct_of_nodup (sort_nodup twoLevel keys)]
    _ = sort twoLevel keys := sortBy_of_pairwise sorted

theorem sort_pairwise_lt (legible : ∀ key ∈ keys, key.Legible) :
    (sort true keys).Pairwise fun a b => Text.byUnits (a.label true) (b.label true) = .lt := by
  refine (sort_pairwise true keys).imp_of_mem fun {a b} memberA memberB placed => ?_
  rcases placed with lt | ⟨same, first⟩
  · exact lt
  · have equal := eq_of_label (legible a (mem_sort.mp memberA)) (legible b (mem_sort.mp memberB)) same
    rw [equal] at first
    exact absurd first (Nat.lt_irrefl _)

section Missing

variable {entries sorted : List (Option GroupKey)}

theorem distinctEntries_none (rest : List (Option GroupKey)) :
    distinctEntries (none :: rest) = none :: distinctEntries rest := by
  have all : (rest.filter fun other => same other none = false) = rest :=
    List.filter_eq_self.mpr fun other _ => by cases other <;> rfl
  rw [distinctEntries, List.eraseDupsBy_cons, all]
  rfl

theorem distinctEntries_some (key : GroupKey) (rest : List (Option GroupKey)) :
    distinctEntries (some key :: rest) =
      some key :: distinctEntries (rest.filter fun other => same other (some key) = false) :=
  List.eraseDupsBy_cons

theorem filterMap_filter_same (key : GroupKey) (entries : List (Option GroupKey)) :
    (entries.filter fun other => same other (some key) = false).filterMap id =
      (entries.filterMap id).filter fun other => !other == key := by
  induction entries with
  | nil => rfl
  | cons entry rest ih =>
    cases entry with
    | none => simpa [same] using ih
    | some other => by_cases equal : other = key <;> simpa [same, equal] using ih

/-- Missing entries are all kept, and of the others those that are distinct. -/
theorem distinctEntries_keeps (entries : List (Option GroupKey)) :
    (distinctEntries entries).filterMap id = distinct (entries.filterMap id) ∧
    (distinctEntries entries).count none = entries.count none := by
  induction size : entries.length using Nat.strongRecOn generalizing entries with
  | ind size ih =>
    subst size
    match entries with
    | [] => exact ⟨rfl, rfl⟩
    | none :: rest =>
      obtain ⟨kept, missing⟩ := ih rest.length (Nat.lt_succ_self _) rest rfl
      rw [distinctEntries_none, List.count_cons_self, List.count_cons_self, missing]
      exact ⟨kept, rfl⟩
    | some key :: rest =>
      let others := rest.filter fun other => same other (some key) = false
      have fewer : others.length < (some key :: rest).length :=
        Nat.lt_succ_of_le (List.length_filter_le _ _)
      obtain ⟨kept, missing⟩ := ih others.length fewer others rfl
      have all : others.count none = rest.count none := List.count_filter rfl
      rw [distinctEntries_some, List.count_cons_of_ne (by simp), List.count_cons_of_ne (by simp)]
      refine ⟨?_, missing.trans all⟩
      show key :: (distinctEntries others).filterMap id = distinct (key :: rest.filterMap id)
      rw [distinct_cons, kept, filterMap_filter_same]

theorem mapM_id_eq_some_iff : entries.mapM id = some keys ↔ entries = keys.map some := by
  induction entries generalizing keys with
  | nil => cases keys <;> simp
  | cons entry rest ih =>
    rw [List.mapM_cons]
    cases entry with
    | none => cases keys <;> simp
    | some key =>
      cases keys with
      | nil => cases rest.mapM id <;> simp
      | cons other keys =>
        rw [List.map_cons, List.cons.injEq, ← ih]
        cases rest.mapM id <;> simp

/-- Either nothing is compared, or every entry is a group, and the groups are sorted. -/
theorem sortEntries?_eq_some_iff : sortEntries? twoLevel entries = some sorted ↔
    entries = [none] ∧ sorted = [none] ∨
      ∃ keys : List GroupKey, entries = keys.map some ∧ sorted = (sort twoLevel keys).map some := by
  have notMissing (keys : List GroupKey) : [none] ≠ keys.map some := by
    cases keys <;> simp
  unfold sortEntries?
  split
  · simp [notMissing, eq_comm]
  · rename_i several
    have present : entries ≠ [none] := several
    simp only [Option.map_eq_some_iff, mapM_id_eq_some_iff, present, false_and, false_or]
    exact exists_congr fun keys => and_congr_right' eq_comm

end Missing

/-- Each of the given keys is listed once. The labels ascend, keys with one label stand as they
first came, and a list in this order stays as it is. With both parts in the labels and no slash in a
catalog, no label comes twice, and only which keys there are matters. -/
theorem sort_arranges (twoLevel : Bool) (keys : List GroupKey) :
    (sort twoLevel keys).Nodup ∧ (∀ key, key ∈ sort twoLevel keys ↔ key ∈ keys) ∧
    ((sort twoLevel keys).Pairwise fun a b =>
      Text.byUnits (a.label twoLevel) (b.label twoLevel) = .lt ∨
        a.label twoLevel = b.label twoLevel ∧ keys.idxOf a < keys.idxOf b) ∧
    sort twoLevel (sort twoLevel keys) = sort twoLevel keys ∧
    ((∀ key ∈ keys, key.Legible) →
      ((sort true keys).Pairwise fun a b => Text.byUnits (a.label true) (b.label true) = .lt) ∧
      ∀ keys', (∀ key, key ∈ keys' ↔ key ∈ keys) → sort true keys' = sort true keys) := by
  refine ⟨sort_nodup twoLevel keys, fun key => mem_sort, sort_pairwise twoLevel keys,
    sort_sort twoLevel keys, fun legible => ⟨sort_pairwise_lt legible, fun keys' same => ?_⟩⟩
  apply sort_eq_of_mem_iff same
  intro a memberA b memberB label
  exact eq_of_label (legible a ((same a).mp memberA)) (legible b ((same b).mp memberB)) label

/-- Keys that come in another order, one of them twice. -/
theorem repeated_sorted_alike :
    sort true [⟨"b", .named "x"⟩, ⟨"a", .named "y"⟩, ⟨"b", .named "x"⟩] =
      sort true [⟨"a", .named "y"⟩, ⟨"b", .named "x"⟩] := by
  have legible : ∀ key ∈ [(⟨"a", .named "y"⟩ : GroupKey), ⟨"b", .named "x"⟩], key.Legible := by
    intro key member
    rcases List.mem_cons.mp member with rfl | member
    · exact ⟨by decide, "y", rfl⟩
    · rw [List.mem_singleton.mp member]
      exact ⟨by decide, "x", rfl⟩
  obtain ⟨-, -, -, -, alike⟩ := sort_arranges true [⟨"a", .named "y"⟩, ⟨"b", .named "x"⟩]
  refine (alike legible).2 _ fun key => ?_
  simp only [List.mem_cons, List.not_mem_nil, or_false]
  exact ⟨fun member => member.elim .inr id, .inr⟩

end SnapshotReport.GroupKey
