import Mathlib.Data.List.Count
import Mathlib.Data.List.Nodup
import Mathlib.Data.Prod.Basic
import SnapshotReport.Proofs.Failures
import SnapshotReport.Proofs.Layout.OnePass

/-! Which entries of the buckets a report shows, and where. A report is told by its sections: which
entries stand in which listing, in which order. Of each entry it is known how often it is there, so
none is lost and none comes twice. -/
namespace SnapshotReport

variable {n : Nat}

/-- A type with entries of its bucket. An entry is an entity with its place in the bucket. -/
structure Listing (n : Nat) where
  type : TypeTag
  entries : List (Fin n × Nat)

/-- A group with its listings. -/
structure Section (n : Nat) where
  key : GroupKey
  listings : List (Listing n)

namespace Section

/-- The entries of a section, each with the group and the type under which it stands. -/
def emissions (shown : Section n) : List (GroupKey × TypeTag × Fin n × Nat) :=
  shown.listings.flatMap fun listing =>
    listing.entries.map fun entry => (shown.key, listing.type, entry)

/-- A section as it is shown, given the blocks of the entities. -/
def outline (twoLevel : Bool) (block : Fin n → Outline) (shown : Section n) : Outline :=
  .node (Report.groupTitle twoLevel shown.key) (Report.spaced (shown.listings.map fun listing =>
    .node (listing.type.fullName ++ ":") (listing.entries.map fun entry => block entry.1)))

/-- The texts of a section from top to bottom, each with its level, given what stands below the names
of the entities. Between two listings there is an empty line. -/
def texts (s : Snapshot n) (below : Fin n → List Outline) (shown : Section n) :
    List (Nat × String) :=
  (0, (if s.twoLevel then "Catalog & Schema: " else "Catalog: ") ++ shown.key.label s.twoLevel) ::
    [(1, "")].intercalate (shown.listings.map fun listing =>
      (1, listing.type.fullName ++ ":") :: listing.entries.flatMap fun entry =>
        (2, s.graph.name entry.1) :: Outline.levelsOf 3 (below entry.1))

theorem levels_outline (s : Snapshot n) (below : Fin n → List Outline) (shown : Section n) :
    (shown.outline s.twoLevel fun i => .node (s.graph.name i) (below i)).levels 0 =
      shown.texts s below := by
  rw [texts, outline, Outline.levels, Report.levelsOf_spaced, List.map_map]
  congr 3
  funext listing
  simp [Outline.levels, Outline.levelsOf_eq_flatMap, List.flatMap_map]

end Section

theorem count_flatMap_map_mk {α β : Type} [BEq α] [LawfulBEq α] [BEq β] [LawfulBEq β]
    (xs : List α) (f : α → List β) (a : α) (b : β) :
    (xs.flatMap fun x => (f x).map (Prod.mk x)).count (a, b) = xs.count a * (f a).count b := by
  induction xs with
  | nil => simp
  | cons x rest ih =>
    rw [List.flatMap_cons, List.count_append, ih, List.count_cons]
    by_cases same : x = a
    · subst same
      have here := List.count_map_of_injective (f x) (Prod.mk x) (Prod.mk_right_injective x) b
      simp only [here, beq_self_eq_true, if_true]
      rw [Nat.add_mul, Nat.one_mul, Nat.add_comm]
    · have none : ((f x).map (Prod.mk x)).count (a, b) = 0 := by
        apply List.count_eq_zero.mpr
        intro member
        obtain ⟨_, _, pair⟩ := List.mem_map.mp member
        exact same (congrArg Prod.fst pair)
      simp [none, same]

namespace Report

variable {s : Snapshot n} {depth : Number} {key : GroupKey} {type : TypeTag} {i : Fin n}
  {place : Nat} {list : List (Fin n)}

/-- The entry at a place of the bucket of a type is due in the section of a group: the group owns it
and is reported, and entities of the type are listed if any are. -/
structure Due (s : Snapshot n) (key : GroupKey) (type : TypeTag) (i : Fin n) (place : Nat) :
    Prop where
  reported : some key ∈ s.groups
  unstructural : s.structural.includes type = false
  bucket : ∃ list, s.entitiesOf type = .ok list ∧ list[place]? = some i
  owned : (s.graph.entity i).group = some key

/-- The entries among those of a bucket that a group owns, in their order in its listing. -/
def ownedEntries (s : Snapshot n) (key : GroupKey) (list : List (Fin n)) : List (Fin n × Nat) :=
  sortBy (fun a b => (s.graph.entity a.1).orderInGroup (s.graph.entity b.1))
    (list.zipIdx.filter fun entry => owns s key entry.1)

theorem mem_ownedEntries : (i, place) ∈ ownedEntries s key list ↔
    list[place]? = some i ∧ (s.graph.entity i).group = some key := by
  rw [ownedEntries, (sortBy_perm _ _).mem_iff, List.mem_filter, List.mk_mem_zipIdx_iff_getElem?,
    owns_iff]

theorem map_fst_ownedEntries : (ownedEntries s key list).map Prod.fst = owned s key list := by
  have entries : (list.zipIdx.filter fun entry => owns s key entry.1).map Prod.fst =
      list.filter (owns s key) := by
    conv_rhs => rw [← List.zipIdx_map_fst 0 list, List.filter_map]
    rfl
  rw [owned_eq_sortBy, ← entries, sortBy_map]
  rfl

theorem zipIdx_pairwise (list : List (Fin n)) : list.zipIdx.Pairwise fun a b => a.2 < b.2 := by
  apply List.pairwise_map.mp
  rw [List.zipIdx_map_snd]
  exact List.pairwise_lt_range'

theorem ownedEntries_nodup : (ownedEntries s key list).Nodup := by
  apply (sortBy_perm _ _).nodup_iff.mpr
  apply List.Nodup.filter
  apply (zipIdx_pairwise list).imp
  rintro a _ before rfl
  exact absurd before (Nat.lt_irrefl _)

/-- Entries that are not told apart by name and type stand in the order of the bucket. -/
theorem ownedEntries_pairwise : (ownedEntries s key list).Pairwise fun a b =>
    (s.graph.entity a.1).order (s.graph.entity b.1) = .lt ∨
      (s.graph.entity a.1).order (s.graph.entity b.1) = .eq ∧ a.2 < b.2 := by
  have proper := transCmp_on Entity.orderInGroup fun entry : Fin n × Nat => s.graph.entity entry.1
  have places : (list.zipIdx.filter fun entry => owns s key entry.1).Pairwise
      fun a b => a.2 < b.2 := (zipIdx_pairwise list).filter _
  have stable : (ownedEntries s key list).Pairwise (Before
      (fun a b => (s.graph.entity a.1).orderInGroup (s.graph.entity b.1)) fun a b => a.2 < b.2) :=
    sortBy_stable places
  apply stable.imp_of_mem
  intro a b memA memB before
  have groupA := (mem_ownedEntries.mp memA).2
  have groupB := (mem_ownedEntries.mp memB).2
  rw [Entity.order_of_group_eq (groupA.trans groupB.symm)]
  exact before

/-- The bucket of a type, empty if what is found there is not a list. -/
def bucketOf (s : Snapshot n) (type : TypeTag) : List (Fin n) :=
  match s.entitiesOf type with
  | .ok list => list
  | .error _ => []

theorem bucketOf_eq_some_iff : (bucketOf s type)[place]? = some i ↔
    ∃ list, s.entitiesOf type = .ok list ∧ list[place]? = some i := by
  unfold bucketOf
  cases s.entitiesOf type with
  | ok list => simp
  | error failure => simp

/-- The section of a group. Types under which the group owns nothing are left out. -/
def sectionOf (s : Snapshot n) (key : GroupKey) : Section n :=
  ⟨key, ((listedTypes s).map fun type => ⟨type, ownedEntries s key (bucketOf s type)⟩).filter
    fun listing => !listing.entries.isEmpty⟩

def sections (s : Snapshot n) : List (Section n) :=
  (GroupKey.sort s.twoLevel s.keys).map (sectionOf s)

theorem emissions_sectionOf : (sectionOf s key).emissions = ((listedTypes s).flatMap fun type =>
    (ownedEntries s key (bucketOf s type)).map (Prod.mk type)).map (Prod.mk key) := by
  rw [Section.emissions, sectionOf]
  induction listedTypes s with
  | nil => rfl
  | cons type rest ih =>
    rw [List.flatMap_cons, List.map_append, ← ih, List.map_cons, List.filter_cons, List.map_map]
    split
    · rfl
    · rename_i left
      have none : ownedEntries s key (bucketOf s type) = [] := by simpa using left
      rw [none]
      rfl

theorem count_emissions : ((sections s).flatMap Section.emissions).count (key, type, i, place) =
    (GroupKey.sort s.twoLevel s.keys).count key *
      ((listedTypes s).count type * (ownedEntries s key (bucketOf s type)).count (i, place)) := by
  rw [sections, List.flatMap_map]
  simp only [emissions_sectionOf]
  rw [count_flatMap_map_mk, count_flatMap_map_mk]

theorem count_emissions_of_due (due : Due s key type i place) :
    ((sections s).flatMap Section.emissions).count (key, type, i, place) = s.types.count type := by
  have member : key ∈ GroupKey.sort s.twoLevel s.keys :=
    GroupKey.mem_sort.mpr (Snapshot.mem_keys.mpr due.reported)
  have once : (GroupKey.sort s.twoLevel s.keys).count key = 1 :=
    List.count_eq_one_of_mem (GroupKey.sort_nodup _ _) member
  have listed : (listedTypes s).count type = s.types.count type := by
    rw [listedTypes, List.count_filter (by simp [due.unstructural]), TypeTag.sort,
      (sortBy_perm _ _).count_eq]
  have entry : (ownedEntries s key (bucketOf s type)).count (i, place) = 1 := by
    apply List.count_eq_one_of_mem ownedEntries_nodup
    exact mem_ownedEntries.mpr ⟨bucketOf_eq_some_iff.mpr due.bucket, due.owned⟩
  rw [count_emissions, once, listed, entry, Nat.one_mul, Nat.mul_one]

theorem due_of_mem_emissions
    (member : (key, type, i, place) ∈ (sections s).flatMap Section.emissions) :
    Due s key type i place ∧ type ∈ listedTypes s := by
  have some := List.count_pos_iff.mpr member
  rw [count_emissions] at some
  have reported := List.count_pos_iff.mp (Nat.pos_of_mul_pos_right some)
  have rest := Nat.pos_of_mul_pos_left some
  have included := List.count_pos_iff.mp (Nat.pos_of_mul_pos_right rest)
  have entry := List.count_pos_iff.mp (Nat.pos_of_mul_pos_left rest)
  obtain ⟨found, owned⟩ := mem_ownedEntries.mp entry
  refine ⟨⟨?_, ?_, ?_, owned⟩, included⟩
  · exact Snapshot.mem_keys.mp (GroupKey.mem_sort.mp reported)
  · exact (mem_listedTypes.mp included).2
  · exact bucketOf_eq_some_iff.mp found

/-- The block of a listed entity, empty if it cannot be made. -/
def belowOf (s : Snapshot n) (depth : Number) (i : Fin n) : List Outline :=
  Expansion.madeBlock s.graph (scope s depth) (Path.empty.insert (s.graph.name i)) i

/-- The name of a listed entity with its block below. -/
def blockOf (s : Snapshot n) (depth : Number) (i : Fin n) : Outline :=
  .node (s.graph.name i) (belowOf s depth i)

theorem blockOf_eq {block : Outline}
    (made : Expansion.entityOutline s.graph (scope s depth) i = .ok block) :
    block = blockOf s depth i :=
  (Expansion.entityOutline_eq_ok_iff.mp made).outline_eq

/-- A listing that is made has the entries that the group owns. -/
theorem typeListing_of_ok {made : Option Outline}
    (done : typeListing s (scope s depth) key type = .ok made) :
    (∀ i ∈ owned s key (bucketOf s type),
      Expansion.entityOutline s.graph (scope s depth) i = .ok (blockOf s depth i)) ∧
    made = titled type ((owned s key (bucketOf s type)).map (blockOf s depth)) := by
  rw [typeListing] at done
  obtain ⟨list, found, done⟩ := exists_of_bind_eq_ok done
  obtain ⟨outlines, blocks, done⟩ := exists_of_bind_eq_ok done
  obtain ⟨each, same⟩ := mapM_ok blocks fun i _ block => blockOf_eq
  have bucket : bucketOf s type = list := by rw [bucketOf, found]
  rw [bucket, ← same]
  exact ⟨each, (Except.ok.inj done).symm⟩

theorem filterMap_titled (s : Snapshot n) (key : GroupKey) (block : Fin n → Outline) :
    ((listedTypes s).map fun type =>
      titled type ((owned s key (bucketOf s type)).map block)).filterMap id =
    (sectionOf s key).listings.map fun listing =>
      .node (listing.type.fullName ++ ":") (listing.entries.map fun entry => block entry.1) := by
  rw [sectionOf]
  induction listedTypes s with
  | nil => rfl
  | cons type rest ih =>
    simp only [List.map_cons, List.filter_cons, ← map_fst_ownedEntries, List.map_map] at ih ⊢
    cases entries : ownedEntries s key (bucketOf s type) with
    | nil => simpa [titled] using ih
    | cons entry others => simpa [titled] using ih

/-- A group that is shown is shown as its section. -/
theorem groupOutline_of_ok {made : Outline}
    (done : groupOutline s (scope s depth) key = .ok made) :
    (∀ type ∈ listedTypes s, ∀ i ∈ owned s key (bucketOf s type),
      Expansion.entityOutline s.graph (scope s depth) i = .ok (blockOf s depth i)) ∧
    made = (sectionOf s key).outline s.twoLevel (blockOf s depth) := by
  rw [groupOutline, listings_eq] at done
  obtain ⟨shown, listed, done⟩ := exists_of_bind_eq_ok done
  obtain ⟨found, listed, titled⟩ := exists_of_bind_eq_ok listed
  obtain ⟨each, same⟩ := mapM_ok listed fun type _ made done => (typeListing_of_ok done).2
  constructor
  · intro type included
    exact (typeListing_of_ok (each type included)).1
  · rw [← Except.ok.inj done, ← Except.ok.inj titled, same, filterMap_titled]
    rfl

theorem outlines_of_ok {made : List Outline} (done : outlines s depth = .ok made) :
    (∀ key ∈ GroupKey.sort s.twoLevel s.keys, ∀ type ∈ listedTypes s,
      ∀ i ∈ owned s key (bucketOf s type),
        Expansion.entityOutline s.graph (scope s depth) i = .ok (blockOf s depth i)) ∧
    made = header s ++ (sections s).flatMap fun shown =>
      [.gap, shown.outline s.twoLevel (blockOf s depth)] := by
  rw [outlines, s.reportedGroups_eq] at done
  split at done
  · contradiction
  · obtain ⟨_, ⟨⟩, done⟩ := exists_of_bind_eq_ok done
    obtain ⟨found, groups, done⟩ := exists_of_bind_eq_ok done
    obtain ⟨each, same⟩ := mapM_ok groups fun key _ made done => (groupOutline_of_ok done).2
    constructor
    · intro key member
      exact (groupOutline_of_ok (each key member)).1
    · rw [← Except.ok.inj done, same, sections, List.flatMap_map, List.flatMap_map]

/-- The entities of the sections are the listed ones. -/
theorem lists_iff_entry : Lists s key type i ↔ ∃ shown ∈ sections s, shown.key = key ∧
    ∃ listing ∈ shown.listings, listing.type = type ∧ ∃ place, (i, place) ∈ listing.entries := by
  constructor
  · intro lists
    obtain ⟨reported, included, list, found, member⟩ := lists_iff.mp lists
    have bucket : bucketOf s type = list := by rw [bucketOf, found]
    rw [← bucket, ← map_fst_ownedEntries] at member
    obtain ⟨⟨_, place⟩, entry, rfl⟩ := List.mem_map.mp member
    refine ⟨sectionOf s key, List.mem_map_of_mem reported, rfl,
      ⟨type, ownedEntries s key (bucketOf s type)⟩, ?_, rfl, place, entry⟩
    refine List.mem_filter.mpr ⟨List.mem_map_of_mem included, ?_⟩
    simpa using List.ne_nil_of_mem entry
  · rintro ⟨_, reported, rfl, _, listed, rfl, place, entry⟩
    obtain ⟨key, sorted, rfl⟩ := List.mem_map.mp reported
    obtain ⟨type, included, rfl⟩ := List.mem_map.mp (List.mem_filter.mp listed).1
    obtain ⟨there, owner⟩ := mem_ownedEntries.mp entry
    obtain ⟨list, found, placed⟩ := bucketOf_eq_some_iff.mp there
    exact lists_iff.mpr ⟨sorted, included, list, found,
      mem_owned.mpr ⟨List.mem_of_getElem? placed, owner⟩⟩

theorem entityOutline_of_lists {made : List Outline} (done : outlines s depth = .ok made)
    (lists : Lists s key type i) :
    Expansion.entityOutline s.graph (scope s depth) i = .ok (blockOf s depth i) := by
  obtain ⟨reported, included, list, found, member⟩ := lists_iff.mp lists
  have bucket : bucketOf s type = list := by rw [bucketOf, found]
  exact (outlines_of_ok done).1 key reported type included i (bucket ▸ member)

theorem text_eq_ok_iff {shown : String} : text s depth = .ok shown ↔ ∃ made,
    outlines s depth = .ok made ∧
      shown = Text.normalizeNewlines (Outline.writeAll made ++ "\n") := by
  rw [text]
  cases outlines s depth with
  | error failure => simp [bind, Except.bind]
  | ok made => simp [bind, Except.bind, pure, Except.pure, eq_comm]

/-- The lines of a report that is made. -/
theorem lines_of_ok {shown : String} (done : text s depth = .ok shown) :
    Text.lines shown.toList = Outline.documentLines (Outline.levelsOf 0 (header s) ++
      (sections s).flatMap fun shown => (0, "") :: shown.texts s (belowOf s depth)) ++ [[]] := by
  obtain ⟨made, all, rfl⟩ := text_eq_ok_iff.mp done
  obtain ⟨-, rfl⟩ := outlines_of_ok all
  have placed (shown : Section n) : [.gap, shown.outline s.twoLevel (blockOf s depth)].flatMap
      (Outline.levels 0) = (0, "") :: shown.texts s (belowOf s depth) := by
    rw [← Section.levels_outline, List.flatMap_cons, List.flatMap_singleton]
    rfl
  rw [Outline.lines_normalized (by simp [header]), Outline.levelsOf_append,
    Outline.levelsOf_eq_flatMap 0 (List.flatMap _ _), List.flatMap_assoc]
  simp only [placed]

/-- The sections have the entries that are due in them, each as often as its type is included, and no
others. In a listing the entries are sorted, in the order of the bucket where that leaves them
open. -/
structure Complete (s : Snapshot n) (sections : List (Section n)) : Prop where
  once : (sections.map Section.key).Nodup
  due : ∀ key type i place, Due s key type i place →
    (sections.flatMap Section.emissions).count (key, type, i, place) = s.types.count type
  other : ∀ key type i place, ¬Due s key type i place →
    (sections.flatMap Section.emissions).count (key, type, i, place) = 0
  sorted : ∀ shown ∈ sections, ∀ listing ∈ shown.listings, listing.entries.Pairwise fun a b =>
    (s.graph.entity a.1).order (s.graph.entity b.1) = .lt ∨
      (s.graph.entity a.1).order (s.graph.entity b.1) = .eq ∧ a.2 < b.2

theorem sections_complete (s : Snapshot n) : Complete s (sections s) := by
  constructor
  · have keys : (sections s).map Section.key = GroupKey.sort s.twoLevel s.keys := by
      rw [sections, List.map_map]
      exact List.map_id _
    rw [keys]
    exact GroupKey.sort_nodup s.twoLevel s.keys
  · intro key type i place due
    exact count_emissions_of_due due
  · intro key type i place undue
    apply List.count_eq_zero.mpr
    intro member
    exact undue (due_of_mem_emissions member).1
  · intro shown reported listing listed
    obtain ⟨key, -, rfl⟩ := List.mem_map.mp reported
    obtain ⟨type, -, rfl⟩ := List.mem_map.mp (List.mem_filter.mp listed).1
    exact ownedEntries_pairwise

/-- A report that is made has the lines of its header and of sections in which every entry that is
due stands as often as its type is included, under its group and its type, with its block below. -/
theorem text_complete {shown : String} (done : text s depth = .ok shown) :
    ∃ (sections : List (Section n)) (below : Fin n → List Outline),
      Text.lines shown.toList = Outline.documentLines (headerTexts s ++
        sections.flatMap fun shown => (0, "") :: shown.texts s below) ++ [[]] ∧
      Complete s sections ∧
      ∀ key type i place, (key, type, i, place) ∈ sections.flatMap Section.emissions →
        Expansion.block s.graph (scope s depth) (Path.empty.insert (s.graph.name i)) i =
          .ok (below i) := by
  refine ⟨sections s, belowOf s depth, ?_, sections_complete s, ?_⟩
  · rw [headerTexts_eq, lines_of_ok done]
  · intro key type i place member
    obtain ⟨due, included⟩ := due_of_mem_emissions member
    obtain ⟨made, all, -⟩ := text_eq_ok_iff.mp done
    have reported : key ∈ GroupKey.sort s.twoLevel s.keys :=
      GroupKey.mem_sort.mpr (Snapshot.mem_keys.mpr due.reported)
    have entry := bucketOf_eq_some_iff.mpr due.bucket
    have member := mem_owned.mpr ⟨List.mem_of_getElem? entry, due.owned⟩
    have made := (outlines_of_ok all).1 key reported type included i member
    exact (Expansion.entityOutline_eq_ok_iff.mp made).block_eq

/-- An entity that is twice in a bucket, of a type that is included twice. -/
def listedTwice : Snapshot 1 where
  graph := ⟨#v[⟨⟨"t"⟩, "a", some ⟨"c", .named "c"⟩, ∅, none⟩]⟩
  source := ⟨"u", "p", "v", "w"⟩
  structural := ⟨⟨"g"⟩, none, none⟩
  types := [⟨"t"⟩, ⟨"t"⟩]
  groups := [some ⟨"c", .named "c"⟩, some ⟨"c", .named "c"⟩]
  twoLevel := true
  buckets := ⟨[("t", [0, 0])], by simp⟩

/-- It is shown four times, twice for each of its places. -/
theorem listedTwice_text : ∃ shown, text listedTwice .one = .ok shown ∧
    ∃ (sections : List (Section 1)) (below : Fin 1 → List Outline),
      Text.lines shown.toList = Outline.documentLines (headerTexts listedTwice ++
        sections.flatMap fun shown => (0, "") :: shown.texts listedTwice below) ++ [[]] ∧
      ∀ place < 2,
        (sections.flatMap Section.emissions).count (⟨"c", .named "c"⟩, ⟨"t"⟩, 0, place) = 2 := by
  have readable : Readable listedTwice .one := by
    constructor
    · decide
    · intro _ type included _
      have same : type = ⟨"t"⟩ := by simpa [listedTwice] using included
      rw [same]
      exact ⟨[0, 0], rfl⟩
    · intro _ _ _ _ _ _ j _ name held stands
      obtain rfl : j = 0 := by omega
      exact absurd stands List.not_mem_nil
  obtain ⟨shown, made⟩ := text_of_readable readable
  obtain ⟨sections, below, lines, complete, -⟩ := text_complete made
  refine ⟨shown, made, sections, below, lines, ?_⟩
  intro place within
  apply complete.due
  refine ⟨by decide, by decide, ⟨[0, 0], rfl, ?_⟩, rfl⟩
  obtain rfl | rfl : place = 0 ∨ place = 1 := by omega
  all_goals rfl

end Report

end SnapshotReport
