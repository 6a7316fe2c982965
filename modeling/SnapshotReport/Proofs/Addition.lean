import SnapshotReport.Proofs.Entries
import SnapshotReport.Proofs.Simulation
import SnapshotReport.Snapshot.Edit

/-! One entity more. An entity that no other one refers to is shown in its listing alone, if it is
shown at all; so a report that has it differs from the one that lacks it by lines that stand
together in one place. -/
namespace SnapshotReport

/-- The second list is the first one with a run put into it at one place. -/
def Inserts {α : Type} (run xs ys : List α) : Prop :=
  ∃ front back, xs = front ++ back ∧ ys = front ++ run ++ back

namespace Inserts

variable {α β : Type} {run xs ys : List α}

theorem within (inserts : Inserts run xs ys) (front back : List α) :
    Inserts run (front ++ xs ++ back) (front ++ ys ++ back) := by
  obtain ⟨before, behind, rfl, rfl⟩ := inserts
  exact ⟨front ++ before, behind ++ back, by simp, by simp⟩

theorem flatMap (inserts : Inserts run xs ys) (f : α → List β) :
    Inserts (run.flatMap f) (xs.flatMap f) (ys.flatMap f) := by
  obtain ⟨before, behind, rfl, rfl⟩ := inserts
  exact ⟨before.flatMap f, behind.flatMap f, by simp, by simp⟩

theorem documentLines {run xs ys : List (Nat × String)} (inserts : Inserts run xs ys) :
    Inserts (Outline.documentLines run) (Outline.documentLines xs) (Outline.documentLines ys) :=
  (inserts.flatMap Outline.placedLines).flatMap Text.brokenLine

/-- Where a function changes at one element alone, so does the list that is made with it. -/
theorem flatMap_of_count_eq_one [BEq α] [LawfulBEq α] {f f' : α → List β} {run : List β}
    {xs : List α} {a : α} (once : xs.count a = 1) (same : ∀ b ≠ a, f' b = f b)
    (here : Inserts run (f a) (f' a)) : Inserts run (xs.flatMap f) (xs.flatMap f') := by
  obtain ⟨front, back, rfl⟩ := List.append_of_mem (List.count_pos_iff.mp (once ▸ Nat.one_pos))
  rw [List.count_append, List.count_cons_self] at once
  have unchanged (list : List α) (absent : a ∉ list) : list.flatMap f' = list.flatMap f := by
    apply List.flatMap_congr
    rintro b member
    exact same b fun here => absent (here ▸ member)
  have apart : a ∉ front ∧ a ∉ back := by
    rw [← List.count_eq_zero, ← List.count_eq_zero]
    omega
  rw [List.flatMap_append, List.flatMap_append, List.flatMap_cons, List.flatMap_cons,
    unchanged front apart.1, unchanged back apart.2, ← List.append_assoc, ← List.append_assoc]
  exact here.within (front.flatMap f) (back.flatMap f)

end Inserts

variable {n : Nat}

namespace Graph

variable (g : Graph n) (e : Entity (Fin (n + 1)))

theorem name_push_castSucc (i : Fin n) : (g.push e).name i.castSucc = g.name i := by
  rw [name, entity_push_castSucc]
  rfl

theorem type_push_castSucc (i : Fin n) : (g.push e).type i.castSucc = g.type i := by
  rw [type, entity_push_castSucc]
  rfl

/-- The entities that were there have the same blocks as before. -/
theorem block_push (scope : Scope) (path : Path) (i : Fin n) :
    Expansion.block (g.push e) scope path i.castSucc = Expansion.block g scope path i := by
  have sim : Expansion.Simulation g (g.push e) scope fun _ i j => j = i.castSucc := by
    constructor
    · rintro path i _ rfl
      exact (g.name_push_castSucc e i).symm
    · rintro path i _ rfl name -
      rw [entity_push_castSucc]
      rfl
    · rintro path i _ rfl
      rw [entity_push_castSucc, Entity.described_map, List.forall₂_map_right_iff]
      apply List.forall₂_same.mpr
      intro entry _
      refine ⟨rfl, .map (fun k => ⟨⟨?_, ?_⟩, fun _ => rfl⟩) entry.2⟩
      · exact (g.name_push_castSucc e k).symm
      · exact (g.type_push_castSucc e k).symm
  exact (Expansion.block_eq_of_simulation sim path i _ rfl).symm

end Graph

/-- The snapshot with one entity more, at the end of the bucket of a type. -/
def Snapshot.added (s : Snapshot n) (e : Entity (Fin (n + 1))) (type : TypeTag) :
    Snapshot (n + 1) :=
  (s.addEntity e).list (Fin.last n) type.fullName

namespace Report

variable {s : Snapshot n} {e : Entity (Fin (n + 1))} {type other : TypeTag} {key : GroupKey}
  {depth : Number}

theorem bucketOf_eq_getD (s : Snapshot n) (type : TypeTag) :
    bucketOf s type = (s.buckets.get? type.fullName).getD [] := by
  rw [bucketOf, Snapshot.entitiesOf, Buckets.find?]
  cases s.buckets.get? type.fullName with
  | some list => rfl
  | none =>
    dsimp only
    cases Buckets.reservedNames.contains type.fullName <;> rfl

theorem bucketOf_added (s : Snapshot n) (e : Entity (Fin (n + 1))) (type other : TypeTag) :
    bucketOf (s.added e type) other =
      (bucketOf s other).map Fin.castSucc ++ if other = type then [Fin.last n] else [] := by
  have same : other.fullName = type.fullName ↔ other = type :=
    ⟨fun name => congrArg TypeTag.mk name, congrArg TypeTag.fullName⟩
  simp only [bucketOf_eq_getD, Snapshot.added, Snapshot.list, Snapshot.addEntity, Buckets.append,
    Record.get?_insert, Record.get?_map, same]
  split
  · rename_i here
    subst here
    cases s.buckets.get? other.fullName <;> simp
  · cases s.buckets.get? other.fullName <;> simp

theorem owns_added_castSucc (i : Fin n) : owns (s.added e type) key i.castSucc = owns s key i := by
  rw [owns, owns, show (s.added e type).graph = s.graph.push e from rfl, Graph.entity_push_castSucc]
  rfl

theorem owns_added_last : owns (s.added e type) key (Fin.last n) = true ↔ e.group = some key := by
  rw [owns_iff, show (s.added e type).graph = s.graph.push e from rfl, Graph.entity_push_last]

theorem owned_map_castSucc (s : Snapshot n) (e : Entity (Fin (n + 1))) (type : TypeTag)
    (key : GroupKey) (list : List (Fin n)) :
    owned (s.added e type) key (list.map Fin.castSucc) = (owned s key list).map Fin.castSucc := by
  have order : (fun i j : Fin n =>
      ((s.added e type).graph.entity i.castSucc).orderInGroup
        ((s.added e type).graph.entity j.castSucc)) =
      fun i j => (s.graph.entity i).orderInGroup (s.graph.entity j) := by
    funext i j
    rw [show (s.added e type).graph = s.graph.push e from rfl, Graph.entity_push_castSucc,
      Graph.entity_push_castSucc]
    rfl
  have owner : owns (s.added e type) key ∘ Fin.castSucc = owns s key := by
    funext i
    exact owns_added_castSucc i
  rw [owned_eq_sortBy, owned_eq_sortBy, List.filter_map, owner, sortBy_map, order]

/-- A group that does not own the new entity has the same entries as before. -/
theorem owned_added_of_ne (apart : ¬(other = type ∧ e.group = some key)) :
    owned (s.added e type) key (bucketOf (s.added e type) other) =
      (owned s key (bucketOf s other)).map Fin.castSucc := by
  rw [bucketOf_added, ← owned_map_castSucc s e type,
    owned_eq_sortBy (s.added e type) key (_ ++ _), owned_eq_sortBy, List.filter_append]
  split
  · rename_i here
    have unowned : owns (s.added e type) key (Fin.last n) = false := by
      rw [← Bool.not_eq_true, owns_added_last]
      exact fun group => apart ⟨here, group⟩
    rw [List.filter_cons_of_neg (by simp [unowned]), List.filter_nil, List.append_nil]
  · rw [List.filter_nil, List.append_nil]

/-- In its listing the new entity stands between entries that were there before. -/
theorem owned_added (s : Snapshot n) (type : TypeTag) (group : e.group = some key) :
    ∃ front back, owned s key (bucketOf s type) = front ++ back ∧
      owned (s.added e type) key (bucketOf (s.added e type) type) =
        front.map Fin.castSucc ++ Fin.last n :: back.map Fin.castSucc := by
  have proper := transCmp_on Entity.orderInGroup (s.added e type).graph.entity
  have last : [Fin.last n].filter (owns (s.added e type) key) = [Fin.last n] := by
    rw [List.filter_cons_of_pos (owns_added_last.mpr group), List.filter_nil]
  have before := owned_map_castSucc s e type key (bucketOf s type)
  have placed : owned (s.added e type) key (bucketOf (s.added e type) type) =
      insertBehind (fun i j =>
          ((s.added e type).graph.entity i).orderInGroup ((s.added e type).graph.entity j))
        (Fin.last n) ((owned s key (bucketOf s type)).map Fin.castSucc) := by
    rw [bucketOf_added, if_pos rfl, owned_eq_sortBy (s.added e type), List.filter_append, last,
      sortBy_append_singleton, ← owned_eq_sortBy, before]
  obtain ⟨front, back, same, inserted⟩ := insertBehind_eq_append
    (fun i j => ((s.added e type).graph.entity i).orderInGroup ((s.added e type).graph.entity j))
    (Fin.last n) ((owned s key (bucketOf s type)).map Fin.castSucc)
  obtain ⟨front, back, split, rfl, rfl⟩ := List.map_eq_append_iff.mp same
  exact ⟨front, back, split, placed.trans inserted⟩

theorem blockOf_added (depth : Number) (i : Fin n) :
    blockOf (s.added e type) depth i.castSucc = blockOf s depth i := by
  rw [blockOf, blockOf, belowOf, belowOf, Expansion.madeBlock, Expansion.madeBlock,
    show (s.added e type).graph = s.graph.push e from rfl,
    show scope (s.added e type) depth = scope s depth from rfl, Graph.name_push_castSucc,
    Graph.block_push]

/-- What is listed of a type in the section of a group, if it can be made. -/
def listingOf (s : Snapshot n) (depth : Number) (key : GroupKey) (type : TypeTag) :
    Option Outline :=
  titled type ((owned s key (bucketOf s type)).map (blockOf s depth))

theorem listingOf_added_of_ne (apart : ¬(other = type ∧ e.group = some key)) :
    listingOf (s.added e type) depth key other = listingOf s depth key other := by
  rw [listingOf, listingOf, owned_added_of_ne apart, List.map_map]
  congr 2
  funext i
  exact blockOf_added depth i

theorem listingOf_added (s : Snapshot n) (depth : Number) (type : TypeTag)
    (group : e.group = some key) :
    ∃ front back, listingOf s depth key type = titled type (front ++ back) ∧
      (front ++ back = [] ↔ owned s key (bucketOf s type) = []) ∧
      listingOf (s.added e type) depth key type = some (.node (type.fullName ++ ":")
        (front ++ blockOf (s.added e type) depth (Fin.last n) :: back)) := by
  obtain ⟨front, back, split, inserted⟩ := owned_added s type group
  have blocks : blockOf (s.added e type) depth ∘ Fin.castSucc = blockOf s depth := by
    funext i
    exact blockOf_added depth i
  refine ⟨front.map (blockOf s depth), back.map (blockOf s depth), ?_, ?_, ?_⟩
  · rw [listingOf, split, List.map_append]
  · rw [split, ← List.map_append, List.map_eq_nil_iff]
  · rw [listingOf, inserted, List.map_append, List.map_cons, List.map_map, List.map_map, blocks]
    simp [titled]

/-- What a new listing adds to a section that has others already: itself, and an empty line on one
of its sides if there are others. -/
inductive ListingRun (made : Outline) (others : List Outline) : List Outline → Prop where
  | alone : others = [] → ListingRun made others [made]
  | below : others ≠ [] → ListingRun made others [.gap, made]
  | above : others ≠ [] → ListingRun made others [made, .gap]

theorem spaced_append_cons (front : List Outline) (o : Outline) (back : List Outline) :
    spaced (front ++ o :: back) =
      (front.flatMap fun p => [p, .gap]) ++ o :: back.flatMap fun q => [.gap, q] := by
  induction front with
  | nil =>
    induction back generalizing o with
    | nil => rfl
    | cons q rest ih => simpa [spaced] using ih q
  | cons p rest ih =>
    have next : rest ++ o :: back ≠ [] := by simp
    obtain ⟨q, others, same⟩ := List.exists_cons_of_ne_nil next
    rw [List.cons_append, List.flatMap_cons, List.append_assoc, ← ih, same]
    rfl

theorem spaced_inserts (made : Outline) (front back : List Outline) :
    ∃ run, ListingRun made (front ++ back) run ∧
      Inserts run (spaced (front ++ back)) (spaced (front ++ made :: back)) := by
  cases back with
  | cons q rest =>
    refine ⟨[made, .gap], .above (by simp), front.flatMap fun p => [p, .gap],
      q :: rest.flatMap fun q => [.gap, q], spaced_append_cons front q rest, ?_⟩
    rw [spaced_append_cons]
    simp
  | nil =>
    rw [List.append_nil]
    obtain rfl | ⟨front, last, rfl⟩ := List.eq_nil_or_concat' front
    · exact ⟨[made], .alone rfl, [], [], rfl, rfl⟩
    · refine ⟨[.gap, made], .below (by simp), spaced (front ++ [last]), [], by simp, ?_⟩
      rw [spaced_append_cons, spaced_append_cons]
      simp

/-- An entity of a group is listed under a type in the section of the group if the group is reported
and entities of the type are listed. -/
structure Appears (s : Snapshot n) (e : Entity (Fin (n + 1))) (type : TypeTag) (key : GroupKey) :
    Prop where
  owner : e.group = some key
  reported : some key ∈ s.groups
  included : type ∈ s.types
  unstructural : s.structural.includes type = false

/-- The texts that an entity adds to the section of its group, each with its level: its block if its
type is listed there already, else a listing with its block alone in it. -/
inductive Adds (s : Snapshot n) (depth : Number) (type : TypeTag) (key : GroupKey)
    (block : Outline) : List (Nat × String) → Prop where
  | entry : owned s key (bucketOf s type) ≠ [] → Adds s depth type key block (block.levels 2)
  | listing {run : List Outline} : owned s key (bucketOf s type) = [] →
      ListingRun (.node (type.fullName ++ ":") [block])
        ((listedTypes s).filterMap (listingOf s depth key)) run →
      Adds s depth type key block (Outline.levelsOf 1 run)

theorem Adds.ne_nil {block : Outline} {texts : List (Nat × String)}
    (adds : Adds s depth type key block texts) : texts ≠ [] := by
  have some (level : Nat) (o : Outline) : o.levels level ≠ [] := by
    cases o
    simp [Outline.levels]
  cases adds with
  | entry => exact some 2 block
  | listing new run =>
    cases run <;> simp [Outline.levelsOf, some]

/-- An entry more in one of the listings of a section. -/
theorem spaced_inserts_entry (title : String) (low high front back : List Outline)
    (block : Outline) : Inserts (block.levels 2)
      (Outline.levelsOf 1 (spaced (low ++ .node title (front ++ back) :: high)))
      (Outline.levelsOf 1 (spaced (low ++ .node title (front ++ block :: back) :: high))) := by
  have within : Inserts (block.levels 2) (Outline.levelsOf 2 (front ++ back))
      (Outline.levelsOf 2 (front ++ block :: back)) := by
    refine ⟨Outline.levelsOf 2 front, Outline.levelsOf 2 back, ?_, ?_⟩
    · simp [Outline.levelsOf_eq_flatMap]
    · simp [Outline.levelsOf_eq_flatMap]
  have framed := within.within
    (Outline.levelsOf 1 (low.flatMap fun p => [p, .gap]) ++ [(1, title)])
    (Outline.levelsOf 1 (high.flatMap fun q => [.gap, q]))
  rw [spaced_append_cons, spaced_append_cons]
  simpa [Outline.levelsOf_eq_flatMap, Outline.levels] using framed

/-- The listings of other types are the same as before. -/
theorem listings_around (s : Snapshot n) (e : Entity (Fin (n + 1))) (depth : Number)
    (key : GroupKey) (once : (listedTypes s).count type = 1) : ∃ low high,
    (listedTypes s).filterMap (listingOf s depth key) =
      low ++ (listingOf s depth key type).toList ++ high ∧
    (listedTypes s).filterMap (listingOf (s.added e type) depth key) =
      low ++ (listingOf (s.added e type) depth key type).toList ++ high := by
  obtain ⟨low, high, types⟩ := List.append_of_mem (List.count_pos_iff.mp (once ▸ Nat.one_pos))
  have apart : type ∉ low ∧ type ∉ high := by
    rw [types, List.count_append, List.count_cons_self] at once
    rw [← List.count_eq_zero, ← List.count_eq_zero]
    omega
  have others (list : List TypeTag) (absent : type ∉ list) :
      list.filterMap (listingOf (s.added e type) depth key) =
        list.filterMap (listingOf s depth key) := by
    apply List.filterMap_congr
    intro other member
    apply listingOf_added_of_ne
    rintro ⟨rfl, -⟩
    exact absent member
  refine ⟨low.filterMap (listingOf s depth key), high.filterMap (listingOf s depth key), ?_, ?_⟩
  · rw [types, List.filterMap_append, List.filterMap_cons]
    cases listingOf s depth key type <;> simp
  · rw [types, List.filterMap_append, List.filterMap_cons, others low apart.1,
      others high apart.2]
    cases listingOf (s.added e type) depth key type <;> simp

/-- The listings of the group of the new entity. -/
theorem listings_added (s : Snapshot n) (depth : Number) (owner : e.group = some key)
    (once : (listedTypes s).count type = 1) :
    ∃ texts, Adds s depth type key (blockOf (s.added e type) depth (Fin.last n)) texts ∧
      Inserts texts
        (Outline.levelsOf 1 (spaced ((listedTypes s).filterMap (listingOf s depth key))))
        (Outline.levelsOf 1
          (spaced ((listedTypes s).filterMap (listingOf (s.added e type) depth key)))) := by
  obtain ⟨low, high, shown, shown'⟩ := listings_around s e depth key once
  obtain ⟨front, back, before, none_iff, after⟩ := listingOf_added s depth type owner
  rw [after, Option.toList_some, List.append_assoc, List.singleton_append] at shown'
  by_cases new : owned s key (bucketOf s type) = []
  · have unlisted := none_iff.mpr new
    rw [before, unlisted, titled, if_pos List.isEmpty_nil, Option.toList_none,
      List.append_nil] at shown
    obtain ⟨rfl, rfl⟩ := List.append_eq_nil_iff.mp unlisted
    obtain ⟨run, added, inserts⟩ := spaced_inserts
      (.node (type.fullName ++ ":") [blockOf (s.added e type) depth (Fin.last n)]) low high
    rw [← shown] at added
    refine ⟨Outline.levelsOf 1 run, .listing new added, ?_⟩
    rw [shown, shown', Outline.levelsOf_eq_flatMap, Outline.levelsOf_eq_flatMap,
      Outline.levelsOf_eq_flatMap]
    exact inserts.flatMap (Outline.levels 1)
  · have listed : ¬(front ++ back).isEmpty = true := by rwa [List.isEmpty_iff, none_iff]
    rw [before, titled, if_neg listed, Option.toList_some, List.append_assoc,
      List.singleton_append] at shown
    refine ⟨_, .entry new, ?_⟩
    rw [shown, shown']
    exact spaced_inserts_entry (type.fullName ++ ":") low high front back _

/-- What a report shows of a group, behind an empty line. -/
def sectionTexts (s : Snapshot n) (depth : Number) (key : GroupKey) : List (Nat × String) :=
  (0, "") :: (0, groupTitle s.twoLevel key) ::
    Outline.levelsOf 1 (spaced ((listedTypes s).filterMap (listingOf s depth key)))

theorem texts_sectionOf (s : Snapshot n) (depth : Number) (key : GroupKey) :
    (0, "") :: (sectionOf s key).texts s (belowOf s depth) = sectionTexts s depth key := by
  have listed := filterMap_titled s key (blockOf s depth)
  rw [List.filterMap_map] at listed
  rw [← Section.levels_outline, Section.outline, Outline.levels, sectionTexts]
  exact congrArg _ (congrArg _ (congrArg (Outline.levelsOf 1 ∘ spaced) listed.symm))

theorem sectionTexts_added_of_ne (apart : ¬(type ∈ listedTypes s ∧ e.group = some key)) :
    sectionTexts (s.added e type) depth key = sectionTexts s depth key := by
  have same : (listedTypes s).filterMap (listingOf (s.added e type) depth key) =
      (listedTypes s).filterMap (listingOf s depth key) := by
    apply List.filterMap_congr
    intro other member
    apply listingOf_added_of_ne
    rintro ⟨rfl, owner⟩
    exact apart ⟨member, owner⟩
  rw [sectionTexts, sectionTexts, show listedTypes (s.added e type) = listedTypes s from rfl, same]
  rfl

/-- The section of the group of the new entity changes, and no other one does. -/
theorem sections_added (depth : Number) (owner : e.group = some key)
    (reported : some key ∈ s.groups) (once : (listedTypes s).count type = 1) :
    ∃ texts, Adds s depth type key (blockOf (s.added e type) depth (Fin.last n)) texts ∧
      Inserts texts ((GroupKey.sort s.twoLevel s.keys).flatMap (sectionTexts s depth))
        ((GroupKey.sort s.twoLevel s.keys).flatMap (sectionTexts (s.added e type) depth)) := by
  obtain ⟨texts, adds, inserts⟩ := listings_added s depth owner once
  have changed := inserts.within [(0, ""), (0, groupTitle s.twoLevel key)] []
  rw [List.append_nil, List.append_nil] at changed
  have unchanged (other : GroupKey) (ne : other ≠ key) :
      sectionTexts (s.added e type) depth other = sectionTexts s depth other := by
    apply sectionTexts_added_of_ne
    rintro ⟨-, group⟩
    exact ne (Option.some.inj (group.symm.trans owner))
  have one : (GroupKey.sort s.twoLevel s.keys).count key = 1 :=
    List.count_eq_one_of_mem (GroupKey.sort_nodup s.twoLevel s.keys)
      (GroupKey.mem_sort.mpr (Snapshot.mem_keys.mpr reported))
  exact ⟨texts, adds, .flatMap_of_count_eq_one one unchanged changed⟩

theorem count_listedTypes_eq_one (once : s.types.count type ≤ 1) (listed : type ∈ listedTypes s) :
    (listedTypes s).count type = 1 := by
  have most : (listedTypes s).count type ≤ s.types.count type := by
    rw [listedTypes, TypeTag.sort, ← (sortBy_perm _ s.types).count_eq]
    exact List.filter_sublist.count_le type
  have least := List.count_pos_iff.mpr listed
  omega

/-- A report with one entity more, which no other one refers to. If the entity is listed, the report
has the lines of its block more, in one place, and with them the title of the listing and an empty
line where they are needed. If it is not listed, the report is the same. -/
theorem text_added (once : s.types.count type ≤ 1) {shown shown' : String}
    (done : text s depth = .ok shown) (done' : text (s.added e type) depth = .ok shown') :
    (∀ key, Appears s e type key → ∃ block texts,
      Expansion.entityOutline (s.added e type).graph (scope (s.added e type) depth) (Fin.last n) =
        .ok block ∧
      Adds s depth type key block texts ∧ Outline.documentLines texts ≠ [] ∧
      Inserts (Outline.documentLines texts) (Text.lines shown.toList)
        (Text.lines shown'.toList)) ∧
    ((∀ key, ¬Appears s e type key) → shown' = shown) := by
  have lines := lines_of_ok done
  have lines' := lines_of_ok done'
  simp only [sections, List.flatMap_map, texts_sectionOf] at lines lines'
  -- Header, groups and types are those of the snapshot without the entity.
  rw [show header (s.added e type) = header s from rfl,
    show GroupKey.sort (s.added e type).twoLevel (s.added e type).keys =
      GroupKey.sort s.twoLevel s.keys from rfl] at lines'
  constructor
  · rintro key ⟨owner, reported, included, unstructural⟩
    have listed : type ∈ listedTypes s := mem_listedTypes.mpr ⟨included, unstructural⟩
    obtain ⟨texts, adds, inserts⟩ :=
      sections_added depth owner reported (count_listedTypes_eq_one once listed)
    refine ⟨_, texts, ?_, adds, Outline.documentLines_ne_nil adds.ne_nil, ?_⟩
    · obtain ⟨made, all, -⟩ := text_eq_ok_iff.mp done'
      apply (outlines_of_ok all).1 key (GroupKey.mem_sort.mpr (Snapshot.mem_keys.mpr reported))
        type listed
      rw [mem_owned, bucketOf_added, if_pos rfl]
      exact ⟨by simp, owns_iff.mp (owns_added_last.mpr owner)⟩
    · rw [lines, lines']
      have framed := inserts.within (Outline.levelsOf 0 (header s)) []
      rw [List.append_nil, List.append_nil] at framed
      have whole := framed.documentLines.within [] [[]]
      rwa [List.nil_append, List.nil_append] at whole
  · intro unlisted
    have same : (GroupKey.sort s.twoLevel s.keys).flatMap (sectionTexts (s.added e type) depth) =
        (GroupKey.sort s.twoLevel s.keys).flatMap (sectionTexts s depth) := by
      apply List.flatMap_congr
      intro key reported
      apply sectionTexts_added_of_ne
      rintro ⟨listed, owner⟩
      obtain ⟨included, unstructural⟩ := mem_listedTypes.mp listed
      exact unlisted key
        ⟨owner, Snapshot.mem_keys.mp (GroupKey.mem_sort.mp reported), included, unstructural⟩
    rw [same, ← lines] at lines'
    have chars := congrArg Text.unlines lines'
    rw [Text.unlines_lines, Text.unlines_lines] at chars
    exact String.toList_inj.mp chars

/-- A group with one entity in it. -/
def lone : Snapshot 1 where
  graph := listedTwice.graph
  source := ⟨"u", "p", "v", "w"⟩
  structural := ⟨⟨"g"⟩, none, none⟩
  types := [⟨"t"⟩]
  groups := [some ⟨"c", .named "c"⟩]
  twoLevel := false
  buckets := ⟨[("t", [0])], List.nodup_singleton "t"⟩

/-- Another entity of the group, which refers to the first. -/
def second : Entity (Fin 2) :=
  ⟨⟨"t"⟩, "b", some ⟨"c", .named "c"⟩, ⟨[("x", .value (.ref 0))], by simp⟩, none⟩

theorem second_shown : lone.types.count ⟨"t"⟩ ≤ 1 ∧ ∃ shown shown',
    text lone .one = .ok shown ∧ text (lone.added second ⟨"t"⟩) .one = .ok shown' ∧
      Inserts ["        b".toList, "            x: a".toList] (Text.lines shown.toList)
        (Text.lines shown'.toList) := by
  have readable : Readable lone .one := by
    constructor
    · decide
    · intro _ type included _
      obtain rfl : type = ⟨"t"⟩ := by simpa [lone] using included
      exact ⟨[0], rfl⟩
    · intro _ _ _ _ _ _ j _ name held stands
      obtain rfl : j = 0 := by omega
      exact absurd stands List.not_mem_nil
  have readable' : Readable (lone.added second ⟨"t"⟩) .one := by
    constructor
    · decide
    · intro _ type included _
      obtain rfl : type = ⟨"t"⟩ := List.mem_singleton.mp included
      exact ⟨[0, 1], rfl⟩
    · intro _ _ _ _ _ _ j _ name held stands _
      have nodes : ∀ j : Fin 2, j = 0 ∨ j = 1 := by decide
      obtain rfl | rfl := nodes j
      · rw [show (lone.added second ⟨"t"⟩).graph.entity 0 = (lone.graph.entity 0).map Fin.castSucc
          from Graph.entity_push_castSucc lone.graph second 0] at stands
        exact absurd stands List.not_mem_nil
      · rw [show (lone.added second ⟨"t"⟩).graph.entity 1 = second
          from Graph.entity_push_last lone.graph second] at stands
        obtain ⟨rfl, rfl⟩ := Prod.mk.inj (List.mem_singleton.mp stands)
        exact ⟨_, rfl⟩
  obtain ⟨shown, done⟩ := text_of_readable readable
  obtain ⟨shown', done'⟩ := text_of_readable readable'
  have once : lone.types.count ⟨"t"⟩ ≤ 1 := by decide
  refine ⟨once, shown, shown', done, done', ?_⟩
  obtain ⟨block, texts, made, adds, -, inserts⟩ :=
    (text_added once done done').1 ⟨"c", .named "c"⟩ ⟨rfl, by decide, by decide, by decide⟩
  have outline : Expansion.entityOutline (lone.added second ⟨"t"⟩).graph
      (scope (lone.added second ⟨"t"⟩) .one) (Fin.last 1) =
        .ok (.node "b" [.leaf "x: a"]) := by
    have pushed : (lone.added second ⟨"t"⟩).graph =
        ⟨#v[(lone.graph.entity 0).map Fin.castSucc, second]⟩ := by
      simp [Snapshot.added, Snapshot.addEntity, Snapshot.list, Graph.push, lone, listedTwice,
        Graph.entity]
    rw [pushed]
    exact Expansion.entityOutline_eq_unrolled 5 (by decide)
  obtain rfl := Except.ok.inj (made.symm.trans outline)
  have lines : Outline.documentLines (Outline.levels 2 (.node "b" [.leaf "x: a"])) =
      ["        b".toList, "            x: a".toList] := by
    decide
  cases adds with
  | entry => rwa [lines] at inserts
  | listing new => exact absurd new (by decide)

end Report

end SnapshotReport
