import SnapshotReport.Proofs.Entries
import SnapshotReport.Proofs.Layout.Reading
import SnapshotReport.Proofs.Nesting.Contribution
import SnapshotReport.Proofs.Unreached

/-! The outline of a report, read back from its text. As long as every text that is shown takes up
one line, and names are not empty and do not begin with a space, the lines of a report show what is
listed under what; two reports with the same text have the same outline. -/
namespace SnapshotReport

variable {n m : Nat}

/-- The entity has a name that shows where its line begins, and so have its attributes. -/
structure Entity.WellNamed {Node : Type} (e : Entity Node) : Prop where
  name : Text.Begins e.name
  attributes : ∀ name held, (name, held) ∈ e.described → name.toList.head? ≠ some ' '

namespace Expansion

open Outline (levels levelsOf)

variable {g : Graph n} {scope : Scope} {path : Path} {i : Fin n}

/-- No text in the block of an entity is empty or begins with a space, if all that is nested in it
is well named. -/
theorem begins_of_block (named : Throughout g scope (fun j => (g.entity j).WellNamed) path i)
    {made : List Outline} (done : block g scope path i = .ok made) (level : Nat) :
    ∀ placed ∈ levelsOf level made, Text.Begins placed.2 := by
  induction path, i using nesting_induction g scope generalizing made level with
  | step path i ih =>
    have colonSpace : Text.Begins ": " := ⟨':', [' '], rfl, by decide⟩
    have colon : Text.Begins ":" := ⟨':', [], rfl, by decide⟩
    have nested {j : Fin n} (nests : Nests g scope path i j) {made : List Outline}
        (done : block g scope (path.insert (g.name i)) j = .ok made) :
        ∀ level, ∀ placed ∈ levelsOf level made, Text.Begins placed.2 :=
      ih j nests (named.nested nests) done
    obtain ⟨shown, rfl, each⟩ := contributions_of_block done
    intro placed member
    rw [Outline.levelsOf_filterMap, List.mem_flatMap] at member
    obtain ⟨⟨name, held⟩, describes, member⟩ := member
    have flush := named.self.attributes name held describes
    have added := each _ describes
    cases held with
    | malformed | unreadable => contradiction
    | value value =>
      have contributes := contributes_of_ok describes added
      -- From here on only what the attribute contributes matters, not how `shown` is made.
      generalize shown (name, .value value) = outline at contributes member
      cases contributes with
      | nothing => contradiction
      | line =>
        obtain rfl := List.mem_singleton.mp member
        exact (colonSpace.behind flush).append _
      | reference nests within =>
        simp only [Option.toList_some, levelsOf, levels, List.append_nil, List.mem_cons] at member
        rcases member with rfl | below
        · exact (colonSpace.behind flush).append _
        · exact nested nests within (level + 1) placed below
      | collection nests outlines =>
        simp only [Option.toList_some, levelsOf, levels, List.append_nil, List.mem_cons] at member
        rcases member with rfl | below
        · exact colon.behind flush
        · rw [Outline.mem_levelsOf] at below
          obtain ⟨outline, element, member⟩ := below
          obtain ⟨j, listed, made, within, rfl⟩ := exists_of_mem_names outlines element
          rw [Outline.mem_levels] at member
          rcases member with rfl | below
          · exact (named.nested (nests j listed)).self.name
          · exact nested (nests j listed) within (level + 1 + 1) placed below

end Expansion

namespace Report

open Outline (levels levelsOf placeLine)

/-- What is shown can be told by its lines: each text takes up one line, and the names of types and
of all entities with a block, and those of their attributes, show where their lines begin. -/
structure Plain (s : Snapshot n) (depth : Number) : Prop where
  unbroken : ∀ made, outlines s depth = .ok made → ∀ placed ∈ levelsOf 0 made,
    Text.Unbroken placed.2
  types : ∀ type ∈ s.types, Text.Begins type.fullName
  entities : ∀ i, Reached s depth i → (s.graph.entity i).WellNamed

/-- A group with its listings, as it stands in a report: an empty line in front, and one between two
listings. -/
def apart : Outline → List Outline
  | .node title listings => [.gap, .node title (spaced listings)]

/-- The lines of a group with its listings. -/
def groupLines : Outline → List (List Char)
  | .node title listings => [] :: title.toList ::
      [[]].intercalate (listings.map fun listing => (listing.levels 1).map placeLine)

/-- The groups of a report with their listings. -/
def groupTrees (s : Snapshot n) (depth : Number) : List Outline :=
  (sections s).map fun shown => .node (groupTitle s.twoLevel shown.key)
    (shown.listings.map fun listing => .node (listing.type.fullName ++ ":")
      (listing.entries.map fun entry => blockOf s depth entry.1))

variable {s : Snapshot n} {depth : Number}

theorem outlines_eq_apart {made : List Outline} (done : outlines s depth = .ok made) :
    made = header s ++ (groupTrees s depth).flatMap apart := by
  obtain ⟨-, rfl⟩ := outlines_of_ok done
  rw [groupTrees, List.flatMap_map]
  rfl

theorem levelsOf_apart (title : String) (listings : List Outline) :
    levelsOf 0 (apart (.node title listings)) =
      (0, "") :: (0, title) :: levelsOf 1 (spaced listings) := by
  simp [apart, levelsOf, levels, Outline.gap, Outline.leaf]

theorem levelsOf_flatMap_apart (groups : List Outline) :
    levelsOf 0 (groups.flatMap apart) = groups.flatMap fun group => levelsOf 0 (apart group) := by
  simp only [Outline.levelsOf_eq_flatMap, List.flatMap_assoc]

theorem levelsOf_spaced_cons (level : Nat) (listing next : Outline) (rest : List Outline) :
    levelsOf level (spaced (listing :: next :: rest)) =
      listing.levels level ++ (level, "") :: levelsOf level (spaced (next :: rest)) :=
  rfl

/-- Without the empty lines between them listings have the same texts at the same levels. -/
theorem filter_levelsOf_spaced (level : Nat) (listings : List Outline) :
    (levelsOf level (spaced listings)).filter (·.2 ≠ "") =
      (levelsOf level listings).filter (·.2 ≠ "") := by
  induction listings with
  | nil => rfl
  | cons listing rest ih =>
    cases rest with
    | nil => rfl
    | cons next rest =>
      rw [levelsOf_spaced_cons, List.filter_append, List.filter_cons_of_neg (by simp), ih,
        ← List.filter_append]
      rfl

theorem filter_levelsOf_flatMap_apart (groups : List Outline) :
    (levelsOf 0 (groups.flatMap apart)).filter (·.2 ≠ "") =
      (levelsOf 0 groups).filter (·.2 ≠ "") := by
  rw [levelsOf_flatMap_apart, Outline.levelsOf_eq_flatMap, List.filter_flatMap,
    List.filter_flatMap]
  apply List.flatMap_congr
  rintro ⟨title, listings⟩ -
  rw [levelsOf_apart, levels, List.filter_cons_of_neg (by simp), List.filter_cons, List.filter_cons,
    filter_levelsOf_spaced]

/-- Between listings there is one empty line. -/
theorem map_placeLine_spaced (level : Nat) (listings : List Outline) :
    (levelsOf level (spaced listings)).map placeLine =
      [[]].intercalate (listings.map fun listing => (listing.levels level).map placeLine) := by
  induction listings with
  | nil => rfl
  | cons listing rest ih =>
    cases rest with
    | nil => simp [spaced, levelsOf]
    | cons next rest =>
      rw [levelsOf_spaced_cons, List.map_append, List.map_cons, ih]
      simp [placeLine]

theorem map_placeLine_apart (group : Outline) :
    (levelsOf 0 (apart group)).map placeLine = groupLines group := by
  obtain ⟨title, listings⟩ := group
  rw [levelsOf_apart, List.map_cons, List.map_cons, map_placeLine_spaced, groupLines]
  simp [placeLine]

theorem begins_header (types : ∀ type ∈ s.types, Text.Begins type.fullName) :
    ∀ placed ∈ levelsOf 0 (header s), Text.Begins placed.2 := by
  have listed : ∀ placed ∈ levelsOf 1 ((TypeTag.sort s.types).map fun type => .leaf type.fullName),
      Text.Begins placed.2 := by
    intro placed member
    rw [Outline.mem_levelsOf_map] at member
    obtain ⟨type, included, member⟩ := member
    obtain rfl := List.mem_singleton.mp member
    exact types type ((sortBy_perm _ _).mem_iff.mp included)
  intro placed member
  simp only [header, levelsOf, levels, Outline.leaf, List.nil_append, List.append_nil,
    List.cons_append, List.mem_cons] at member
  rcases member with rfl | rfl | rfl | rfl | rfl | rfl | member
  · exact Text.Begins.append ⟨'D', _, rfl, by decide⟩ _
  · exact ⟨'-', List.replicate 64 '-', String.toList_ofList, by decide⟩
  · exact Text.Begins.append ⟨'D', _, rfl, by decide⟩ _
  · exact Text.Begins.append ⟨'D', _, rfl, by decide⟩ _
  · exact Text.Begins.append ⟨'D', _, rfl, by decide⟩ _
  · exact ⟨'I', _, rfl, by decide⟩
  · exact listed placed member

theorem begins_groupTitle (twoLevel : Bool) (key : GroupKey) :
    Text.Begins (groupTitle twoLevel key) := by
  cases twoLevel with
  | true => exact Text.Begins.append ⟨'C', _, rfl, by decide⟩ _
  | false => exact Text.Begins.append ⟨'C', _, rfl, by decide⟩ _

theorem begins_blockOf (plain : Plain s depth) {made : List Outline}
    (done : outlines s depth = .ok made) {key : GroupKey} {type : TypeTag} {i : Fin n}
    (lists : Lists s key type i) (level : Nat) :
    ∀ placed ∈ (blockOf s depth i).levels level, Text.Begins placed.2 := by
  have reached : Expansion.Throughout s.graph (scope s depth) (Reached s depth) _ i :=
    throughout_of_lists lists
  obtain ⟨block, within, outline⟩ :=
    Expansion.entityOutline_eq_ok_iff.mp (entityOutline_of_lists done lists)
  intro placed member
  rw [outline, Outline.mem_levels] at member
  rcases member with rfl | below
  · exact (plain.entities i reached.self).name
  · have named : Expansion.Throughout s.graph (scope s depth) _ _ i :=
      fun chain nested j member => plain.entities j (reached chain nested j member)
    exact Expansion.begins_of_block named within _ placed below

theorem begins_groupTrees (plain : Plain s depth) {made : List Outline}
    (done : outlines s depth = .ok made) :
    ∀ placed ∈ levelsOf 0 (groupTrees s depth), Text.Begins placed.2 := by
  intro placed member
  rw [groupTrees, Outline.mem_levelsOf_map] at member
  obtain ⟨shown, reported, member⟩ := member
  rw [Outline.mem_levels, Outline.mem_levelsOf_map] at member
  obtain rfl | ⟨listing, listed, member⟩ := member
  · exact begins_groupTitle s.twoLevel shown.key
  · rw [Outline.mem_levels, Outline.mem_levelsOf_map] at member
    obtain rfl | ⟨⟨i, place⟩, entry, member⟩ := member
    · obtain ⟨key, -, rfl⟩ := List.mem_map.mp reported
      obtain ⟨type, included, rfl⟩ := List.mem_map.mp (List.mem_filter.mp listed).1
      exact (plain.types type (mem_listedTypes.mp included).1).append ":"
    · have lists : Lists s shown.key listing.type i :=
        lists_iff_entry.mpr ⟨shown, reported, rfl, listing, listed, rfl, place, entry⟩
      exact begins_blockOf plain done lists _ placed member

theorem lines_eq_map (plain : Plain s depth) {shown : String} (done : text s depth = .ok shown) :
    Text.lines shown.toList =
      (levelsOf 0 (header s ++ (groupTrees s depth).flatMap apart)).map placeLine ++ [[]] := by
  obtain ⟨made, all, rfl⟩ := text_eq_ok_iff.mp done
  have unbroken := plain.unbroken made all
  obtain rfl := outlines_eq_apart all
  rw [Outline.lines_normalized (by simp [header]), Outline.documentLines_eq_map unbroken]

/-- The lines of a plain report are its texts at their levels, with the empty lines between them. -/
theorem lines_of_plain (plain : Plain s depth) {shown : String} (done : text s depth = .ok shown) :
    Text.lines shown.toList = (levelsOf 0 (header s)).map placeLine ++
      (groupTrees s depth).flatMap groupLines ++ [[]] := by
  rw [lines_eq_map plain done, Outline.levelsOf_append, List.map_append, levelsOf_flatMap_apart,
    List.map_flatMap]
  simp only [map_placeLine_apart]

/-- The lines of a plain report that are not empty are its texts at their levels. -/
theorem filter_lines_of_plain (plain : Plain s depth) {shown : String}
    (done : text s depth = .ok shown) :
    (∀ placed ∈ levelsOf 0 (header s ++ groupTrees s depth), Text.Begins placed.2) ∧
      (Text.lines shown.toList).filter (· ≠ []) =
        (levelsOf 0 (header s ++ groupTrees s depth)).map placeLine := by
  obtain ⟨made, all, -⟩ := text_eq_ok_iff.mp done
  have begins : ∀ placed ∈ levelsOf 0 (header s ++ groupTrees s depth), Text.Begins placed.2 := by
    intro placed member
    rw [Outline.levelsOf_append, List.mem_append] at member
    exact member.elim (begins_header plain.types placed) (begins_groupTrees plain all placed)
  refine ⟨begins, ?_⟩
  have nonempty : (levelsOf 0 (header s ++ groupTrees s depth)).filter (·.2 ≠ "") =
      levelsOf 0 (header s ++ groupTrees s depth) :=
    List.filter_eq_self.mpr fun placed member => decide_eq_true (begins placed member).ne_empty
  rw [lines_eq_map plain done, List.filter_append, Outline.filter_map_placeLine,
    Outline.levelsOf_append, List.filter_append, filter_levelsOf_flatMap_apart,
    ← List.filter_append, ← Outline.levelsOf_append, nonempty]
  simp

theorem types_eq_of_header {s' : Snapshot m} (same : header s = header s') :
    TypeTag.sort s.types = TypeTag.sort s'.types := by
  simp only [header, List.cons.injEq, Outline.node.injEq, true_and, and_true] at same
  obtain ⟨-, -, -, -, listed⟩ := same
  apply List.map_injective_iff.mpr _ listed
  rintro ⟨type⟩ ⟨type'⟩ shown
  obtain ⟨rfl, -⟩ := Outline.node.inj shown
  rfl

/-- Plain reports with the same text show the same. -/
theorem shown_inj {s' : Snapshot m} {depth' : Number} (plain : Plain s depth)
    (plain' : Plain s' depth') {shown : String} (done : text s depth = .ok shown)
    (done' : text s' depth' = .ok shown) :
    header s = header s' ∧ groupTrees s depth = groupTrees s' depth' := by
  obtain ⟨begins, read⟩ := filter_lines_of_plain plain done
  obtain ⟨begins', read'⟩ := filter_lines_of_plain plain' done'
  have texts : levelsOf 0 (header s ++ groupTrees s depth) =
      levelsOf 0 (header s' ++ groupTrees s' depth') := by
    rw [← Outline.map_readLine_placeLine begins, ← Outline.map_readLine_placeLine begins', ← read,
      ← read']
  exact List.append_inj (Outline.levelsOf_injective 0 texts) rfl

/-- The margins of the lines of a plain report. -/
theorem margins_of_plain (plain : Plain s depth) {shown : String}
    (done : text s depth = .ok shown) :
    (∀ line ∈ Text.lines shown.toList, line ≠ [] → Text.levelWidth ∣ Text.margin line) ∧
      ((Text.lines shown.toList).filter (· ≠ [])).IsChain fun a b =>
        Text.margin b ≤ Text.margin a + Text.levelWidth := by
  obtain ⟨begins, read⟩ := filter_lines_of_plain plain done
  constructor
  · intro line member nonempty
    have kept : line ∈ (Text.lines shown.toList).filter (· ≠ []) :=
      List.mem_filter.mpr ⟨member, decide_eq_true nonempty⟩
    rw [read] at kept
    obtain ⟨placed, texts, rfl⟩ := List.mem_map.mp kept
    rw [Outline.margin_placeLine (begins placed texts)]
    exact Nat.dvd_mul_left _ _
  · rw [read, List.isChain_map]
    apply (Outline.levelsOf_isChain 0 _).imp_of_mem_imp
    intro a b first next step
    rw [Outline.margin_placeLine (begins a first), Outline.margin_placeLine (begins b next),
      ← Nat.succ_mul]
    exact Nat.mul_le_mul_right _ step

/-- Plain reports with one text, of whatever snapshots and depths, have the same header and types,
and the same groups, listings, entities and lines below them. Lines are indented by whole levels, at
most one more than before; empty ones are in front of groups and between listings only. -/
theorem text_unambiguous (plain : Plain s depth) {shown : String} (done : text s depth = .ok shown) :
    outlines s depth = .ok (header s ++ (groupTrees s depth).flatMap apart) ∧
      (∀ (m : Nat) (s' : Snapshot m) (depth' : Number), Plain s' depth' →
        text s' depth' = .ok shown →
          header s = header s' ∧ TypeTag.sort s.types = TypeTag.sort s'.types ∧
          groupTrees s depth = groupTrees s' depth' ∧ outlines s depth = outlines s' depth') ∧
      ((∀ line ∈ Text.lines shown.toList, line ≠ [] → Text.levelWidth ∣ Text.margin line) ∧
        ((Text.lines shown.toList).filter (· ≠ [])).IsChain fun a b =>
          Text.margin b ≤ Text.margin a + Text.levelWidth) ∧
      Text.lines shown.toList = (levelsOf 0 (header s)).map placeLine ++
        (groupTrees s depth).flatMap groupLines ++ [[]] ∧
      ∀ placed ∈ levelsOf 0 (header s ++ groupTrees s depth), placeLine placed ≠ [] := by
  have shownAs {n : Nat} {s : Snapshot n} {depth : Number} (done : text s depth = .ok shown) :
      outlines s depth = .ok (header s ++ (groupTrees s depth).flatMap apart) := by
    obtain ⟨made, all, -⟩ := text_eq_ok_iff.mp done
    rw [all, outlines_eq_apart all]
  refine ⟨shownAs done, ?_, margins_of_plain plain done, lines_of_plain plain done, ?_⟩
  · intro m s' depth' plain' done'
    obtain ⟨headers, groups⟩ := shown_inj plain plain' done done'
    refine ⟨headers, types_eq_of_header headers, groups, ?_⟩
    rw [shownAs done, shownAs done', headers, groups]
  · intro placed member
    rw [ne_eq, Outline.placeLine_eq_nil_iff]
    exact ((filter_lines_of_plain plain done).1 placed member).ne_empty

/-- A report of one group with one listed entity. -/
theorem outlines_of_single {key : GroupKey} {type : TypeTag} {list : List (Fin n)} {i : Fin n}
    {block : Outline} (given : none ∉ s.groups) (keys : GroupKey.sort s.twoLevel s.keys = [key])
    (types : listedTypes s = [type]) (listed : s.entitiesOf type = .ok list)
    (entries : owned s key list = [i])
    (made : Expansion.entityOutline s.graph (scope s depth) i = .ok block) :
    outlines s depth = .ok (header s ++
      [.gap, .node (groupTitle s.twoLevel key) [.node (type.fullName ++ ":") [block]]]) := by
  have listing : typeListing s (scope s depth) key type =
      .ok (some (.node (type.fullName ++ ":") [block])) := by
    simp only [typeListing, listed, bind, Except.bind, entries, List.mapM_cons, made]
    rfl
  have group : groupOutline s (scope s depth) key =
      .ok (.node (groupTitle s.twoLevel key) [.node (type.fullName ++ ":") [block]]) := by
    rw [groupOutline, listings_eq, types, List.mapM_cons, listing]
    rfl
  simp only [outlines, s.reportedGroups_eq, if_neg given, bind, Except.bind, keys, List.mapM_cons,
    group]
  rfl

/-- An entity of a group with one attribute. -/
def single (held : Attribute (Fin n)) : Entity (Fin n) :=
  ⟨⟨"t"⟩, "a", some ⟨"c", .named "c"⟩, ⟨[("x", held)], by simp⟩, none⟩

theorem wellNamed_single {g : Graph n} {i : Fin n} {held : Attribute (Fin n)}
    (holds : g.entity i = single held) : (g.entity i).WellNamed where
  name := by
    rw [holds]
    exact (⟨'a', [], rfl, by decide⟩ : Text.Begins "a")
  attributes name other describes := by
    have stands := (Expansion.mem_described.mp describes).1
    rw [holds] at stands
    obtain ⟨rfl, -⟩ := Prod.mk.inj (List.mem_singleton.mp stands)
    decide

/-- The attribute is a reference to another entity. -/
def pointing : Snapshot 2 where
  graph := ⟨#v[single (.value (.ref 1)), ⟨⟨"t"⟩, "b", none, ∅, none⟩]⟩
  source := ⟨"u", "p", "v", "w"⟩
  structural := ⟨⟨"g"⟩, none, none⟩
  types := [⟨"t"⟩]
  groups := [some ⟨"c", .named "c"⟩]
  twoLevel := false
  buckets := ⟨[("t", [0])], List.nodup_singleton "t"⟩

/-- The attribute is a text, the name of the other entity. -/
def quoting : Snapshot 1 where
  graph := ⟨#v[single (.value (.scalar (.text "b")))]⟩
  source := ⟨"u", "p", "v", "w"⟩
  structural := ⟨⟨"g"⟩, none, none⟩
  types := [⟨"t"⟩]
  groups := [some ⟨"c", .named "c"⟩]
  twoLevel := false
  buckets := ⟨[("t", [0])], List.nodup_singleton "t"⟩

theorem quoting_shown_as_pointing : Plain pointing .one ∧ Plain quoting .one ∧
    ∃ shown, text pointing .one = .ok shown ∧ text quoting .one = .ok shown ∧
      groupTrees pointing .one = groupTrees quoting .one ∧
      ((Text.lines shown.toList).filter (· ≠ [])).IsChain fun a b =>
        Text.margin b ≤ Text.margin a + Text.levelWidth := by
  let made : List Outline := header quoting ++
    [.gap, .node "Catalog: c" [.node "t:" [.node "a" [.leaf "x: b"]]]]
  have pointed : outlines pointing .one = .ok made := by
    have keys : GroupKey.sort pointing.twoLevel pointing.keys = [⟨"c", .named "c"⟩] := by decide
    have types : listedTypes pointing = [⟨"t"⟩] := by decide
    have entries : owned pointing ⟨"c", .named "c"⟩ [0] = [0] := by decide
    have block : Expansion.entityOutline pointing.graph (scope pointing .one) 0 =
        .ok (.node "a" [.leaf "x: b"]) := Expansion.entityOutline_eq_unrolled 5 (by decide)
    exact outlines_of_single (by decide) keys types rfl entries block
  have quoted : outlines quoting .one = .ok made := by
    have keys : GroupKey.sort quoting.twoLevel quoting.keys = [⟨"c", .named "c"⟩] := by decide
    have types : listedTypes quoting = [⟨"t"⟩] := by decide
    have entries : owned quoting ⟨"c", .named "c"⟩ [0] = [0] := by decide
    have block : Expansion.entityOutline quoting.graph (scope quoting .one) 0 =
        .ok (.node "a" [.leaf "x: b"]) := Expansion.entityOutline_eq_unrolled 5 (by decide)
    exact outlines_of_single (by decide) keys types rfl entries block
  have unbroken : ∀ placed ∈ levelsOf 0 made, Text.Unbroken placed.2 := by
    intro placed member
    suffices '\n' ∉ placed.2.toList ∧ '\r' ∉ placed.2.toList from ⟨this.1, this.2⟩
    revert placed
    decide
  have types : ∀ type ∈ [(⟨"t"⟩ : TypeTag)], Text.Begins type.fullName := by
    intro type member
    obtain rfl := List.mem_singleton.mp member
    exact ⟨'t', [], rfl, by decide⟩
  have plain : Plain pointing .one := by
    constructor
    case unbroken => exact fun other done => Except.ok.inj (pointed.symm.trans done) ▸ unbroken
    case types => exact types
    case entities =>
      intro i _
      obtain rfl | rfl : i = 0 ∨ i = 1 := by omega
      · exact wellNamed_single rfl
      · exact ⟨⟨'b', [], rfl, by decide⟩, fun _ _ describes =>
          absurd (Expansion.mem_described.mp describes).1 List.not_mem_nil⟩
  have plain' : Plain quoting .one := by
    constructor
    case unbroken => exact fun other done => Except.ok.inj (quoted.symm.trans done) ▸ unbroken
    case types => exact types
    case entities =>
      intro i _
      obtain rfl : i = 0 := by omega
      exact wellNamed_single rfl
  have done := text_eq_ok_iff.mpr ⟨made, pointed, rfl⟩
  have done' := text_eq_ok_iff.mpr ⟨made, quoted, rfl⟩
  obtain ⟨-, same, margins, -⟩ := text_unambiguous plain done
  obtain ⟨-, -, groups, -⟩ := same 1 quoting .one plain' done'
  exact ⟨plain, plain', _, done, done', groups, margins.2⟩

end Report

end SnapshotReport
