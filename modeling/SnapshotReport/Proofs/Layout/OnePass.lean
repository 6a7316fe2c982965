import SnapshotReport.Proofs.Layout
import SnapshotReport.Proofs.Listing
import SnapshotReport.Proofs.Nesting.Contribution

/-! Reports in one pass. A report is built as an outline, in which a block is indented once for each
level that it lies under another text. The same report can be listed instead: its texts from top to
bottom, each with its level, found by a walk that hands the level down. Each text is then indented
once, by its level, and nothing that was written is read again. -/
namespace SnapshotReport

variable {n : Nat}

namespace Outline

theorem isEmpty_levelsOf (level : Nat) (outlines : List Outline) :
    (levelsOf level outlines).isEmpty = outlines.isEmpty := by
  cases outlines with
  | nil => rfl
  | cons o rest => cases o; rfl

theorem lines_writeLevels {texts : List (Nat × String)} (some : texts ≠ []) :
    Text.lines (writeLevels texts).toList = texts.flatMap placedLines := by
  rw [writeLevels, Text.toList_stack, Text.lines_unlines_of_ne_nil (by simpa using some),
    List.flatMap_map, List.flatMap_map]
  simp only [Text.toList_indent, Text.lines_indentChars]
  rfl

/-- Outlines written as they are put together are their texts written level by level. -/
theorem writeAll_eq_writeLevels (outlines : List Outline) :
    writeAll outlines = writeLevels (levelsOf 0 outlines) := by
  by_cases none : outlines = []
  · rw [none]
    rfl
  · have placed : levelsOf 0 outlines ≠ [] := fun empty => none (eq_nil_of_levelsOf empty)
    rw [← String.toList_inj, ← Text.lines_inj, lines_writeAll none, lines_writeLevels placed]

end Outline

open Outline (levels levelsOf)

namespace Expansion

/-- A line at a level, unless there is nothing to show. -/
def lineTexts (level : Nat) (name : String) (shown : Option String) : List (Nat × String) :=
  match shown with
  | none => []
  | some text => if text.isEmpty then [] else [(level, name ++ ": " ++ text)]

/-- What an attribute of entity `i` adds at a level. The texts of the entities that it expands are
found by `below`, from the level that they are to stand at. -/
def attributeTexts (g : Graph n) (scope : Scope) (path : Path)
    (below : Fresh g path → Nat → Except Failure (List (Nat × String))) (i : Fin n) (name : String)
    (value : AttributeValue (Fin n)) (level : Nat) : Except Failure (List (Nat × String)) :=
  match value with
  | .ref target =>
    if scope.hides (g.type target) then .ok []
    else match fresh? g path target with
      | none => .ok []
      | some found =>
        if scope.expands path then do
          let texts ← below found (level + 1)
          return if (g.name target).isEmpty && texts.isEmpty then []
            else (level, name ++ ": " ++ g.name target) :: texts
        else .ok (lineTexts level name (g.display i name value))
  | .entities items =>
    if items.isEmpty then .ok []
    else if scope.expands path then do
      let elements ← (items.filterMap (fresh? g path)).mapM fun found => do
        return (level + 1, g.name found) :: (← below found (level + 2))
      return if elements.isEmpty then [] else (level, name ++ ":") :: elements.flatten
    else .ok (lineTexts level name (g.display i name value))
  | _ => .ok (lineTexts level name (g.display i name value))

/-- The texts of the block of entity `i` at the end of a path, from a level on. -/
def texts (g : Graph n) (scope : Scope) (path : Path) (i : Fin n) (level : Nat) :
    Except Failure (List (Nat × String)) := do
  let found ← (g.entity i).described.mapM fun entry => do
    let value ← entry.2.read (g.name i) entry.1
    attributeTexts g scope path (fun found => texts g scope (path.insert (g.name i)) found)
      i entry.1 value level
  return found.flatten
termination_by measure g path i
decreasing_by exact measure_lt i found

variable {g : Graph n} {scope : Scope} {path : Path} {i : Fin n}

theorem lineTexts_eq (level : Nat) (name : String) (shown : Option String) :
    lineTexts level name shown = levelsOf level (line name shown).toList := by
  cases shown with
  | none => rfl
  | some text =>
    rw [lineTexts, line]
    split <;> rfl

/-- An attribute is listed as it is outlined, if the blocks within it are. -/
theorem attributeTexts_eq {below : Fresh g path → Nat → Except Failure (List (Nat × String))}
    {block : Fresh g path → Except Failure (List Outline)} {name : String}
    {value : AttributeValue (Fin n)} (level : Nat)
    (same : ∀ found ∈ expanded g scope path value, ∀ level,
      below found level = (block found).map (levelsOf level)) :
    attributeTexts g scope path below i name value level =
      (attributeOutline g scope path block i name value).map fun shown =>
        levelsOf level shown.toList := by
  cases value with
  | scalar | scalars | null => exact congrArg Except.ok (lineTexts_eq level name _)
  | ref target =>
    simp only [attributeTexts, attributeOutline]
    split
    · rfl
    · rename_i kept
      cases free : fresh? g path target with
      | none => rfl
      | some found =>
        by_cases expands : scope.expands path = true
        · have member : found ∈ expanded g scope path (.ref target) := by
            rw [expanded, if_neg (by simp [kept, expands]), List.filterMap_cons_some free]
            exact List.mem_cons_self
          simp only [if_pos expands, same found member]
          cases block found with
          | error failure => rfl
          | ok made =>
            simp only [Except.map, bind, Except.bind, pure, Except.pure, Outline.isEmpty_levelsOf,
              reference]
            split
            · rfl
            · simp [levelsOf, levels]
        · simp only [if_neg expands]
          exact congrArg Except.ok (lineTexts_eq level name _)
  | entities items =>
    simp only [attributeTexts, attributeOutline]
    split
    · rfl
    · by_cases expands : scope.expands path = true
      · have elements : (items.filterMap (fresh? g path)).mapM (fun found => do
              return (level + 1, g.name found) :: (← below found (level + 2))) =
            ((items.filterMap (fresh? g path)).mapM fun found => do
              return Outline.node (g.name found) (← block found)).map
                (List.map (levels (level + 1))) := by
          rw [← mapM_map_eq]
          refine mapM_congr fun found member => ?_
          rw [same found (by rwa [expanded, if_pos expands])]
          cases block found <;> rfl
        simp only [if_pos expands, elements]
        cases (items.filterMap (fresh? g path)).mapM fun found => do
            return Outline.node (g.name found) (← block found) with
        | error failure => rfl
        | ok outlines =>
          simp only [Except.map, bind, Except.bind, pure, Except.pure, List.isEmpty_map, collection]
          split
          · rfl
          · simp [levels, Outline.levelsOf_eq_flatMap, List.flatMap_def]
      · simp only [if_neg expands]
        exact congrArg Except.ok (lineTexts_eq level name _)

/-- The walk finds the texts of the block, each at its level, or it fails as the block does. -/
theorem texts_eq (level : Nat) :
    texts g scope path i level = (block g scope path i).map (levelsOf level) := by
  induction path, i using nesting_induction g scope generalizing level with
  | step path i ih =>
    have each : ∀ entry ∈ (g.entity i).described, (do
        let value ← entry.2.read (g.name i) entry.1
        attributeTexts g scope path (fun found => texts g scope (path.insert (g.name i)) found)
          i entry.1 value level) =
        (contribution g scope path i entry).map fun shown => levelsOf level shown.toList := by
      rintro ⟨name, held⟩ member
      cases held with
      | value value =>
        refine attributeTexts_eq level fun found expanded level => ?_
        exact ih found (nests_iff.mpr ⟨name, value, found, member, expanded, rfl⟩) level
      | malformed | unreadable => rfl
    rw [texts, mapM_congr each, mapM_map_eq, block_eq_contributions]
    cases (g.entity i).described.mapM (contribution g scope path i) with
    | error failure => rfl
    | ok shown =>
      refine congrArg Except.ok ?_
      rw [Outline.levelsOf_filterMap, List.flatMap_def]
      rfl

end Expansion

namespace Report

/-- The texts of the listing of a type in the section of a group. -/
def listingTexts (s : Snapshot n) (scope : Scope) (key : GroupKey) (type : TypeTag) :
    Except Failure (List (Nat × String)) := do
  let list ← s.entitiesOf type
  let entities ← (owned s key list).mapM fun i => do
    return (2, s.graph.name i) ::
      (← Expansion.texts s.graph scope (Path.empty.insert (s.graph.name i)) i 3)
  return if entities.isEmpty then [] else (1, type.fullName ++ ":") :: entities.flatten

/-- The texts of the section of a group: its title, then its listings with an empty line between two
of them. -/
def groupTexts (s : Snapshot n) (scope : Scope) (key : GroupKey) :
    Except Failure (List (Nat × String)) := do
  let listings ← (listedTypes s).mapM (listingTexts s scope key)
  let shown := listings.filter fun listing => !listing.isEmpty
  return (0, groupTitle s.twoLevel key) :: [(1, "")].intercalate shown

def headerTexts (s : Snapshot n) : List (Nat × String) :=
  [(0, "Database snapshot for " ++ s.source.url),
   (0, divider),
   (0, "Database type: " ++ s.source.productName),
   (0, "Database version: " ++ s.source.productVersion),
   (0, "Database user: " ++ s.source.user),
   (0, "Included types:")] ++ (TypeTag.sort s.types).map fun type => (1, type.fullName)

/-- The texts of a report from top to bottom, each with its level. -/
def texts (s : Snapshot n) (depth : Number) : Except Failure (List (Nat × String)) := do
  let keys ← s.reportedGroups
  let groups ← (GroupKey.sort s.twoLevel keys).mapM (groupTexts s (scope s depth))
  return headerTexts s ++ groups.flatMap fun group => (0, "") :: group

variable {s : Snapshot n}

theorem headerTexts_eq (s : Snapshot n) : headerTexts s = levelsOf 0 (header s) := by
  have types : (TypeTag.sort s.types).map (fun type => (1, type.fullName)) =
      levelsOf 1 ((TypeTag.sort s.types).map fun type => .leaf type.fullName) := by
    rw [Outline.levelsOf_eq_flatMap, List.flatMap_map, List.map_eq_flatMap]
    rfl
  rw [headerTexts, types]
  simp [header, levelsOf, levels, Outline.leaf]

theorem listingTexts_eq (s : Snapshot n) (scope : Scope) (key : GroupKey) (type : TypeTag) :
    listingTexts s scope key type = (typeListing s scope key type).map fun shown =>
      levelsOf 1 shown.toList := by
  rw [listingTexts, typeListing]
  cases s.entitiesOf type with
  | error failure => rfl
  | ok list =>
    have entities : (owned s key list).mapM (fun i => do
          return (2, s.graph.name i) ::
            (← Expansion.texts s.graph scope (Path.empty.insert (s.graph.name i)) i 3)) =
        ((owned s key list).mapM (Expansion.entityOutline s.graph scope)).map
          (List.map (levels 2)) := by
      rw [← mapM_map_eq]
      refine mapM_congr fun i _ => ?_
      rw [Expansion.texts_eq, Expansion.entityOutline]
      cases Expansion.block s.graph scope (Path.empty.insert (s.graph.name i)) i <;> rfl
    change (List.mapM _ _ >>= _) = Except.map _ (List.mapM _ _ >>= _)
    rw [entities]
    cases (owned s key list).mapM (Expansion.entityOutline s.graph scope) with
    | error failure => rfl
    | ok blocks =>
      simp only [Except.map, bind, Except.bind, pure, Except.pure, List.isEmpty_map, titled]
      split
      · rfl
      · simp [levels, Outline.levelsOf_eq_flatMap, List.flatMap_def]

theorem levelsOf_spaced (level : Nat) (listings : List Outline) :
    levelsOf level (spaced listings) = [(level, "")].intercalate (listings.map (levels level)) := by
  induction listings with
  | nil => rfl
  | cons listing rest ih =>
    cases rest with
    | nil => simp [spaced, levelsOf]
    | cons next rest =>
      rw [List.map_cons, List.map_cons, List.intercalate_cons_cons, ← List.map_cons, ← ih]
      simp [spaced, levelsOf, levels, Outline.gap, Outline.leaf]

theorem filter_map_levelsOf (level : Nat) (found : List (Option Outline)) :
    (found.map fun shown => levelsOf level shown.toList).filter (fun listing => !listing.isEmpty) =
      (found.filterMap id).map (levels level) := by
  induction found with
  | nil => rfl
  | cons shown rest ih =>
    rw [List.map_cons, List.filter_cons, ih, Outline.isEmpty_levelsOf]
    cases shown with
    | none => rfl
    | some o => simp [levelsOf]

theorem groupTexts_eq (s : Snapshot n) (scope : Scope) (key : GroupKey) :
    groupTexts s scope key = (groupOutline s scope key).map (levels 0) := by
  rw [groupTexts, groupOutline, listings_eq,
    mapM_congr fun type _ => listingTexts_eq s scope key type, mapM_map_eq]
  cases (listedTypes s).mapM (typeListing s scope key) with
  | error failure => rfl
  | ok found =>
    refine congrArg Except.ok ?_
    rw [filter_map_levelsOf, ← levelsOf_spaced, levels]

theorem texts_eq (s : Snapshot n) (depth : Number) :
    texts s depth = (outlines s depth).map (levelsOf 0) := by
  rw [texts, outlines]
  cases s.reportedGroups with
  | error failure => rfl
  | ok keys =>
    change (List.mapM _ _ >>= _) = Except.map _ (List.mapM _ _ >>= _)
    rw [mapM_congr fun key _ => groupTexts_eq s (scope s depth) key, mapM_map_eq]
    cases (GroupKey.sort s.twoLevel keys).mapM (groupOutline s (scope s depth)) with
    | error failure => rfl
    | ok groups =>
      refine congrArg Except.ok ?_
      rw [Outline.levelsOf_append, headerTexts_eq, List.flatMap_map,
        Outline.levelsOf_eq_flatMap 0 (groups.flatMap _), List.flatMap_assoc]
      simp [Outline.gap, Outline.leaf, levels, levelsOf]

/-- Blocks and reports can be written in one pass, each text indented once by its level, whatever
line ends and empty lines there are. The line ends of a report are made equal afterwards. -/
theorem written_in_one_pass :
    (∀ {n : Nat} (g : Graph n) (scope : Scope) (visited : Path) (owner : String) (i : Fin n),
      (Expansion.block g scope (visited.insert owner) i).map Outline.writeAll =
        (Expansion.texts g scope (visited.insert owner) i 0).map Outline.writeLevels) ∧
    (∀ {n : Nat} (s : Snapshot n) (depth : Number),
      (outlines s depth).map (Outline.writeAll · ++ "\n") =
        (texts s depth).map (Outline.writeLevels · ++ "\n") ∧
      text s depth =
        (texts s depth).map fun listed => Text.normalizeNewlines (Outline.writeLevels listed ++ "\n"))
    := by
  constructor
  · intro n g scope visited owner i
    rw [Expansion.texts_eq]
    cases Expansion.block g scope (visited.insert owner) i with
    | error failure => rfl
    | ok made => exact congrArg Except.ok (Outline.writeAll_eq_writeLevels made)
  · intro n s depth
    rw [texts_eq, text]
    cases outlines s depth with
    | error failure => exact ⟨rfl, rfl⟩
    | ok made =>
      have same := congrArg (· ++ "\n") (Outline.writeAll_eq_writeLevels made)
      exact ⟨congrArg Except.ok same,
        congrArg (fun shown => Except.ok (Text.normalizeNewlines shown)) same⟩

end Report

end SnapshotReport
