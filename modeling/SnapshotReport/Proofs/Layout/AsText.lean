import SnapshotReport.Proofs.Layout.OnePass

/-! Reports put together as texts. What is left out of an outline is told by lists that are empty. A
report that is put together as a text at once has but texts to look at, and leaves out what is empty
as a text. The two are the same, for a block that shows anything is not empty as a text. -/
namespace SnapshotReport

variable {n : Nat}

namespace Text

theorem stack_cons_ne_empty {text : String} (given : text ≠ "") (rest : List String) :
    stack (text :: rest) ≠ "" := by
  rw [ne_eq, ← String.toList_inj, toList_stack, String.toList_empty]
  cases rest with
  | nil => simpa [unlines] using given
  | cons next rest =>
    rw [List.map_cons, List.map_cons, unlines_cons_cons]
    exact List.append_ne_nil_of_right_ne_nil _ (List.cons_ne_nil _ _)

/-- Stacks one below the other are one stack. -/
theorem stack_map_stack {columns : List (List String)} (given : ∀ texts ∈ columns, texts ≠ []) :
    stack (columns.map stack) = stack columns.flatten := by
  by_cases none : columns = []
  · rw [none]
    rfl
  · have some : columns.flatten ≠ [] := by
      obtain ⟨texts, rest, rfl⟩ := List.exists_cons_of_ne_nil none
      have := given texts List.mem_cons_self
      simp [this]
    rw [← String.toList_inj, ← lines_inj, toList_stack, toList_stack,
      lines_unlines_of_ne_nil (by simpa using none), lines_unlines_of_ne_nil (by simpa using some),
      List.flatMap_map, List.flatMap_map, List.flatMap_map, List.flatten_eq_flatMap,
      List.flatMap_assoc]
    refine List.flatMap_congr fun texts member => ?_
    rw [toList_stack, lines_unlines_of_ne_nil (by simpa using given texts member), List.flatMap_map]
    rfl

end Text

namespace Outline

def text : Outline → String
  | node text _ => text

/-- An outline as texts one below the other: its own, and its children indented as one. -/
def pieces : Outline → List String
  | node text children =>
    text :: if children.isEmpty then [] else [Text.indent Text.levelWidth (writeAll children)]

theorem write_eq_stack (o : Outline) : o.write = Text.stack o.pieces := by
  cases o with
  | node text children =>
    rw [write, pieces]
    cases children <;> rfl

theorem writeAll_eq_stack (outlines : List Outline) :
    writeAll outlines = Text.stack (outlines.flatMap pieces) := by
  have given : ∀ texts ∈ outlines.map pieces, texts ≠ [] := by
    intro texts member
    obtain ⟨o, -, rfl⟩ := List.mem_map.mp member
    cases o
    exact List.cons_ne_nil _ _
  rw [List.flatMap_def, ← Text.stack_map_stack given, List.map_map, writeAll, writeEach_eq_map]
  exact congrArg Text.stack (List.map_congr_left fun o _ => write_eq_stack o)

/-- Where the first outline has a text of its own, something is written. -/
theorem writeAll_eq_empty_iff {outlines : List Outline}
    (given : ∀ o, outlines.head? = some o → o.text ≠ "") :
    writeAll outlines = "" ↔ outlines = [] := by
  cases outlines with
  | nil => exact iff_of_true rfl rfl
  | cons o rest =>
    obtain ⟨text, children⟩ := o
    refine iff_of_false ?_ (List.cons_ne_nil _ _)
    rw [writeAll_eq_stack]
    exact Text.stack_cons_ne_empty (given _ rfl) _

end Outline

open Outline (writeAll)

namespace Expansion

/-- A line, unless there is nothing to show. -/
def lineText (name : String) (shown : Option String) : Option String :=
  match shown with
  | none => none
  | some text => if text.isEmpty then none else some (name ++ ": " ++ text)

/-- The name of an entity with its block below, unless that is empty. -/
def nestedText (name block : String) : String :=
  if block.isEmpty then name else name ++ "\n" ++ Text.indent Text.levelWidth block

/-- What an attribute of entity `i` adds as a text. The blocks of the entities that it expands are
made by `inner`. -/
def attributeText (g : Graph n) (scope : Scope) (path : Path)
    (inner : Fresh g path → Except Failure String) (i : Fin n) (name : String)
    (value : AttributeValue (Fin n)) : Except Failure (Option String) :=
  match value with
  | .ref target =>
    if scope.hides (g.type target) then .ok none
    else match fresh? g path target with
      | none => .ok none
      | some found =>
        if scope.expands path then do
          return lineText name (some (nestedText (g.name target) (← inner found)))
        else .ok (lineText name (g.display i name value))
  | .entities items =>
    if items.isEmpty then .ok none
    else if scope.expands path then do
      let blocks ← (items.filterMap (fresh? g path)).mapM fun found => do
        return nestedText (g.name found) (← inner found)
      return if blocks.isEmpty then none
        else some (name ++ ":\n" ++ Text.indent Text.levelWidth (Text.stack blocks))
    else .ok (lineText name (g.display i name value))
  | _ => .ok (lineText name (g.display i name value))

/-- The block of entity `i` at the end of a path as a text. -/
def blockText (g : Graph n) (scope : Scope) (path : Path) (i : Fin n) : Except Failure String := do
  let shown ← (g.entity i).described.mapM fun entry => do
    let value ← entry.2.read (g.name i) entry.1
    attributeText g scope path (fun found => blockText g scope (path.insert (g.name i)) found)
      i entry.1 value
  return Text.stack (shown.filterMap id)
termination_by measure g path i
decreasing_by exact measure_lt i found

/-- A listed entity as a text. -/
def entityText (g : Graph n) (scope : Scope) (i : Fin n) : Except Failure String := do
  return nestedText (g.name i) (← blockText g scope (Path.empty.insert (g.name i)) i)

variable {g : Graph n} {scope : Scope} {path : Path} {i : Fin n} {made : List Outline}

theorem text_ne_empty_of_block (done : block g scope path i = .ok made) :
    ∀ o ∈ made, o.text ≠ "" := by
  obtain ⟨shown, rfl, added⟩ := contributions_of_block done
  intro o member
  obtain ⟨⟨name, held⟩, describes, some⟩ := List.mem_filterMap.mp member
  have contributed := added _ describes
  rw [some] at contributed
  cases held with
  | value value =>
    cases contributes_of_ok describes contributed <;> simp [Outline.text, Outline.leaf]
  | malformed | unreadable => contradiction

/-- A block is empty as a text only if it is empty. -/
theorem writeAll_eq_empty_iff_of_block (done : block g scope path i = .ok made) :
    writeAll made = "" ↔ made = [] :=
  Outline.writeAll_eq_empty_iff fun o first =>
    text_ne_empty_of_block done o (List.mem_of_head? first)

theorem nestedText_of_nil (name : String) : nestedText name (writeAll []) = name :=
  rfl

theorem nestedText_of_ne_nil (name : String) (empty : writeAll made = "" ↔ made = [])
    (some : made ≠ []) : nestedText name (writeAll made) =
      name ++ "\n" ++ Text.indent Text.levelWidth (writeAll made) := by
  rw [nestedText, if_neg (mt String.isEmpty_iff.mp (mt empty.mp some))]

theorem write_node_of_ne_nil (text : String) (some : made ≠ []) :
    (Outline.node text made).write =
      text ++ "\n" ++ Text.indent Text.levelWidth (writeAll made) := by
  rw [Outline.write_eq_stack, Outline.pieces, if_neg (by simpa using some)]
  rfl

theorem nestedText_eq (name : String) (empty : writeAll made = "" ↔ made = []) :
    nestedText name (writeAll made) = (Outline.node name made).write := by
  by_cases none : made = []
  · rw [none]
    rfl
  · rw [nestedText_of_ne_nil name empty none, write_node_of_ne_nil name none]

theorem lineText_eq (name : String) (shown : Option String) :
    lineText name shown = (line name shown).map Outline.write := by
  cases shown with
  | none => rfl
  | some text =>
    rw [lineText, line]
    split <;> rfl

/-- An expanded reference is a line that has the block of its target in it. -/
theorem lineText_nestedText (name target : String) (empty : writeAll made = "" ↔ made = []) :
    lineText name (some (nestedText target (writeAll made))) =
      (reference name target made).map Outline.write := by
  by_cases none : made = []
  · rw [none, nestedText_of_nil, lineText, reference]
    by_cases unnamed : target = ""
    · simp [unnamed]
    · simp [unnamed, Outline.write]
  · rw [nestedText_of_ne_nil target empty none, lineText, reference, if_neg (by simp),
      if_neg (by simp [none]), Option.map_some, write_node_of_ne_nil _ none]
    simp only [String.append_assoc]

theorem collection_write (name : String) (outlines : List Outline) :
    (collection name outlines).map Outline.write =
      if outlines.isEmpty then none
      else some (name ++ ":\n" ++ Text.indent Text.levelWidth (writeAll outlines)) := by
  have title : name ++ ":" ++ "\n" = name ++ ":\n" := by
    rw [String.append_assoc]
    rfl
  rw [collection]
  split
  · rfl
  · rename_i some
    rw [Option.map_some, write_node_of_ne_nil _ (by simpa using some), title]

/-- An attribute adds the same as a text, if the blocks within it are the same. -/
theorem attributeText_eq {inner : Fresh g path → Except Failure String}
    {block : Fresh g path → Except Failure (List Outline)} {name : String}
    {value : AttributeValue (Fin n)}
    (same : ∀ found ∈ expanded g scope path value, inner found = (block found).map writeAll)
    (empty : ∀ found made, block found = .ok made → (writeAll made = "" ↔ made = [])) :
    attributeText g scope path inner i name value =
      (attributeOutline g scope path block i name value).map (Option.map Outline.write) := by
  cases value with
  | scalar | scalars | null => exact congrArg Except.ok (lineText_eq name _)
  | ref target =>
    simp only [attributeText, attributeOutline]
    split
    · rfl
    · rename_i kept
      cases free : fresh? g path target with
      | none => rfl
      | some found =>
        by_cases expands : scope.expands path = true
        · have member : found ∈ expanded g scope path (.ref target) := by
            rw [expanded, if_neg (by simp [kept, expands]), List.filterMap_cons_some free]
            exact List.mem_cons_self
          simp only [if_pos expands, same found member]
          cases within : block found with
          | error failure => rfl
          | ok made => exact congrArg Except.ok (lineText_nestedText name _ (empty found made within))
        · simp only [if_neg expands]
          exact congrArg Except.ok (lineText_eq name _)
  | entities items =>
    simp only [attributeText, attributeOutline]
    split
    · rfl
    · by_cases expands : scope.expands path = true
      · have elements : (items.filterMap (fresh? g path)).mapM (fun found => do
              return nestedText (g.name found) (← inner found)) =
            ((items.filterMap (fresh? g path)).mapM fun found => do
              return Outline.node (g.name found) (← block found)).map (List.map Outline.write) := by
          rw [← mapM_map_eq]
          refine mapM_congr fun found member => ?_
          rw [same found (by rwa [expanded, if_pos expands])]
          cases within : block found with
          | error failure => rfl
          | ok made => exact congrArg Except.ok (nestedText_eq _ (empty found made within))
        simp only [if_pos expands, elements]
        cases (items.filterMap (fresh? g path)).mapM fun found => do
            return Outline.node (g.name found) (← block found) with
        | error failure => rfl
        | ok outlines =>
          refine congrArg Except.ok ?_
          rw [collection_write, List.isEmpty_map, writeAll, Outline.writeEach_eq_map]
      · simp only [if_neg expands]
        exact congrArg Except.ok (lineText_eq name _)

/-- The block that is put together as a text is the outline, written. -/
theorem blockText_eq : blockText g scope path i = (block g scope path i).map writeAll := by
  induction path, i using nesting_induction g scope with
  | step path i ih =>
    have each : ∀ entry ∈ (g.entity i).described, (do
        let value ← entry.2.read (g.name i) entry.1
        attributeText g scope path (fun found => blockText g scope (path.insert (g.name i)) found)
          i entry.1 value) =
        (contribution g scope path i entry).map (Option.map Outline.write) := by
      rintro ⟨name, held⟩ member
      cases held with
      | value value =>
        refine attributeText_eq (fun found expanded => ?_) fun found made done =>
          writeAll_eq_empty_iff_of_block done
        exact ih found (nests_iff.mpr ⟨name, value, found, member, expanded, rfl⟩)
      | malformed | unreadable => rfl
    rw [blockText, mapM_congr each, mapM_map_eq, block_eq_contributions]
    cases (g.entity i).described.mapM (contribution g scope path i) with
    | error failure => rfl
    | ok shown =>
      refine congrArg Except.ok ?_
      rw [writeAll, Outline.writeEach_eq_map, List.filterMap_map, List.map_filterMap]
      rfl

theorem entityText_eq (g : Graph n) (scope : Scope) (i : Fin n) :
    entityText g scope i = (entityOutline g scope i).map Outline.write := by
  rw [entityText, blockText_eq, entityOutline]
  cases done : block g scope (Path.empty.insert (g.name i)) i with
  | error failure => rfl
  | ok made => exact congrArg Except.ok (nestedText_eq _ (writeAll_eq_empty_iff_of_block done))

end Expansion

namespace Report

/-- A type with the given entities below as a text, or nothing if there are none. -/
def listingText (g : Graph n) (scope : Scope) (type : TypeTag) (list : List (Fin n)) :
    Except Failure (Option String) :=
  if list.isEmpty then .ok none
  else do
    let blocks ← (g.sort list).mapM (Expansion.entityText g scope)
    return some (type.fullName ++ ":\n" ++ Text.indent Text.levelWidth (Text.stack blocks))

/-- The listings of the entities that a group owns as a text. -/
def listingsText (s : Snapshot n) (scope : Scope) (group : Option GroupKey) :
    Except Failure String := do
  let found ← (listedTypes s).mapM fun type => do
    let list ← s.entitiesOf type
    listingText s.graph scope type (list.filter fun i => GroupKey.same (s.graph.entity i).group group)
  return "\n\n".intercalate (found.filterMap id)

/-- What a report shows of a group, put below its title unless that is all. -/
def groupPieces (s : Snapshot n) (scope : Scope) (key : GroupKey) :
    Except Failure (List String) := do
  let shown ← listingsText s scope (some key)
  return "" :: groupTitle s.twoLevel key ::
    if shown.isEmpty then [] else [Text.indent Text.levelWidth shown]

def headerPieces (s : Snapshot n) : List String :=
  let types := (TypeTag.sort s.types).map TypeTag.fullName
  ["Database snapshot for " ++ s.source.url, divider, "Database type: " ++ s.source.productName,
    "Database version: " ++ s.source.productVersion, "Database user: " ++ s.source.user,
    "Included types:"] ++
    if types.isEmpty then [] else [Text.indent Text.levelWidth (Text.stack types)]

/-- The whole report, put together as a text. -/
def stacked (s : Snapshot n) (depth : Number) : Except Failure String := do
  let keys ← s.reportedGroups
  let groups ← (GroupKey.sort s.twoLevel keys).mapM (groupPieces s (scope s depth))
  return Text.normalizeNewlines (Text.stack (headerPieces s ++ groups.flatten) ++ "\n")

theorem listingText_eq (g : Graph n) (scope : Scope) (type : TypeTag) (list : List (Fin n)) :
    listingText g scope type list = (listing g scope type list).map (Option.map Outline.write) := by
  have blocks : (g.sort list).mapM (Expansion.entityText g scope) =
      ((g.sort list).mapM (Expansion.entityOutline g scope)).map (List.map Outline.write) := by
    rw [← mapM_map_eq]
    exact mapM_congr fun i _ => Expansion.entityText_eq g scope i
  rw [listingText, listing]
  split
  · rfl
  · rename_i some
    rw [blocks]
    cases made : (g.sort list).mapM (Expansion.entityOutline g scope) with
    | error failure => rfl
    | ok outlines =>
      have given := (isEmpty_of_mapM_sort made).trans (Bool.eq_false_iff.mpr some)
      have written := Expansion.collection_write type.fullName outlines
      rw [Expansion.collection, given, writeAll, Outline.writeEach_eq_map] at written
      exact congrArg Except.ok written.symm

theorem writeAll_cons_cons (o next : Outline) (rest : List Outline) :
    writeAll (o :: next :: rest) = o.write ++ "\n" ++ writeAll (next :: rest) :=
  String.intercalate_cons_cons

theorem writeAll_spaced (listings : List Outline) :
    writeAll (spaced listings) = "\n\n".intercalate (listings.map Outline.write) := by
  induction listings with
  | nil => rfl
  | cons listing rest ih =>
    cases rest with
    | nil => rfl
    | cons next rest =>
      rw [List.map_cons, List.map_cons, String.intercalate_cons_cons, ← List.map_cons, ← ih]
      obtain ⟨others, same⟩ : ∃ others, spaced (next :: rest) = next :: others := by
        cases rest <;> exact ⟨_, rfl⟩
      have gaps : spaced (listing :: next :: rest) = listing :: .gap :: next :: others := by
        rw [← same]
        rfl
      have between : listing.write ++ "\n" ++ (Outline.gap.write ++ "\n") =
          listing.write ++ "\n\n" := by
        rw [String.append_assoc]
        rfl
      rw [gaps, same, writeAll_cons_cons, writeAll_cons_cons, ← String.append_assoc, between]

theorem listingsText_eq (s : Snapshot n) (scope : Scope) (group : Option GroupKey) :
    listingsText s scope group =
      (listings s scope group).map fun found => writeAll (spaced found) := by
  have each (type : TypeTag) : (do
        let list ← s.entitiesOf type
        listingText s.graph scope type
          (list.filter fun i => GroupKey.same (s.graph.entity i).group group)) =
      (do
        let list ← s.entitiesOf type
        listing s.graph scope type
          (list.filter fun i => GroupKey.same (s.graph.entity i).group group)).map
            (Option.map Outline.write) := by
    cases s.entitiesOf type with
    | error failure => rfl
    | ok list => exact listingText_eq _ _ _ _
  rw [listingsText, listings, mapM_congr fun type _ => each type, mapM_map_eq]
  cases (listedTypes s).mapM fun type => do
      let list ← s.entitiesOf type
      listing s.graph scope type
        (list.filter fun i => GroupKey.same (s.graph.entity i).group group) with
  | error failure => rfl
  | ok found =>
    refine congrArg Except.ok ?_
    dsimp only
    rw [writeAll_spaced, List.map_filterMap, List.filterMap_map]
    rfl

theorem text_ne_empty_of_listings {s : Snapshot n} {scope : Scope} {key : GroupKey}
    {found : List Outline} (done : listings s scope (some key) = .ok found) :
    ∀ o ∈ found, o.text ≠ "" := by
  rw [listings_eq] at done
  obtain ⟨made, steps, done⟩ := exists_of_bind_eq_ok done
  rw [← Except.ok.inj done]
  intro o member
  obtain ⟨shown, listed, rfl⟩ := List.mem_filterMap.mp member
  obtain ⟨type, -, listing⟩ := exists_of_mem_mapM steps listed
  obtain ⟨list, -, listing⟩ := exists_of_bind_eq_ok listing
  obtain ⟨blocks, -, listing⟩ := exists_of_bind_eq_ok listing
  have shown := Except.ok.inj listing
  rw [titled] at shown
  split at shown
  · contradiction
  · rw [← Option.some.inj shown]
    simp [Outline.text]

theorem groupPieces_eq (s : Snapshot n) (scope : Scope) (key : GroupKey) :
    groupPieces s scope key =
      (groupOutline s scope key).map fun group => "" :: group.pieces := by
  rw [groupPieces, groupOutline, listingsText_eq]
  cases done : listings s scope (some key) with
  | error failure => rfl
  | ok found =>
    have empty : writeAll (spaced found) = "" ↔ spaced found = [] := by
      refine Outline.writeAll_eq_empty_iff fun o first => ?_
      cases found with
      | nil => contradiction
      | cons listing rest =>
        have same : (spaced (listing :: rest)).head? = some listing := by cases rest <;> rfl
        obtain rfl := Option.some.inj (same.symm.trans first)
        exact text_ne_empty_of_listings done _ List.mem_cons_self
    refine congrArg Except.ok ?_
    dsimp only
    rw [Outline.pieces]
    simp only [String.isEmpty_iff, List.isEmpty_iff, empty]

theorem headerPieces_eq (s : Snapshot n) : headerPieces s = (header s).flatMap Outline.pieces := by
  have types : writeAll ((TypeTag.sort s.types).map fun type => .leaf type.fullName) =
      Text.stack ((TypeTag.sort s.types).map TypeTag.fullName) := by
    rw [writeAll, Outline.writeEach_eq_map, List.map_map]
    rfl
  simp only [header, List.flatMap_cons, List.flatMap_nil, Outline.pieces, Outline.leaf] at types ⊢
  simp [headerPieces, types]

/-- The report that is put together as a text is the outline, written. -/
theorem stacked_eq_text (s : Snapshot n) (depth : Number) : stacked s depth = text s depth := by
  rw [stacked, text, outlines]
  cases s.reportedGroups with
  | error failure => rfl
  | ok keys =>
    simp only [bind, Except.bind, pure, Except.pure]
    rw [mapM_congr fun key _ => groupPieces_eq s (scope s depth) key, mapM_map_eq]
    cases (GroupKey.sort s.twoLevel keys).mapM (groupOutline s (scope s depth)) with
    | error failure => rfl
    | ok groups =>
      have pieces : headerPieces s ++ (groups.map fun group => "" :: group.pieces).flatten =
          (header s ++ groups.flatMap fun group => [.gap, group]).flatMap Outline.pieces := by
        rw [List.flatMap_append, ← headerPieces_eq, List.flatMap_assoc, List.flatMap_def]
        simp [Outline.gap, Outline.leaf, Outline.pieces]
      simp only [Except.map]
      rw [pieces, ← Outline.writeAll_eq_stack]

end Report

end SnapshotReport
