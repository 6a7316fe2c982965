import SnapshotReport.Outline
import SnapshotReport.Text.Newline

/-! Where the texts of an outline stand. A block is indented as a whole each time it is put below
another text, and line ends are made the same in the whole document at the end. Both work line by
line, so a document is told by the texts of its outlines with their levels: the lines of each text
moved by its level, one text below the other, each line ended. -/
namespace SnapshotReport

namespace Text

@[simp]
theorem padLine_zero (line : List Char) : padLine 0 line = line := by
  cases line <;> rfl

theorem padLine_padLine (outer inner : Nat) (line : List Char) :
    padLine outer (padLine inner line) = padLine (outer + inner) line := by
  cases line with
  | nil => rfl
  | cons c rest =>
    cases inner with
    | zero => rw [padLine_zero, Nat.add_zero]
    | succ inner =>
      rw [padLine_cons, padLine_cons, List.replicate_succ, List.cons_append, padLine_cons,
        ← List.cons_append, ← List.replicate_succ, ← List.append_assoc,
        List.replicate_append_replicate]

theorem lines_inj {a b : List Char} : lines a = lines b ↔ a = b := by
  constructor
  · intro same
    have text := congrArg unlines same
    rwa [unlines_lines, unlines_lines] at text
  · exact congrArg lines

theorem unlines_cons_cons (text next : List Char) (rest : List (List Char)) :
    unlines (text :: next :: rest) = text ++ '\n' :: unlines (next :: rest) := by
  simp [unlines]

/-- Texts one below the other have the lines of each of them. -/
theorem lines_unlines_of_ne_nil {texts : List (List Char)} (some : texts ≠ []) :
    lines (unlines texts) = texts.flatMap lines := by
  induction texts with
  | nil => contradiction
  | cons text rest ih =>
    cases rest with
    | nil => simp [unlines]
    | cons next rest =>
      rw [unlines_cons_cons, lines_append, ih (List.cons_ne_nil next rest), ← List.flatMap_cons]

theorem mergePairs_cons (c : Char) (rest : List Char) :
    mergePairs (c :: rest) =
      if c = '\r' ∧ rest.head? = some '\n' then mergePairs rest else c :: mergePairs rest := by
  cases rest with
  | nil => simp [mergePairs]
  | cons d rest =>
    by_cases pair : c = '\r' ∧ d = '\n'
    · obtain ⟨rfl, rfl⟩ := pair
      simp [mergePairs]
    · rw [mergePairs]
      · simp [pair]
      · rintro _ rfl same
        exact pair ⟨rfl, (List.cons.inj same).1⟩

/-- A text is normalized in two parts if no pair of line ends is torn apart. -/
theorem normalizeChars_append {front back : List Char}
    (apart : front.getLast? ≠ some '\r' ∨ back.head? ≠ some '\n') :
    normalizeChars (front ++ back) = normalizeChars front ++ normalizeChars back := by
  have merged : mergePairs (front ++ back) = mergePairs front ++ mergePairs back := by
    induction front with
    | nil => simp [mergePairs]
    | cons c rest ih =>
      cases rest with
      | nil =>
        have single : ¬(c = '\r' ∧ back.head? = some '\n') := by
          rintro ⟨rfl, start⟩
          exact apart.elim (fun last => last rfl) fun head => head start
        rw [List.singleton_append, mergePairs_cons, if_neg single]
        simp [mergePairs_cons, mergePairs]
      | cons d rest =>
        have tail := ih (by simpa [List.getLast?_cons_cons] using apart)
        rw [List.cons_append, mergePairs_cons, mergePairs_cons c (d :: rest), tail]
        by_cases pair : c = '\r' ∧ d = '\n' <;> simp [pair]
  rw [normalizeChars, merged, replaceReturns, List.map_append]
  rfl

theorem normalizeChars_append_newline (text rest : List Char) :
    normalizeChars (text ++ '\n' :: rest) =
      normalizeChars (text ++ ['\n']) ++ normalizeChars rest := by
  rw [← normalizeChars_append (.inl (by simp)), List.append_assoc]
  rfl

/-- A line with its end, as it stands in a document. If it has carriage returns in it, it stands
there as several lines. -/
def endLine (line : List Char) : List Char :=
  normalizeChars (line ++ ['\n'])

theorem endLine_eq_append_newline (line : List Char) : ∃ text, endLine line = text ++ ['\n'] := by
  have kept : ∃ text, mergePairs (line ++ ['\n']) = text ++ ['\n'] := by
    induction line with
    | nil => exact ⟨[], by simp [mergePairs_cons, mergePairs]⟩
    | cons c rest ih =>
      obtain ⟨text, same⟩ := ih
      rw [List.cons_append, mergePairs_cons, same]
      split
      · exact ⟨text, rfl⟩
      · exact ⟨c :: text, rfl⟩
  obtain ⟨text, same⟩ := kept
  exact ⟨replaceReturns text, by rw [endLine, normalizeChars, same]; simp [replaceReturns]⟩

/-- The lines as which a line stands in a document. -/
def brokenLine (line : List Char) : List (List Char) :=
  lines (endLine line).dropLast

theorem brokenLine_ne_nil (line : List Char) : brokenLine line ≠ [] :=
  lines_ne_nil _

/-- The last line of a document is ended too, so an empty one is behind it. -/
theorem lines_flatMap_endLine (ls : List (List Char)) :
    lines (ls.flatMap endLine) = ls.flatMap brokenLine ++ [[]] := by
  induction ls with
  | nil => rfl
  | cons line rest ih =>
    obtain ⟨text, ended⟩ := endLine_eq_append_newline line
    rw [List.flatMap_cons, List.flatMap_cons, brokenLine, ended, List.dropLast_concat,
      List.append_assoc, List.singleton_append, lines_append, ih, List.append_assoc]

theorem normalizeChars_unlines {ls : List (List Char)} (some : ls ≠ []) :
    normalizeChars (unlines ls ++ ['\n']) = ls.flatMap endLine := by
  induction ls with
  | nil => contradiction
  | cons line rest ih =>
    cases rest with
    | nil => simp [unlines, endLine]
    | cons next rest =>
      rw [unlines_cons_cons, List.append_assoc, List.cons_append, normalizeChars_append_newline,
        ih (List.cons_ne_nil next rest)]
      rfl

end Text

namespace Outline

/-- The lines of a text at a level. -/
def placedLines (placed : Nat × String) : List (List Char) :=
  (Text.lines placed.2.toList).map (Text.padLine (placed.1 * Text.levelWidth))

/-- An indented block below a text, moved to a level. -/
theorem map_padLine_indentChars (level : Nat) (texts : List String) (some : texts ≠ []) :
    (Text.lines (Text.indent Text.levelWidth (Text.stack texts)).toList).map
        (Text.padLine (level * Text.levelWidth)) =
      texts.flatMap fun text =>
        (Text.lines text.toList).map (Text.padLine ((level + 1) * Text.levelWidth)) := by
  have given : texts.map String.toList ≠ [] := by simpa using some
  have moved : Text.padLine (level * Text.levelWidth) ∘ Text.padLine Text.levelWidth =
      Text.padLine ((level + 1) * Text.levelWidth) := by
    funext line
    rw [Function.comp_apply, Text.padLine_padLine, Nat.succ_mul]
  rw [Text.toList_indent, Text.lines_indentChars, Text.toList_stack,
    Text.lines_unlines_of_ne_nil given, List.map_map, moved, List.map_flatMap, List.flatMap_map]

mutual

/-- An outline at a level takes up the lines of its texts, each at its own level. -/
theorem lines_write (level : Nat) : (o : Outline) →
    (Text.lines o.write.toList).map (Text.padLine (level * Text.levelWidth)) =
      (o.levels level).flatMap placedLines
  | .node text [] => by
    simp [write, levels, levelsOf, placedLines]
  | .node text (child :: rest) => by
    have below := lines_writeEach (level + 1) (child :: rest)
    rw [← map_padLine_indentChars level _ (by simp [writeEach])] at below
    have split : (Outline.node text (child :: rest)).write = Text.stack
        [text, Text.indent Text.levelWidth (Text.stack (writeEach (child :: rest)))] := by
      rw [write]
      rfl
    rw [split, Text.toList_stack, Text.lines_unlines_of_ne_nil (by simp), levels, List.flatMap_cons,
      ← below]
    simp [placedLines]

theorem lines_writeEach (level : Nat) : (outlines : List Outline) →
    (writeEach outlines).flatMap (fun text =>
        (Text.lines text.toList).map (Text.padLine (level * Text.levelWidth))) =
      (levelsOf level outlines).flatMap placedLines
  | [] => rfl
  | o :: rest => by
    rw [writeEach, levelsOf, List.flatMap_cons, List.flatMap_append, lines_write level o,
      lines_writeEach level rest]

end

theorem map_padLine_zero (ls : List (List Char)) :
    ls.map (Text.padLine (0 * Text.levelWidth)) = ls := by
  rw [Nat.zero_mul, List.map_congr_left fun line _ => Text.padLine_zero line, List.map_id']

/-- An outline by itself has the lines of its texts, each at its level. -/
theorem lines_write_eq (o : Outline) :
    Text.lines o.write.toList = (o.levels 0).flatMap placedLines := by
  rw [← lines_write 0 o, map_padLine_zero]

/-- Outlines one below the other have the lines of the texts of each, each at its level. -/
theorem lines_writeAll {outlines : List Outline} (some : outlines ≠ []) :
    Text.lines (writeAll outlines).toList = (levelsOf 0 outlines).flatMap placedLines := by
  have given : (writeEach outlines).map String.toList ≠ [] := by
    simpa [writeEach_eq_map] using some
  rw [writeAll, Text.toList_stack, Text.lines_unlines_of_ne_nil given, List.flatMap_map,
    ← lines_writeEach 0 outlines]
  simp only [map_padLine_zero]

/-- A finished document, line by line. -/
theorem toList_normalized {outlines : List Outline} (some : outlines ≠ []) :
    (Text.normalizeNewlines (writeAll outlines ++ "\n")).toList =
      ((levelsOf 0 outlines).flatMap placedLines).flatMap Text.endLine := by
  rw [Text.toList_normalizeNewlines, String.toList_append, ← lines_writeAll some,
    ← Text.normalizeChars_unlines (Text.lines_ne_nil _), Text.unlines_lines]
  rfl

/-- The lines of texts at their levels, as they stand in a document. -/
def documentLines (texts : List (Nat × String)) : List (List Char) :=
  (texts.flatMap placedLines).flatMap Text.brokenLine

theorem documentLines_ne_nil {texts : List (Nat × String)} (some : texts ≠ []) :
    documentLines texts ≠ [] := by
  cases texts with
  | nil => contradiction
  | cons placed rest =>
    intro none
    rw [documentLines, List.flatMap_cons, List.flatMap_append, List.append_eq_nil_iff] at none
    cases lines : placedLines placed with
    | nil => exact Text.lines_ne_nil _ (List.map_eq_nil_iff.mp lines)
    | cons line others =>
      rw [lines, List.flatMap_cons, List.append_eq_nil_iff] at none
      exact Text.brokenLine_ne_nil line none.1.1

theorem lines_normalized {outlines : List Outline} (some : outlines ≠ []) :
    Text.lines (Text.normalizeNewlines (writeAll outlines ++ "\n")).toList =
      documentLines (levelsOf 0 outlines) ++ [[]] := by
  rw [toList_normalized some, Text.lines_flatMap_endLine, documentLines]

theorem eq_nil_of_levelsOf {level : Nat} {outlines : List Outline}
    (none : levelsOf level outlines = []) : outlines = [] := by
  cases outlines with
  | nil => rfl
  | cons o rest =>
    cases o
    simp [levelsOf, levels] at none

theorem levelsOf_append (level : Nat) (front back : List Outline) :
    levelsOf level (front ++ back) = levelsOf level front ++ levelsOf level back := by
  simp only [levelsOf_eq_flatMap, List.flatMap_append]

theorem mem_levels {placed : Nat × String} {level : Nat} {text : String}
    {children : List Outline} : placed ∈ levels level (.node text children) ↔
      placed = (level, text) ∨ placed ∈ levelsOf (level + 1) children := by
  rw [levels, List.mem_cons]

theorem mem_levelsOf {placed : Nat × String} {level : Nat} {outlines : List Outline} :
    placed ∈ levelsOf level outlines ↔ ∃ o ∈ outlines, placed ∈ o.levels level := by
  rw [levelsOf_eq_flatMap, List.mem_flatMap]

theorem mem_levelsOf_map {α : Type} {placed : Nat × String} {level : Nat} {f : α → Outline}
    {xs : List α} :
    placed ∈ levelsOf level (xs.map f) ↔ ∃ x ∈ xs, placed ∈ (f x).levels level := by
  rw [levelsOf_eq_flatMap, List.flatMap_map, List.mem_flatMap]

theorem levelsOf_filterMap {α : Type} (level : Nat) (f : α → Option Outline) (xs : List α) :
    levelsOf level (xs.filterMap f) = xs.flatMap fun x => levelsOf level (f x).toList := by
  induction xs with
  | nil => rfl
  | cons x rest ih =>
    rw [List.flatMap_cons, ← ih]
    cases shown : f x with
    | none =>
      rw [List.filterMap_cons_none shown]
      rfl
    | some o =>
      rw [List.filterMap_cons_some shown]
      simp [levelsOf]

end Outline

end SnapshotReport
