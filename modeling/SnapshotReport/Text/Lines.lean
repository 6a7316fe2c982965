/-! Texts as sequences of lines. A line feed separates two lines and ends none, so every text has
at least one line and the empty text has exactly one, which is empty. Indentation works on lines:
it moves what is there and leaves empty lines empty. -/
namespace SnapshotReport.Text

/-- The lines of a text, without the line feeds between them. -/
def lines (text : List Char) : List (List Char) :=
  text.splitOn '\n'

/-- Lines written one below the other. -/
def unlines (lines : List (List Char)) : List Char :=
  ['\n'].intercalate lines

/-- A line moved to the right; an empty one has nothing to move. -/
def padLine (width : Nat) (line : List Char) : List Char :=
  if line.isEmpty then line else List.replicate width ' ' ++ line

def indentChars (width : Nat) (text : List Char) : List Char :=
  unlines ((lines text).map (padLine width))

/-- Moves every non-empty line of a text, the first one included, `width` columns to the right. -/
def indent (width : Nat) (text : String) : String :=
  String.ofList (indentChars width text.toList)

/-- Texts written one below the other. -/
def stack (texts : List String) : String :=
  "\n".intercalate texts

/-- One level of an outline is four columns wide. -/
def levelWidth : Nat := 4

theorem lines_ne_nil (text : List Char) : lines text ≠ [] :=
  List.splitOn_ne_nil '\n' text

/-- No line holds a line feed. -/
theorem not_mem_of_mem_lines {text line : List Char} (h : line ∈ lines text) : '\n' ∉ line := by
  induction text generalizing line with
  | nil => simp_all [lines]
  | cons c rest ih =>
    rw [lines, List.splitOn_cons_eq_if_modifyHead] at h
    split at h
    · rcases List.mem_cons.mp h with rfl | h
      · exact List.not_mem_nil
      · exact ih h
    · rename_i other
      cases split : rest.splitOn '\n' with
      | nil => exact absurd split (lines_ne_nil rest)
      | cons first others =>
        rw [split, List.modifyHead_cons, List.mem_cons] at h
        rcases h with rfl | h
        · intro mem
          rcases List.mem_cons.mp mem with rfl | mem
          · exact other (beq_self_eq_true _)
          · exact ih (by rw [lines, split]; exact List.mem_cons_self) mem
        · exact ih (by rw [lines, split]; exact List.mem_cons_of_mem _ h)

@[simp]
theorem unlines_lines (text : List Char) : unlines (lines text) = text :=
  List.intercalate_splitOn '\n'

theorem lines_unlines {ls : List (List Char)} (h : ∀ line ∈ ls, '\n' ∉ line) (ne : ls ≠ []) :
    lines (unlines ls) = ls :=
  List.splitOn_intercalate '\n' h ne

theorem lines_append (a b : List Char) : lines (a ++ '\n' :: b) = lines a ++ lines b :=
  List.splitOn_append_cons_self a b

theorem not_mem_padLine {width : Nat} {line : List Char} (h : '\n' ∉ line) :
    '\n' ∉ padLine width line := by
  unfold padLine
  split
  · exact h
  · simp [h]

/-- The lines of an indented text are the lines of the text, moved. -/
theorem lines_indentChars (width : Nat) (text : List Char) :
    lines (indentChars width text) = (lines text).map (padLine width) := by
  refine lines_unlines (fun line h => ?_) (by simpa using lines_ne_nil text)
  obtain ⟨old, mem, rfl⟩ := List.mem_map.mp h
  exact not_mem_padLine (not_mem_of_mem_lines mem)

@[simp]
theorem toList_indent (width : Nat) (text : String) :
    (indent width text).toList = indentChars width text.toList := by
  simp [indent]

@[simp]
theorem toList_stack (texts : List String) :
    (stack texts).toList = unlines (texts.map String.toList) := by
  simp [stack, unlines]

@[simp]
theorem padLine_nil (width : Nat) : padLine width [] = [] := rfl

@[simp]
theorem padLine_cons (width : Nat) (c : Char) (rest : List Char) :
    padLine width (c :: rest) = List.replicate width ' ' ++ c :: rest := rfl

end SnapshotReport.Text
