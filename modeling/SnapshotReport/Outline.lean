import SnapshotReport.Text.Lines

/-! Outlines: texts with what belongs to them one level deeper. An outline is written as its text
with its children below, indented by one level as a whole; so a text of several lines moves as one,
and the lines of a child are indented once for each level that it lies deeper. -/
namespace SnapshotReport

inductive Outline where
  | node (text : String) (children : List Outline)
deriving Repr

namespace Outline

def leaf (text : String) : Outline := .node text []

/-- An empty line between others. -/
def gap : Outline := leaf ""

mutual

def write : Outline → String
  | node text children =>
    if children.isEmpty then text
    else Text.stack [text, Text.indent Text.levelWidth (Text.stack (writeEach children))]

def writeEach : List Outline → List String
  | [] => []
  | o :: rest => o.write :: writeEach rest

end

/-- Outlines one below the other. -/
def writeAll (outlines : List Outline) : String :=
  Text.stack (writeEach outlines)

mutual

/-- The texts of an outline from top to bottom, each with its level. -/
def levels (level : Nat) : Outline → List (Nat × String)
  | node text children => (level, text) :: levelsOf (level + 1) children

def levelsOf (level : Nat) : List Outline → List (Nat × String)
  | [] => []
  | o :: rest => o.levels level ++ levelsOf level rest

end

theorem writeEach_eq_map (outlines : List Outline) : writeEach outlines = outlines.map write := by
  induction outlines with
  | nil => rfl
  | cons o rest ih => rw [writeEach, ih, List.map_cons]

theorem levelsOf_eq_flatMap (level : Nat) (outlines : List Outline) :
    levelsOf level outlines = outlines.flatMap (levels level) := by
  induction outlines with
  | nil => rfl
  | cons o rest ih => rw [levelsOf, ih, List.flatMap_cons]

/-- Each text indented on its own, by its level. -/
def writeLevels (texts : List (Nat × String)) : String :=
  Text.stack (texts.map fun (level, text) => Text.indent (level * Text.levelWidth) text)

end Outline

end SnapshotReport
