import SnapshotReport.Text.Ranges
import SnapshotReport.Text.LowerCase.Mapping
import SnapshotReport.Text.LowerCase.Context

/-! Lower case of whole texts. It is not a map on characters: a capital I with a dot becomes two
characters, and a capital sigma at the end of a word takes another form than elsewhere. -/
namespace SnapshotReport.Text.LowerCase

/-- The lower case of `c` if `run` has one for it. -/
def Run.lower? (run : Run) (c : Char) : Option Char :=
  let code := c.toNat
  if run.first ≤ code && code ≤ run.last && (code - run.first) % run.step == 0 then
    some (Char.ofNat (run.lower + (code - run.first)))
  else none

def ofChar (c : Char) : Char :=
  (mapping.findSome? (·.lower? c)).getD c

/-- Whether the first character that is not skipped is a letter with a case. -/
def startsCased (text : List Char) : Bool :=
  (text.dropWhile (inRanges ignorable)).head?.any (inRanges cased)

/-- The lower case of `c` between the characters `before`, the nearest first, and `after`. A sigma
ends a word if a letter stands before it and none after. -/
def inContext (before : List Char) (c : Char) (after : List Char) : List Char :=
  if c = 'Σ' then [if startsCased before && !startsCased after then 'ς' else 'σ']
  else if c = 'İ' then ['i', '\u0307']
  else [ofChar c]

def chars (before : List Char) : List Char → List Char
  | [] => []
  | c :: after => inContext before c after ++ chars (c :: before) after

end LowerCase

def lowerCase (text : String) : String :=
  String.ofList (LowerCase.chars [] text.toList)

end SnapshotReport.Text
