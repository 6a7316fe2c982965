/-! Line ends of captured text. A captured string may end its lines with a line feed, with a
carriage return, or with both; in a report every line ends with a line feed alone. -/
namespace SnapshotReport.Text

/-- A carriage return before a line feed is dropped. All others stay. -/
def mergePairs : List Char → List Char
  | '\r' :: '\n' :: rest => '\n' :: mergePairs rest
  | c :: rest => c :: mergePairs rest
  | [] => []

/-- Each carriage return becomes a line feed. -/
def replaceReturns (text : List Char) : List Char :=
  text.map fun c => if c = '\r' then '\n' else c

def normalizeChars (text : List Char) : List Char :=
  replaceReturns (mergePairs text)

/-- All three kinds of line end become a line feed: first the pairs, then what is left of
carriage returns. -/
def normalizeNewlines (text : String) : String :=
  String.ofList (normalizeChars text.toList)

@[simp]
theorem toList_normalizeNewlines (text : String) :
    (normalizeNewlines text).toList = normalizeChars text.toList := by
  simp [normalizeNewlines]

end SnapshotReport.Text
