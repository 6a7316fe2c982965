import SnapshotReport.Text.Ranges

/-! White space and line ends around a name. The set is that of the spaces and line separators of
Unicode, with the tabulators, the feeds, and the mark that may open a file. -/
namespace SnapshotReport.Text

def blankRanges : List (Nat × Nat) :=
  [(0x09, 0x0D), (0x20, 0x20), (0xA0, 0xA0), (0x1680, 0x1680), (0x2000, 0x200A), (0x2028, 0x2029),
   (0x202F, 0x202F), (0x205F, 0x205F), (0x3000, 0x3000), (0xFEFF, 0xFEFF)]

def isBlank (c : Char) : Bool :=
  inRanges blankRanges c

def trimChars (text : List Char) : List Char :=
  ((text.dropWhile isBlank).reverse.dropWhile isBlank).reverse

/-- A text without the blank characters at either end. -/
def trim (text : String) : String :=
  String.ofList (trimChars text.toList)

/-- Whether nothing is left of a text when it is trimmed. -/
def allBlank (text : String) : Bool :=
  text.toList.all isBlank

end SnapshotReport.Text
