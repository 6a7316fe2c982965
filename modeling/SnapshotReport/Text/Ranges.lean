/-! Sets of characters given by closed ranges of code points. -/
namespace SnapshotReport.Text

def inRanges (ranges : List (Nat × Nat)) (c : Char) : Bool :=
  ranges.any fun (first, last) => first ≤ c.toNat && c.toNat ≤ last

end SnapshotReport.Text
