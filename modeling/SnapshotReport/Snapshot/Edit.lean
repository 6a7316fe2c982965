import SnapshotReport.Snapshot

/-! A snapshot that grows. An entity may be there without being listed; listed, it stands at the end
of its bucket. -/
namespace SnapshotReport.Snapshot

variable {n : Nat}

/-- One entity more, which no bucket lists. -/
def addEntity (s : Snapshot n) (e : Entity (Fin (n + 1))) : Snapshot (n + 1) :=
  { s with graph := s.graph.push e, buckets := s.buckets.map (·.map Fin.castSucc) }

def list (s : Snapshot n) (i : Fin n) (typeName : String) : Snapshot n :=
  { s with buckets := s.buckets.append typeName i }

end SnapshotReport.Snapshot
