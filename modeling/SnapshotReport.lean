import SnapshotReport.Element
import SnapshotReport.Registry
import SnapshotReport.Snapshot.Edit
import SnapshotReport.Text.Width
import SnapshotReport.Proofs.Nesting
import SnapshotReport.Proofs.Nesting.Depth
import SnapshotReport.Proofs.Listing
import SnapshotReport.Proofs.Failures
import SnapshotReport.Proofs.Sorting
import SnapshotReport.Proofs.Simulation
import SnapshotReport.Proofs.Rearrangement
import SnapshotReport.Proofs.Entries
import SnapshotReport.Proofs.Deepening
import SnapshotReport.Proofs.Registration
import SnapshotReport.Proofs.Addition
import SnapshotReport.Proofs.LineEnds
import SnapshotReport.Proofs.Nesting.Contribution
import SnapshotReport.Proofs.Nesting.Position
import SnapshotReport.Proofs.Layout
import SnapshotReport.Proofs.LineFeeds
import SnapshotReport.Proofs.Respelling
import SnapshotReport.Proofs.Nesting.Elements
import SnapshotReport.Proofs.Matching
import SnapshotReport.Proofs.Bisimulation
import SnapshotReport.Proofs.Layout.Reading
import SnapshotReport.Proofs.Readback
import SnapshotReport.Proofs.Registration.Chronicle
import SnapshotReport.Proofs.Buckets
import SnapshotReport.Proofs.Nesting.Ancestors
import SnapshotReport.Proofs.Registration.Independence
import SnapshotReport.Proofs.Layout.OnePass
import SnapshotReport.Proofs.Layout.Laws
import SnapshotReport.Proofs.Layout.AsText
import SnapshotReport.Proofs.Nesting.Revision
import SnapshotReport.Proofs.Nesting.Saturation
import SnapshotReport.Proofs.Nesting.OwnTexts
import SnapshotReport.Proofs.Ordering.Entities
import SnapshotReport.Proofs.Ordering.Groups
import SnapshotReport.Proofs.Registration.BuiltIns
import SnapshotReport.Proofs.Sorting.Refusal
import SnapshotReport.Proofs.Ordering.Elements
import SnapshotReport.Proofs.Delivery
import SnapshotReport.Proofs.LowerCase
import SnapshotReport.Proofs.Registration.Extensions
